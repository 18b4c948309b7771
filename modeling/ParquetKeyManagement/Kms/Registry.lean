/-
  ParquetKeyManagement.Kms.Registry — the operations of the registry as sequences of moves,
  and the registry's invariant.

  Every operation takes only the moves of `Kms.Moves` and returns what its cache then holds
  (`getClient_along`, `getKekReadCache_along`, `getKekWriteCache_along`). An error of
  `getClient` is an error of the client factory, and a panic leaves one of the manager's
  mutexes poisoned.
  - `RegistryInv`: a cached client was created by a call of the client factory with the token
    and the instance id it is filed under, and a registered KEK cache was made for its
    manager and token.
-/

import ParquetKeyManagement.Kms.Moves

namespace ParquetKeyManagement

open Effect

variable (env : Env) {κ ν : Type}

/-! ## The operations of a cache -/

namespace ExpiringCache

section

variable [DecidableEq κ] {place : Place World (ExpiringCache κ ν)} {lifetime : Option Duration}
  {Fresh : κ → ν → World → Prop} {move : World → World → Prop}

/-- What a caller of the cache must know: the cache's writes and a use of the surroundings
    are moves, and neither changes what is fresh, nor a use of the surroundings the cache. -/
structure Moves (place : Place World (ExpiringCache κ ν)) (lifetime : Option Duration)
    (Fresh : κ → ν → World → Prop) (move : World → World → Prop) : Prop where
  write : ∀ a b, CacheWrite place lifetime Fresh a b → move a b
  tick : ∀ w n, move w (w.tick n)
  get_tick : ∀ w n, place.get (w.tick n) = place.get w
  fresh_tick : ∀ k v w n, Fresh k v w → Fresh k v (w.tick n)
  fresh_set : ∀ k v w c, Fresh k v w → Fresh k v (place.set c w)

variable (M : Moves place lifetime Fresh move)
include M

theorem Moves.entries_tick (w : World) (n : Nat) : (entries place).get (w.tick n) = (entries place).get w := by
  show ((place.get (w.tick n)).cache).data = _
  rw [M.get_tick]; rfl

theorem isValid_along (v : ExpiringCacheValue ν) (w : World) :
    Along move (v.isValid env) w
      (fun valid w' => w.clock ≤ w'.clock ∧ (entries place).get w' = (entries place).get w ∧
        (valid = false ↔ v.ExpiredAt w'.clock))
      (fun _ _ => False) (fun _ => False) := by
  unfold ExpiringCacheValue.isValid
  cases he : v.expirationTime with
  | none =>
    refine Along.pure ⟨le_refl _, rfl, ⟨fun h => ?_, fun h => ?_⟩⟩
    · cases h
    · obtain ⟨e, he', _⟩ := h
      rw [he] at he'
      cases he'
  | some e =>
    refine Along.of_ok rfl (.single (M.tick w _))
      ⟨Nat.le_add_right _ _, M.entries_tick w _, ⟨fun h => ⟨e, he, ?_⟩, fun h => ?_⟩⟩
    · exact not_lt.mp (of_decide_eq_false h)
    · obtain ⟨e', he', hle⟩ := h
      rw [he] at he'
      cases he'
      exact decide_eq_false (not_lt.mpr hle)

/-- The keys to remove are of entries that have expired by the last reading of the clock. -/
theorem toRemove_along (es : List (Sigma fun _ : κ => ExpiringCacheValue ν)) (w : World) :
    Along move (toRemove env es) w
      (fun ks w' => w.clock ≤ w'.clock ∧ (entries place).get w' = (entries place).get w ∧
        ∀ k ∈ ks, ∃ e ∈ es, e.1 = k ∧ e.2.ExpiredAt w'.clock)
      (fun _ _ => False) (fun _ => False) := by
  induction es generalizing w with
  | nil => exact Along.pure ⟨le_refl _, rfl, fun k hk => by cases hk⟩
  | cons e es ih =>
    unfold toRemove
    refine (isValid_along env M e.2 w).bind fun valid w1 _ h1 => (ih w1).bind fun rest w2 _ h2 => Along.pure ?_
    refine ⟨h1.1.trans h2.1, h2.2.1.trans h1.2.1, fun k hk => ?_⟩
    have later : ∀ k ∈ rest, ∃ x ∈ e :: es, x.1 = k ∧ x.2.ExpiredAt w2.clock := fun k hk => by
      obtain ⟨x, hx, hxk, hxe⟩ := h2.2.2 k hk
      exact ⟨x, List.mem_cons_of_mem _ hx, hxk, hxe⟩
    cases valid with
    | true => exact later k (by simpa using hk)
    | false =>
      rcases List.mem_cons.mp (by simpa using hk) with rfl | hk
      · obtain ⟨t, ht, hle⟩ := h1.2.2.mp rfl
        exact ⟨e, List.mem_cons_self .., rfl, t, ht, hle.trans h2.1⟩
      · exact later k hk

theorem cleanupDue_along (cleanupInterval : Duration) (w : World) :
    Along move (cleanupDue env place cleanupInterval) w (fun _ _ => True) (fun _ _ => False) fun _ => False := by
  unfold cleanupDue
  refine Along.bind (Along.read (p := fun _ _ => True) trivial) fun lastCleanup w1 _ _ => ?_
  refine Along.bind (p := fun _ _ => True) (Along.of_ok rfl (.single (M.tick w1 _)) trivial) fun t w2 _ _ => ?_
  by_cases hc : t - lastCleanup < cleanupInterval.nanos
  · rw [if_pos hc]
    exact Along.pure trivial
  · rw [if_neg hc]
    exact Along.bind (Along.modify (p := fun _ _ => True) (M.write _ _ (.stamp w2 t)) trivial) fun _ _ _ _ =>
      Along.pure trivial

theorem removeExpired_along (w : World) :
    Along move (removeExpired env place) w (fun _ _ => True) (fun _ _ => False) fun _ => False := by
  unfold removeExpired
  refine Along.bind (Along.read (p := fun c w' => c = (entries place).get w' ∧ w' = w) ⟨rfl, rfl⟩) fun c w1 _ hc => ?_
  obtain ⟨rfl, rfl⟩ := hc
  refine Along.bind (p := fun _ w' => (entries place).get w' = (entries place).get w1)
    (Along.of_ok rfl (.single (M.tick w1 _)) (M.entries_tick w1 _)) fun order w2 _ h2 => ?_
  refine (toRemove_along env M _ w2).bind fun ks w3 _ h3 => Along.modify (M.write _ _ (.evict w3 ks ?_)) trivial
  intro k hk v hv
  obtain ⟨e, he, rfl, hexp⟩ := h3.2.2 k hk
  -- the entry of the key in the cache is the one that was visited
  rw [h3.2.1, h2] at hv
  rw [HashMap.mem_inOrder, HashMap.mem_entries_iff] at he
  exact Option.some.inj (he.symm.trans hv) ▸ hexp

theorem lockedRemove_along (w : World) :
    Along move (lock (cacheLock place) (removeExpired env place)) w (fun _ _ => True) (fun _ _ => False)
      (fun w' => ((cacheLock place).get w').poisoned = true) :=
  Along.lock (fun _ => False) (fun h => h) (fun _ => removeExpired_along env M w) fun _ _ h => h.elim

theorem clearExpired_along (cleanupInterval : Duration) (w : World) :
    Along move (clearExpired env place cleanupInterval) w (fun _ _ => True) (fun _ _ => False)
      (fun w' => ((cacheLock place).get w').poisoned = true) := by
  rw [clearExpired_eq]
  refine ((cleanupDue_along env M cleanupInterval w).mono (fun _ _ h => h) (fun _ _ h => h) fun _ h => h.elim).bind
    fun due w1 _ _ => ?_
  cases due with
  | true => exact lockedRemove_along env M w1
  | false => exact Along.pure trivial

theorem newEntry_along (key : κ) (v : ν) (w : World) (hv : Fresh key v w) :
    Along move (ExpiringCacheValue.new env v lifetime) w
      (fun entry w' => entry = ⟨v, lifetime.map fun d => w'.clock + d.nanos⟩ ∧ Fresh key v w')
      (fun _ _ => False) (PastLimit lifetime) := by
  unfold ExpiringCacheValue.new
  cases hl : lifetime with
  | none => exact Along.pure ⟨rfl, hv⟩
  | some d =>
    have hf := M.fresh_tick key v w (env.elapsed w.calls) hv
    have path := Relation.ReflTransGen.single (M.tick w (env.elapsed w.calls))
    by_cases hlim : (w.tick (env.elapsed w.calls)).clock + d.nanos < instantLimit
    · refine Along.of_ok (t := w.tick (env.elapsed w.calls)) ?_ path ⟨rfl, hf⟩
      simp [expirationAfter, now, bind_run, Instant.checkedAdd, hlim]
    · refine Along.of_panic (t := w.tick (env.elapsed w.calls)) ?_ path ⟨d, rfl, not_lt.mp hlim⟩
      simp [expirationAfter, now, bind_run, Instant.checkedAdd, hlim]

/-- The value stored under `key`, with an entry that has not expired or is fresh. -/
def Current (place : Place World (ExpiringCache κ ν)) (Fresh : κ → ν → World → Prop) (key : κ) (v : ν) (w : World) :
    Prop :=
  ∃ e : ExpiringCacheValue ν, ((entries place).get w).lookup key = some e ∧ e.value = v ∧
    (¬ e.ExpiredAt w.clock ∨ Fresh key v w)

variable {creator : Call ν} {key : κ} {q : ParquetError → World → Prop}

/-- What is found is stored, and has not expired. -/
theorem findValid_along (w : World) :
    Along move (findValid env place key) w
      (fun found w' => ∀ v, found = some v → Current place Fresh key v w') (fun _ _ => False) fun _ => False := by
  unfold findValid
  refine Along.bind (Along.read (p := fun c w' => c = (entries place).get w') rfl) fun cache w1 _ hc => ?_
  subst hc
  cases hl : ((entries place).get w1).lookup key with
  | none => exact Along.pure fun v hv => by cases hv
  | some entry =>
    refine (isValid_along env M entry w1).bind fun valid w2 _ h2 => Along.pure fun v hv => ?_
    cases valid with
    | false => cases hv
    | true =>
      cases hv
      refine ⟨entry, by rw [h2.2.1, hl], rfl, Or.inl fun he => ?_⟩
      cases h2.2.2.mpr he

theorem store_along {w : World} {v : ν} (hv : Fresh key v w) :
    Along move (store env place key lifetime v) w (fun v' w' => v' = v ∧ Current place Fresh key v w') q
      (PastLimit lifetime) := by
  unfold store
  refine ((newEntry_along env M key v w hv).mono (fun _ _ h => h) (fun _ _ h => h.elim) fun _ h => h).bind
    fun entry w2 _ h2 => ?_
  obtain ⟨rfl, hf⟩ := h2
  refine Along.bind (p := fun _ => Current place Fresh key v) (Along.modify (M.write _ _ (.store w2 key v hf)) ?_)
    fun _ w3 _ h3 => Along.pure ⟨rfl, h3⟩
  exact ⟨_, by rw [Place.get_modify, AList.lookup_insert], rfl, Or.inr (M.fresh_set _ _ _ _ hf)⟩

theorem create_along {w : World} (hcreator : Along move creator w (Fresh key) q fun _ => False) :
    Along move (create env place key lifetime creator) w (Current place Fresh key) q (PastLimit lifetime) := by
  rw [create_eq]
  refine Along.bind (hcreator.mono (fun _ _ h => h) (fun _ _ h => h) fun _ h => h.elim) fun v w1 _ hv => ?_
  refine (store_along env M hv).mono (fun v' w' h => ?_) (fun _ _ h => h) fun _ h => h
  obtain ⟨rfl, hcurrent⟩ := h
  exact hcurrent

theorem lookupOrCreate_along {w : World}
    (hcreator : ∀ w', Relation.ReflTransGen move w w' → Along move creator w' (Fresh key) q fun _ => False) :
    Along move (lookupOrCreate env place key lifetime creator) w (Current place Fresh key) q (PastLimit lifetime) := by
  rw [lookupOrCreate_eq]
  refine (findValid_along env M w).sure.bind fun found w1 path hfound => ?_
  cases found with
  | some v => exact Along.pure (hfound v rfl)
  | none => exact create_along env M (hcreator w1 path)

theorem getOrCreate_along {w : World} (hpoison : ∀ w, PastLimit lifetime w → move w (poison (cacheLock place) w))
    (hcreator : ∀ w', Relation.ReflTransGen move w w' → Along move creator w' (Fresh key) q fun _ => False) :
    Along move (getOrCreate env place key lifetime creator) w (Current place Fresh key) q
      (fun w' => ((cacheLock place).get w').poisoned = true) :=
  Along.lock (PastLimit lifetime) (fun h => h) (fun _ => lookupOrCreate_along env M hcreator)
    fun w' _ h => ⟨hpoison w' h, poisoned_poison _ _⟩

end

end ExpiringCache

/-! ## The operations of a manager -/

/-- The client is cached for the configuration's token and instance id. -/
def HeldClient (m : ManagerId) (config : KmsConnectionConfig) (client : KmsClient) (w : World) : Prop :=
  ExpiringCache.Current (clientCachePlace m) (FreshClient config)
    ⟨w.tokens config.keyAccessToken, config.kmsInstanceId⟩ client w

def HeldReadCache (m : ManagerId) (token : String) (a : KekReadCache) (w : World) : Prop :=
  ExpiringCache.Current (readCachesPlace m) (FreshReadCache m) ⟨token⟩ a w

def HeldWriteCache (m : ManagerId) (token : String) (a : KekWriteCache) (w : World) : Prop :=
  ExpiringCache.Current (writeCachesPlace m) (FreshWriteCache m) ⟨token⟩ a w

namespace KmsManager

variable (m : ManagerId) (config : KmsConnectionConfig) (lifetime : Option Duration)

theorem clientMoves : ExpiringCache.Moves (clientCachePlace m) lifetime (FreshClient config)
    (ManagerMove m config lifetime) where
  write := fun _ _ h => .clients (.write h)
  tick := .tick
  get_tick := fun _ _ => rfl
  fresh_tick := fun _ _ _ _ h => h
  fresh_set := fun _ _ _ _ h => h

theorem readMoves : ExpiringCache.Moves (readCachesPlace m) lifetime (FreshReadCache m)
    (ManagerMove m config lifetime) where
  write := fun _ _ h => .readCaches (.write h)
  tick := .tick
  get_tick := fun _ _ => rfl
  fresh_tick := fun _ _ _ _ h => h
  fresh_set := fun _ _ _ _ h => h

theorem writeMoves : ExpiringCache.Moves (writeCachesPlace m) lifetime (FreshWriteCache m)
    (ManagerMove m config lifetime) where
  write := fun _ _ h => .writeCaches (.write h)
  tick := .tick
  get_tick := fun _ _ => rfl
  fresh_tick := fun _ _ _ _ h => h
  fresh_set := fun _ _ _ _ h => h

theorem clearExpiredEntries_along (cleanupInterval : Option Duration) (w : World) :
    Along (ManagerMove m config lifetime) (clearExpiredEntries env m cleanupInterval) w (fun _ _ => True)
      (fun _ _ => False) (World.ManagerPoisoned · m) := by
  unfold clearExpiredEntries
  cases cleanupInterval with
  | none => exact Along.pure trivial
  | some d =>
    refine Along.bind ((ExpiringCache.clearExpired_along env (clientMoves m config lifetime) d w).mono
      (fun _ _ h => h) (fun _ _ h => h) fun _ h => Or.inl h) fun _ w1 _ _ => ?_
    refine Along.bind ((ExpiringCache.clearExpired_along env (readMoves m config lifetime) d w1).mono
      (fun _ _ h => h) (fun _ _ h => h) fun _ h => Or.inr (Or.inl h)) fun _ w2 _ _ => ?_
    exact (ExpiringCache.clearExpired_along env (writeMoves m config lifetime) d w2).mono
      (fun _ _ h => h) (fun _ _ h => h) fun _ h => Or.inr (Or.inr h)

/-- The client factory failed, in a call after the first `n`. -/
def CreationFailed (n : Nat) (w : World) : Prop :=
  w.FailedSince n ∧ ∃ i details e, env.createClient i details = .error e

theorem createClient_along {n : Nat} {w : World} (hn : n ≤ w.log.length) :
    Along (ManagerMove m config lifetime) (createClient env config) w
      (FreshClient config ⟨w.tokens config.keyAccessToken, config.kmsInstanceId⟩)
      (fun _ w' => CreationFailed env n w') (fun _ => False) := by
  cases hr : env.createClient w.calls (config.details w) with
  | ok _ =>
    refine Along.of_ok (a := ⟨w.calls, config.details w⟩) ?_ (.single (.create w (.ok ⟨w.calls, config.details w⟩) ?_))
      ⟨rfl, rfl, List.mem_append_right _ (List.mem_singleton.mpr rfl)⟩
    · simp only [createClient, hr]
    · intro client h; cases h; rfl
  | error e =>
    refine Along.of_err (e := e) ?_ (.single (.create w (.error e) ?_))
      ⟨w.failedSince_record hn rfl, _, _, e, hr⟩
    · simp only [createClient, hr]
    · intro client h; cases h

/-- No move of a manager writes a token. -/
theorem tokens_kept {w w' : World} (path : Relation.ReflTransGen (ManagerMove m config lifetime) w w') :
    w'.tokens = w.tokens :=
  path_keeps (I := fun v => v.tokens = w.tokens) (fun _ _ h hm => hm.kept.1.trans h) path rfl

/-- `getClient` returns the client that is cached for the configuration's token and id. -/
theorem getClient_along {n : Nat} {w : World} (hn : n ≤ w.log.length) :
    Along (ManagerMove m config lifetime) (getClient env m config lifetime) w
      (HeldClient m config) (fun _ w' => CreationFailed env n w') (World.ManagerPoisoned · m) := by
  unfold getClient
  have hclear := clearExpiredEntries_along env m config lifetime lifetime w
  refine (hclear.mono (fun _ _ h => h) (fun _ _ h => h.elim) fun _ h => h).bind fun _ w1 path1 _ => ?_
  refine Along.bind (Along.read (p := fun t w' => t = w1.tokens config.keyAccessToken ∧ w' = w1) ⟨rfl, rfl⟩)
    fun token w2 _ h2 => ?_
  obtain ⟨rfl, rfl⟩ := h2
  have hcreator : ∀ w3, Relation.ReflTransGen (ManagerMove m config lifetime) w2 w3 →
      Along (ManagerMove m config lifetime) (createClient env config) w3
        (FreshClient config ⟨w2.tokens config.keyAccessToken, config.kmsInstanceId⟩)
        (fun _ w' => CreationFailed env n w') fun _ => False := by
    intro w3 path
    rw [← tokens_kept m config lifetime path]
    have hg := World.Grows.of_path (fun _ _ h => ManagerMove.grows h) (path1.trans path)
    exact createClient_along env m config lifetime (hn.trans hg.log.length_le)
  refine (ExpiringCache.getOrCreate_along env (clientMoves m config lifetime) (fun w h => .clients (.poison w h))
    hcreator).with_path.mono (fun client w4 h => ?_) (fun _ _ h => h) fun _ h => Or.inl h
  unfold HeldClient
  rw [tokens_kept m config lifetime h.2]
  exact h.1

theorem newReadCache_along (token : String) (w : World) :
    Along (ManagerMove m config lifetime) (newReadCache m token) w (FreshReadCache m ⟨token⟩) (fun _ _ => False)
      (fun _ => False) := by
  refine Along.of_ok (a := w.nextReadCache) (t := w.allocReadCache (m, token)) rfl
    (.single (.allocReadCache w token)) ?_
  refine ⟨⟨Function.update_self .., Nat.lt_succ_self _⟩, ?_⟩
  show (Function.update w.readCaches w.nextReadCache (Mutex.new ∅) w.nextReadCache).data = ∅
  rw [Function.update_self]
  rfl

theorem newWriteCache_along (token : String) (w : World) :
    Along (ManagerMove m config lifetime) (newWriteCache m token) w (FreshWriteCache m ⟨token⟩) (fun _ _ => False)
      (fun _ => False) := by
  refine Along.of_ok (a := w.nextWriteCache) (t := w.allocWriteCache (m, token)) rfl
    (.single (.allocWriteCache w token)) ?_
  refine ⟨⟨Function.update_self .., Nat.lt_succ_self _⟩, ?_⟩
  show (Function.update w.writeCaches w.nextWriteCache (Mutex.new ∅) w.nextWriteCache).data = ∅
  rw [Function.update_self]
  rfl

theorem readCache_along (token : String) (w : World) :
    Along (ManagerMove m config lifetime)
      (ExpiringCache.getOrCreate env (readCachesPlace m) ⟨token⟩ lifetime (newReadCache m token)) w
      (HeldReadCache m token) (fun _ _ => False) (World.ManagerPoisoned · m) :=
  (ExpiringCache.getOrCreate_along env (readMoves m config lifetime) (fun _ h => .readCaches (.poison _ h))
    fun w' _ => newReadCache_along m config lifetime token w').mono (fun _ _ h => h) (fun _ _ h => h)
      fun _ h => Or.inr (Or.inl h)

theorem writeCache_along (token : String) (w : World) :
    Along (ManagerMove m config lifetime)
      (ExpiringCache.getOrCreate env (writeCachesPlace m) ⟨token⟩ lifetime (newWriteCache m token)) w
      (HeldWriteCache m token) (fun _ _ => False) (World.ManagerPoisoned · m) :=
  (ExpiringCache.getOrCreate_along env (writeMoves m config lifetime) (fun _ h => .writeCaches (.poison _ h))
    fun w' _ => newWriteCache_along m config lifetime token w').mono (fun _ _ h => h) (fun _ _ h => h)
      fun _ h => Or.inr (Or.inr h)

/-- `getKekReadCache` returns the KEK cache that is registered for the token. -/
theorem getKekReadCache_along (w : World) :
    Along (ManagerMove m config lifetime) (getKekReadCache env m config lifetime) w
      (fun a w' => HeldReadCache m (w'.tokens config.keyAccessToken) a w')
      (fun _ _ => False) (World.ManagerPoisoned · m) := by
  unfold getKekReadCache
  refine (clearExpiredEntries_along env m config lifetime lifetime w).bind fun _ w1 _ _ => ?_
  refine Along.bind (Along.read (p := fun t w' => t = w1.tokens config.keyAccessToken ∧ w' = w1) ⟨rfl, rfl⟩)
    fun token w2 _ h2 => ?_
  obtain ⟨rfl, rfl⟩ := h2
  refine (readCache_along env m config lifetime _ w2).with_path.unwrap.mono (fun a w4 h => ?_) (fun _ _ h => h)
    fun _ h => h
  rw [tokens_kept m config lifetime h.2]
  exact h.1

theorem getKekWriteCache_along (w : World) :
    Along (ManagerMove m config lifetime) (getKekWriteCache env m config lifetime) w
      (fun a w' => HeldWriteCache m (w'.tokens config.keyAccessToken) a w')
      (fun _ _ => False) (World.ManagerPoisoned · m) := by
  unfold getKekWriteCache
  refine (clearExpiredEntries_along env m config lifetime lifetime w).bind fun _ w1 _ _ => ?_
  refine Along.bind (Along.read (p := fun t w' => t = w1.tokens config.keyAccessToken ∧ w' = w1) ⟨rfl, rfl⟩)
    fun token w2 _ h2 => ?_
  obtain ⟨rfl, rfl⟩ := h2
  refine (writeCache_along env m config lifetime _ w2).with_path.unwrap.mono (fun a w4 h => ?_) (fun _ _ h => h)
    fun _ h => h
  rw [tokens_kept m config lifetime h.2]
  exact h.1

end KmsManager

/-! ## The registry's invariant -/

variable {w w' : World}

structure RegistryInv (w : World) : Prop where
  clients : ∀ m key v, (w.clients m).lookup key = some v →
    v.value.config.keyAccessToken = key.keyAccessToken ∧ v.value.config.kmsInstanceId = key.kmsInstanceId ∧
      .createClient v.value.config (.ok v.value) ∈ w.log
  readCaches : ∀ m key v, (w.readRegistry m).lookup key = some v → OwnedReadCache m key v.value w
  writeCaches : ∀ m key v, (w.writeRegistry m).lookup key = some v → OwnedWriteCache m key v.value w

theorem OwnedReadCache.grows {m : ManagerId} {key : KekCacheKey} {a : KekReadCache} (h : OwnedReadCache m key a w)
    (hg : w.Grows w') : OwnedReadCache m key a w' :=
  ⟨(hg.readCacheOwner a h.2).trans h.1, lt_of_lt_of_le h.2 hg.nextReadCache⟩

theorem OwnedWriteCache.grows {m : ManagerId} {key : KekCacheKey} {a : KekWriteCache} (h : OwnedWriteCache m key a w)
    (hg : w.Grows w') : OwnedWriteCache m key a w' :=
  ⟨(hg.writeCacheOwner a h.2).trans h.1, lt_of_lt_of_le h.2 hg.nextWriteCache⟩

/-- The invariant speaks of the managers, and of the past. -/
theorem RegistryInv.of_managers (h : RegistryInv w) (hm : w'.managers = w.managers) (hg : w.Grows w') :
    RegistryInv w' := by
  constructor
  · intro m key v hl
    unfold World.clients at hl
    rw [hm] at hl
    obtain ⟨h1, h2, h3⟩ := h.clients m key v hl
    exact ⟨h1, h2, hg.mem_log h3⟩
  · intro m key v hl
    unfold World.readRegistry at hl
    rw [hm] at hl
    exact (h.readCaches m key v hl).grows hg
  · intro m key v hl
    unfold World.writeRegistry at hl
    rw [hm] at hl
    exact (h.writeCaches m key v hl).grows hg

theorem ManagerMove.registryInv {m : ManagerId} {config : KmsConnectionConfig} {lifetime : Option Duration}
    (hm : ManagerMove m config lifetime w w') (h : RegistryInv w) : RegistryInv w' := by
  constructor
  · intro m' key v hl
    rcases hm.clients_lookup hl with h1 | ⟨rfl, rfl, hd, hlog⟩
    · obtain ⟨h1, h2, h3⟩ := h.clients m' key v h1
      exact ⟨h1, h2, hm.grows.mem_log h3⟩
    · exact ⟨by rw [hd]; rfl, by rw [hd]; rfl, hm.grows.mem_log hlog⟩
  · intro m' key v hl
    rcases hm.readRegistry_lookup hl with h1 | ⟨rfl, h1⟩
    · exact (h.readCaches m' key v h1).grows hm.grows
    · exact h1.1.grows hm.grows
  · intro m' key v hl
    rcases hm.writeRegistry_lookup hl with h1 | ⟨rfl, h1⟩
    · exact (h.writeCaches m' key v h1).grows hm.grows
    · exact h1.1.grows hm.grows

end ParquetKeyManagement
