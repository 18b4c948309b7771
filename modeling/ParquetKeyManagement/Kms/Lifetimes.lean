/-
  ParquetKeyManagement.Kms.Lifetimes — whose lifetime counts.

  An entry expires its lifetime after it was stored, and that lifetime is the one of the call that
  stored it. A later call with a shorter one of its own gets the entry as long as it is valid.
  - `sourced_call`: in every run of a manager, each entry of its caches was stored by one of the
    calls, and expires that call's lifetime after it was stored.
  - `lifetime_of_storing_call`: what a call returns was created in it, or was stored by an earlier
    call whose lifetime was not over at the lookup.
  - `History.returned`: so it is for one cache, however the sections of its callers interleave.
  - `callers_lifetime_ignored`: with a lifetime of a second a call returns a client that was stored,
    without one, a second before.
-/

import ParquetKeyManagement.Kms.Lookup

namespace ParquetKeyManagement

open Effect

variable (env : Env) {κ ν : Type}

namespace ExpiringCache

/-! ## Where the entries of a cache come from -/

section

variable [DecidableEq κ] {place : Place World (ExpiringCache κ ν)}
  {S : κ → ExpiringCacheValue ν → Prop} {w w1 w' : World}
  {key : κ} {lifetime : Option Duration} {creator : Call ν}

/-- Every entry has a source. -/
def Sourced (place : Place World (ExpiringCache κ ν)) (S : κ → ExpiringCacheValue ν → Prop) (w : World) : Prop :=
  ∀ k e, ((entries place).get w).lookup k = some e → S k e

theorem Sourced.cleans (h : Sourced place S w) (hclean : Cleans place w w') : Sourced place S w' :=
  fun k e hl => h k e (hclean.kept hl)

theorem Sourced.mono {S' : κ → ExpiringCacheValue ν → Prop} (h : Sourced place S w) (hS : ∀ k e, S k e → S' k e) :
    Sourced place S' w := fun k e hl => hS k e (h k e hl)

/-- A call stores an entry only with what its creator made. -/
theorem Sourced.use (h : Sourced place S w) (A : Apart place) (C : Creator place creator) (key : κ)
    (lifetime : Option Duration)
    (hnew : ∀ v w', getOrCreate env place key lifetime creator w = (.ok v, w') → runsCreator env place key w = true →
      S key ⟨v, lifetime.map fun d => w'.clock + d.nanos⟩) :
    Sourced place S (getOrCreate env place key lifetime creator w).2 := by
  obtain ⟨ran, hran, hcase⟩ := getOrCreate_cases env A C key lifetime w
  cases hrun : getOrCreate env place key lifetime creator w with | mk r w' =>
  rw [hrun] at hcase
  intro k e hl
  cases hcase with
  | hit _ _ _ _ _ hsame => exact h k e (by rw [← hsame]; exact hl)
  | created _ _ _ v _ _ _ _ _ hentries =>
    have hl' := hl
    rw [hentries] at hl'
    by_cases hk : k = key
    · subst hk
      rw [AList.lookup_insert] at hl'
      cases hl'
      exact hnew v w' hrun hran
    · rw [AList.lookup_insert_ne hk] at hl'
      exact h k e hl'
  | failed _ _ _ _ _ _ _ _ hsame => exact h k e (by rw [← hsame]; exact hl)
  | panicked _ _ _ hsame => exact h k e (by rw [← hsame]; exact hl)

/-- What is returned was created, or has a source and is valid. -/
theorem Sourced.returned (h : Sourced place S w) (A : Apart place) (C : Creator place creator) {v : ν}
    (hrun : getOrCreate env place key lifetime creator w = (.ok v, w')) :
    runsCreator env place key w = true ∨ ∃ e, S key e ∧ e.value = v ∧ ¬ e.ExpiredAt w'.clock := by
  obtain ⟨ran, hran, hcase⟩ := getOrCreate_cases env A C key lifetime w
  rw [hrun] at hcase
  cases hcase with
  | hit e _ hl hvalid _ _ => exact Or.inr ⟨e, h key e hl, rfl, hvalid⟩
  | created _ _ _ _ _ _ _ _ _ _ => exact Or.inl hran

/-- An entry that has not expired was stored less than its lifetime before. -/
theorem lt_of_not_expired {e : ExpiringCacheValue ν} {stored now : Instant} (h : ¬ e.ExpiredAt now)
    (he : e.expirationTime = lifetime.map fun d => stored + d.nanos) :
    ∀ d, lifetime = some d → now < stored + d.nanos := by
  intro d hd
  subst hd
  by_contra hle
  exact h ⟨_, he, not_lt.mp hle⟩

end

/-! ## One cache, and interleaved callers -/

/-- What a call got from a cache: whether its creator ran, and the last reading of the clock. -/
structure Got (κ ν : Type) where
  key : κ
  lifetime : Option Duration
  value : ν
  created : Bool
  time : Instant

/-- Runs of a cache, with what its callers got. -/
inductive History [DecidableEq κ] (place : Place World (ExpiringCache κ ν)) : List (Got κ ν) → World → Prop
  | start (w : World) : (entries place).get w = ∅ → History place [] w
  | got {gs : List (Got κ ν)} {w : World} (key : κ) (lifetime : Option Duration) (creator : Call ν)
    (v : ν) (w' : World) :
    History place gs w → Creator place creator → getOrCreate env place key lifetime creator w = (.ok v, w') →
    History place (gs ++ [⟨key, lifetime, v, runsCreator env place key w, w'.clock⟩]) w'
  | failed {gs : List (Got κ ν)} {w : World} (key : κ) (lifetime : Option Duration) (creator : Call ν) :
    History place gs w → Creator place creator → (getOrCreate env place key lifetime creator w).1.isOk = false →
    History place gs (getOrCreate env place key lifetime creator w).2
  | other {gs : List (Got κ ν)} {w : World} (w' : World) : History place gs w →
    CacheOp env place (fun _ => False) w w' →
    History place gs w'

/-- The entry is what some call created and stored. -/
def GotBefore (gs : List (Got κ ν)) (k : κ) (e : ExpiringCacheValue ν) : Prop :=
  ∃ g ∈ gs, g.key = k ∧ g.value = e.value ∧ g.created = true ∧
    e.expirationTime = g.lifetime.map fun d => g.time + d.nanos

section

variable [DecidableEq κ] {place : Place World (ExpiringCache κ ν)} {gs : List (Got κ ν)} {w w' : World}

theorem History.sourced (A : Apart place) (h : History env place gs w) : Sourced place (GotBefore gs) w := by
  induction h with
  | start w hempty =>
    intro k e hl
    rw [hempty] at hl
    cases hl
  | @got gs w key lifetime creator v w' _ C hrun ih =>
    have hlater : Sourced place (GotBefore (gs ++ [⟨key, lifetime, v, runsCreator env place key w, w'.clock⟩])) w :=
      ih.mono fun k e he => by
        obtain ⟨g, hg, hrest⟩ := he
        exact ⟨g, List.mem_append_left _ hg, hrest⟩
    have hnext := hlater.use env A C key lifetime fun v' w'' hrun' hran => by
      rw [hrun] at hrun'
      cases hrun'
      exact ⟨_, List.mem_append_right _ (List.mem_singleton.mpr rfl), rfl, rfl, hran, rfl⟩
    rw [hrun] at hnext
    exact hnext
  | failed key lifetime creator _ C hfail ih =>
    refine ih.use env A C key lifetime fun v w' hrun _ => ?_
    rw [hrun] at hfail
    cases hfail
  | other w' _ hop ih => exact ih.cleans (hop.cleans env A)

/-- What a cache returns was created in the call, or stored in an earlier one whose lifetime was not over. -/
theorem History.returned (A : Apart place) (h : History env place gs w) {key : κ} {lifetime : Option Duration}
    {creator : Call ν} {v : ν} (C : Creator place creator)
    (hrun : getOrCreate env place key lifetime creator w = (.ok v, w')) :
    runsCreator env place key w = true ∨ ∃ g ∈ gs, g.key = key ∧ g.value = v ∧ g.created = true ∧
      ∀ d, g.lifetime = some d → w'.clock < g.time + d.nanos := by
  rcases (h.sourced env A).returned env A C hrun with hran | ⟨e, ⟨g, hg, hkey, hvalue, hcreated, hexpires⟩, rfl, hvalid⟩
  · exact Or.inl hran
  · exact Or.inr ⟨g, hg, hkey, hvalue, hcreated, lt_of_not_expired hvalid hexpires⟩

end

end ExpiringCache

/-! ## A manager's calls -/

open ExpiringCache

/-- Whether the call's creator runs, once expired entries are cleared. -/
def ManagerCall.createsAt (m : ManagerId) (w : World) : ManagerCall → Bool
  | .getClient config _ =>
    runsCreator env (clientCachePlace m) ⟨w.tokens config.keyAccessToken, config.kmsInstanceId⟩ w
  | .getKekReadCache config _ => runsCreator env (readCachesPlace m) ⟨w.tokens config.keyAccessToken⟩ w
  | .getKekWriteCache config _ => runsCreator env (writeCachesPlace m) ⟨w.tokens config.keyAccessToken⟩ w

/-- What the call returns is created during it. -/
def ManagerCall.creates (c : ManagerCall) (m : ManagerId) (w : World) : Bool :=
  c.createsAt env m (KmsManager.clearExpiredEntries env m c.cacheLifetime w).2

/-- Runs of a manager, from empty caches, with its calls and the states in which they were made. -/
inductive ManagerHistory (m : ManagerId) : List (ManagerCall × World) → World → Prop
  | start (w : World) : w.clients m = ∅ → w.readRegistry m = ∅ → w.writeRegistry m = ∅ → ManagerHistory m [] w
  | call {calls : List (ManagerCall × World)} {w : World} (c : ManagerCall) : ManagerHistory m calls w →
    ManagerHistory m (calls ++ [(c, w)]) (c.run env m w).2
  | between {calls : List (ManagerCall × World)} {w : World} (w' : World) : ManagerHistory m calls w →
    w'.managers m = w.managers m → w.clock ≤ w'.clock → ManagerHistory m calls w'

/-- The value was created and stored by an earlier call, whose lifetime was not over at `now`. -/
def StoredBefore (m : ManagerId) (calls : List (ManagerCall × World))
    (call : KmsConnectionConfig → Option Duration → ManagerCall) (x : KmsConnectionConfig → Option Duration → Call ν)
    (v : ν) (now : Instant) : Prop :=
  ∃ config lifetime w w', (call config lifetime, w) ∈ calls ∧ x config lifetime w = (.ok v, w') ∧
    (call config lifetime).creates env m w = true ∧ ∀ d, lifetime = some d → now < w'.clock + d.nanos

/-- The entry was created and stored by an earlier call. -/
def SourceCall (m : ManagerId) (calls : List (ManagerCall × World))
    (call : KmsConnectionConfig → Option Duration → ManagerCall) (x : KmsConnectionConfig → Option Duration → Call ν)
    (e : ExpiringCacheValue ν) : Prop :=
  ∃ config lifetime w w', (call config lifetime, w) ∈ calls ∧ x config lifetime w = (.ok e.value, w') ∧
    (call config lifetime).creates env m w = true ∧ e.expirationTime = lifetime.map fun d => w'.clock + d.nanos

section

variable [DecidableEq κ] {place : Place World (ExpiringCache κ ν)} {m : ManagerId} {calls : List (ManagerCall × World)}
  {call : KmsConnectionConfig → Option Duration → ManagerCall} {x : KmsConnectionConfig → Option Duration → Call ν}
  {config : KmsConnectionConfig} {lifetime : Option Duration} {key : κ} {creator : Call ν} {w w1 : World}

/-- What a call of this cache does: it clears, and then uses the cache; or clearing has panicked. -/
def ClearsAndGets (place : Place World (ExpiringCache κ ν)) (key : κ) (lifetime : Option Duration) (creator : Call ν)
    (y : Call ν) (w w1 : World) : Prop :=
  Cleans place w w1 ∧ (y w = getOrCreate env place key lifetime creator w1 ∨ y w = (.panic, w1))

theorem SourceCall.later (c : ManagerCall × World) {e : ExpiringCacheValue ν} (h : SourceCall env m calls call x e) :
    SourceCall env m (calls ++ [c]) call x e := by
  obtain ⟨config, lifetime, w, w', hin, hrest⟩ := h
  exact ⟨config, lifetime, w, w', List.mem_append_left _ hin, hrest⟩

/-- The step for the cache that a call is about. -/
theorem sourced_own (h : Sourced place (fun _ e => SourceCall env m calls call x e) w) (A : Apart place)
    (C : Creator place creator) (huse : ClearsAndGets env place key lifetime creator (x config lifetime) w w1)
    (hcreates : (call config lifetime).creates env m w = runsCreator env place key w1) :
    Sourced place (fun _ e => SourceCall env m (calls ++ [(call config lifetime, w)]) call x e)
      (x config lifetime w).2 := by
  obtain ⟨hclean, hrun⟩ := huse
  have hlater : Sourced place (fun _ e => SourceCall env m (calls ++ [(call config lifetime, w)]) call x e) w1 :=
    (h.cleans hclean).mono fun _ _ he => he.later env (call config lifetime, w)
  rcases hrun with hrun | hrun
  · rw [hrun]
    refine hlater.use env A C key lifetime fun v w' hok hran => ?_
    exact ⟨config, lifetime, w, w', List.mem_append_right _ (List.mem_singleton.mpr rfl), hrun.trans hok,
      hcreates.trans hran, rfl⟩
  · rw [hrun]
    exact hlater

/-- The step for the other caches. -/
theorem sourced_other (h : Sourced place (fun _ e => SourceCall env m calls call x e) w) (c : ManagerCall × World)
    (hclean : Cleans place w w1) : Sourced place (fun _ e => SourceCall env m (calls ++ [c]) call x e) w1 :=
  (h.cleans hclean).mono fun _ _ he => he.later env c

/-- What the next call returns. -/
theorem sourced_returned (h : Sourced place (fun _ e => SourceCall env m calls call x e) w) (A : Apart place)
    (C : Creator place creator) (huse : ClearsAndGets env place key lifetime creator (x config lifetime) w w1)
    (hcreates : (call config lifetime).creates env m w = runsCreator env place key w1) {v : ν} {w' : World}
    (hrun : x config lifetime w = (.ok v, w')) :
    (call config lifetime).creates env m w = true ∨ StoredBefore env m calls call x v w'.clock := by
  obtain ⟨hclean, hform⟩ := huse
  rcases hform with hform | hform
  · rw [hform] at hrun
    rcases (h.cleans hclean).returned env A C hrun with hran | ⟨e, hsource, rfl, hvalid⟩
    · exact Or.inl (hcreates.trans hran)
    · obtain ⟨config', lifetime', wc, w'', hin, hok, hcreated, hexpires⟩ := hsource
      exact Or.inr ⟨config', lifetime', wc, w'', hin, hok, hcreated, lt_of_not_expired hvalid hexpires⟩
  · rw [hform] at hrun
    cases hrun

end

namespace KmsManager

variable (m : ManagerId) (config : KmsConnectionConfig) (lifetime : Option Duration) (w : World)

/-- What follows clearing in a call that has not panicked there. -/
theorem after_clearing {α : Type} {x : Call α} {f : Unit → Call α} (hx : x = clearExpiredEntries env m lifetime >>= f) :
    x w = f () (clearExpiredEntries env m lifetime w).2 ∨
      x w = (.panic, (clearExpiredEntries env m lifetime w).2) := by
  have halong := clearExpiredEntries_along env m ⟨"", "", 0, ∅⟩ lifetime lifetime w
  subst hx
  rcases hclear : clearExpiredEntries env m lifetime w with ⟨_ | e | _, w1⟩
  · exact Or.inl (bind_ok hclear)
  · exact (halong.run_err hclear).elim
  · exact Or.inr (bind_panic hclear)

theorem getClient_uses : ∃ w1, ClearsAndGets env (clientCachePlace m)
    ⟨w1.tokens config.keyAccessToken, config.kmsInstanceId⟩
    lifetime (createClient env config) (getClient env m config lifetime) w w1 ∧
    (ManagerCall.getClient config lifetime).creates env m w =
      runsCreator env (clientCachePlace m) ⟨w1.tokens config.keyAccessToken, config.kmsInstanceId⟩ w1 := by
  have hops := clearExpiredEntries_clientOps env m lifetime w fun _ => False
  refine ⟨(clearExpiredEntries env m lifetime w).2, ⟨CacheOp.cleans_path env hops (clientCache_apart m), ?_⟩, rfl⟩
  exact after_clearing env m lifetime w rfl

theorem getKekReadCache_uses : ∃ w1, ClearsAndGets env (readCachesPlace m) ⟨w1.tokens config.keyAccessToken⟩ lifetime
    (newReadCache m (w1.tokens config.keyAccessToken)) (getKekReadCache env m config lifetime) w w1 ∧
    (ManagerCall.getKekReadCache config lifetime).creates env m w =
      runsCreator env (readCachesPlace m) ⟨w1.tokens config.keyAccessToken⟩ w1 := by
  have hops := clearExpiredEntries_readOps env m lifetime w fun _ => False
  refine ⟨(clearExpiredEntries env m lifetime w).2, ⟨CacheOp.cleans_path env hops (readCaches_apart m), ?_⟩, rfl⟩
  rw [← (readCache_along env m config lifetime _ _).unwrap_eq]
  exact after_clearing env m lifetime w rfl

theorem getKekWriteCache_uses : ∃ w1, ClearsAndGets env (writeCachesPlace m) ⟨w1.tokens config.keyAccessToken⟩ lifetime
    (newWriteCache m (w1.tokens config.keyAccessToken)) (getKekWriteCache env m config lifetime) w w1 ∧
    (ManagerCall.getKekWriteCache config lifetime).creates env m w =
      runsCreator env (writeCachesPlace m) ⟨w1.tokens config.keyAccessToken⟩ w1 := by
  have hops := clearExpiredEntries_writeOps env m lifetime w fun _ => False
  refine ⟨(clearExpiredEntries env m lifetime w).2, ⟨CacheOp.cleans_path env hops (writeCaches_apart m), ?_⟩, rfl⟩
  rw [← (writeCache_along env m config lifetime _ _).unwrap_eq]
  exact after_clearing env m lifetime w rfl

/-! A call leaves the caches it is not about alone, but for clearing them. -/

section

variable {place : Place World (ExpiringCache κ ν)}

theorem createClient_other (hrecord : ∀ w e, place.get (w.record e) = place.get w) (w : World) :
    Along (Untouched place) (createClient env config) w (fun _ _ => True) (fun _ _ => True) fun _ => False := by
  have hop : ∀ e, Relation.ReflTransGen (Untouched place) w (w.record e) := fun e =>
    .single ⟨hrecord w e, le_refl _⟩
  cases hr : env.createClient w.calls (config.details w) with
  | ok _ =>
    refine Along.of_ok (a := ⟨w.calls, config.details w⟩) ?_
      (hop (.createClient (config.details w) (.ok ⟨w.calls, config.details w⟩))) trivial
    simp only [createClient, hr]
  | error e =>
    refine Along.of_err (e := e) ?_ (hop (.createClient (config.details w) (.error e))) trivial
    simp only [createClient, hr]

theorem newReadCache_other (token : String) (hsame : ∀ w owner, place.get (w.allocReadCache owner) = place.get w)
    (w : World) :
    Along (Untouched place) (newReadCache m token) w (fun _ _ => True) (fun _ _ => True) fun _ => False :=
  Along.of_ok (a := w.nextReadCache) (t := w.allocReadCache (m, token)) rfl (.single ⟨hsame w _, le_refl _⟩) trivial

theorem newWriteCache_other (token : String) (hsame : ∀ w owner, place.get (w.allocWriteCache owner) = place.get w)
    (w : World) :
    Along (Untouched place) (newWriteCache m token) w (fun _ _ => True) (fun _ _ => True) fun _ => False :=
  Along.of_ok (a := w.nextWriteCache) (t := w.allocWriteCache (m, token)) rfl (.single ⟨hsame w _, le_refl _⟩) trivial

end

theorem getClient_readOps (P : KekCacheKey → Prop) : Relation.ReflTransGen (CacheOp env (readCachesPlace m) P) w
    (getClient env m config lifetime w).2 := by
  refine bind_path (clearExpiredEntries_readOps env m lifetime w P) fun _ w1 => bind_path .refl fun token w2 => ?_
  exact .single ((getOrCreate_other env (readCaches_apart m) (clientCache_apart m) readCaches_clientCache _ lifetime
    (createClient_other env config fun _ _ => rfl) w2).op env P)

theorem getClient_writeOps (P : KekCacheKey → Prop) : Relation.ReflTransGen (CacheOp env (writeCachesPlace m) P) w
    (getClient env m config lifetime w).2 := by
  refine bind_path (clearExpiredEntries_writeOps env m lifetime w P) fun _ w1 => bind_path .refl fun token w2 => ?_
  exact .single ((getOrCreate_other env (writeCaches_apart m) (clientCache_apart m) writeCaches_clientCache _ lifetime
    (createClient_other env config fun _ _ => rfl) w2).op env P)

theorem getKekReadCache_clientOps (P : ClientKey → Prop) : Relation.ReflTransGen (CacheOp env (clientCachePlace m) P) w
    (getKekReadCache env m config lifetime w).2 := by
  refine bind_path (clearExpiredEntries_clientOps env m lifetime w P) fun _ w1 => bind_path .refl fun token w2 => ?_
  rw [unwrap_state]
  exact .single ((getOrCreate_other env (clientCache_apart m) (readCaches_apart m) clientCache_readCaches _ lifetime
    (newReadCache_other m token fun _ _ => rfl) w2).op env P)

theorem getKekReadCache_writeOps (P : KekCacheKey → Prop) : Relation.ReflTransGen (CacheOp env (writeCachesPlace m) P) w
    (getKekReadCache env m config lifetime w).2 := by
  refine bind_path (clearExpiredEntries_writeOps env m lifetime w P) fun _ w1 => bind_path .refl fun token w2 => ?_
  rw [unwrap_state]
  exact .single ((getOrCreate_other env (writeCaches_apart m) (readCaches_apart m) writeCaches_readCaches _ lifetime
    (newReadCache_other m token fun _ _ => rfl) w2).op env P)

theorem getKekWriteCache_clientOps (P : ClientKey → Prop) : Relation.ReflTransGen (CacheOp env (clientCachePlace m) P) w
    (getKekWriteCache env m config lifetime w).2 := by
  refine bind_path (clearExpiredEntries_clientOps env m lifetime w P) fun _ w1 => bind_path .refl fun token w2 => ?_
  rw [unwrap_state]
  exact .single ((getOrCreate_other env (clientCache_apart m) (writeCaches_apart m) clientCache_writeCaches _ lifetime
    (newWriteCache_other m token fun _ _ => rfl) w2).op env P)

theorem getKekWriteCache_readOps (P : KekCacheKey → Prop) : Relation.ReflTransGen (CacheOp env (readCachesPlace m) P) w
    (getKekWriteCache env m config lifetime w).2 := by
  refine bind_path (clearExpiredEntries_readOps env m lifetime w P) fun _ w1 => bind_path .refl fun token w2 => ?_
  rw [unwrap_state]
  exact .single ((getOrCreate_other env (readCaches_apart m) (writeCaches_apart m) readCaches_writeCaches _ lifetime
    (newWriteCache_other m token fun _ _ => rfl) w2).op env P)

end KmsManager

/-! ## Runs of a manager -/

/-- Every entry of the manager's caches was stored by one of the calls. -/
structure ManagerSourced (m : ManagerId) (calls : List (ManagerCall × World)) (w : World) : Prop where
  clients : Sourced (clientCachePlace m) (fun _ e => SourceCall env m calls .getClient (KmsManager.getClient env m) e) w
  readCaches : Sourced (readCachesPlace m)
    (fun _ e => SourceCall env m calls .getKekReadCache (KmsManager.getKekReadCache env m) e) w
  writeCaches : Sourced (writeCachesPlace m)
    (fun _ e => SourceCall env m calls .getKekWriteCache (KmsManager.getKekWriteCache env m) e) w

section

variable {m : ManagerId} {calls : List (ManagerCall × World)} {w : World}

/-- The step: one call. -/
theorem sourced_call (h : ManagerSourced env m calls w) (c : ManagerCall) :
    ManagerSourced env m (calls ++ [(c, w)]) (c.run env m w).2 := by
  cases c with
  | getClient config lifetime =>
    rw [ManagerCall.run, discard_world]
    obtain ⟨w1, huse, hcreates⟩ := KmsManager.getClient_uses env m config lifetime w
    refine ⟨?_, ?_, ?_⟩
    · exact sourced_own env h.clients (KmsManager.clientCache_apart m)
        (KmsManager.createClient_creator env m config) huse hcreates
    · exact sourced_other env h.readCaches _
        (CacheOp.cleans_path env (KmsManager.getClient_readOps env m config lifetime w _)
        (KmsManager.readCaches_apart m))
    · exact sourced_other env h.writeCaches _
        (CacheOp.cleans_path env (KmsManager.getClient_writeOps env m config lifetime w _)
        (KmsManager.writeCaches_apart m))
  | getKekReadCache config lifetime =>
    rw [ManagerCall.run, discard_world]
    obtain ⟨w1, huse, hcreates⟩ := KmsManager.getKekReadCache_uses env m config lifetime w
    refine ⟨?_, ?_, ?_⟩
    · exact sourced_other env h.clients _
        (CacheOp.cleans_path env (KmsManager.getKekReadCache_clientOps env m config lifetime w _)
        (KmsManager.clientCache_apart m))
    · exact sourced_own env h.readCaches (KmsManager.readCaches_apart m)
        (KmsManager.newReadCache_creator m _) huse hcreates
    · exact sourced_other env h.writeCaches _
        (CacheOp.cleans_path env (KmsManager.getKekReadCache_writeOps env m config lifetime w _)
        (KmsManager.writeCaches_apart m))
  | getKekWriteCache config lifetime =>
    rw [ManagerCall.run, discard_world]
    obtain ⟨w1, huse, hcreates⟩ := KmsManager.getKekWriteCache_uses env m config lifetime w
    refine ⟨?_, ?_, ?_⟩
    · exact sourced_other env h.clients _
        (CacheOp.cleans_path env (KmsManager.getKekWriteCache_clientOps env m config lifetime w _)
        (KmsManager.clientCache_apart m))
    · exact sourced_other env h.readCaches _
        (CacheOp.cleans_path env (KmsManager.getKekWriteCache_readOps env m config lifetime w _)
        (KmsManager.readCaches_apart m))
    · exact sourced_own env h.writeCaches (KmsManager.writeCaches_apart m)
        (KmsManager.newWriteCache_creator m _) huse hcreates

/-- The run. -/
theorem ManagerHistory.sourced (h : ManagerHistory env m calls w) : ManagerSourced env m calls w := by
  induction h with
  | start w h1 h2 h3 =>
    refine ⟨fun k e hl => ?_, fun k e hl => ?_, fun k e hl => ?_⟩
    · rw [show (entries (clientCachePlace m)).get w = ∅ from h1] at hl
      cases hl
    · rw [show (entries (readCachesPlace m)).get w = ∅ from h2] at hl
      cases hl
    · rw [show (entries (writeCachesPlace m)).get w = ∅ from h3] at hl
      cases hl
  | call c _ ih => exact sourced_call env ih c
  | between w' _ hsame hclock ih =>
    refine ⟨ih.clients.cleans (.of_same ?_ hclock), ih.readCaches.cleans (.of_same ?_ hclock),
      ih.writeCaches.cleans (.of_same ?_ hclock)⟩
    · exact congrArg (fun k => k.kmsClientCache.cache.data) hsame
    · exact congrArg (fun k => k.kekReadCaches.cache.data) hsame
    · exact congrArg (fun k => k.kekWriteCaches.cache.data) hsame

end

/-! ## Whose lifetime counts -/

/-- The lifetime of the storing call is honoured. In any run of a manager's calls, whatever their
    lifetimes, what one returns was created in it or was stored by an earlier one, whose lifetime was
    not over when it was looked up. So it is for one cache, however the sections of its callers
    interleave. -/
theorem lifetime_of_storing_call (m : ManagerId) :
    (∀ calls w, ManagerHistory env m calls w →
      (∀ config lifetime client w', KmsManager.getClient env m config lifetime w = (.ok client, w') →
        (ManagerCall.getClient config lifetime).creates env m w = true ∨
          StoredBefore env m calls .getClient (KmsManager.getClient env m) client w'.clock) ∧
      (∀ config lifetime a w', KmsManager.getKekReadCache env m config lifetime w = (.ok a, w') →
        (ManagerCall.getKekReadCache config lifetime).creates env m w = true ∨
          StoredBefore env m calls .getKekReadCache (KmsManager.getKekReadCache env m) a w'.clock) ∧
      ∀ config lifetime a w', KmsManager.getKekWriteCache env m config lifetime w = (.ok a, w') →
        (ManagerCall.getKekWriteCache config lifetime).creates env m w = true ∨
          StoredBefore env m calls .getKekWriteCache (KmsManager.getKekWriteCache env m) a w'.clock) ∧
    ∀ (κ ν : Type) [DecidableEq κ] (place : Place World (ExpiringCache κ ν)), Apart place →
      ∀ gs w, History env place gs w → ∀ key lifetime creator v w', Creator place creator →
        getOrCreate env place key lifetime creator w = (.ok v, w') →
        runsCreator env place key w = true ∨ ∃ g ∈ gs, g.key = key ∧ g.value = v ∧ g.created = true ∧
          ∀ d, g.lifetime = some d → w'.clock < g.time + d.nanos := by
  refine ⟨fun calls w h => ⟨fun config lifetime client w' hrun => ?_, fun config lifetime a w' hrun => ?_,
    fun config lifetime a w' hrun => ?_⟩, fun κ ν _ place A gs w h key lifetime creator v w' C hrun => ?_⟩
  · obtain ⟨w1, huse, hcreates⟩ := KmsManager.getClient_uses env m config lifetime w
    exact sourced_returned env (h.sourced env).clients (KmsManager.clientCache_apart m)
      (KmsManager.createClient_creator env m config) huse hcreates hrun
  · obtain ⟨w1, huse, hcreates⟩ := KmsManager.getKekReadCache_uses env m config lifetime w
    exact sourced_returned env (h.sourced env).readCaches (KmsManager.readCaches_apart m)
      (KmsManager.newReadCache_creator m _) huse hcreates hrun
  · obtain ⟨w1, huse, hcreates⟩ := KmsManager.getKekWriteCache_uses env m config lifetime w
    exact sourced_returned env (h.sourced env).writeCaches (KmsManager.writeCaches_apart m)
      (KmsManager.newWriteCache_creator m _) huse hcreates hrun
  · exact h.returned env A C hrun

/-- A second. -/
def second : Duration := Duration.fromSecs 1

/-- A manager that has cached a client without a lifetime, a second later. -/
def secondLater : World :=
  ((KmsManager.getClient Env.sample 0 sampleConfig none (World.init (fun _ => "DEFAULT") 0)).2).tick second.nanos

theorem secondLater_history :
    ManagerHistory Env.sample 0 [(.getClient sampleConfig none, World.init (fun _ => "DEFAULT") 0)] secondLater := by
  have h0 : ManagerHistory Env.sample 0 [] (World.init (fun _ => "DEFAULT") 0) := .start _ rfl rfl rfl
  have h1 := h0.call (.getClient sampleConfig none)
  rw [ManagerCall.run, discard_world] at h1
  exact h1.between _ rfl (Nat.le_add_right _ _)

/-- The client of that call is returned to one with a lifetime of a second. -/
theorem lifetime_of_storing_call_sample : ∃ client w',
    KmsManager.getClient Env.sample 0 sampleConfig (some second) secondLater = (.ok client, w') ∧
      ((ManagerCall.getClient sampleConfig (some second)).creates Env.sample 0 secondLater = true ∨
        StoredBefore Env.sample 0 [(.getClient sampleConfig none, World.init (fun _ => "DEFAULT") 0)] .getClient
          (KmsManager.getClient Env.sample 0) client w'.clock) := by
  have hok : (KmsManager.getClient Env.sample 0 sampleConfig (some second) secondLater).1.isOk =
      true := by decide +kernel
  obtain ⟨client, w', hrun⟩ := exists_ok hok
  exact ⟨client, w', hrun, ((lifetime_of_storing_call Env.sample 0).1 _ _ secondLater_history).1 _ _ _ _ hrun⟩

/-- A caller's own lifetime is not honoured. -/
theorem callers_lifetime_ignored : ¬ ∀ (env : Env) (m : ManagerId) (calls : List (ManagerCall × World)) (w : World),
    ManagerHistory env m calls w → ∀ config d client w',
      KmsManager.getClient env m config (some d) w = (.ok client, w') →
      (ManagerCall.getClient config (some d)).creates env m w = true ∨
        ∃ config' lifetime' wc w'', (ManagerCall.getClient config' lifetime', wc) ∈ calls ∧
          KmsManager.getClient env m config' lifetime' wc = (.ok client, w'') ∧
          (ManagerCall.getClient config' lifetime').creates env m wc = true ∧ w'.clock < w''.clock + d.nanos := by
  intro h
  have hok : (KmsManager.getClient Env.sample 0 sampleConfig (some second) secondLater).1.isOk =
      true := by decide +kernel
  obtain ⟨client, w', hrun⟩ := exists_ok hok
  rcases h Env.sample 0 _ _ secondLater_history _ _ _ _ hrun with
    hcreated | ⟨config', lifetime', wc, w'', hin, hstored, _, hlt⟩
  · have hnot : (ManagerCall.getClient sampleConfig (some second)).creates Env.sample 0 secondLater = false := by
      decide +kernel
    rw [hnot] at hcreated
    cases hcreated
  · cases List.mem_singleton.mp hin
    -- stored at the first reading of the clock, and returned a second later
    have h1 : (KmsManager.getClient Env.sample 0 sampleConfig none (World.init (fun _ => "DEFAULT") 0)).2.clock =
        0 := by
      decide +kernel
    have h2 : (KmsManager.getClient Env.sample 0 sampleConfig (some second) secondLater).2.clock = second.nanos := by
      decide +kernel
    rw [hstored] at h1
    rw [hrun] at h2
    rw [show w''.clock = 0 from h1, show w'.clock = second.nanos from h2, Nat.zero_add] at hlt
    exact lt_irrefl _ hlt

end ParquetKeyManagement
