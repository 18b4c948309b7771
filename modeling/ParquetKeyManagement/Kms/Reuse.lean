/-
  ParquetKeyManagement.Kms.Reuse — how often an expiring cache makes a value.

  Within a time shorter than `d`, in which every call asks for a lifetime of at least `d`, a
  cache makes at most one value for a key: a new entry is valid to the end of that time, and an
  entry that is valid is given out. When storing panics nothing is stored, but the mutex is
  poisoned then, and the cache makes nothing more.
  - `Makes`: what is kept of the values made in a stretch of a run; stretches are put together
    by `Makes.trans`.
  - `getOrCreate_spares`, `clearExpired_spares`: the operations of a cache, and of another.
  - `Watched.getClient`, `Watched.getKekReadCache`, `Watched.getKekWriteCache`: the calls of a
    manager, for each of its caches.
-/

import ParquetKeyManagement.Kms.Lifetimes

namespace ParquetKeyManagement

open Effect

variable (env : Env) {κ ν : Type}

/-- The lifetime is at least `d`. -/
def AtLeast (d : Duration) (lifetime : Option Duration) : Prop := ∀ l, lifetime = some l → d.nanos ≤ l.nanos

namespace ExpiringCache

variable [DecidableEq κ] (place : Place World (ExpiringCache κ ν))

/-- Until `t` nothing is made for the key: an entry is valid until then, or the mutex is poisoned. -/
def KeptUntil (key : κ) (t : Instant) (w : World) : Prop :=
  ((cacheLock place).get w).poisoned = true ∨
    ∃ e, ((entries place).get w).lookup key = some e ∧ ∀ x, e.expirationTime = some x → t ≤ x

/-- Time passed, and `n` values were made for the key: in a time shorter than `d` at most one,
    which is kept then, and none if one was kept before. -/
structure Makes (key : κ) (d : Duration) (n : Nat) (w w' : World) : Prop where
  clock : w.clock ≤ w'.clock
  once : ∀ t, t ≤ w.clock + d.nanos → w'.clock < t →
    n ≤ 1 ∧ (KeptUntil place key t w → n = 0 ∧ KeptUntil place key t w') ∧ (n = 1 → KeptUntil place key t w')

variable {place} {key : κ} {d : Duration} {w w' w'' : World} {n n' : Nat}

theorem Makes.of_kept (hclock : w.clock ≤ w'.clock)
    (hkept : ∀ t, w'.clock < t → KeptUntil place key t w → KeptUntil place key t w') : Makes place key d 0 w w' :=
  ⟨hclock, fun t _ ht => ⟨Nat.zero_le 1, fun hk => ⟨rfl, hkept t ht hk⟩, fun h => absurd h Nat.zero_ne_one⟩⟩

theorem Makes.of_same (hsame : place.get w' = place.get w) (hclock : w.clock ≤ w'.clock) :
    Makes place key d 0 w w' := by
  refine .of_kept hclock fun t _ hk => ?_
  unfold KeptUntil entries cacheLock Place.comp at hk ⊢
  simpa only [hsame] using hk

theorem KeptUntil.entry {t : Instant} (h : KeptUntil place key t w)
    (hlock : ((cacheLock place).get w).poisoned = false) :
    ∃ e, ((entries place).get w).lookup key = some e ∧ ∀ x, e.expirationTime = some x → t ≤ x := by
  rcases h with hp | h
  · rw [hlock] at hp
    cases hp
  · exact h

/-- What is in the cache stays there as long as nothing is stored. -/
theorem Makes.of_entries (hlock : ((cacheLock place).get w).poisoned = false)
    (hsame : (entries place).get w' = (entries place).get w) (hclock : w.clock ≤ w'.clock) :
    Makes place key d 0 w w' := by
  refine .of_kept hclock fun t _ hk => ?_
  obtain ⟨e, he, hle⟩ := hk.entry hlock
  exact Or.inr ⟨e, by rw [hsame]; exact he, hle⟩

/-- Where nothing is kept for `key'`, at most one value is made, for that key, and is kept then. -/
theorem Makes.of_miss {key' : κ} (hn : n ≤ if key' = key then 1 else 0) (hclock : w.clock ≤ w'.clock)
    (hgone : key' = key → ∀ t, w'.clock < t → ¬ KeptUntil place key t w)
    (hkept : key' ≠ key → ∀ t, KeptUntil place key t w → KeptUntil place key t w')
    (hmade : key' = key → ∀ t, t ≤ w.clock + d.nanos → KeptUntil place key t w') : Makes place key d n w w' := by
  refine ⟨hclock, fun t ht hlt => ?_⟩
  by_cases he : key' = key
  · rw [if_pos he] at hn
    exact ⟨hn, fun hk => absurd hk (hgone he t hlt), fun _ => hmade he t ht⟩
  · rw [if_neg he] at hn
    obtain rfl := Nat.le_zero.mp hn
    exact ⟨Nat.zero_le 1, fun hk => ⟨rfl, hkept he t hk⟩, fun h => absurd h Nat.zero_ne_one⟩

theorem Makes.trans (h : Makes place key d n w w') (h' : Makes place key d n' w' w'') :
    Makes place key d (n + n') w w'' := by
  refine ⟨h.clock.trans h'.clock, fun t ht hlt => ?_⟩
  obtain ⟨hn, hkept, hmade⟩ := h.once t ht (lt_of_le_of_lt h'.clock hlt)
  obtain ⟨hn', hkept', hmade'⟩ := h'.once t (ht.trans (Nat.add_le_add_right h.clock _)) hlt
  have hfirst : n = 1 → n' = 0 ∧ KeptUntil place key t w'' := fun h1 => hkept' (hmade h1)
  refine ⟨by omega, fun hk => ?_, fun h1 => ?_⟩
  · obtain ⟨h0, hk'⟩ := hkept hk
    obtain ⟨h0', hk''⟩ := hkept' hk'
    exact ⟨by omega, hk''⟩
  · by_cases h0 : n = 1
    · exact (hfirst h0).2
    · exact hmade' (by omega)

/-! ## Values that are counted -/

variable (place) in
/-- A number that neither a use of the surroundings nor a write of the cache changes. -/
structure Counter (count : World → Nat) : Prop where
  tick : ∀ w k, count (w.tick k) = count w
  set : ∀ c w, count (place.set c w) = count w
  tokens : ∀ c w, (place.set c w).tokens = w.tokens

variable (place) in
/-- The values that were made for the key are those that `count` counts. -/
def Spares (count : World → Nat) (key : κ) (d : Duration) (w w' : World) : Prop :=
  ∃ n, Makes place key d n w w' ∧ count w' = count w + n

variable {count : World → Nat}

theorem Spares.of_makes (h : Makes place key d 0 w w') (hcount : count w' = count w) : Spares place count key d w w' :=
  ⟨0, h, hcount⟩

theorem Spares.refl (w : World) : Spares place count key d w w := .of_makes (.of_same rfl (le_refl _)) rfl

theorem Spares.trans (h : Spares place count key d w w') (h' : Spares place count key d w' w'') :
    Spares place count key d w w'' := by
  obtain ⟨n, hm, hc⟩ := h
  obtain ⟨n', hm', hc'⟩ := h'
  exact ⟨n + n', hm.trans hm', by omega⟩

theorem Spares.of_path (path : Relation.ReflTransGen (Spares place count key d) w w') : Spares place count key d w w' :=
  path_keeps (I := Spares place count key d w) (fun _ _ h h' => h.trans h') path (refl w)

/-! ## Cleaning -/

/-- Cleaning removes what has expired. -/
theorem sparesMoves (A : Apart place) (N : Counter place count) :
    Moves place none (fun _ _ _ => False) (Spares place count key d) where
  write a b h := by
    obtain ⟨c, hb⟩ := h.eq_set
    have hclock : b.clock = a.clock := by rw [hb, A.clock_set]
    have hpoison := h.poisoned
    refine .of_makes (.of_kept hclock.ge fun t ht hk => hk.imp (fun hp => hpoison.trans hp) fun hentry => ?_)
      (by rw [hb, N.set])
    obtain ⟨e, hl, he⟩ := hentry
    refine ⟨e, ?_, he⟩
    cases h with
    | stamp s => simpa [entries, cacheLock, mutexData, Place.comp, Place.modify] using hl
    | evict ks hks =>
      rw [Place.get_modify, HashMap.lookup_eraseAll, if_neg, hl]
      intro hmem
      obtain ⟨x, hx, hle⟩ := hks key hmem e hl
      exact absurd ((he x hx).trans hle) (not_le.mpr (hclock ▸ ht))
    | store k v hf => exact hf.elim
  tick w k := .of_makes (.of_same (A.get_tick w k) (Nat.le_add_right _ _)) (N.tick w k)
  get_tick := A.get_tick
  fresh_tick _ _ _ _ h := h
  fresh_set _ _ _ _ h := h

theorem clearExpired_spares (A : Apart place) (N : Counter place count) (cleanupInterval : Duration) (w : World) :
    Spares place count key d w (clearExpired env place cleanupInterval w).2 :=
  .of_path (clearExpired_along env (sparesMoves A N) cleanupInterval w).path

/-! ## `get_or_create` -/

/-- What a creator does while the tokens are these: it makes at most `b` of the values that are
    counted, and one only when it returns one. -/
structure Maker (place : Place World (ExpiringCache κ ν)) (count : World → Nat) (tokens : TokenCell → String)
    (creator : Call ν) (b : Nat) : Prop where
  apart : Creator place creator
  made : ∀ w, w.tokens = tokens → ∃ n ≤ b, count (creator w).2 = count w + n
  failed : ∀ w e w', creator w = (.err e, w') → count w' = count w

/-- Nothing that is counted was made, and no token refreshed. -/
def Uncounted (count : World → Nat) (w w' : World) : Prop := count w' = count w ∧ w'.tokens = w.tokens

/-- Looking up and storing make nothing. -/
theorem uncountedMoves (A : Apart place) (N : Counter place count) (lifetime : Option Duration) :
    Moves place lifetime (fun _ _ _ => True) (Uncounted count) where
  write a b h := by
    obtain ⟨c, rfl⟩ := h.eq_set
    exact ⟨N.set c a, N.tokens c a⟩
  tick w k := ⟨N.tick w k, rfl⟩
  get_tick := A.get_tick
  fresh_tick _ _ _ _ h := h
  fresh_set _ _ _ _ h := h

theorem Uncounted.of_path (path : Relation.ReflTransGen (Uncounted count) w w') : Uncounted count w w' :=
  path_keeps (I := Uncounted count w) (fun _ _ h h' => ⟨h'.1.trans h.1, h'.2.trans h.2⟩) path ⟨rfl, rfl⟩

theorem createAndStore_count (A : Apart place) (N : Counter place count) (key : κ) (lifetime : Option Duration)
    {creator : Call ν} (w : World) :
    count ((creator >>= store env place key lifetime) w).2 = count (creator w).2 := by
  rcases hc : creator w with ⟨v | e | _, w1⟩
  · rw [bind_ok hc]
    have halong : Along (Uncounted count) (store env place key lifetime v) w1
        (fun v' w' => v' = v ∧ Current place (fun _ _ _ => True) key v w') (fun _ _ => True) (PastLimit lifetime) :=
      store_along env (uncountedMoves A N lifetime) trivial
    exact (Uncounted.of_path halong.path).1
  · rw [bind_err hc]
  · rw [bind_panic hc]

theorem not_keptUntil_of_expired {t : Instant} (hlock : ((cacheLock place).get w).poisoned = false)
    (hexpired : ∀ e, ((entries place).get w).lookup key = some e → e.ExpiredAt w'.clock) (ht : w'.clock < t) :
    ¬ KeptUntil place key t w := by
  intro hk
  obtain ⟨e, hl, he⟩ := hk.entry hlock
  obtain ⟨x, hx, hle⟩ := hexpired e hl
  exact absurd ((he x hx).trans hle) (not_le.mpr ht)

/-- A value that is stored for so long is kept until then. -/
theorem keptUntil_insert {m : HashMap κ (ExpiringCacheValue ν)} {lifetime : Option Duration} {v : ν} {t : Instant}
    (hl : AtLeast d lifetime) (hclock : w.clock ≤ w'.clock)
    (hstored : (entries place).get w' = m.insert key ⟨v, lifetime.map fun l => w'.clock + l.nanos⟩)
    (ht : t ≤ w.clock + d.nanos) : KeptUntil place key t w' := by
  refine Or.inr ⟨_, by rw [hstored, AList.lookup_insert], fun x hx => ?_⟩
  cases lifetime with
  | none => cases hx
  | some l =>
    cases hx
    exact ht.trans (Nat.add_le_add hclock (hl l rfl))

/-- `get_or_create` with this or another key. -/
theorem getOrCreate_spares (A : Apart place) (N : Counter place count) {key' : κ} {lifetime : Option Duration}
    {creator : Call ν} (hl : AtLeast d lifetime) (w : World)
    (M : Maker place count w.tokens creator (if key' = key then 1 else 0)) :
    Spares place count key d w (getOrCreate env place key' lifetime creator w).2 := by
  unfold getOrCreate
  cases hlock : ((cacheLock place).get w).poisoned with
  | true =>
    rw [lock_poisoned hlock]
    exact .refl w
  | false =>
    rw [lock_eq_held hlock]
    have hfind := findValid_cases env A key' w
    have hfound : Uncounted count w (findValid env place key' w).2 :=
      .of_path (findValid_along env (uncountedMoves A N lifetime) w).path
    cases hrun : findValid env place key' w with | mk r w1 =>
    rw [hrun] at hfind hfound
    cases hfind with
    | hit e _ hl1 _ hvalid hclock hentries =>
      have hbody : lookupOrCreate env place key' lifetime creator w = (.ok e.value, w1) := by
        rw [lookupOrCreate_eq, bind_ok hrun]
        rfl
      rw [held_ok hbody]
      exact .of_makes (.of_entries hlock hentries hclock) hfound.1
    | miss _ hmiss hexpired hclock hentries =>
      have hcount : count ((creator >>= store env place key' lifetime) w1).2 = count (creator w1).2 :=
        createAndStore_count env A N key' lifetime w1
      obtain ⟨n, hn, hmade⟩ := M.made w1 hfound.2
      obtain ⟨made, r, _, hr, hstore⟩ := createAndStore_cases env A M.apart key' lifetime w1
      have hbody : lookupOrCreate env place key' lifetime creator w = r := by
        rw [lookupOrCreate_eq, bind_ok hrun]
        exact hr
      rw [hr, hmade, hfound.1] at hcount
      have hgone : ∀ v : World, w1.clock ≤ v.clock → key' = key → ∀ t, v.clock < t → ¬ KeptUntil place key t w := by
        rintro v hle rfl t hlt
        exact not_keptUntil_of_expired hlock hexpired (lt_of_le_of_lt hle hlt)
      cases hstore with
      | stored v w2 w' _ hlater hstored =>
        rw [held_ok hbody]
        refine ⟨n, .of_miss hn (hclock.trans hlater) (hgone w' hlater) (fun hne t hk => ?_) (fun he t ht => ?_), hcount⟩
        · obtain ⟨e, he, hle⟩ := hk.entry hlock
          refine Or.inr ⟨e, ?_, hle⟩
          rw [hstored, AList.lookup_insert_ne (Ne.symm hne), hentries]
          exact he
        · subst he
          exact keptUntil_insert hl (hclock.trans hlater) hstored ht
      | failed e w' hc hlater hsame' =>
        rw [held_err hbody]
        exact .of_makes (.of_entries hlock (hsame'.trans hentries) (hclock.trans hlater))
          ((M.failed w1 e w' hc).trans hfound.1)
      | panicked w' hlater hsame' =>
        rw [held_panic hbody]
        have hclock' : (poison (cacheLock place) w').clock = w'.clock := A.clock_poison w'
        have hkept : ∀ t, KeptUntil place key t (poison (cacheLock place) w') := fun t => Or.inl (poisoned_poison _ _)
        exact ⟨n, .of_miss hn (by rw [hclock']; exact hclock.trans hlater) (hgone _ (by rw [hclock']; exact hlater))
          (fun _ t _ => hkept t) (fun _ t _ => hkept t), (N.set _ _).trans hcount⟩

/-! ## Other caches -/

variable (place) in
/-- The cache is left alone, and nothing that is counted was made. -/
def Elsewhere (count : World → Nat) (w w' : World) : Prop := Untouched place w w' ∧ count w' = count w

omit [DecidableEq κ] in
theorem Elsewhere.of_path (path : Relation.ReflTransGen (Elsewhere place count) w w') : Elsewhere place count w w' :=
  path_keeps (I := Elsewhere place count w) (fun _ _ h h' => ⟨h.1.trans h'.1, h'.2.trans h.2⟩) path ⟨.refl w, rfl⟩

theorem Elsewhere.spares (h : Elsewhere place count w w') : Spares place count key d w w' :=
  .of_makes (.of_same h.1.same h.1.clock) h.2

section

variable {κ' ν' : Type} [DecidableEq κ'] {place' : Place World (ExpiringCache κ' ν')} (A : Apart place)
  (A' : Apart place') (N' : Counter place' count) (hother : ∀ c w, place.get (place'.set c w) = place.get w)
include A A' N' hother

omit [DecidableEq κ] in
theorem elsewhereMoves (lifetime : Option Duration) :
    Moves place' lifetime (fun _ _ _ => True) (Elsewhere place count) where
  write a b h := by
    obtain ⟨c, rfl⟩ := h.eq_set
    exact ⟨⟨hother c a, (A'.clock_set c a).ge⟩, N'.set c a⟩
  tick w k := ⟨⟨A.get_tick w k, Nat.le_add_right _ _⟩, N'.tick w k⟩
  get_tick := A'.get_tick
  fresh_tick _ _ _ _ h := h
  fresh_set _ _ _ _ h := h

theorem clearExpired_elsewhere (cleanupInterval : Duration) (w : World) :
    Spares place count key d w (clearExpired env place' cleanupInterval w).2 :=
  (Elsewhere.of_path (clearExpired_along env (elsewhereMoves A A' N' hother none) cleanupInterval w).path).spares

theorem getOrCreate_elsewhere (key' : κ') (lifetime : Option Duration) {creator : Call ν'}
    (hcreator : ∀ w, Along (Elsewhere place count) creator w (fun _ _ => True) (fun _ _ => True) fun _ => False)
    (w : World) : Spares place count key d w (getOrCreate env place' key' lifetime creator w).2 := by
  refine (Elsewhere.of_path (getOrCreate_along env (elsewhereMoves A A' N' hother lifetime) (fun w _ => ?_)
    fun w' _ => hcreator w').path).spares
  exact ⟨⟨hother _ w, (A'.clock_poison w).ge⟩, N'.set _ w⟩

end

end ExpiringCache

/-! ## The calls of a manager -/

/-- A client was created for the key. -/
def KmsEvent.creates (key : ClientKey) : KmsEvent → Bool
  | .createClient config (.ok _) => decide (ClientKey.mk config.keyAccessToken config.kmsInstanceId = key)
  | _ => false

namespace World

/-- The clients created for the key. -/
def clientsCreated (key : ClientKey) (w : World) : Nat := w.log.countP (KmsEvent.creates key)

/-- The KEK caches a manager made for the token. -/
def readCachesMade (m : ManagerId) (key : KekCacheKey) (w : World) : Nat :=
  (List.range w.nextReadCache).countP fun a => decide (w.readCacheOwner a = (m, key.keyAccessToken))

def writeCachesMade (m : ManagerId) (key : KekCacheKey) (w : World) : Nat :=
  (List.range w.nextWriteCache).countP fun a => decide (w.writeCacheOwner a = (m, key.keyAccessToken))

end World

namespace KmsManager

open ExpiringCache

variable (m : ManagerId)

/-- A count that no use of the surroundings and no write of a manager changes. -/
structure Unregistered (count : World → Nat) : Prop where
  tick : ∀ w k, count (w.tick k) = count w
  setManager : ∀ w k, count (w.setManager m k) = count w

section

variable {m} {count : World → Nat} (h : Unregistered m count)
include h

theorem Unregistered.clients : Counter (clientCachePlace m) count :=
  ⟨h.tick, fun _ _ => h.setManager _ _, fun _ _ => rfl⟩

theorem Unregistered.reads : Counter (readCachesPlace m) count := ⟨h.tick, fun _ _ => h.setManager _ _, fun _ _ => rfl⟩

theorem Unregistered.writes : Counter (writeCachesPlace m) count :=
  ⟨h.tick, fun _ _ => h.setManager _ _, fun _ _ => rfl⟩

end

theorem clientsCreated_unregistered (key : ClientKey) : Unregistered m (World.clientsCreated key) :=
  ⟨fun _ _ => rfl, fun _ _ => rfl⟩

theorem readCachesMade_unregistered (key : KekCacheKey) : Unregistered m (World.readCachesMade m key) :=
  ⟨fun _ _ => rfl, fun _ _ => rfl⟩

theorem writeCachesMade_unregistered (key : KekCacheKey) : Unregistered m (World.writeCachesMade m key) :=
  ⟨fun _ _ => rfl, fun _ _ => rfl⟩

/-! What the creators make. -/

section

variable {m}

theorem createClient_maker (key : ClientKey) (config : KmsConnectionConfig) (w : World) :
    Maker (clientCachePlace m) (World.clientsCreated key) w.tokens (createClient env config)
      (if ClientKey.mk (w.tokens config.keyAccessToken) config.kmsInstanceId = key then 1 else 0) where
  apart := createClient_creator env m config
  made v hv := by
    rw [← hv]
    unfold createClient World.clientsCreated
    cases hr : env.createClient v.calls (config.details v) with
    | error e => exact ⟨0, Nat.zero_le _, by simp [World.record, List.countP_append, KmsEvent.creates]⟩
    | ok _ =>
      refine ⟨_, le_refl _, ?_⟩
      simp [World.record, List.countP_append, List.countP_cons, KmsEvent.creates, KmsConnectionConfig.details]
  failed v e v' h := by
    unfold createClient at h
    cases hr : env.createClient v.calls (config.details v) with
    | error e' =>
      rw [hr] at h
      cases h
      simp [World.clientsCreated, World.record, List.countP_append, KmsEvent.creates]
    | ok _ =>
      rw [hr] at h
      cases h

/-- One more address has an owner. -/
theorem countP_owned {owner : ManagerId × String} (f : Nat → ManagerId × String) (n : Nat) (x : ManagerId × String) :
    ((List.range (n + 1)).countP fun a => decide (Function.update f n x a = owner)) =
      ((List.range n).countP fun a => decide (f a = owner)) + if x = owner then 1 else 0 := by
  have hbelow : (List.range n).countP (fun a => decide (Function.update f n x a = owner)) =
      (List.range n).countP fun a => decide (f a = owner) := by
    refine List.countP_congr fun a ha => ?_
    rw [Function.update_of_ne (Nat.ne_of_lt (List.mem_range.mp ha))]
  rw [List.range_succ, List.countP_append, hbelow]
  simp [List.countP_cons]

theorem newReadCache_maker (key : KekCacheKey) (token : String) (tokens : TokenCell → String) :
    Maker (readCachesPlace m) (World.readCachesMade m key) tokens (newReadCache m token)
      (if KekCacheKey.mk token = key then 1 else 0) where
  apart := newReadCache_creator m token
  made v _ := by
    refine ⟨_, le_refl _, (countP_owned v.readCacheOwner v.nextReadCache (m, token)).trans ?_⟩
    cases key
    simp [World.readCachesMade]
  failed v e v' h := by cases h

theorem newWriteCache_maker (key : KekCacheKey) (token : String) (tokens : TokenCell → String) :
    Maker (writeCachesPlace m) (World.writeCachesMade m key) tokens (newWriteCache m token)
      (if KekCacheKey.mk token = key then 1 else 0) where
  apart := newWriteCache_creator m token
  made v _ := by
    refine ⟨_, le_refl _, (countP_owned v.writeCacheOwner v.nextWriteCache (m, token)).trans ?_⟩
    cases key
    simp [World.writeCachesMade]
  failed v e v' h := by cases h

variable {place : Place World (ExpiringCache κ ν)} {count : World → Nat}

theorem createClient_elsewhere (config : KmsConnectionConfig) (hrecord : ∀ w e, place.get (w.record e) = place.get w)
    (hcount : ∀ w e, count (w.record e) = count w) (w : World) :
    Along (Elsewhere place count) (createClient env config) w (fun _ _ => True) (fun _ _ => True) fun _ => False := by
  have hop : ∀ e, Relation.ReflTransGen (Elsewhere place count) w (w.record e) := fun e =>
    .single ⟨⟨hrecord w e, le_refl _⟩, hcount w e⟩
  cases hr : env.createClient w.calls (config.details w) with
  | ok _ =>
    refine Along.of_ok (a := ⟨w.calls, config.details w⟩) ?_
      (hop (.createClient (config.details w) (.ok ⟨w.calls, config.details w⟩))) trivial
    simp only [createClient, hr]
  | error e =>
    refine Along.of_err (e := e) ?_ (hop (.createClient (config.details w) (.error e))) trivial
    simp only [createClient, hr]

theorem newReadCache_elsewhere (token : String) (hsame : ∀ w owner, place.get (w.allocReadCache owner) = place.get w)
    (hcount : ∀ w owner, count (w.allocReadCache owner) = count w) (w : World) :
    Along (Elsewhere place count) (newReadCache m token) w (fun _ _ => True) (fun _ _ => True) fun _ => False :=
  Along.of_ok (a := w.nextReadCache) (t := w.allocReadCache (m, token)) rfl
    (.single ⟨⟨hsame w _, le_refl _⟩, hcount w _⟩) trivial

theorem newWriteCache_elsewhere (token : String) (hsame : ∀ w owner, place.get (w.allocWriteCache owner) = place.get w)
    (hcount : ∀ w owner, count (w.allocWriteCache owner) = count w) (w : World) :
    Along (Elsewhere place count) (newWriteCache m token) w (fun _ _ => True) (fun _ _ => True) fun _ => False :=
  Along.of_ok (a := w.nextWriteCache) (t := w.allocWriteCache (m, token)) rfl
    (.single ⟨⟨hsame w _, le_refl _⟩, hcount w _⟩) trivial

end

/-- What the sections of a manager's calls do to one of its caches. -/
structure Watched [DecidableEq κ] (place : Place World (ExpiringCache κ ν)) (count : World → Nat) (key : κ)
    (d : Duration) : Prop where
  clear : ∀ cleanupInterval w, Spares place count key d w (clearExpiredEntries env m cleanupInterval w).2
  client : ∀ config lifetime, AtLeast d lifetime → ∀ w, Spares place count key d w (getOrCreate env (clientCachePlace m)
    ⟨w.tokens config.keyAccessToken, config.kmsInstanceId⟩ lifetime (createClient env config) w).2
  readCache : ∀ token lifetime, AtLeast d lifetime → ∀ w, Spares place count key d w
    (getOrCreate env (readCachesPlace m) ⟨token⟩ lifetime (newReadCache m token) w).2
  writeCache : ∀ token lifetime, AtLeast d lifetime → ∀ w, Spares place count key d w
    (getOrCreate env (writeCachesPlace m) ⟨token⟩ lifetime (newWriteCache m token) w).2

theorem clients_watched (key : ClientKey) (d : Duration) :
    Watched env m (clientCachePlace m) (World.clientsCreated key) key d := by
  have A := clientCache_apart m
  have U := clientsCreated_unregistered m key
  refine ⟨fun cleanupInterval w => .of_path ?_, fun config lifetime hl w => ?_, fun token lifetime _ w => ?_,
    fun token lifetime _ w => ?_⟩
  · refine clearExpiredEntries_path env m cleanupInterval w (fun i w => ?_) (fun i w => ?_) fun i w => ?_
    · exact .single (clearExpired_spares env A U.clients i w)
    · exact .single (clearExpired_elsewhere env A (readCaches_apart m) U.reads clientCache_readCaches i w)
    · exact .single (clearExpired_elsewhere env A (writeCaches_apart m) U.writes clientCache_writeCaches i w)
  · exact getOrCreate_spares env A U.clients hl w (createClient_maker env key config w)
  · exact getOrCreate_elsewhere env A (readCaches_apart m) U.reads clientCache_readCaches _ lifetime
      (newReadCache_elsewhere token (fun _ _ => rfl) fun _ _ => rfl) w
  · exact getOrCreate_elsewhere env A (writeCaches_apart m) U.writes clientCache_writeCaches _ lifetime
      (newWriteCache_elsewhere token (fun _ _ => rfl) fun _ _ => rfl) w

theorem readCaches_watched (key : KekCacheKey) (d : Duration) :
    Watched env m (readCachesPlace m) (World.readCachesMade m key) key d := by
  have A := readCaches_apart m
  have U := readCachesMade_unregistered m key
  refine ⟨fun cleanupInterval w => .of_path ?_, fun config lifetime _ w => ?_, fun token lifetime hl w => ?_,
    fun token lifetime _ w => ?_⟩
  · refine clearExpiredEntries_path env m cleanupInterval w (fun i w => ?_) (fun i w => ?_) fun i w => ?_
    · exact .single (clearExpired_elsewhere env A (clientCache_apart m) U.clients readCaches_clientCache i w)
    · exact .single (clearExpired_spares env A U.reads i w)
    · exact .single (clearExpired_elsewhere env A (writeCaches_apart m) U.writes readCaches_writeCaches i w)
  · exact getOrCreate_elsewhere env A (clientCache_apart m) U.clients readCaches_clientCache _ lifetime
      (createClient_elsewhere env config (fun _ _ => rfl) fun _ _ => rfl) w
  · exact getOrCreate_spares env A U.reads hl w (newReadCache_maker key token w.tokens)
  · exact getOrCreate_elsewhere env A (writeCaches_apart m) U.writes readCaches_writeCaches _ lifetime
      (newWriteCache_elsewhere token (fun _ _ => rfl) fun _ _ => rfl) w

theorem writeCaches_watched (key : KekCacheKey) (d : Duration) :
    Watched env m (writeCachesPlace m) (World.writeCachesMade m key) key d := by
  have A := writeCaches_apart m
  have U := writeCachesMade_unregistered m key
  refine ⟨fun cleanupInterval w => .of_path ?_, fun config lifetime _ w => ?_, fun token lifetime _ w => ?_,
    fun token lifetime hl w => ?_⟩
  · refine clearExpiredEntries_path env m cleanupInterval w (fun i w => ?_) (fun i w => ?_) fun i w => ?_
    · exact .single (clearExpired_elsewhere env A (clientCache_apart m) U.clients writeCaches_clientCache i w)
    · exact .single (clearExpired_elsewhere env A (readCaches_apart m) U.reads writeCaches_readCaches i w)
    · exact .single (clearExpired_spares env A U.writes i w)
  · exact getOrCreate_elsewhere env A (clientCache_apart m) U.clients writeCaches_clientCache _ lifetime
      (createClient_elsewhere env config (fun _ _ => rfl) fun _ _ => rfl) w
  · exact getOrCreate_elsewhere env A (readCaches_apart m) U.reads writeCaches_readCaches _ lifetime
      (newReadCache_elsewhere token (fun _ _ => rfl) fun _ _ => rfl) w
  · exact getOrCreate_spares env A U.writes hl w (newWriteCache_maker key token w.tokens)

section

variable {env} {m} [DecidableEq κ] {place : Place World (ExpiringCache κ ν)} {count : World → Nat}
  {key : κ} {d : Duration}
  (W : Watched env m place count key d) (config : KmsConnectionConfig) {lifetime : Option Duration}
  (hl : AtLeast d lifetime) (w : World)
include W hl

theorem Watched.getClient : Spares place count key d w (getClient env m config lifetime w).2 :=
  .of_path (bind_path (.single (W.clear lifetime w)) fun _ w1 => .single (W.client config lifetime hl w1))

theorem Watched.getKekReadCache : Spares place count key d w (getKekReadCache env m config lifetime w).2 := by
  refine .of_path (bind_path (.single (W.clear lifetime w)) fun _ w1 => bind_path .refl fun token w2 => ?_)
  rw [unwrap_state]
  exact .single (W.readCache token lifetime hl w2)

theorem Watched.getKekWriteCache : Spares place count key d w (getKekWriteCache env m config lifetime w).2 := by
  refine .of_path (bind_path (.single (W.clear lifetime w)) fun _ w1 => bind_path .refl fun token w2 => ?_)
  rw [unwrap_state]
  exact .single (W.writeCache token lifetime hl w2)

end

end KmsManager

end ParquetKeyManagement
