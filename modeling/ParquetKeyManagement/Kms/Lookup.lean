/-
  ParquetKeyManagement.Kms.Lookup — what the sections of an expiring cache do to it.

  `get_or_create` is one section under the cache's mutex; `clear_expired` is two, one for the
  timestamp of the last cleanup and one for the entries, and other calls may come in between.
  - `getOrCreate_cases`: how `get_or_create` ends, and what it leaves (`GetCase`).
  - `CacheOp`: a section of some thread, or anything that leaves the cache alone. A run of a
    cache is a sequence of these; `CacheOp.effect` says what one can do to the entry of a key.
  - `clearExpired_ops`, `clearExpiredEntries_clientOps`: `clear_expired` and a manager's cleanup
    are such sequences, for each of the manager's caches.
-/

import ParquetKeyManagement.Kms.Expiry

namespace ParquetKeyManagement

open Effect

variable (env : Env) {κ ν : Type}

namespace ExpiringCache

variable [DecidableEq κ] (place : Place World (ExpiringCache κ ν))

/-- The cache is apart from the clock. -/
structure Apart : Prop where
  get_tick : ∀ w n, place.get (w.tick n) = place.get w
  clock_set : ∀ c w, (place.set c w).clock = w.clock

/-- What a creator, which runs while the mutex is held, does to the cache and the clock. -/
structure Creator (creator : Call ν) : Prop where
  entries : ∀ w, (entries place).get (creator w).2 = (entries place).get w
  clock : ∀ w, w.clock ≤ (creator w).2.clock

section

omit [DecidableEq κ]

variable {place} (A : Apart place)
include A

theorem Apart.entries_tick (w : World) (n : Nat) : (entries place).get (w.tick n) = (entries place).get w := by
  show ((place.get (w.tick n)).cache).data = _
  rw [A.get_tick]
  rfl

theorem Apart.clock_modify (f : HashMap κ (ExpiringCacheValue ν) → HashMap κ (ExpiringCacheValue ν)) (w : World) :
    ((entries place).modify f w).clock = w.clock := A.clock_set _ _

omit A in
theorem entries_poison (w : World) : (entries place).get (poison (cacheLock place) w) = (entries place).get w := by
  show ((cacheLock place).get ((cacheLock place).modify _ w)).data = _
  rw [Place.get_modify]
  rfl

theorem Apart.clock_poison (w : World) : (poison (cacheLock place) w).clock = w.clock := A.clock_set _ _

end

/-! ## Looking up -/

variable {place} {key : κ} {lifetime : Option Duration} {creator : Call ν} {w : World}

/-- How looking for a valid entry ends: `t` is the reading of the clock at which one was checked. -/
inductive FindCase (place : Place World (ExpiringCache κ ν)) (key : κ) (w : World) :
    Outcome ParquetError (Option ν) × World → Prop
  | hit (e : ExpiringCacheValue ν) (w1 : World) : ((entries place).get w).lookup key = some e →
    e.isValid env w = (.ok true, w1) → ¬ e.ExpiredAt w1.clock → w.clock ≤ w1.clock →
    (entries place).get w1 = (entries place).get w → FindCase place key w (.ok (some e.value), w1)
  | miss (w1 : World) : Misses env place key w w1 →
    (∀ e, ((entries place).get w).lookup key = some e → e.ExpiredAt w1.clock) → w.clock ≤ w1.clock →
    (entries place).get w1 = (entries place).get w → FindCase place key w (.ok none, w1)

theorem isValid_cases (A : Apart place) (e : ExpiringCacheValue ν) (w : World) :
    ∃ valid w1, e.isValid env w = (.ok valid, w1) ∧ (valid = false ↔ e.ExpiredAt w1.clock) ∧ w.clock ≤ w1.clock ∧
      (entries place).get w1 = (entries place).get w := by
  have M : Moves place none (fun _ _ _ => False) fun _ _ => True :=
    ⟨fun _ _ _ => trivial, fun _ _ => trivial, A.get_tick, fun _ _ _ _ h => h, fun _ _ _ _ h => h⟩
  have h := isValid_along env M e w
  rcases hrun : e.isValid env w with ⟨valid | e | _, w1⟩
  · obtain ⟨hclock, hsame, hvalid⟩ := h.run_ok hrun
    exact ⟨valid, w1, rfl, hvalid, hclock, hsame⟩
  · exact (h.run_err hrun).elim
  · exact (h.run_panic hrun).elim

theorem findValid_cases (A : Apart place) (key : κ) (w : World) :
    FindCase env place key w (findValid env place key w) := by
  unfold findValid
  rw [bind_ok (read_run _ _)]
  cases hl : ((entries place).get w).lookup key with
  | none => exact .miss w (Or.inl ⟨hl, rfl⟩) (fun e he => by rw [hl] at he; cases he) (le_refl _) rfl
  | some e =>
    obtain ⟨valid, w1, hrun, hvalid, hclock, hsame⟩ := isValid_cases env A e w
    simp only
    rw [bind_ok hrun]
    cases valid with
    | true => exact .hit e w1 hl hrun (fun he => by cases hvalid.mpr he) hclock hsame
    | false =>
      refine .miss w1 (Or.inr ⟨e, hl, hrun⟩) (fun e' he' => ?_) hclock hsame
      rw [hl] at he'
      cases he'
      exact hvalid.mp rfl

/-- How storing a new value ends: the entry expires a lifetime after the last reading. -/
inductive NewCase (place : Place World (ExpiringCache κ ν)) (value : ν) (lifetime : Option Duration) (w : World) :
    Outcome ParquetError (ExpiringCacheValue ν) × World → Prop
  | ok (w1 : World) : w.clock ≤ w1.clock → (entries place).get w1 = (entries place).get w →
    NewCase place value lifetime w (.ok ⟨value, lifetime.map fun d => w1.clock + d.nanos⟩, w1)
  | panic (w1 : World) : w.clock ≤ w1.clock → (entries place).get w1 = (entries place).get w →
    NewCase place value lifetime w (.panic, w1)

omit [DecidableEq κ] in
theorem new_cases (A : Apart place) (value : ν) (lifetime : Option Duration) (w : World) :
    NewCase place value lifetime w (ExpiringCacheValue.new env value lifetime w) := by
  cases lifetime with
  | none => exact .ok w (le_refl _) rfl
  | some d =>
    have hsame := A.entries_tick w (env.elapsed w.calls)
    have hclock : w.clock ≤ (w.tick (env.elapsed w.calls)).clock := Nat.le_add_right _ _
    by_cases hlim : (w.tick (env.elapsed w.calls)).clock + d.nanos < instantLimit
    · have hrun : ExpiringCacheValue.new env value (some d) w =
          (.ok ⟨value, some ((w.tick (env.elapsed w.calls)).clock + d.nanos)⟩, w.tick (env.elapsed w.calls)) := by
        simp [ExpiringCacheValue.new, expirationAfter, now, bind_run, Instant.checkedAdd, hlim]
      rw [hrun]
      exact .ok _ hclock hsame
    · have hrun : ExpiringCacheValue.new env value (some d) w = (.panic, w.tick (env.elapsed w.calls)) := by
        simp [ExpiringCacheValue.new, expirationAfter, now, bind_run, Instant.checkedAdd, hlim]
      rw [hrun]
      exact .panic _ hclock hsame

/-- How creating an entry and storing it ends. -/
inductive StoreCase (place : Place World (ExpiringCache κ ν)) (key : κ) (lifetime : Option Duration) (creator : Call ν)
    (w : World) : Outcome ParquetError (ExpiringCacheValue ν) → Outcome ParquetError ν × World → Prop
  | stored (v : ν) (w1 w' : World) : creator w = (.ok v, w1) → w.clock ≤ w'.clock →
    (entries place).get w' = ((entries place).get w).insert key ⟨v, lifetime.map fun d => w'.clock + d.nanos⟩ →
    StoreCase place key lifetime creator w (.ok ⟨v, lifetime.map fun d => w'.clock + d.nanos⟩) (.ok v, w')
  | failed (e : ParquetError) (w' : World) : creator w = (.err e, w') → w.clock ≤ w'.clock →
    (entries place).get w' = (entries place).get w → StoreCase place key lifetime creator w (.err e) (.err e, w')
  | panicked (w' : World) : w.clock ≤ w'.clock → (entries place).get w' = (entries place).get w →
    StoreCase place key lifetime creator w .panic (.panic, w')

theorem createAndStore_cases (A : Apart place) (C : Creator place creator) (key : κ) (lifetime : Option Duration)
    (w : World) : ∃ made r,
      ((do
        let value ← creator
        ExpiringCacheValue.new env value lifetime : Call (ExpiringCacheValue ν)) w).1 = made ∧
      (creator >>= store env place key lifetime) w = r ∧ StoreCase place key lifetime creator w made r := by
  have hentries := C.entries w
  have hlater := C.clock w
  refine ⟨_, _, rfl, rfl, ?_⟩
  rcases hc : creator w with ⟨v | e | _, w1⟩ <;> rw [hc] at hentries hlater
  · have hnew := new_cases env A v lifetime w1
    rw [bind_ok hc, bind_ok hc]
    unfold store
    cases hn : ExpiringCacheValue.new env v lifetime w1 with | mk r w2 =>
    rw [hn] at hnew
    cases hnew with
    | ok _ hclock hsame =>
      rw [bind_ok hn, bind_ok (modify_run _ _)]
      -- storing the entry takes no time
      have hc2 := A.clock_modify (fun cache => cache.insert key ⟨v, lifetime.map fun d => w2.clock + d.nanos⟩) w2
      have hstored : StoreCase place key lifetime creator w _ _ := .stored v w1 _ hc
        (hc2.symm ▸ hlater.trans hclock) (by rw [Place.get_modify, hc2, hsame, hentries])
      rw [hc2] at hstored
      exact hstored
    | panic _ hclock hsame =>
      rw [bind_panic hn]
      exact .panicked w2 (hlater.trans hclock) (hsame.trans hentries)
  · rw [bind_err hc, bind_err hc]
    exact .failed e w1 hc hlater hentries
  · rw [bind_panic hc, bind_panic hc]
    exact .panicked w1 hlater hentries

/-! ## `get_or_create` -/

/-- Whether `get_or_create` calls its creator: it finds no valid entry (`lookupOrCreate_eq`). -/
def runsCreator (place : Place World (ExpiringCache κ ν)) (key : κ) (w : World) : Bool :=
  match (findValid env place key w).1 with
  | .ok none => true
  | _ => false

/-- How `get_or_create` ends: with a valid entry, with a new one that was stored, with the
    creator's error, or in a panic. `b` says whether the creator ran. -/
inductive GetCase (place : Place World (ExpiringCache κ ν)) (key : κ) (lifetime : Option Duration) (creator : Call ν)
    (w : World) : Bool → Outcome ParquetError ν × World → Prop
  | hit (e : ExpiringCacheValue ν) (w' : World) : ((entries place).get w).lookup key = some e →
    ¬ e.ExpiredAt w'.clock → w.clock ≤ w'.clock → (entries place).get w' = (entries place).get w →
    GetCase place key lifetime creator w false (.ok e.value, w')
  | created (w1 w2 w' : World) (v : ν) : Misses env place key w w1 →
    (∀ e, ((entries place).get w).lookup key = some e → e.ExpiredAt w1.clock) →
    w.clock ≤ w1.clock → creator w1 = (.ok v, w2) → w1.clock ≤ w'.clock →
    (entries place).get w' = ((entries place).get w).insert key ⟨v, lifetime.map fun d => w'.clock + d.nanos⟩ →
    GetCase place key lifetime creator w true (.ok v, w')
  | failed (w1 w' : World) (e : ParquetError) : Misses env place key w w1 →
    (∀ e, ((entries place).get w).lookup key = some e → e.ExpiredAt w1.clock) →
    w.clock ≤ w1.clock → creator w1 = (.err e, w') → w1.clock ≤ w'.clock →
    (entries place).get w' = (entries place).get w → GetCase place key lifetime creator w true (.err e, w')
  | panicked (b : Bool) (w' : World) : w.clock ≤ w'.clock → (entries place).get w' = (entries place).get w →
    GetCase place key lifetime creator w b (.panic, w')

theorem lookupOrCreate_cases (A : Apart place) (C : Creator place creator) (key : κ) (lifetime : Option Duration)
    (w : World) :
    GetCase env place key lifetime creator w (runsCreator env place key w)
      (lookupOrCreate env place key lifetime creator w) := by
  rw [lookupOrCreate_eq]
  unfold runsCreator
  have hfind := findValid_cases env A key w
  cases hrun : findValid env place key w with | mk r w1 =>
  rw [hrun] at hfind
  cases hfind with
  | hit e _ hl _ hvalid hclock hsame =>
    rw [bind_ok hrun]
    exact .hit e w1 hl hvalid hclock hsame
  | miss _ hmiss hexpired hclock hsame =>
    obtain ⟨made, r, _, hr, hstore⟩ := createAndStore_cases env A C key lifetime w1
    rw [bind_ok hrun]
    simp only
    rw [hr]
    cases hstore with
    | stored v w2 w' hc hlater hentries =>
      exact .created w1 w2 w' v hmiss hexpired hclock hc hlater (by rw [hentries, hsame])
    | failed e w' hc hlater hentries =>
      exact .failed w1 w' e hmiss hexpired hclock hc hlater (hentries.trans hsame)
    | panicked w' hlater hentries => exact .panicked true w' (hclock.trans hlater) (hentries.trans hsame)

theorem getOrCreate_cases (A : Apart place) (C : Creator place creator) (key : κ) (lifetime : Option Duration)
    (w : World) : ∃ ran, runsCreator env place key w = ran ∧ GetCase env place key lifetime creator w ran
      (getOrCreate env place key lifetime creator w) := by
  have hbody := lookupOrCreate_cases env A C key lifetime w
  refine ⟨_, rfl, ?_⟩
  generalize runsCreator env place key w = ran at hbody ⊢
  unfold getOrCreate lock
  split
  · exact .panicked _ _ (le_refl _) rfl
  · rcases hrun : lookupOrCreate env place key lifetime creator w with ⟨v | e | _, w'⟩ <;> rw [hrun] at hbody
    · exact hbody
    · exact hbody
    · cases hbody with
      | panicked _ _ hclock hsame =>
        exact .panicked _ _ (hclock.trans (le_of_eq (A.clock_poison w').symm)) ((entries_poison w').trans hsame)

/-! ## Cleaning -/

/-- Time passes, and all that goes from the cache are entries that have expired. -/
structure Cleans (place : Place World (ExpiringCache κ ν)) (w w' : World) : Prop where
  clock : w.clock ≤ w'.clock
  lookup : ∀ k, ((entries place).get w').lookup k = ((entries place).get w).lookup k ∨
    (((entries place).get w').lookup k = none ∧
      ∀ e, ((entries place).get w).lookup k = some e → e.ExpiredAt w'.clock)

namespace Cleans

variable {w' w'' : World}

theorem of_same (hsame : (entries place).get w' = (entries place).get w) (hclock : w.clock ≤ w'.clock) :
    Cleans place w w' :=
  ⟨hclock, fun k => Or.inl (by rw [hsame])⟩

theorem refl (w : World) : Cleans place w w := of_same rfl (le_refl _)

theorem trans (h : Cleans place w w') (h' : Cleans place w' w'') : Cleans place w w'' := by
  refine ⟨h.clock.trans h'.clock, fun k => ?_⟩
  rcases h.lookup k with h1 | ⟨h1, hexpired⟩
  · rcases h'.lookup k with h2 | ⟨h2, hexpired⟩
    · exact Or.inl (h2.trans h1)
    · exact Or.inr ⟨h2, fun e he => hexpired e (h1.trans he)⟩
  · refine Or.inr ⟨?_, fun e he => (hexpired e he).mono h'.clock⟩
    rcases h'.lookup k with h2 | ⟨h2, _⟩
    · exact h2.trans h1
    · exact h2

theorem of_path (path : Relation.ReflTransGen (Cleans place) w w') : Cleans place w w' :=
  path_keeps (I := Cleans place w) (fun _ _ h h' => h.trans h') path (refl w)

/-- What is found afterwards was there before. -/
theorem kept (h : Cleans place w w') {k : κ} {e : ExpiringCacheValue ν}
    (hl : ((entries place).get w').lookup k = some e) : ((entries place).get w).lookup k = some e := by
  rcases h.lookup k with h1 | ⟨h1, _⟩
  · exact h1.symm.trans hl
  · rw [hl] at h1
    cases h1

/-- The cache's own cleanup. -/
theorem moves (A : Apart place) : Moves place none (fun _ _ _ => False) (Cleans place) where
  write a b h := by
    cases h with
    | stamp t => exact of_same (by simp [entries, cacheLock, mutexData, Place.comp, Place.modify]) (A.clock_set _ _).ge
    | evict ks hks =>
      refine ⟨(A.clock_modify _ a).ge, fun k => ?_⟩
      rw [Place.get_modify, HashMap.lookup_eraseAll, A.clock_modify]
      by_cases hk : k ∈ ks
      · exact Or.inr ⟨if_pos hk, hks k hk⟩
      · exact Or.inl (if_neg hk)
    | store k v hf => exact hf.elim
  tick w n := of_same (A.entries_tick w n) (Nat.le_add_right _ _)
  get_tick := A.get_tick
  fresh_tick _ _ _ _ h := h
  fresh_set _ _ _ _ h := h

end Cleans

/-! ## Runs of a cache -/

/-- A section of some thread on the cache: a `get_or_create` with a key in `P`, one of the two
    of `clear_expired`, or anything else that leaves the cache alone. -/
inductive CacheOp (place : Place World (ExpiringCache κ ν)) (P : κ → Prop) : World → World → Prop
  | get (key : κ) (lifetime : Option Duration) (creator : Call ν) (w : World) : P key → Creator place creator →
    CacheOp place P w (getOrCreate env place key lifetime creator w).2
  | due (cleanupInterval : Duration) (w : World) : CacheOp place P w (cleanupDue env place cleanupInterval w).2
  | remove (w : World) : CacheOp place P w (lock (cacheLock place) (removeExpired env place) w).2
  | between (w w' : World) : (entries place).get w' = (entries place).get w → w.clock ≤ w'.clock →
    CacheOp place P w w'

/-- `clear_expired` as a whole. -/
theorem clearExpired_ops (cleanupInterval : Duration) (P : κ → Prop) (w : World) :
    Relation.ReflTransGen (CacheOp env place P) w (clearExpired env place cleanupInterval w).2 := by
  rw [clearExpired_eq]
  refine bind_path (.single (.due cleanupInterval w)) fun due w1 => ?_
  cases due with
  | true => exact .single (.remove w1)
  | false => exact .refl

/-- The cache is left alone, and time may pass. -/
structure Untouched (place : Place World (ExpiringCache κ ν)) (w w' : World) : Prop where
  same : place.get w' = place.get w
  clock : w.clock ≤ w'.clock

namespace Untouched

omit [DecidableEq κ]

theorem refl (w : World) : Untouched place w w := ⟨rfl, le_refl _⟩

theorem trans {w' w'' : World} (h : Untouched place w w') (h' : Untouched place w' w'') : Untouched place w w'' :=
  ⟨h'.same.trans h.same, h.clock.trans h'.clock⟩

theorem of_path {w' : World} (path : Relation.ReflTransGen (Untouched place) w w') : Untouched place w w' :=
  path_keeps (I := Untouched place w) (fun _ _ h h' => h.trans h') path (refl w)

theorem entries {w' : World} (h : Untouched place w w') :
    (ExpiringCache.entries place).get w' = (ExpiringCache.entries place).get w :=
  congrArg (fun c => c.cache.data) h.same

end Untouched

theorem Untouched.op {w' : World} (h : Untouched place w w') (P : κ → Prop) : CacheOp env place P w w' :=
  .between w w' h.entries h.clock

section

omit [DecidableEq κ]

/-- What happens to another cache leaves this one alone. -/
theorem otherMoves {κ' ν' : Type} [DecidableEq κ'] {place' : Place World (ExpiringCache κ' ν')} (A : Apart place)
    (A' : Apart place') (hother : ∀ c w, place.get (place'.set c w) = place.get w) (lifetime : Option Duration) :
    Moves place' lifetime (fun _ _ _ => True) (Untouched place) where
  write a b h := by
    obtain ⟨c, rfl⟩ := h.eq_set
    exact ⟨hother c a, (A'.clock_set c a).ge⟩
  tick w n := ⟨A.get_tick w n, Nat.le_add_right _ _⟩
  get_tick := A'.get_tick
  fresh_tick _ _ _ _ h := h
  fresh_set _ _ _ _ h := h

variable {κ' ν' : Type} [DecidableEq κ'] {place' : Place World (ExpiringCache κ' ν')} (A : Apart place)
  (A' : Apart place') (hother : ∀ c w, place.get (place'.set c w) = place.get w)
include A A' hother

theorem clearExpired_other (cleanupInterval : Duration) (w : World) :
    Untouched place w (clearExpired env place' cleanupInterval w).2 :=
  .of_path (clearExpired_along env (otherMoves A A' hother none) cleanupInterval w).path

theorem getOrCreate_other (key : κ') (lifetime : Option Duration) {creator : Call ν'}
    (hcreator : ∀ w, Along (Untouched place) creator w (fun _ _ => True) (fun _ _ => True) fun _ => False) (w : World) :
    Untouched place w (getOrCreate env place' key lifetime creator w).2 := by
  refine .of_path (getOrCreate_along env (otherMoves A A' hother lifetime) (fun w _ => ?_) fun w' _ => hcreator w').path
  exact ⟨hother _ w, (A'.clock_poison w).ge⟩

end

/-- What an operation can do to the entry of a key: nothing, or remove it when it has expired, or
    replace it then if the operation is for this key. -/
inductive EntryStep (place : Place World (ExpiringCache κ ν)) (P : κ → Prop) (k : κ) (w w' : World) : Prop
  | same : ((entries place).get w').lookup k = ((entries place).get w).lookup k → EntryStep place P k w w'
  | removed : ((entries place).get w').lookup k = none →
    (∀ e, ((entries place).get w).lookup k = some e → e.ExpiredAt w'.clock) → EntryStep place P k w w'
  | replaced : P k → (∀ e, ((entries place).get w).lookup k = some e → e.ExpiredAt w'.clock) → EntryStep place P k w w'

theorem Cleans.entryStep {w' : World} (h : Cleans place w w') (P : κ → Prop) (k : κ) :
    EntryStep place P k w w' := by
  rcases h.lookup k with h1 | ⟨h1, hexpired⟩
  · exact .same h1
  · exact .removed h1 hexpired

/-- An operation that is no `get_or_create` cleans. -/
theorem CacheOp.cleans {w' : World} (h : CacheOp env place (fun _ => False) w w') (A : Apart place) :
    Cleans place w w' := by
  cases h with
  | get key lifetime creator w hkey _ => exact hkey.elim
  | due cleanupInterval w => exact .of_path (cleanupDue_along env (Cleans.moves A) cleanupInterval w).path
  | remove w => exact .of_path (lockedRemove_along env (Cleans.moves A) w).path
  | between w w' hsame hclock => exact .of_same hsame hclock

theorem CacheOp.cleans_path {w' : World} (path : Relation.ReflTransGen (CacheOp env place fun _ => False) w w')
    (A : Apart place) : Cleans place w w' :=
  path_keeps (I := Cleans place w) (fun _ _ h hop => h.trans (hop.cleans env A)) path (Cleans.refl w)

theorem CacheOp.effect {P : κ → Prop} {w' : World} (h : CacheOp env place P w w') (A : Apart place) :
    w.clock ≤ w'.clock ∧ ∀ k, EntryStep place P k w w' := by
  cases h with
  | get key lifetime creator w hkey C =>
    obtain ⟨ran, _, hcase⟩ := getOrCreate_cases env A C key lifetime w
    cases hrun : getOrCreate env place key lifetime creator w with | mk r w' =>
    rw [hrun] at hcase
    cases hcase with
    | hit e _ _ _ hclock hsame => exact ⟨hclock, fun k => .same (by rw [hsame])⟩
    | created w1 w2 _ v _ hexpired hclock _ hlater hentries =>
      refine ⟨hclock.trans hlater, fun k => ?_⟩
      by_cases hk : k = key
      · subst hk
        exact .replaced hkey fun e he => (hexpired e he).mono hlater
      · exact .same (by rw [hentries, AList.lookup_insert_ne hk])
    | failed w1 _ e _ _ hclock _ hlater hsame => exact ⟨hclock.trans hlater, fun k => .same (by rw [hsame])⟩
    | panicked _ _ hclock hsame => exact ⟨hclock, fun k => .same (by rw [hsame])⟩
  | due cleanupInterval w =>
    have hc : Cleans place w _ := (CacheOp.due cleanupInterval w : CacheOp env place (fun _ => False) w _).cleans env A
    exact ⟨hc.clock, hc.entryStep P⟩
  | remove w =>
    have hc : Cleans place w _ := (CacheOp.remove w : CacheOp env place (fun _ => False) w _).cleans env A
    exact ⟨hc.clock, hc.entryStep P⟩
  | between w w' hsame hclock => exact ⟨hclock, fun k => .same (by rw [hsame])⟩

end ExpiringCache

/-! ## The caches of a manager -/

namespace KmsManager

open ExpiringCache

variable (m : ManagerId)

theorem clientCache_apart : Apart (clientCachePlace m) := ⟨fun _ _ => rfl, fun _ _ => rfl⟩

theorem readCaches_apart : Apart (readCachesPlace m) := ⟨fun _ _ => rfl, fun _ _ => rfl⟩

theorem writeCaches_apart : Apart (writeCachesPlace m) := ⟨fun _ _ => rfl, fun _ _ => rfl⟩

theorem createClient_creator (config : KmsConnectionConfig) :
    Creator (clientCachePlace m) (createClient env config) := by
  refine ⟨fun w => ?_, fun w => ?_⟩ <;> unfold createClient <;> cases env.createClient w.calls (config.details w)
  · rfl
  · rfl
  · exact le_refl _
  · exact le_refl _

theorem newReadCache_creator (token : String) : Creator (readCachesPlace m) (newReadCache m token) :=
  ⟨fun _ => rfl, fun _ => le_refl _⟩

theorem newWriteCache_creator (token : String) : Creator (writeCachesPlace m) (newWriteCache m token) :=
  ⟨fun _ => rfl, fun _ => le_refl _⟩

/-! The caches of a manager are apart from each other. -/

section

variable {m}

theorem clientCache_readCaches (c : ExpiringCache KekCacheKey KekReadCache) (w : World) :
    (clientCachePlace m).get ((readCachesPlace m).set c w) = (clientCachePlace m).get w :=
  (congrArg KmsManager.kmsClientCache (readCachesPlace_set c)).trans rfl

theorem clientCache_writeCaches (c : ExpiringCache KekCacheKey KekWriteCache) (w : World) :
    (clientCachePlace m).get ((writeCachesPlace m).set c w) = (clientCachePlace m).get w :=
  (congrArg KmsManager.kmsClientCache (writeCachesPlace_set c)).trans rfl

theorem readCaches_clientCache (c : ExpiringCache ClientKey KmsClient) (w : World) :
    (readCachesPlace m).get ((clientCachePlace m).set c w) = (readCachesPlace m).get w :=
  (congrArg KmsManager.kekReadCaches (clientCachePlace_set c)).trans rfl

theorem readCaches_writeCaches (c : ExpiringCache KekCacheKey KekWriteCache) (w : World) :
    (readCachesPlace m).get ((writeCachesPlace m).set c w) = (readCachesPlace m).get w :=
  (congrArg KmsManager.kekReadCaches (writeCachesPlace_set c)).trans rfl

theorem writeCaches_clientCache (c : ExpiringCache ClientKey KmsClient) (w : World) :
    (writeCachesPlace m).get ((clientCachePlace m).set c w) = (writeCachesPlace m).get w :=
  (congrArg KmsManager.kekWriteCaches (clientCachePlace_set c)).trans rfl

theorem writeCaches_readCaches (c : ExpiringCache KekCacheKey KekReadCache) (w : World) :
    (writeCachesPlace m).get ((readCachesPlace m).set c w) = (writeCachesPlace m).get w :=
  (congrArg KmsManager.kekWriteCaches (readCachesPlace_set c)).trans rfl

end

variable (cleanupInterval : Option Duration) (w : World)

/-- A manager's cleanup goes along what its cleaning of each cache goes along. -/
theorem clearExpiredEntries_path {R : World → World → Prop}
    (hclients : ∀ d w, Relation.ReflTransGen R w (clearExpired env (clientCachePlace m) d w).2)
    (hread : ∀ d w, Relation.ReflTransGen R w (clearExpired env (readCachesPlace m) d w).2)
    (hwrite : ∀ d w, Relation.ReflTransGen R w (clearExpired env (writeCachesPlace m) d w).2) :
    Relation.ReflTransGen R w (clearExpiredEntries env m cleanupInterval w).2 := by
  cases cleanupInterval with
  | none => exact .refl
  | some d => exact bind_path (hclients d w) fun _ w1 => bind_path (hread d w1) fun _ w2 => hwrite d w2

/-! For each of the caches it is a sequence of operations. -/

theorem clearExpiredEntries_clientOps (P : ClientKey → Prop) :
    Relation.ReflTransGen (CacheOp env (clientCachePlace m) P) w (clearExpiredEntries env m cleanupInterval w).2 := by
  have A := clientCache_apart m
  refine clearExpiredEntries_path env m cleanupInterval w ?_ ?_ ?_
  · exact fun d w => clearExpired_ops env d P w
  · exact fun d w => .single ((clearExpired_other env A (readCaches_apart m) clientCache_readCaches d w).op env P)
  · exact fun d w => .single ((clearExpired_other env A (writeCaches_apart m) clientCache_writeCaches d w).op env P)

theorem clearExpiredEntries_readOps (P : KekCacheKey → Prop) :
    Relation.ReflTransGen (CacheOp env (readCachesPlace m) P) w (clearExpiredEntries env m cleanupInterval w).2 := by
  have A := readCaches_apart m
  refine clearExpiredEntries_path env m cleanupInterval w ?_ ?_ ?_
  · exact fun d w => .single ((clearExpired_other env A (clientCache_apart m) readCaches_clientCache d w).op env P)
  · exact fun d w => clearExpired_ops env d P w
  · exact fun d w => .single ((clearExpired_other env A (writeCaches_apart m) readCaches_writeCaches d w).op env P)

theorem clearExpiredEntries_writeOps (P : KekCacheKey → Prop) :
    Relation.ReflTransGen (CacheOp env (writeCachesPlace m) P) w (clearExpiredEntries env m cleanupInterval w).2 := by
  have A := writeCaches_apart m
  refine clearExpiredEntries_path env m cleanupInterval w ?_ ?_ ?_
  · exact fun d w => .single ((clearExpired_other env A (clientCache_apart m) writeCaches_clientCache d w).op env P)
  · exact fun d w => .single ((clearExpired_other env A (readCaches_apart m) writeCaches_readCaches d w).op env P)
  · exact fun d w => clearExpired_ops env d P w

end KmsManager

end ParquetKeyManagement
