/-
  ParquetKeyManagement.Kms.NoCleanup — cleaning up an expiring cache is invisible.

  The reference is a cache that never cleans up: it keeps an expired entry until a new one takes
  its place. `Paired` runs both side by side: the same calls of `get_or_create`, with creators
  that may fail, in any order with the sections of `clear_expired` and with whatever else takes
  time. Cleanup is throttled, entries have lifetimes of their own and the clock is read at every
  check, but none of this shows:
  - `Paired.pruned`: the cache is the reference without some entries that have expired.
  - `cleanup_invisible`: every call has the same result in both, and runs its creator in both or
    in neither. An entry is never returned at or after its expiration time; a failed creation
    leaves the cache as it was, and the next call for the key tries again; and once a value is
    stored, no creator runs for its key before the value expires.
-/

import ParquetKeyManagement.Support.Expiring
import ParquetKeyManagement.Kms.Lookup

namespace ParquetKeyManagement

open Effect

variable (env : Env) {κ ν : Type}

namespace ExpiringCache

/-- The result of a call, and whether its creator ran. -/
abbrev Answer (ν : Type) : Type := Outcome ParquetError ν × Bool

/-! ## One call -/

/-- An entry is valid before its expiration time. -/
def validity : Expiring.Validity (ExpiringCacheValue ν) Instant where
  valid e t := e.expirationTime.all fun x => decide (t < x)
  antitone e t t' ht hv := by
    cases hx : e.expirationTime with
    | none => rfl
    | some x =>
      rw [hx] at hv
      exact decide_eq_true (lt_of_le_of_lt ht (of_decide_eq_true hv))

theorem valid_false_iff {e : ExpiringCacheValue ν} {t : Instant} : validity.valid e t = false ↔ e.ExpiredAt t := by
  unfold ExpiringCacheValue.ExpiredAt
  show e.expirationTime.all (fun x => decide (t < x)) = false ↔ _
  cases e.expirationTime with
  | none => simp
  | some x => simp

section

variable [DecidableEq κ] (place : Place World (ExpiringCache κ ν)) (key : κ) (lifetime : Option Duration)
  (creator : Call ν) (w : World)

/-- A reading at which the key may be looked up in the reference: the code's own, where it makes one. -/
def AskedAt (t : Instant) : Prop :=
  w.clock ≤ t ∧ ∀ e x, ((entries place).get w).lookup key = some e → e.expirationTime = some x →
    t = (findValid env place key w).2.clock

/-- The entry that a call makes if it finds none. -/
def made : Outcome ParquetError (ExpiringCacheValue ν) :=
  ((do
    let value ← creator
    ExpiringCacheValue.new env value lifetime : Call (ExpiringCacheValue ν)) (findValid env place key w).2).1

def answer : Answer ν :=
  ((getOrCreate env place key lifetime creator w).1, runsCreator env place key w)

/-- The reference's call: on its own entries, at its own reading of the clock. -/
def reference (entries : HashMap κ (ExpiringCacheValue ν)) (t : Instant) :
    Answer ν × HashMap κ (ExpiringCacheValue ν) :=
  Expiring.getOrMake validity ExpiringCacheValue.value entries key t (made env place key lifetime creator w)

variable {place key lifetime creator w}

/-- The creator runs exactly when no valid entry is found. -/
theorem runsCreator_spec :
    (runsCreator env place key w = false →
      ∀ creator', getOrCreate env place key lifetime creator' w = getOrCreate env place key lifetime creator w) ∧
    (runsCreator env place key w = true → lookupOrCreate env place key lifetime creator w =
      (creator >>= store env place key lifetime) (findValid env place key w).2) := by
  unfold runsCreator
  refine ⟨fun h creator' => ?_, fun h => ?_⟩
  · refine lock_congr ?_
    rw [lookupOrCreate_eq, lookupOrCreate_eq]
    rcases hrun : findValid env place key w with ⟨(_ | v) | e | _, w1⟩ <;> rw [hrun] at h
    · cases h
    · rw [bind_ok hrun, bind_ok hrun]
    · rw [bind_err hrun, bind_err hrun]
    · rw [bind_panic hrun, bind_panic hrun]
  · rw [lookupOrCreate_eq]
    rcases hrun : findValid env place key w with ⟨(_ | v) | e | _, w1⟩ <;> rw [hrun] at h
    · rw [bind_ok hrun]
    · cases h
    · cases h
    · cases h

theorem AskedAt.expired_iff {t : Instant} (ht : AskedAt env place key w t) (e : ExpiringCacheValue ν)
    (hl : ((entries place).get w).lookup key = some e) :
    e.ExpiredAt t ↔ e.ExpiredAt (findValid env place key w).2.clock := by
  unfold ExpiringCacheValue.ExpiredAt
  refine exists_congr fun x => and_congr_right fun hx => ?_
  rw [ht.2 e x hl hx]

/-- On its own entries a call that does not panic does what the reference does on its. -/
theorem getOrCreate_reference (A : Apart place) (C : Creator place creator) {t : Instant}
    (ht : AskedAt env place key w t) (hne : (getOrCreate env place key lifetime creator w).1 ≠ .panic) :
    answer env place key lifetime creator w =
        (reference env place key lifetime creator w ((entries place).get w) t).1 ∧
      (entries place).get (getOrCreate env place key lifetime creator w).2 =
        (reference env place key lifetime creator w ((entries place).get w) t).2 := by
  have hlock : getOrCreate env place key lifetime creator w = _ := lock_of_ne_panic hne
  unfold answer
  rw [hlock] at hne ⊢
  rw [lookupOrCreate_eq] at hne ⊢
  have hexpired := ht.expired_iff
  unfold reference made Expiring.getOrMake runsCreator
  have hfind := findValid_cases env A key w
  cases hrun : findValid env place key w with | mk r w1 =>
  rw [hrun] at hfind hexpired
  cases hfind with
  | hit e _ hl _ hvalid _ hsame =>
    have hfound : Expiring.find validity ((entries place).get w) key t = some e := by
      refine Expiring.find_eq_some.mpr ⟨hl, ?_⟩
      rw [← Bool.not_eq_false, valid_false_iff, hexpired e hl]
      exact hvalid
    rw [bind_ok hrun, hfound]
    exact ⟨rfl, hsame⟩
  | miss _ _ hall _ hsame =>
    have hnone : Expiring.find validity ((entries place).get w) key t = none :=
      Expiring.find_eq_none.mpr fun e hl => valid_false_iff.mpr ((hexpired e hl).mpr (hall e hl))
    obtain ⟨made, r, hmade, hr, hstore⟩ := createAndStore_cases env A C key lifetime w1
    rw [bind_ok hrun] at hne ⊢
    simp only at hne ⊢
    rw [hr] at hne ⊢
    rw [hnone, hmade]
    cases hstore with
    | stored v w2 w3 _ _ hentries =>
      refine ⟨rfl, ?_⟩
      rw [hentries, hsame]
    | failed e w2 _ _ hentries => exact ⟨rfl, hentries.trans hsame⟩
    | panicked w2 _ _ => exact absurd rfl hne

theorem askedAt_own (A : Apart place) : AskedAt env place key w (findValid env place key w).2.clock := by
  refine ⟨?_, fun _ _ _ _ => rfl⟩
  have hfind := findValid_cases env A key w
  cases hrun : findValid env place key w with | mk r w1 =>
  rw [hrun] at hfind
  cases hfind with
  | hit _ _ _ _ _ hclock _ => exact hclock
  | miss _ _ _ hclock _ => exact hclock

end

/-! ## Runs side by side -/

variable [DecidableEq κ] (place : Place World (ExpiringCache κ ν))

/-- Runs of a cache beside its reference, with the answers of both to every call. -/
inductive Paired : World → HashMap κ (ExpiringCacheValue ν) → List (Answer ν × Answer ν) → Prop
  | start (w : World) : (entries place).get w = ∅ → Paired w ∅ []
  | get {w : World} {r : HashMap κ (ExpiringCacheValue ν)} {as : List (Answer ν × Answer ν)} (key : κ)
    (lifetime : Option Duration) (creator : Call ν) (t : Instant) : Paired w r as → Creator place creator →
    AskedAt env place key w t → (getOrCreate env place key lifetime creator w).1 ≠ .panic →
    Paired (getOrCreate env place key lifetime creator w).2 (reference env place key lifetime creator w r t).2
      (as ++ [(answer env place key lifetime creator w, (reference env place key lifetime creator w r t).1)])
  /-- A section of `clear_expired`, to which nothing corresponds in the reference, or time passing. -/
  | other {w : World} {r : HashMap κ (ExpiringCacheValue ν)} {as : List (Answer ν × Answer ν)} (w' : World) :
    Paired w r as → CacheOp env place (fun _ => False) w w' → Paired w' r as

variable {place}

/-- The step and the run: what is in the cache is in the reference, and what is missing has expired;
    so all answers agree. -/
theorem Paired.pruned (A : Apart place) {w : World} {r : HashMap κ (ExpiringCacheValue ν)}
    {as : List (Answer ν × Answer ν)} (h : Paired env place w r as) :
    Expiring.Pruned validity w.clock r ((entries place).get w) ∧ ∀ a ∈ as, a.1 = a.2 := by
  induction h with
  | start w hempty =>
    rw [hempty]
    exact ⟨.refl ∅, fun a ha => by cases ha⟩
  | @get w r as key lifetime creator t _ C ht hne ih =>
    obtain ⟨hpruned, has⟩ := ih
    obtain ⟨hanswer, hentries⟩ := getOrCreate_reference env A C ht hne
    have hsame := hpruned.getOrMake ht.1 ExpiringCacheValue.value key (made env place key lifetime creator w)
    have hclock :=
      ((CacheOp.get key lifetime creator w trivial C : CacheOp env place (fun _ => True) w _).effect env A).1
    refine ⟨?_, fun a ha => ?_⟩
    · rw [hentries]
      exact hsame.2.clean hclock fun k => Or.inl rfl
    · rcases List.mem_append.mp ha with ha | ha
      · exact has a ha
      · rw [List.mem_singleton.mp ha]
        exact hanswer.trans hsame.1
  | other w' _ hop ih =>
    have hcleans := hop.cleans env A
    refine ⟨ih.1.clean hcleans.clock fun k => (hcleans.lookup k).imp_right fun h1 => ⟨h1.1, fun e he => ?_⟩, ih.2⟩
    exact valid_false_iff.mpr (h1.2 e he)

/-! ## What is never returned, and what is kept -/

variable {key : κ} {w w' : World}

/-- No entry of the key is valid. -/
def NoneValid (place : Place World (ExpiringCache κ ν)) (key : κ) (w : World) : Prop :=
  ∀ e, ((entries place).get w).lookup key = some e → e.ExpiredAt w.clock

/-- The entry is stored under the key, or it has expired. -/
def KeptUntilExpired (place : Place World (ExpiringCache κ ν)) (key : κ) (e : ExpiringCacheValue ν) (w : World) :
    Prop :=
  ((entries place).get w).lookup key = some e ∨ e.ExpiredAt w.clock

/-- At its expiration time an entry is no longer found. -/
theorem runsCreator_of_expired (A : Apart place)
    (h : ∀ e, ((entries place).get w).lookup key = some e → e.ExpiredAt (findValid env place key w).2.clock) :
    runsCreator env place key w = true := by
  have hfind := findValid_cases env A key w
  unfold runsCreator
  cases hrun : findValid env place key w with | mk r w1 =>
  rw [hrun] at hfind h
  cases hfind with
  | hit e _ hl _ hvalid _ _ => exact absurd (h e hl) hvalid
  | miss _ _ _ _ _ => rfl

theorem NoneValid.runsCreator (A : Apart place) (h : NoneValid place key w) : runsCreator env place key w = true :=
  runsCreator_of_expired env A fun e he => (h e he).mono (askedAt_own env A).1

theorem NoneValid.op (A : Apart place) (h : NoneValid place key w) (hop : CacheOp env place (· ≠ key) w w') :
    NoneValid place key w' := by
  obtain ⟨hclock, heffect⟩ := hop.effect env A
  intro e he
  rcases heffect key with hsame | ⟨hnone, _⟩ | ⟨hne, _⟩
  · exact (h e (hsame.symm.trans he)).mono hclock
  · rw [hnone] at he
    cases he
  · exact absurd rfl hne

theorem KeptUntilExpired.op (A : Apart place) {e : ExpiringCacheValue ν} (h : KeptUntilExpired place key e w)
    (hop : CacheOp env place (fun _ => True) w w') : KeptUntilExpired place key e w' := by
  obtain ⟨hclock, heffect⟩ := hop.effect env A
  rcases h with hl | hexpired
  · rcases heffect key with hsame | ⟨_, hexpired⟩ | ⟨_, hexpired⟩
    · exact Or.inl (hsame.trans hl)
    · exact Or.inr (hexpired e hl)
    · exact Or.inr (hexpired e hl)
  · exact Or.inr (hexpired.mono hclock)

/-- While an entry is kept, the creator runs only once it has expired. -/
theorem KeptUntilExpired.expired (A : Apart place) {e : ExpiringCacheValue ν} (h : KeptUntilExpired place key e w)
    (hran : ExpiringCache.runsCreator env place key w = true) : e.ExpiredAt (findValid env place key w).2.clock := by
  rcases h with hl | hexpired
  · have hfind := findValid_cases env A key w
    unfold ExpiringCache.runsCreator at hran
    cases hrun : findValid env place key w with | mk r w1 =>
    rw [hrun] at hfind hran
    cases hfind with
    | hit _ _ _ _ _ _ _ => cases hran
    | miss _ _ hall _ _ => exact hall e hl
  · exact hexpired.mono (askedAt_own env A).1

section

variable {lifetime : Option Duration} {creator : Call ν}

/-- What a call returns without creating it is stored, and has not expired. -/
theorem returned_valid (A : Apart place) (C : Creator place creator)
    (hran : runsCreator env place key w = false) {v : ν}
    (h : getOrCreate env place key lifetime creator w = (.ok v, w')) :
    ∃ e, ((entries place).get w).lookup key = some e ∧ e.value = v ∧ ¬ e.ExpiredAt w'.clock := by
  obtain ⟨ran, hran', hcase⟩ := getOrCreate_cases env A C key lifetime w
  rw [h] at hcase
  rw [hran] at hran'
  subst hran'
  cases hcase with
  | hit e _ hl hvalid _ _ => exact ⟨e, hl, rfl, hvalid⟩

/-- What a call stores expires its lifetime after the reading at which it was stored. -/
theorem stored (A : Apart place) (C : Creator place creator) (hran : runsCreator env place key w = true) {v : ν}
    (h : getOrCreate env place key lifetime creator w = (.ok v, w')) :
    ((entries place).get w').lookup key = some ⟨v, lifetime.map fun d => w'.clock + d.nanos⟩ := by
  obtain ⟨ran, hran', hcase⟩ := getOrCreate_cases env A C key lifetime w
  rw [h] at hcase
  rw [hran] at hran'
  subst hran'
  cases hcase with
  | created _ _ _ _ _ _ _ _ _ hentries => rw [hentries, AList.lookup_insert]

/-- A failed creation leaves the cache as it was, without a valid entry of the key. -/
theorem failed_creation (A : Apart place) (C : Creator place creator) {e : ParquetError}
    (h : getOrCreate env place key lifetime creator w = (.err e, w')) :
    (entries place).get w' = (entries place).get w ∧ NoneValid place key w' := by
  obtain ⟨ran, _, hcase⟩ := getOrCreate_cases env A C key lifetime w
  rw [h] at hcase
  cases hcase with
  | failed w1 _ _ _ hall _ _ hlater hsame =>
    refine ⟨hsame, fun x hx => (hall x ?_).mono hlater⟩
    rw [← hsame]
    exact hx

end

/-- Cleaning up is invisible. A call runs its creator when it finds no valid entry, and else the
    creator does not matter. Beside a cache that never cleans up, every call has the same result and
    runs its creator in the same cases. At or after its expiration time an entry is not found;
    a failed creation changes nothing, and the next call for the key runs its creator; and a value
    is stored to expire its lifetime after the reading at which it is, and no creator runs for the
    key before then. -/
theorem cleanup_invisible (A : Apart place) :
    (∀ key lifetime creator w,
      (runsCreator env place key w = false →
        ∀ creator', getOrCreate env place key lifetime creator' w = getOrCreate env place key lifetime creator w) ∧
      (runsCreator env place key w = true → lookupOrCreate env place key lifetime creator w =
        (creator >>= store env place key lifetime) (findValid env place key w).2)) ∧
    (∀ w r as, Paired env place w r as → ∀ a ∈ as, a.1 = a.2) ∧
    (∀ key w e, ((entries place).get w).lookup key = some e → e.ExpiredAt (findValid env place key w).2.clock →
      runsCreator env place key w = true) ∧
    (∀ key lifetime creator w v w', Creator place creator → runsCreator env place key w = false →
      getOrCreate env place key lifetime creator w = (.ok v, w') →
      ∃ e, ((entries place).get w).lookup key = some e ∧ e.value = v ∧ ¬ e.ExpiredAt w'.clock) ∧
    (∀ key lifetime creator w e w', Creator place creator →
      getOrCreate env place key lifetime creator w = (.err e, w') →
      (entries place).get w' = (entries place).get w ∧
        ∀ w'', Relation.ReflTransGen (CacheOp env place (· ≠ key)) w' w'' → runsCreator env place key w'' = true) ∧
    ∀ key lifetime creator w v w', Creator place creator → runsCreator env place key w = true →
      getOrCreate env place key lifetime creator w = (.ok v, w') →
      ((entries place).get w').lookup key = some ⟨v, lifetime.map fun d => w'.clock + d.nanos⟩ ∧
        ∀ w'', Relation.ReflTransGen (CacheOp env place fun _ => True) w' w'' → runsCreator env place key w'' = true →
          ∃ d, lifetime = some d ∧ w'.clock + d.nanos ≤ (findValid env place key w'').2.clock := by
  refine ⟨fun key lifetime creator w => runsCreator_spec env, fun w r as h => (h.pruned env A).2,
    fun key w e hl hexpired => ?_,
    fun key lifetime creator w v w' C hran h => returned_valid env A C hran h,
    fun key lifetime creator w e w' C h => ?_, fun key lifetime creator w v w' C hran h =>
      ⟨stored env A C hran h, fun w'' path hran' => ?_⟩⟩
  · refine runsCreator_of_expired env A fun e' he' => ?_
    rw [hl] at he'
    cases he'
    exact hexpired
  · obtain ⟨hsame, hnone⟩ := failed_creation env A C h
    refine ⟨hsame, fun w'' path => ?_⟩
    exact (path_keeps (I := NoneValid place key) (fun _ _ hi hop => hi.op env A hop) path hnone).runsCreator env A
  · have hstored := stored env A C hran h
    have hkept := path_keeps (I := KeptUntilExpired place key _) (fun _ _ hi hop => hi.op env A hop)
      path (Or.inl hstored)
    obtain ⟨x, hx, hle⟩ := hkept.expired env A hran'
    cases lifetime with
    | none => cases hx
    | some d =>
      cases hx
      exact ⟨d, rfl, hle⟩

/-- A client is cached, expires and is cleaned up; then the cache and the reference both create
    one anew. -/
theorem cleanup_invisible_sample : ∃ w r as, Paired Env.sample (clientCachePlace 0) w r as ∧
    as.map (fun a => a.1.2) = [true, true] ∧ ∀ a ∈ as, a.1 = a.2 := by
  have C := KmsManager.createClient_creator Env.sample 0 sampleConfig
  have A := KmsManager.clientCache_apart 0
  have h0 : Paired Env.sample (clientCachePlace 0) (World.init (fun _ => "DEFAULT") 0) ∅ [] := .start _ rfl
  have h1 := h0.get ⟨"DEFAULT", "instance"⟩ (some (Duration.fromSecs 600)) _ _ C (askedAt_own _ A) (by decide +kernel)
  have h2 := h1.other (World.tick _ 600000000000) (.between _ _ rfl (Nat.le_add_right _ _))
  have h3 := h2.other _ (.remove _)
  have h4 := h3.get ⟨"DEFAULT", "instance"⟩ (some (Duration.fromSecs 600)) _ _ C (askedAt_own _ A) (by decide +kernel)
  exact ⟨_, _, _, h4, by decide +kernel, (cleanup_invisible Env.sample A).2.1 _ _ _ h4⟩

end ExpiringCache

end ParquetKeyManagement
