/-
  ParquetKeyManagement.Support.Arc — reference-counted values with copy-on-write.

  A `Heap` holds values at addresses and knows who refers to which. Cloning an `Arc` makes
  another holder refer to the same address; `makeMut` gives its holder an address of its own,
  copying the value if anyone else refers to it; `assign` writes in place, as one may through
  the reference that `makeMut` returns.
  - `value_makeMut`: `makeMut` changes what nobody sees.
  - `value_assign_ne`: after it, a write in place is seen by its holder alone
    (`unique_makeMut`).
-/

import ParquetKeyManagement.Support.HashMap

namespace ParquetKeyManagement.Arc

/-- Values at addresses, and the holders of references to them. -/
structure Heap (ι α : Type) where
  contents : Nat → α
  next : Nat
  refs : HashMap ι Nat
  allocated : ∀ e ∈ refs.entries, e.2 < next

namespace Heap

variable {ι α : Type}

theorem lookup_lt [DecidableEq ι] {s : Heap ι α} {h : ι} {a : Nat} (hl : s.refs.lookup h = some a) : a < s.next :=
  s.allocated ⟨h, a⟩ (HashMap.mem_entries_iff.mpr hl)

/-- `Arc::strong_count` of the value at an address. -/
def strongCount (s : Heap ι α) (a : Nat) : Nat := (s.refs.entries.filter fun e => e.2 = a).length

variable [DecidableEq ι]

theorem insert_allocated {refs : HashMap ι Nat} {n : Nat} (hrefs : ∀ e ∈ refs.entries, e.2 < n) {h : ι} {a : Nat}
    (ha : a < n) : ∀ e ∈ (refs.insert h a).entries, e.2 < n := by
  intro e he
  obtain ⟨h', b⟩ := e
  have hl := HashMap.mem_entries_iff.mp he
  by_cases hh : h' = h
  · subst hh
    rw [AList.lookup_insert] at hl
    cases hl
    exact ha
  · rw [AList.lookup_insert_ne hh] at hl
    exact hrefs ⟨h', b⟩ (HashMap.mem_entries_iff.mpr hl)

/-- What a holder sees. -/
def value (s : Heap ι α) (h : ι) : Option α := (s.refs.lookup h).map s.contents

/-- One value, with one holder. -/
def single (h : ι) (v : α) : Heap ι α where
  contents _ := v
  next := 1
  refs := (∅ : HashMap ι Nat).insert h 0
  allocated := insert_allocated (fun e he => by cases he) (by omega)

/-- `Arc::clone`: `h'` refers to what `h` does. -/
def share (s : Heap ι α) (h h' : ι) : Heap ι α :=
  match hl : s.refs.lookup h with
  | none => s
  | some a => { s with refs := s.refs.insert h' a, allocated := insert_allocated s.allocated (lookup_lt hl) }

/-- The holder gives its reference up. -/
def drop (s : Heap ι α) (h : ι) : Heap ι α where
  contents := s.contents
  next := s.next
  refs := s.refs.erase h
  allocated := by
    intro e he
    obtain ⟨h', a⟩ := e
    have hl := HashMap.mem_entries_iff.mp he
    by_cases hh : h' = h
    · subst hh; rw [AList.lookup_erase] at hl; cases hl
    · rw [AList.lookup_erase_ne hh] at hl
      exact s.allocated ⟨h', a⟩ (HashMap.mem_entries_iff.mpr hl)

/-- `Arc::make_mut`: the holder gets an address of its own. -/
def makeMut (s : Heap ι α) (h : ι) : Heap ι α :=
  match s.refs.lookup h with
  | none => s
  | some a =>
    if s.strongCount a = 1 then s
    else
      { contents := Function.update s.contents s.next (s.contents a)
        next := s.next + 1
        refs := s.refs.insert h s.next
        allocated := insert_allocated (fun e he => Nat.lt_succ_of_lt (s.allocated e he)) (Nat.lt_succ_self _) }

/-- A write in place. -/
def assign (s : Heap ι α) (h : ι) (v : α) : Heap ι α :=
  match s.refs.lookup h with
  | none => s
  | some a => { s with contents := Function.update s.contents a v }

/-- Nobody else refers to what the holder does. -/
def Unique (s : Heap ι α) (h : ι) : Prop := ∀ h' a, s.refs.lookup h = some a → s.refs.lookup h' = some a → h' = h

variable {s : Heap ι α} {h h' : ι}

/-- A count of one means one holder. -/
theorem unique_of_strongCount {a : Nat} (hl : s.refs.lookup h = some a) (hc : s.strongCount a = 1) : s.Unique h := by
  intro h' b hb hb'
  rw [hl] at hb
  cases hb
  obtain ⟨e, he⟩ := List.length_eq_one_iff.mp hc
  have hmem : ∀ x : ι, s.refs.lookup x = some a → (⟨x, a⟩ : Sigma fun _ : ι => Nat) = e := by
    intro x hx
    have hin : (⟨x, a⟩ : Sigma fun _ : ι => Nat) ∈ s.refs.entries.filter fun e => e.2 = a :=
      List.mem_filter.mpr ⟨HashMap.mem_entries_iff.mpr hx, by simp⟩
    rw [he] at hin
    exact List.mem_singleton.mp hin
  exact congrArg Sigma.fst ((hmem h' hb').trans (hmem h hl).symm)

theorem unique_makeMut (s : Heap ι α) (h : ι) : (s.makeMut h).Unique h := by
  unfold makeMut
  cases hl : s.refs.lookup h with
  | none => intro h' a ha _; rw [hl] at ha; cases ha
  | some a =>
    by_cases hc : s.strongCount a = 1
    · simp only [if_pos hc]
      exact unique_of_strongCount hl hc
    · simp only [if_neg hc]
      intro h' b hb hb'
      by_contra hne
      rw [AList.lookup_insert] at hb
      rw [AList.lookup_insert_ne hne] at hb'
      cases hb
      -- the new address is nobody's
      exact absurd (lookup_lt hb') (lt_irrefl _)

/-- `makeMut` changes what nobody sees. -/
theorem value_makeMut (s : Heap ι α) (h h' : ι) : (s.makeMut h).value h' = s.value h' := by
  unfold makeMut
  cases hl : s.refs.lookup h with
  | none => rfl
  | some a =>
    by_cases hc : s.strongCount a = 1
    · simp only [if_pos hc]
    · simp only [if_neg hc, value]
      by_cases hh : h' = h
      · subst hh
        rw [AList.lookup_insert, hl]
        simp
      · rw [AList.lookup_insert_ne hh]
        cases hl' : s.refs.lookup h' with
        | none => rfl
        | some b => simp [Function.update_of_ne (Nat.ne_of_lt (lookup_lt hl'))]

theorem value_some_iff {v : α} : s.value h = some v ↔ ∃ a, s.refs.lookup h = some a ∧ s.contents a = v :=
  Option.map_eq_some_iff

theorem value_assign (v v' : α) (hv : s.value h = some v') : (s.assign h v).value h = some v := by
  obtain ⟨a, hl, _⟩ := value_some_iff.mp hv
  unfold assign value
  simp [hl]

/-- A write in place of a value that is not shared is seen by nobody else. -/
theorem value_assign_ne (hu : s.Unique h) (v : α) (hne : h' ≠ h) : (s.assign h v).value h' = s.value h' := by
  unfold assign value
  cases hl : s.refs.lookup h with
  | none => rfl
  | some a =>
    cases hl' : s.refs.lookup h' with
    | none => simp
    | some b =>
      have hab : b ≠ a := fun hab => hne (hu h' a hl (hab ▸ hl'))
      simp [Function.update_of_ne hab]

theorem unique_assign (hu : s.Unique h) (v : α) : (s.assign h v).Unique h := by
  unfold assign
  cases hl : s.refs.lookup h with
  | none => exact hu
  | some a => exact hu

theorem value_single (h : ι) (v : α) : (single h v).value h = some v := by
  show (((∅ : HashMap ι Nat).insert h 0).lookup h).map _ = _
  rw [AList.lookup_insert]
  rfl

theorem value_share {v : α} (hv : s.value h = some v) : (s.share h h').value h' = some v := by
  obtain ⟨a, hl, hc⟩ := value_some_iff.mp hv
  unfold share
  split
  · rename_i hnone
    rw [hl] at hnone
    cases hnone
  · rename_i b hb
    rw [hl] at hb
    cases hb
    simp [value, hc]

theorem value_share_ne {x : ι} (hne : x ≠ h') : (s.share h h').value x = s.value x := by
  unfold share
  split
  · rfl
  · simp [value, AList.lookup_insert_ne hne]

theorem value_drop_ne (hne : h' ≠ h) : (s.drop h).value h' = s.value h' := by
  unfold drop value
  rw [AList.lookup_erase_ne hne]

end Heap

end ParquetKeyManagement.Arc
