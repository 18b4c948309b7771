/-
  ParquetKeyManagement.Support.HashMap — hash maps with an unspecified iteration order.

  A map is Mathlib's association list with distinct keys (`AList`), read with `lookup` and
  written with `insert` and `erase`. Two maps hold the same entries when their lists are
  permutations of each other, or when they look up the same. Iteration visits the entries
  in an order the map's user cannot know: `inOrder o m` is the visit an `IterationOrder`
  `o` gives, and what a loop computes is stated for every `o` (`inOrder_perm`).
-/

import Mathlib.Data.List.AList
import Mathlib.Data.List.FinRange

namespace ParquetKeyManagement

abbrev HashMap (κ ν : Type) : Type := AList fun _ : κ => ν

/-- For a map of `n` entries, which entry is visited when. -/
abbrev IterationOrder : Type := (n : Nat) → Equiv.Perm (Fin n)

/-- The order in which the entries are stored. -/
def IterationOrder.stored : IterationOrder := fun _ => Equiv.refl _

namespace HashMap

variable {κ ν : Type}

def inOrder (o : IterationOrder) (m : HashMap κ ν) : List (Sigma fun _ : κ => ν) :=
  List.ofFn (m.entries.get ∘ o m.entries.length)

theorem inOrder_perm (o : IterationOrder) (m : HashMap κ ν) : (inOrder o m).Perm m.entries := by
  have h := (o m.entries.length).ofFn_comp_perm m.entries.get
  rwa [List.ofFn_get] at h

theorem mem_inOrder {o : IterationOrder} {m : HashMap κ ν} {e : Sigma fun _ : κ => ν} :
    e ∈ inOrder o m ↔ e ∈ m.entries := (inOrder_perm o m).mem_iff

theorem inOrder_nodupKeys (o : IterationOrder) (m : HashMap κ ν) : (inOrder o m).NodupKeys :=
  ((List.perm_nodupKeys (inOrder_perm o m)).mpr m.nodupKeys)

variable [DecidableEq κ]

theorem mem_entries_iff {m : HashMap κ ν} {k : κ} {v : ν} : (⟨k, v⟩ : Sigma fun _ : κ => ν) ∈ m.entries ↔
    m.lookup k = some v := by
  rw [← AList.mem_lookup_iff, Option.mem_def]

/-- Removing keys, one after another. -/
def eraseAll (ks : List κ) (m : HashMap κ ν) : HashMap κ ν := ks.foldl (fun m k => m.erase k) m

theorem lookup_eraseAll (ks : List κ) (m : HashMap κ ν) (k : κ) :
    (eraseAll ks m).lookup k = if k ∈ ks then none else m.lookup k := by
  induction ks generalizing m with
  | nil => simp [eraseAll]
  | cons x ks ih =>
    have := ih (m.erase x)
    simp only [eraseAll, List.foldl_cons] at this ⊢
    rw [this]
    by_cases e : k = x
    · subst e; simp
    · simp [e, AList.lookup_erase_ne e]

/-- What a visit finds under a key. -/
theorem dlookup_inOrder (o : IterationOrder) (m : HashMap κ ν) (k : κ) : (inOrder o m).dlookup k = m.lookup k :=
  List.perm_dlookup k (inOrder_nodupKeys o m) (inOrder_perm o m)

/-- Inserting entries, one after another. -/
def insertAll (es : List (Sigma fun _ : κ => ν)) (m : HashMap κ ν) : HashMap κ ν :=
  es.foldl (fun m e => m.insert e.1 e.2) m

/-- The last entry of a key counts. -/
theorem lookup_insertAll_last (es : List (Sigma fun _ : κ => ν)) (m : HashMap κ ν) (k : κ) :
    (insertAll es m).lookup k = (es.reverse.dlookup k).or (m.lookup k) := by
  induction es generalizing m with
  | nil => rfl
  | cons e es ih =>
    obtain ⟨k', v⟩ := e
    have := ih (m.insert k' v)
    simp only [insertAll, List.foldl_cons] at this ⊢
    rw [this, List.reverse_cons, List.dlookup_append, Option.or_assoc]
    by_cases hk : k = k'
    · subst hk
      simp
    · simp [hk, AList.lookup_insert_ne hk]

theorem lookup_insertAll {es : List (Sigma fun _ : κ => ν)} (hes : es.NodupKeys) (m : HashMap κ ν) (k : κ) :
    (insertAll es m).lookup k = (es.dlookup k).or (m.lookup k) := by
  have hreverse : es.reverse.NodupKeys := (List.perm_nodupKeys es.reverse_perm).mpr hes
  rw [lookup_insertAll_last, List.perm_dlookup k hreverse es.reverse_perm]

end HashMap

end ParquetKeyManagement
