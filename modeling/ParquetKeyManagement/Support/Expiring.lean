/-
  ParquetKeyManagement.Support.Expiring — maps whose entries expire, cleaned up or not.

  An entry is valid up to some time and never again (`Validity`). A map is `Pruned` from another
  when all it lacks are entries that have expired. What a cleanup removes is never looked up with
  success again, so the two answer alike from then on.
  - `getOrMake`: the value of a valid entry, or a new one, which is then stored.
  - `Pruned.getOrMake`: the pruned map answers as the other does, and stays pruned.
  - `Pruned.clean`: so it does when time passes and expired entries are removed.
-/

import ParquetKeyManagement.Support.Effect
import ParquetKeyManagement.Support.HashMap

namespace ParquetKeyManagement.Expiring

open Effect

/-- Up to when an entry is valid. -/
structure Validity (ε τ : Type) [Preorder τ] where
  valid : ε → τ → Bool
  antitone : ∀ e t t', t ≤ t' → valid e t' = true → valid e t = true

variable {κ ε τ ν δ : Type} [DecidableEq κ] [Preorder τ] (V : Validity ε τ)

/-- What is found under the key at the time `t`. -/
def find (m : HashMap κ ε) (k : κ) (t : τ) : Option ε := (m.lookup k).filter fun e => V.valid e t

/-- The value of a valid entry, or else of one that is made and stored; and whether one was made. -/
def getOrMake (value : ε → ν) (m : HashMap κ ε) (k : κ) (t : τ) (made : Outcome δ ε) :
    (Outcome δ ν × Bool) × HashMap κ ε :=
  match find V m k t with
  | some e => ((.ok (value e), false), m)
  | none =>
    match made with
    | .ok e => ((.ok (value e), true), m.insert k e)
    | .err d => ((.err d, true), m)
    | .panic => ((.panic, true), m)

/-- `m` lacks of `r` only entries that are not valid at `t`. -/
structure Pruned (t : τ) (r m : HashMap κ ε) : Prop where
  kept : ∀ k e, m.lookup k = some e → r.lookup k = some e
  lost : ∀ k e, r.lookup k = some e → m.lookup k = none → V.valid e t = false

variable {V} {t t' : τ} {r m : HashMap κ ε} {k : κ}

theorem Validity.expired_later {e : ε} (h : V.valid e t = false) (ht : t ≤ t') : V.valid e t' = false := by
  cases hv : V.valid e t' with
  | false => rfl
  | true =>
    rw [V.antitone e t t' ht hv] at h
    cases h

theorem find_eq_some {e : ε} : find V m k t = some e ↔ m.lookup k = some e ∧ V.valid e t = true :=
  Option.filter_eq_some_iff

theorem find_eq_none : find V m k t = none ↔ ∀ e, m.lookup k = some e → V.valid e t = false := by
  unfold find
  simp [Option.filter_eq_none_iff]

namespace Pruned

theorem refl (m : HashMap κ ε) : Pruned V t m m :=
  ⟨fun _ _ h => h, fun k e h h' => by rw [h] at h'; cases h'⟩

/-- From now on both find the same. -/
theorem find_eq (h : Pruned V t r m) (ht : t ≤ t') (k : κ) : find V m k t' = find V r k t' := by
  unfold find
  cases hm : m.lookup k with
  | some e => rw [h.kept k e hm]
  | none =>
    cases hr : r.lookup k with
    | none => rfl
    | some e =>
      have hlost := V.expired_later (h.lost k e hr hm) ht
      simp [Option.filter, hlost]

theorem insert (h : Pruned V t r m) (k : κ) (e : ε) : Pruned V t (r.insert k e) (m.insert k e) := by
  refine ⟨fun k' e' hl => ?_, fun k' e' hr hm => ?_⟩
  · by_cases hk : k' = k
    · subst hk
      rw [AList.lookup_insert] at hl ⊢
      exact hl
    · rw [AList.lookup_insert_ne hk] at hl ⊢
      exact h.kept k' e' hl
  · by_cases hk : k' = k
    · subst hk
      rw [AList.lookup_insert] at hm
      cases hm
    · rw [AList.lookup_insert_ne hk] at hr hm
      exact h.lost k' e' hr hm

/-- Removing, as time passes, what is then not valid. -/
theorem clean {m' : HashMap κ ε} (h : Pruned V t r m) (ht : t ≤ t')
    (hclean : ∀ k, m'.lookup k = m.lookup k ∨
      (m'.lookup k = none ∧ ∀ e, m.lookup k = some e → V.valid e t' = false)) : Pruned V t' r m' := by
  refine ⟨fun k e hl => ?_, fun k e hr hl => ?_⟩
  · rcases hclean k with h1 | ⟨h1, _⟩
    · exact h.kept k e (h1.symm.trans hl)
    · rw [hl] at h1
      cases h1
  · cases hm : m.lookup k with
    | none => exact V.expired_later (h.lost k e hr hm) ht
    | some e' =>
      have he := h.kept k e' hm
      rw [hr] at he
      cases he
      rcases hclean k with h1 | ⟨_, h1⟩
      · rw [hl, hm] at h1
        cases h1
      · exact h1 e hm

/-- Cleaned up or not, the answer is the same. -/
theorem getOrMake (h : Pruned V t r m) (ht : t ≤ t') (value : ε → ν) (k : κ) (made : Outcome δ ε) :
    (getOrMake V value m k t' made).1 = (getOrMake V value r k t' made).1 ∧
      Pruned V t (getOrMake V value r k t' made).2 (getOrMake V value m k t' made).2 := by
  unfold Expiring.getOrMake
  rw [h.find_eq ht k]
  cases find V r k t' with
  | some e => exact ⟨rfl, h⟩
  | none =>
    cases made with
    | ok e => exact ⟨rfl, h.insert k e⟩
    | err d => exact ⟨rfl, h⟩
    | panic => exact ⟨rfl, h⟩

end Pruned

end ParquetKeyManagement.Expiring
