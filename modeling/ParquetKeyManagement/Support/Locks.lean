/-
  ParquetKeyManagement.Support.Locks — threads that take locks, exclusively (a mutex, or the
  write side of a reader-writer lock) or shared (its read side).

  A `Discipline` says, for a program point, which guards a thread holds there and which lock
  it is asking for. The state of every lock follows from where the threads are: `Admits` is
  when a lock can be taken. Whether a waiting writer holds up a new reader is up to the lock,
  so a request is only `Blocked`, in the sense that it may have to wait, for a reader already
  then.
  - `Exclusion.update`: a thread that takes only what is admitted keeps exclusion.
  - `not_deadlocked`: threads are not all blocked when each waits for one of lower rank.
-/

import Mathlib.Logic.Function.Basic

namespace ParquetKeyManagement.Locks

inductive Mode where
  | shared
  | exclusive
  deriving DecidableEq, Repr

/-- Program points `P`, and what they mean for the locks `L`. -/
structure Discipline (L P : Type) where
  guards : P → List (L × Mode)
  wants : P → Option (L × Mode)

variable {τ L P : Type} (D : Discipline L P) (pc : τ → P)

/-- The lock can be taken in this mode. -/
def Admits (l : L) : Mode → Prop
  | .exclusive => ∀ t mode, (l, mode) ∉ D.guards (pc t)
  | .shared => ∀ t, (l, .exclusive) ∉ D.guards (pc t)

/-- Some thread waits to take the lock exclusively. -/
def Awaited (l : L) : Prop := ∃ t, D.wants (pc t) = some (l, .exclusive)

/-- The thread asks for a lock that cannot be taken, or whose next owner may be a writer. -/
def Blocked (t : τ) : Prop :=
  ∃ l mode, D.wants (pc t) = some (l, mode) ∧ (¬ Admits D pc l mode ∨ (mode = .shared ∧ Awaited D pc l))

/-- Not every thread is done, and every one that is not is blocked. -/
def Deadlocked (done : τ → Prop) : Prop :=
  (∃ t, ¬ done t) ∧ ∀ t, ¬ done t → Blocked D pc t

/-- A lock that is held exclusively is held by nobody else. -/
def Exclusion : Prop := ∀ t t' l mode, (l, .exclusive) ∈ D.guards (pc t) → (l, mode) ∈ D.guards (pc t') → t = t'

variable {D pc}

theorem Exclusion.update [DecidableEq τ] (h : Exclusion D pc) {t : τ} {p : P}
    (hp : ∀ l mode, (l, mode) ∈ D.guards p → (l, mode) ∈ D.guards (pc t) ∨ Admits D pc l mode) :
    Exclusion D (Function.update pc t p) := by
  intro t1 t2 l mode h1 h2
  by_cases e1 : t1 = t
  · by_cases e2 : t2 = t
    · exact e1.trans e2.symm
    · subst e1
      rw [Function.update_self] at h1
      rw [Function.update_of_ne e2] at h2
      rcases hp l .exclusive h1 with hold | hadmits
      · exact h t1 t2 l mode hold h2
      · exact absurd h2 (hadmits t2 mode)
  · rw [Function.update_of_ne e1] at h1
    by_cases e2 : t2 = t
    · subst e2
      rw [Function.update_self] at h2
      rcases hp l mode h2 with hold | hadmits
      · exact h t1 t2 l mode h1 hold
      · cases mode with
        | exclusive => exact absurd h1 (hadmits t1 .exclusive)
        | shared => exact absurd h1 (hadmits t1)
    · rw [Function.update_of_ne e2] at h2
      exact h t1 t2 l mode h1 h2

/-- For whom a blocked thread waits: a thread that holds the lock, or a writer that waits for it. -/
theorem blocked_iff {t : τ} :
    Blocked D pc t ↔ ∃ l mode, D.wants (pc t) = some (l, mode) ∧
      ((∃ t' mode', (l, mode') ∈ D.guards (pc t') ∧ (mode = .shared → mode' = .exclusive)) ∨
        (mode = .shared ∧ Awaited D pc l)) := by
  refine exists_congr fun l => exists_congr fun mode => and_congr_right fun _ => or_congr_left ?_
  cases mode with
  | shared =>
    unfold Admits
    simp
  | exclusive =>
    unfold Admits
    simp

/-- Where each blocked thread waits for an unfinished one of lower rank, some thread is not
    blocked. -/
theorem not_deadlocked {done : τ → Prop} (rank : P → Nat)
    (h : ∀ t, Blocked D pc t → ∃ t', ¬ done t' ∧ rank (pc t') < rank (pc t)) : ¬ Deadlocked D pc done := by
  intro hdead
  obtain ⟨⟨t, ht⟩, hall⟩ := hdead
  -- by induction on the rank, no unfinished thread has any rank
  have hnone : ∀ n t, rank (pc t) = n → ¬ ¬ done t := by
    intro n
    induction n using Nat.strongRecOn with
    | _ n ih =>
      intro t hr hdone
      obtain ⟨t', hdone', hlt⟩ := h t (hall t hdone)
      exact ih _ (hr ▸ hlt) t' rfl hdone'
  exact hnone _ t rfl ht

end ParquetKeyManagement.Locks
