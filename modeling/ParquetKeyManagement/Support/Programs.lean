/-
  ParquetKeyManagement.Support.Programs — programs that take locks, and threads that run them.

  A `Program` is a tree of atomic sections of a shared state, with the locks it takes and
  gives back in between; what follows a section may depend on the state it ran in. `alone` is
  what a program does when nothing comes in between, and `Pool.Step` lets any thread
  take its next step. `Ordered` is a lock discipline: a lock is taken while only locks of
  smaller rank are held, except for locks that nobody takes exclusively.
  - `Pool.not_deadlocked`: threads that run ordered programs are never all blocked, even
    where a waiting writer holds up new readers.
  - `Pool.Maximal.finishes`: in a run that goes on while it can, finitely many threads finish.
-/

import Mathlib.Data.DFinsupp.WellFounded
import Mathlib.SetTheory.Cardinal.Order
import ParquetKeyManagement.Support.Effect
import ParquetKeyManagement.Support.Locks

namespace ParquetKeyManagement.Locks

open Effect

inductive Program (L σ ρ : Type) where
  | done (r : ρ)
  /-- Runs in one step; `next` is given the state before it. -/
  | atomic (write : σ → σ) (next : σ → Program L σ ρ)
  | acquire (l : L) (mode : Mode) (next : Program L σ ρ)
  | release (l : L) (mode : Mode) (next : Program L σ ρ)

variable {L σ ρ ρ' ε α β : Type}

namespace Program

protected def bind : Program L σ ρ → (ρ → Program L σ ρ') → Program L σ ρ'
  | done r, f => f r
  | atomic write next, f => atomic write fun s => (next s).bind f
  | acquire l mode next, f => acquire l mode (next.bind f)
  | release l mode next, f => release l mode (next.bind f)

/-- Run with nothing in between. -/
def alone : Program L σ ρ → σ → ρ × σ
  | done r, s => (r, s)
  | atomic write next, s => (next s).alone (write s)
  | acquire _ _ next, s => next.alone s
  | release _ _ next, s => next.alone s

/-- Hold a lock over a program. -/
def holding (l : L) (mode : Mode) (p : Program L σ ρ) : Program L σ ρ :=
  .acquire l mode (p.bind fun r => .release l mode (.done r))

theorem alone_bind (p : Program L σ ρ) (f : ρ → Program L σ ρ') (s : σ) :
    (p.bind f).alone s = (f (p.alone s).1).alone (p.alone s).2 := by
  induction p generalizing s with
  | done r => rfl
  | atomic write next ih => exact ih s (write s)
  | acquire l mode next ih => exact ih s
  | release l mode next ih => exact ih s

theorem bind_assoc {ρ'' : Type} (p : Program L σ ρ) (f : ρ → Program L σ ρ') (g : ρ' → Program L σ ρ'') :
    (p.bind f).bind g = p.bind fun r => (f r).bind g := by
  induction p with
  | done r => rfl
  | atomic write next ih => exact congrArg (atomic write) (funext ih)
  | acquire l mode next ih => exact congrArg (acquire l mode) ih
  | release l mode next ih => exact congrArg (release l mode) ih

theorem bind_done (p : Program L σ ρ) : p.bind done = p := by
  induction p with
  | done r => rfl
  | atomic write next ih => exact congrArg (atomic write) (funext ih)
  | acquire l mode next ih => exact congrArg (acquire l mode) ih
  | release l mode next ih => exact congrArg (release l mode) ih

@[simp] theorem alone_holding (l : L) (mode : Mode) (p : Program L σ ρ) (s : σ) :
    (p.holding l mode).alone s = p.alone s := by
  show (p.bind fun r => .release l mode (.done r)).alone s = p.alone s
  rw [alone_bind]
  rfl

end Program

/-! ## Programs that end in an outcome -/

/-- A program that ends in a value, an error or a panic. -/
def Routine (L σ ε α : Type) : Type := Program L σ (Outcome ε α)

namespace Routine

/-- What follows, whatever the outcome. -/
def after (p : Routine L σ ε α) (f : Outcome ε α → Routine L σ ε β) : Routine L σ ε β := Program.bind p f

/-- A program that goes on with the outcome. -/
def andThen (p : Routine L σ ε α) (f : Outcome ε α → Program L σ ρ) : Program L σ ρ := Program.bind p f

def finish (r : Outcome ε α) : Routine L σ ε α := .done r

/-- What follows a value; an error or a panic ends the program. -/
def orElse (f : α → Routine L σ ε β) : Outcome ε α → Routine L σ ε β
  | .ok a => f a
  | .err e => finish (.err e)
  | .panic => finish .panic

instance : Monad (Routine L σ ε) where
  pure a := finish (.ok a)
  bind p f := p.after (orElse f)

theorem bind_assoc {γ : Type} (p : Routine L σ ε α) (f : α → Routine L σ ε β) (g : β → Routine L σ ε γ) :
    p >>= f >>= g = p >>= fun a => f a >>= g := by
  refine (Program.bind_assoc p (orElse f) (orElse g)).trans (congrArg (Program.bind p) (funext fun r => ?_))
  cases r with
  | ok a => rfl
  | err e => rfl
  | panic => rfl

/-- A call that runs in one step. -/
def ofCall (x : Eff σ ε α) : Routine L σ ε α := .atomic (fun s => (x s).2) fun s => finish (x s).1

def holding (l : L) (mode : Mode) (p : Routine L σ ε α) : Routine L σ ε α := Program.holding l mode p

/-- `Result::unwrap`. -/
def unwrap (p : Routine L σ ε α) : Routine L σ ε α :=
  p.after fun
    | .err _ => finish .panic
    | r => finish r

/-- Give the mutex back. -/
def unlock (l : L) (r : Outcome ε α) : Routine L σ ε α := .release l .exclusive (.done r)

/-- The end of a section that holds a mutex: a panic poisons it. -/
def afterMutex (l : L) (m : Place σ (Mutex β)) : Outcome ε α → Routine L σ ε α
  | .panic => .atomic (poison m) fun _ => unlock l .panic
  | r => unlock l r

/-- The section: a poisoned mutex panics. -/
def inMutex (l : L) (m : Place σ (Mutex β)) (p : Routine L σ ε α) (s : σ) : Routine L σ ε α :=
  if (m.get s).poisoned then unlock l .panic else p.after (afterMutex l m)

/-- Hold the mutex at `m`, whose lock is `l`, over a program. -/
def mutex (l : L) (m : Place σ (Mutex β)) (p : Routine L σ ε α) : Routine L σ ε α :=
  .acquire l .exclusive (.atomic id (inMutex l m p))

/-- Run with nothing in between, a program is a call. -/
def alone (p : Routine L σ ε α) : Eff σ ε α := Program.alone p

theorem alone_after (p : Routine L σ ε α) (f : Outcome ε α → Routine L σ ε β) (s : σ) :
    (p.after f).alone s = (f (p.alone s).1).alone (p.alone s).2 := Program.alone_bind p f s

theorem alone_andThen (p : Routine L σ ε α) (f : Outcome ε α → Program L σ ρ) (s : σ) :
    (p.andThen f).alone s = (f (p.alone s).1).alone (p.alone s).2 := Program.alone_bind p f s

@[simp] theorem alone_pure (a : α) : alone (pure a : Routine L σ ε α) = pure a := rfl

@[simp] theorem alone_bind (p : Routine L σ ε α) (f : α → Routine L σ ε β) :
    alone (p >>= f) = alone p >>= fun a => alone (f a) := by
  funext s
  show (p.after (orElse f)).alone s = _
  rw [alone_after, bind_run]
  rcases p.alone s with ⟨_ | _ | _, s'⟩ <;> rfl

@[simp] theorem alone_ofCall (x : Eff σ ε α) : alone (ofCall x : Routine L σ ε α) = x := rfl

@[simp] theorem alone_holding (l : L) (mode : Mode) (p : Routine L σ ε α) : alone (holding l mode p) = alone p :=
  funext fun s => Program.alone_holding l mode p s

@[simp] theorem alone_unwrap (p : Routine L σ ε α) : alone (unwrap p) = Eff.unwrap (alone p) := by
  funext s
  unfold unwrap Eff.unwrap
  rw [alone_after]
  rcases p.alone s with ⟨_ | _ | _, s'⟩ <;> rfl

@[simp] theorem alone_mutex (l : L) (m : Place σ (Mutex β)) (p : Routine L σ ε α) :
    alone (mutex l m p) = lock m (alone p) := by
  funext s
  show (inMutex l m p s).alone s = _
  unfold inMutex lock
  by_cases hp : (m.get s).poisoned = true
  · rw [if_pos hp, if_pos hp]
    rfl
  · rw [if_neg hp, if_neg hp, alone_after]
    rcases p.alone s with ⟨_ | _ | _, s'⟩ <;> rfl

end Routine

/-! ## A discipline of locks -/

/-- Ranks of locks, and the locks that are only ever taken shared. -/
structure LockOrder (L : Type) where
  rank : L → Nat
  height : Nat
  rank_lt : ∀ l, rank l < height
  readOnly : L → Bool

/-- The lock may be taken by a thread that holds these. -/
structure LockOrder.Allows (O : LockOrder L) (held : List (L × Mode)) (l : L) (mode : Mode) : Prop where
  shared : O.readOnly l = true → mode = .shared
  above : O.readOnly l = false → ∀ g ∈ held, O.readOnly g.1 = false → O.rank g.1 < O.rank l

namespace Program

/-- Started with the guards `held`, the program takes locks as allowed, gives back the newest one first, and ends with
    the guards `out`. -/
def Ordered (O : LockOrder L) : List (L × Mode) → Program L σ ρ → List (L × Mode) → Prop
  | held, done _, out => held = out
  | held, atomic _ next, out => ∀ s, (next s).Ordered O held out
  | held, acquire l mode next, out => O.Allows held l mode ∧ next.Ordered O ((l, mode) :: held) out
  | held, release l mode next, out => ∃ rest, held = (l, mode) :: rest ∧ next.Ordered O rest out

variable {O : LockOrder L} {held mid out : List (L × Mode)}

theorem Ordered.bind {p : Program L σ ρ} {f : ρ → Program L σ ρ'} (hp : p.Ordered O held mid)
    (hf : ∀ r, (f r).Ordered O mid out) : (p.bind f).Ordered O held out := by
  induction p generalizing held with
  | done r =>
    obtain rfl : held = mid := hp
    exact hf r
  | atomic write next ih => exact fun s => ih s (hp s)
  | acquire l mode next ih => exact ⟨hp.1, ih hp.2⟩
  | release l mode next ih =>
    obtain ⟨rest, hheld, hp⟩ := hp
    exact ⟨rest, hheld, ih hp⟩

/-- Started with the guards `taken`, the program takes only locks of `R`, shared, and gives them all back. -/
def ReadsOnly (R : L → Prop) : List L → Program L σ ρ → Prop
  | taken, done _ => taken = []
  | taken, atomic _ next => ∀ s, (next s).ReadsOnly R taken
  | taken, acquire l mode next => R l ∧ mode = .shared ∧ next.ReadsOnly R (l :: taken)
  | taken, release l mode next => mode = .shared ∧ ∃ rest, taken = l :: rest ∧ next.ReadsOnly R rest

/-- Such a program may run under any guards, if nobody takes these locks exclusively. -/
theorem ReadsOnly.ordered {R : L → Prop} (hR : ∀ l, R l → O.readOnly l = true) {taken : List L} {p : Program L σ ρ}
    (h : p.ReadsOnly R taken) : p.Ordered O (taken.map (fun l => (l, Mode.shared)) ++ held) held := by
  induction p generalizing taken with
  | done r =>
    obtain rfl : taken = [] := h
    rfl
  | atomic write next ih => exact fun s => ih s (h s)
  | acquire l mode next ih =>
    obtain ⟨hl, rfl, hnext⟩ := h
    refine ⟨⟨fun _ => rfl, fun hfalse => ?_⟩, ih hnext⟩
    rw [hR l hl] at hfalse
    cases hfalse
  | release l mode next ih =>
    obtain ⟨rfl, rest, rfl, hnext⟩ := h
    exact ⟨_, rfl, ih hnext⟩

theorem Ordered.holding {p : Program L σ ρ} {l : L} {mode : Mode} (hl : O.Allows held l mode)
    (hp : p.Ordered O ((l, mode) :: held) ((l, mode) :: held)) : (p.holding l mode).Ordered O held held :=
  ⟨hl, hp.bind fun _ => ⟨held, rfl, rfl⟩⟩

end Program

namespace Routine

variable {O : LockOrder L} {held : List (L × Mode)}

/-- The program gives back all the locks it takes, and takes them as allowed. -/
def Ordered (O : LockOrder L) (held : List (L × Mode)) (p : Routine L σ ε α) : Prop := Program.Ordered O held p held

namespace Ordered

theorem finish (r : Outcome ε α) : (Routine.finish r : Routine L σ ε α).Ordered O held := rfl

theorem pure (a : α) : (pure a : Routine L σ ε α).Ordered O held := rfl

theorem ofCall (x : Eff σ ε α) : (ofCall x : Routine L σ ε α).Ordered O held := fun _ => rfl

theorem after {p : Routine L σ ε α} {f : Outcome ε α → Routine L σ ε β} (hp : p.Ordered O held)
    (hf : ∀ r, (f r).Ordered O held) : (p.after f).Ordered O held := Program.Ordered.bind hp hf

theorem bind {p : Routine L σ ε α} {f : α → Routine L σ ε β} (hp : p.Ordered O held) (hf : ∀ a, (f a).Ordered O held) :
    (p >>= f).Ordered O held := by
  refine hp.after fun r => ?_
  cases r with
  | ok a => exact hf a
  | err e => exact finish _
  | panic => exact finish _

theorem unwrap {p : Routine L σ ε α} (hp : p.Ordered O held) : (Routine.unwrap p).Ordered O held := by
  refine hp.after fun r => ?_
  cases r with
  | ok a => exact finish _
  | err e => exact finish _
  | panic => exact finish _

theorem holding {p : Routine L σ ε α} {l : L} {mode : Mode} (hl : O.Allows held l mode)
    (hp : p.Ordered O ((l, mode) :: held)) : (holding l mode p).Ordered O held := Program.Ordered.holding hl hp

theorem mutex {p : Routine L σ ε α} {l : L} {m : Place σ (Mutex β)} (hl : O.Allows held l .exclusive)
    (hp : p.Ordered O ((l, .exclusive) :: held)) : (mutex l m p).Ordered O held := by
  refine ⟨hl, fun s => ?_⟩
  show Program.Ordered O _ (inMutex l m p s) held
  unfold inMutex
  split
  · exact ⟨held, rfl, rfl⟩
  · have hbody : Program.Ordered O ((l, .exclusive) :: held) p ((l, .exclusive) :: held) := hp
    refine hbody.bind fun r => ?_
    cases r with
    | ok a => exact ⟨held, rfl, rfl⟩
    | err e => exact ⟨held, rfl, rfl⟩
    | panic => exact fun _ => ⟨held, rfl, rfl⟩

end Ordered

end Routine

/-! ## Threads -/

/-- Where a thread is: the guards it holds, the newest first, and what it has still to do. -/
structure Point (L σ ρ : Type) where
  held : List (L × Mode)
  rest : Program L σ ρ

namespace Point

def wants (p : Point L σ ρ) : Option (L × Mode) :=
  match p.rest with
  | .acquire l mode _ => some (l, mode)
  | _ => none

def Finished (p : Point L σ ρ) : Prop := ∃ r, p.rest = .done r

/-- The thread keeps to the order. -/
structure Ordered (O : LockOrder L) (p : Point L σ ρ) : Prop where
  rest : p.rest.Ordered O p.held []
  shared : ∀ g ∈ p.held, O.readOnly g.1 = true → g.2 = .shared

/-- How long the thread may have to wait: the higher the lock it asks for, the shorter; and a reader may wait for a
    writer of the same lock. -/
def wait (O : LockOrder L) (p : Point L σ ρ) : Nat :=
  match p.wants with
  | none => 0
  | some (l, mode) => if O.readOnly l then 0 else 2 * (O.height - O.rank l) + if mode = .shared then 1 else 0

end Point

def threads : Discipline L (Point L σ ρ) := ⟨Point.held, Point.wants⟩

/-- Threads `τ` over a shared state. -/
structure Pool (τ L σ ρ : Type) where
  state : σ
  pc : τ → Point L σ ρ

namespace Pool

variable {τ : Type} [DecidableEq τ]

def init (s : σ) (p : τ → Program L σ ρ) : Pool τ L σ ρ := ⟨s, fun t => ⟨[], p t⟩⟩

/-- A step of the thread `t`. -/
inductive Step (s : Pool τ L σ ρ) (t : τ) : Pool τ L σ ρ → Prop
  | atomic (write : σ → σ) (next : σ → Program L σ ρ) : (s.pc t).rest = .atomic write next →
    Step s t ⟨write s.state, Function.update s.pc t ⟨(s.pc t).held, next s.state⟩⟩
  | acquire (l : L) (mode : Mode) (next : Program L σ ρ) : (s.pc t).rest = .acquire l mode next →
    Admits threads s.pc l mode → Step s t ⟨s.state, Function.update s.pc t ⟨(l, mode) :: (s.pc t).held, next⟩⟩
  | release (l : L) (mode : Mode) (next : Program L σ ρ) (held : List (L × Mode)) :
    (s.pc t).rest = .release l mode next → (s.pc t).held = (l, mode) :: held →
    Step s t ⟨s.state, Function.update s.pc t ⟨held, next⟩⟩

/-- A step of some thread. -/
def Moves (s s' : Pool τ L σ ρ) : Prop := ∃ t, s.Step t s'

abbrev Reach : Pool τ L σ ρ → Pool τ L σ ρ → Prop := Relation.ReflTransGen Moves

variable {O : LockOrder L} {s s' : Pool τ L σ ρ} {t : τ}

omit [DecidableEq τ] in
theorem init_ordered {w : σ} {p : τ → Program L σ ρ} (hp : ∀ t, (p t).Ordered O [] []) :
    ∀ t, ((init w p).pc t).Ordered O :=
  fun t => ⟨hp t, fun _ hg => by cases hg⟩

/-- A step moves one thread, which takes no guard that is not admitted, and keeps to any order it kept to. -/
theorem Step.pc_eq (h : s.Step t s') :
    ∃ p, s'.pc = Function.update s.pc t p ∧
      (∀ l mode, (l, mode) ∈ p.held → (l, mode) ∈ (s.pc t).held ∨ Admits threads s.pc l mode) ∧
      ∀ O : LockOrder L, (s.pc t).Ordered O → p.Ordered O := by
  cases h with
  | atomic write next hpc =>
    refine ⟨_, rfl, fun l mode hg => Or.inl hg, fun O ho => ⟨?_, ho.shared⟩⟩
    have hrest := ho.rest
    rw [hpc] at hrest
    exact hrest s.state
  | acquire l mode next hpc hadmits =>
    refine ⟨_, rfl, fun l' mode' hg => ?_, fun O ho => ?_⟩
    · rcases List.mem_cons.mp hg with he | hg
      · cases he
        exact Or.inr hadmits
      · exact Or.inl hg
    · have hrest := ho.rest
      rw [hpc] at hrest
      refine ⟨hrest.2, fun g hg hreadOnly => ?_⟩
      rcases List.mem_cons.mp hg with rfl | hg
      · exact hrest.1.shared hreadOnly
      · exact ho.shared g hg hreadOnly
  | release l mode next held hpc hheld =>
    have hsub : ∀ g ∈ held, g ∈ (s.pc t).held := by
      intro g hg
      rw [hheld]
      exact List.mem_cons_of_mem _ hg
    refine ⟨_, rfl, fun l' mode' hg => Or.inl (hsub _ hg), fun O ho => ⟨?_, fun g hg => ho.shared g (hsub g hg)⟩⟩
    have hrest := ho.rest
    rw [hpc, hheld] at hrest
    obtain ⟨rest, he, hrest⟩ := hrest
    cases he
    exact hrest

theorem Step.ordered (h : s.Step t s') (ho : ∀ t, (s.pc t).Ordered O) : ∀ t, (s'.pc t).Ordered O := by
  obtain ⟨p, hpc, _, hp⟩ := h.pc_eq
  intro t'
  rw [hpc]
  by_cases he : t' = t
  · rw [he, Function.update_self]
    exact hp O (ho t)
  · rw [Function.update_of_ne he]
    exact ho t'

theorem Reach.ordered (h : Reach s s') (ho : ∀ t, (s.pc t).Ordered O) : ∀ t, (s'.pc t).Ordered O := by
  induction h with
  | refl => exact ho
  | tail _ hm ih =>
    obtain ⟨t, hstep⟩ := hm
    exact hstep.ordered ih

/-- A lock that is held exclusively is held by nobody else. -/
theorem Step.exclusion (h : s.Step t s') (hexcl : Exclusion threads s.pc) : Exclusion threads s'.pc := by
  obtain ⟨p, hpc, hguards, _⟩ := h.pc_eq
  rw [hpc]
  exact hexcl.update hguards

/-! ## Nobody waits for ever -/

theorem wants_eq {p : Point L σ ρ} {l : L} {mode : Mode} (h : p.wants = some (l, mode)) :
    ∃ next, p.rest = .acquire l mode next := by
  unfold Point.wants at h
  split at h
  · cases h
    exact ⟨_, ‹_›⟩
  · cases h

theorem allows_of_wants {p : Point L σ ρ} (ho : p.Ordered O) {l : L} {mode : Mode} (h : p.wants = some (l, mode)) :
    O.Allows p.held l mode := by
  obtain ⟨next, hrest⟩ := wants_eq h
  have := ho.rest
  rw [hrest] at this
  exact this.1

/-- Whoever holds a lock has still to give it back. -/
theorem not_finished_of_held {p : Point L σ ρ} (ho : p.Ordered O) {g : L × Mode} (hg : g ∈ p.held) : ¬ p.Finished := by
  intro hdone
  obtain ⟨r, hr⟩ := hdone
  have hrest := ho.rest
  rw [hr] at hrest
  rw [show p.held = [] from hrest] at hg
  cases hg

theorem not_finished_of_wants {p : Point L σ ρ} {l : L} {mode : Mode} (h : p.wants = some (l, mode)) :
    ¬ p.Finished := by
  intro hdone
  obtain ⟨r, hr⟩ := hdone
  obtain ⟨next, hrest⟩ := wants_eq h
  rw [hr] at hrest
  cases hrest

omit [DecidableEq τ] in
/-- A lock that nobody takes exclusively holds nobody up. -/
theorem not_blocked_readOnly (ho : ∀ t, (s.pc t).Ordered O) {l : L} {mode : Mode} (hl : O.readOnly l = true)
    (hw : (s.pc t).wants = some (l, mode)) : ¬ Blocked threads s.pc t := by
  intro hb
  obtain ⟨l', mode', hw', hwhy⟩ := blocked_iff.mp hb
  change (s.pc t).wants = some (l', mode') at hw'
  rw [hw] at hw'
  cases hw'
  obtain rfl : mode = .shared := (allows_of_wants (ho t) hw).shared hl
  rcases hwhy with ⟨t', mode', hheld, hexclusive⟩ | ⟨_, t', hwaits⟩
  · have h1 : mode' = .shared := (ho t').shared _ hheld hl
    rw [hexclusive rfl] at h1
    cases h1
  · have h1 := (allows_of_wants (ho t') hwaits).shared hl
    cases h1

/-- A thread that holds a lock waits for less than one that asks for it. -/
theorem wait_lt {p q : Point L σ ρ} (hp : p.Ordered O) {l : L} {mode mode' : Mode} (hl : O.readOnly l = false)
    (hheld : (l, mode') ∈ p.held) (hq : q.wants = some (l, mode)) : p.wait O < q.wait O := by
  have hrank := O.rank_lt l
  have hwait : q.wait O = 2 * (O.height - O.rank l) + if mode = .shared then 1 else 0 := by
    simp [Point.wait, hq, hl]
  rw [hwait]
  unfold Point.wait
  cases hw : p.wants with
  | none =>
    show 0 < _
    omega
  | some r =>
    obtain ⟨l1, mode1⟩ := r
    show (if O.readOnly l1 = true then 0 else _) < _
    split
    · omega
    · rename_i hl1
      have hlt : O.rank l < O.rank l1 := (allows_of_wants hp hw).above (by simpa using hl1) _ hheld hl
      have hrank1 := O.rank_lt l1
      split <;> split <;> omega

omit [DecidableEq τ] in
/-- Threads that keep to the order are not all blocked, even where waiting writers hold up readers. -/
theorem not_deadlocked (ho : ∀ t, (s.pc t).Ordered O) : ¬ Deadlocked threads s.pc fun t => (s.pc t).Finished := by
  refine Locks.not_deadlocked (Point.wait O) fun t hb => ?_
  obtain ⟨l, mode, hw, hwhy⟩ := blocked_iff.mp hb
  change (s.pc t).wants = some (l, mode) at hw
  cases hl : O.readOnly l with
  | true => exact absurd hb (not_blocked_readOnly ho hl hw)
  | false =>
    rcases hwhy with ⟨t', mode', hheld, _⟩ | ⟨rfl, t', hwaits⟩
    · exact ⟨t', not_finished_of_held (ho t') hheld, wait_lt (ho t') hl hheld hw⟩
    · -- the writer that is waited for waits for less
      change (s.pc t').wants = some (l, .exclusive) at hwaits
      refine ⟨t', not_finished_of_wants hwaits, ?_⟩
      simp [Point.wait, hw, hwaits, hl]

/-- A thread that is neither finished nor blocked can take a step. -/
theorem step_of_not_blocked (ho : (s.pc t).Ordered O) (hdone : ¬ (s.pc t).Finished)
    (hblocked : ¬ Blocked threads s.pc t) : ∃ s', s.Step t s' := by
  cases hrest : (s.pc t).rest with
  | done r => exact absurd ⟨r, hrest⟩ hdone
  | atomic write next => exact ⟨_, .atomic write next hrest⟩
  | acquire l mode next =>
    by_cases hadmits : Admits threads s.pc l mode
    · exact ⟨_, .acquire l mode next hrest hadmits⟩
    · have hw : (s.pc t).wants = some (l, mode) := by simp [Point.wants, hrest]
      exact absurd ⟨l, mode, hw, Or.inl hadmits⟩ hblocked
  | release l mode next =>
    have h := ho.rest
    rw [hrest] at h
    obtain ⟨held, hheld, _⟩ := h
    exact ⟨_, .release l mode next held hrest hheld⟩

/-! ## Every run ends -/

/-- What is left of a program after its first step. -/
inductive Continues : Program L σ ρ → Program L σ ρ → Prop
  | atomic (write : σ → σ) (next : σ → Program L σ ρ) (s : σ) : Continues (next s) (.atomic write next)
  | acquire (l : L) (mode : Mode) (next : Program L σ ρ) : Continues next (.acquire l mode next)
  | release (l : L) (mode : Mode) (next : Program L σ ρ) : Continues next (.release l mode next)

theorem continues_wellFounded : WellFounded (Continues : Program L σ ρ → Program L σ ρ → Prop) := by
  refine ⟨fun p => ?_⟩
  induction p with
  | done r => exact ⟨_, fun q hq => by cases hq⟩
  | atomic write next ih => exact ⟨_, fun q hq => by cases hq with | atomic _ _ s => exact ih s⟩
  | acquire l mode next ih => exact ⟨_, fun q hq => by cases hq; exact ih⟩
  | release l mode next ih => exact ⟨_, fun q hq => by cases hq; exact ih⟩

theorem Step.continues (h : s.Step t s') :
    ∃ p, s'.pc = Function.update s.pc t p ∧ Continues p.rest (s.pc t).rest := by
  cases h with
  | atomic write next hpc => exact ⟨_, rfl, by rw [hpc]; exact .atomic write next s.state⟩
  | acquire l mode next hpc _ => exact ⟨_, rfl, by rw [hpc]; exact .acquire l mode next⟩
  | release l mode next held hpc _ => exact ⟨_, rfl, by rw [hpc]; exact .release l mode next⟩

/-- Finitely many threads get nearer to their ends with every step. -/
theorem moves_wellFounded [Finite τ] : WellFounded fun s' s : Pool τ L σ ρ => s.Moves s' := by
  let rests : Pool τ L σ ρ → τ → Program L σ ρ := fun s t => (s.pc t).rest
  have hwf : WellFounded (Pi.Lex (WellOrderingRel : τ → τ → Prop) fun {_} => (Continues : Program L σ ρ → _ → Prop)) :=
    Pi.Lex.wellFounded _ fun _ => continues_wellFounded
  refine Subrelation.wf (fun {s' s} hm => ?_) (InvImage.wf rests hwf)
  obtain ⟨t, hstep⟩ := hm
  obtain ⟨p, hpc, hnext⟩ := hstep.continues
  refine ⟨t, fun t' hlt => ?_, ?_⟩
  · have hne : t' ≠ t := fun he => irrefl t (he ▸ hlt)
    show (s'.pc t').rest = (s.pc t').rest
    rw [hpc, Function.update_of_ne hne]
  · show Continues (s'.pc t).rest (s.pc t).rest
    rw [hpc, Function.update_self]
    exact hnext

theorem no_endless_run [Finite τ] (run : Nat → Pool τ L σ ρ) : ∃ n, ¬ (run n).Moves (run (n + 1)) := by
  have : IsWellFounded (Pool τ L σ ρ) fun s' s => s.Moves s' := ⟨moves_wellFounded⟩
  exact WellFounded.not_rel_apply_succ (r := fun s' s : Pool τ L σ ρ => s.Moves s') run

/-- Where no thread can take a step, all are finished. -/
theorem finished_of_stuck (ho : ∀ t, (s.pc t).Ordered O) (hstuck : ∀ s', ¬ s.Moves s') : ∀ t, (s.pc t).Finished := by
  by_contra hsome
  obtain ⟨t, ht⟩ := not_forall.mp hsome
  refine not_deadlocked ho ⟨⟨t, ht⟩, fun t' ht' => ?_⟩
  by_contra hb
  obtain ⟨s', hstep⟩ := step_of_not_blocked (ho t') ht' hb
  exact hstuck s' ⟨t', hstep⟩

/-- The run goes on while some thread can take a step. -/
def Maximal (run : Nat → Pool τ L σ ρ) : Prop :=
  ∀ n, (run n).Moves (run (n + 1)) ∨ (run (n + 1) = run n ∧ ∀ s', ¬ (run n).Moves s')

theorem exists_maximal (s : Pool τ L σ ρ) : ∃ run, run 0 = s ∧ Maximal run := by
  have hnext : ∀ s : Pool τ L σ ρ, ∃ s', s.Moves s' ∨ (s' = s ∧ ∀ s'', ¬ s.Moves s'') := by
    intro s
    by_cases h : ∃ s', s.Moves s'
    · obtain ⟨s', hm⟩ := h
      exact ⟨s', Or.inl hm⟩
    · exact ⟨s, Or.inr ⟨rfl, not_exists.mp h⟩⟩
  choose next hstep using hnext
  refine ⟨fun n => next^[n] s, rfl, fun n => ?_⟩
  show (next^[n] s).Moves (next^[n + 1] s) ∨ (next^[n + 1] s = next^[n] s ∧ _)
  rw [Function.iterate_succ_apply']
  exact hstep _

theorem Maximal.reach {run : Nat → Pool τ L σ ρ} (h : Maximal run) (n : Nat) : Reach (run 0) (run n) := by
  induction n with
  | zero => exact .refl
  | succ n ih =>
    rcases h n with hm | ⟨he, _⟩
    · exact ih.tail hm
    · rw [he]
      exact ih

/-- Finitely many threads that keep to the order all finish. -/
theorem Maximal.finishes [Finite τ] {run : Nat → Pool τ L σ ρ} (h : Maximal run) (ho : ∀ t, ((run 0).pc t).Ordered O) :
    ∃ n, ∀ t, ((run n).pc t).Finished := by
  obtain ⟨n, hn⟩ := no_endless_run run
  rcases h n with hm | ⟨_, hstuck⟩
  · exact absurd hm hn
  · exact ⟨n, finished_of_stuck ((h.reach n).ordered ho) hstuck⟩

/-! ## A thread by itself -/

/-- A lock that a thread may take by the order is free for it when no other thread holds any. -/
theorem admits_of_others {l : L} {mode : Mode} (hl : O.Allows (s.pc t).held l mode)
    (hshared : ∀ g ∈ (s.pc t).held, O.readOnly g.1 = true → g.2 = .shared)
    (hothers : ∀ t', t' ≠ t → (s.pc t').held = []) : Admits threads s.pc l mode := by
  -- what it holds itself is another lock, or shared and never taken otherwise
  have hown : ∀ t' mode', (l, mode') ∈ (s.pc t').held → O.readOnly l = true ∧ mode' = .shared := by
    intro t' mode' hg
    by_cases he : t' = t
    · subst he
      cases hr : O.readOnly l with
      | true => exact ⟨rfl, hshared _ hg hr⟩
      | false => exact absurd (hl.above hr _ hg hr) (lt_irrefl _)
    · rw [hothers t' he] at hg
      cases hg
  cases mode with
  | exclusive =>
    intro t' mode' hg
    have := hl.shared (hown t' mode' hg).1
    cases this
  | shared =>
    intro t' hg
    have := (hown t' .exclusive hg).2
    cases this

end Pool

end ParquetKeyManagement.Locks
