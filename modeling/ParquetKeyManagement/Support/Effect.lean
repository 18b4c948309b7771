/-
  ParquetKeyManagement.Support.Effect — calls that read and write a shared state and end in
  a value, an error or a panic.

  `Eff σ ε α` is a call over the shared state `σ`: it leaves a state behind whatever its
  outcome is, since a failed or unwound call does not undo what it wrote. A `Place` is a
  part of the state that can be read and written; `lock` runs a body while it holds the
  mutex at a place, panics when the mutex is poisoned, and poisons it when the body panics.

  Reasoning. `Along move x s p q d` says that `x`, run from `s`, only takes steps of the
  relation `move`, that an `ok` result satisfies `p` in the state it leaves and an error
  `q`, and that a panic leaves a state satisfying `d`. A call is taken apart with `Along.bind` and
  `Along.lock`; what every `move` keeps, a path keeps (`path_keeps`). `bind_inv` is the
  inversion used where the outcome itself is at stake. `Takes move x` says only that `x` takes
  steps of `move`, wherever it starts; `Quiet I x` says that `x` keeps `I` unless it panics.
-/

import Mathlib.Logic.Relation

namespace ParquetKeyManagement.Effect

inductive Outcome (ε α : Type) where
  | ok (a : α)
  | err (e : ε)
  | panic
  deriving DecidableEq, Repr

namespace Outcome

def isOk {ε α : Type} : Outcome ε α → Bool
  | .ok _ => true
  | _ => false

def toOption {ε α : Type} : Outcome ε α → Option α
  | .ok a => some a
  | _ => none

theorem ne_panic {ε α : Type} {r : Outcome ε α} (h : r.isOk = true) : r ≠ .panic := by
  intro heq
  subst heq
  cases h

end Outcome

def Eff (σ ε α : Type) : Type := σ → Outcome ε α × σ

variable {σ ε α β : Type}

namespace Eff

protected def pure (a : α) : Eff σ ε α := fun s => (.ok a, s)

protected def bind (x : Eff σ ε α) (f : α → Eff σ ε β) : Eff σ ε β := fun s =>
  match x s with
  | (.ok a, s') => f a s'
  | (.err e, s') => (.err e, s')
  | (.panic, s') => (.panic, s')

instance : Monad (Eff σ ε) where
  pure := Eff.pure
  bind := Eff.bind

def fail (e : ε) : Eff σ ε α := fun s => (.err e, s)

def panic : Eff σ ε α := fun s => (.panic, s)

def read (f : σ → α) : Eff σ ε α := fun s => (.ok (f s), s)

def modify (f : σ → σ) : Eff σ ε Unit := fun s => (.ok (), f s)

/-- `Result::unwrap`: an error becomes a panic. -/
def unwrap (x : Eff σ ε α) : Eff σ ε α := fun s =>
  match x s with
  | (.err _, s') => (.panic, s')
  | r => r

/-- `?` where the caller's errors include the call's. -/
def mapErr {δ : Type} (f : ε → δ) (x : Eff σ ε α) : Eff σ δ α := fun s =>
  match x s with
  | (.ok a, s') => (.ok a, s')
  | (.err e, s') => (.err (f e), s')
  | (.panic, s') => (.panic, s')

/-- An outcome computed without the state. -/
def ofOutcome (r : Outcome ε α) : Eff σ ε α := fun s => (r, s)

def ofExcept : Except ε α → Eff σ ε α
  | .ok a => Eff.pure a
  | .error e => fail e

end Eff

@[simp] theorem pure_run (a : α) (s : σ) : (pure a : Eff σ ε α) s = (.ok a, s) := rfl
@[simp] theorem fail_run (e : ε) (s : σ) : (Eff.fail e : Eff σ ε α) s = (.err e, s) := rfl
@[simp] theorem panic_run (s : σ) : (Eff.panic : Eff σ ε α) s = (.panic, s) := rfl
@[simp] theorem read_run (f : σ → α) (s : σ) : (Eff.read f : Eff σ ε α) s = (.ok (f s), s) := rfl
@[simp] theorem modify_run (f : σ → σ) (s : σ) : (Eff.modify f : Eff σ ε Unit) s = (.ok (), f s) := rfl
@[simp] theorem ofOutcome_run (r : Outcome ε α) (s : σ) : (Eff.ofOutcome r : Eff σ ε α) s = (r, s) := rfl

@[simp] theorem ofExcept_ok (a : α) (s : σ) : (Eff.ofExcept (.ok a) : Eff σ ε α) s = (.ok a, s) := rfl
@[simp] theorem ofExcept_error (e : ε) (s : σ) : (Eff.ofExcept (.error e) : Eff σ ε α) s = (.err e, s) := rfl

theorem mapErr_eq_ok {δ : Type} {f : ε → δ} {x : Eff σ ε α} {s s' : σ} {a : α} (h : Eff.mapErr f x s = (.ok a, s')) :
    x s = (.ok a, s') := by
  unfold Eff.mapErr at h
  rcases hx : x s with ⟨_ | _ | _, s1⟩
  · rw [hx] at h; cases h; rfl
  · rw [hx] at h; cases h
  · rw [hx] at h; cases h

theorem ofExcept_eq_ok {x : Except ε α} {s s' : σ} {a : α} (h : Eff.ofExcept x s = (.ok a, s')) :
    x = .ok a ∧ s' = s := by
  cases x with
  | ok b => cases h; exact ⟨rfl, rfl⟩
  | error e => cases h

theorem exists_ok {x : Eff σ ε α} {s : σ} (h : (x s).1.isOk = true) : ∃ a t, x s = (.ok a, t) := by
  rcases hx : x s with ⟨a | e | _, t⟩
  · exact ⟨a, t, rfl⟩
  · rw [hx] at h; cases h
  · rw [hx] at h; cases h

theorem unwrap_state (x : Eff σ ε α) (s : σ) : (Eff.unwrap x s).2 = (x s).2 := by
  unfold Eff.unwrap
  rcases x s with ⟨a | e | _, s'⟩ <;> rfl

theorem bind_run (x : Eff σ ε α) (f : α → Eff σ ε β) (s : σ) :
    (x >>= f) s = match x s with
      | (.ok a, s') => f a s'
      | (.err e, s') => (.err e, s')
      | (.panic, s') => (.panic, s') := rfl

theorem bind_ok {x : Eff σ ε α} {f : α → Eff σ ε β} {s s' : σ} {a : α} (h : x s = (.ok a, s')) :
    (x >>= f) s = f a s' := by rw [bind_run, h]

theorem bind_err {x : Eff σ ε α} {f : α → Eff σ ε β} {s s' : σ} {e : ε} (h : x s = (.err e, s')) :
    (x >>= f) s = (.err e, s') := by rw [bind_run, h]

theorem bind_panic {x : Eff σ ε α} {f : α → Eff σ ε β} {s s' : σ} (h : x s = (.panic, s')) :
    (x >>= f) s = (.panic, s') := by rw [bind_run, h]

theorem bind_assoc {γ : Type} (x : Eff σ ε α) (f : α → Eff σ ε β) (g : β → Eff σ ε γ) :
    x >>= f >>= g = x >>= fun a => f a >>= g := by
  funext s
  rcases hx : x s with ⟨a | e | _, s1⟩
  · rw [bind_run (x >>= f), bind_ok hx, bind_ok hx, bind_run]
  · rw [bind_err (bind_err hx), bind_err hx]
  · rw [bind_panic (bind_panic hx), bind_panic hx]

/-- How a sequence of two calls can end. -/
theorem bind_inv {x : Eff σ ε α} {f : α → Eff σ ε β} {s s' : σ} {r : Outcome ε β} (h : (x >>= f) s = (r, s')) :
    (∃ a s1, x s = (.ok a, s1) ∧ f a s1 = (r, s')) ∨ (∃ e, x s = (.err e, s') ∧ r = .err e) ∨
      (x s = (.panic, s') ∧ r = .panic) := by
  rw [bind_run] at h
  rcases hx : x s with ⟨a | e | _, s1⟩
  · rw [hx] at h; exact Or.inl ⟨a, s1, rfl, h⟩
  · rw [hx] at h; cases h; exact Or.inr (Or.inl ⟨e, rfl, rfl⟩)
  · rw [hx] at h; cases h; exact Or.inr (Or.inr ⟨rfl, rfl⟩)

/-- A sequence of two calls that succeeds. -/
theorem bind_eq_ok {x : Eff σ ε α} {f : α → Eff σ ε β} {s s' : σ} {b : β} (h : (x >>= f) s = (.ok b, s')) :
    ∃ a s1, x s = (.ok a, s1) ∧ f a s1 = (.ok b, s') := by
  rcases bind_inv h with h | ⟨e, _, h⟩ | ⟨_, h⟩
  · exact h
  · cases h
  · cases h

/-- A sequence of two calls panics in its first or in its second part. -/
theorem bind_panic_iff {x : Eff σ ε α} {f : α → Eff σ ε β} {s : σ} :
    ((x >>= f) s).1 = .panic ↔ (x s).1 = .panic ∨ ∃ a s1, x s = (.ok a, s1) ∧ (f a s1).1 = .panic := by
  rcases hx : x s with ⟨a | e | _, s1⟩
  · rw [bind_ok hx]
    constructor
    · intro h; exact Or.inr ⟨a, s1, rfl, h⟩
    · intro hcases
      rcases hcases with h | ⟨a', s', h, hf⟩
      · cases h
      · cases h; exact hf
  · rw [bind_err hx]
    constructor
    · intro h; cases h
    · rintro (h | ⟨a', s', h, _⟩) <;> cases h
  · rw [bind_panic hx]
    exact ⟨fun _ => Or.inl rfl, fun _ => rfl⟩

/-! ## Places and locks -/

/-- A part of the state that can be read and written. -/
structure Place (σ α : Type) where
  get : σ → α
  set : α → σ → σ
  get_set : ∀ a s, get (set a s) = a

attribute [simp] Place.get_set

namespace Place

def modify (p : Place σ α) (f : α → α) (s : σ) : σ := p.set (f (p.get s)) s

/-- The part `q` of the part `p`. -/
def comp (p : Place σ α) (q : Place α β) : Place σ β where
  get s := q.get (p.get s)
  set b s := p.set (q.set b (p.get s)) s
  get_set b s := by simp

@[simp] theorem get_modify (p : Place σ α) (f : α → α) (s : σ) : p.get (p.modify f s) = f (p.get s) := by
  simp [modify]

end Place

/-- A call over a part of the state. -/
def Eff.within {τ : Type} (p : Place σ τ) (x : Eff τ ε α) : Eff σ ε α := fun s =>
  ((x (p.get s)).1, p.set (x (p.get s)).2 s)

/-- What a mutex guards, and whether a holder panicked. -/
structure Mutex (α : Type) where
  data : α
  poisoned : Bool
  deriving DecidableEq, Repr

def Mutex.new (a : α) : Mutex α := ⟨a, false⟩

def poison (m : Place σ (Mutex α)) (s : σ) : σ := m.modify (fun mu => { mu with poisoned := true }) s

/-- The rest of a section that holds the mutex at `m`, up to the guard's drop. -/
def held (m : Place σ (Mutex α)) (body : Eff σ ε β) : Eff σ ε β := fun s =>
  match body s with
  | (.panic, s') => (.panic, poison m s')
  | r => r

/-- Run `body` with the mutex at `m` held: `m.lock().unwrap()` up to the guard's drop. -/
def lock (m : Place σ (Mutex α)) (body : Eff σ ε β) : Eff σ ε β := fun s =>
  if (m.get s).poisoned then (.panic, s)
  else match body s with
    | (.panic, s') => (.panic, poison m s')
    | r => r

@[simp] theorem poisoned_poison (m : Place σ (Mutex α)) (s : σ) : (m.get (poison m s)).poisoned = true := by
  simp [poison]

theorem lock_eq_held {m : Place σ (Mutex α)} {body : Eff σ ε β} {s : σ} (h : (m.get s).poisoned = false) :
    lock m body s = held m body s := by
  unfold lock held
  rw [h]
  rfl

theorem held_ok {m : Place σ (Mutex α)} {body : Eff σ ε β} {s s' : σ} {b : β} (h : body s = (.ok b, s')) :
    held m body s = (.ok b, s') := by rw [held, h]

theorem held_err {m : Place σ (Mutex α)} {body : Eff σ ε β} {s s' : σ} {e : ε} (h : body s = (.err e, s')) :
    held m body s = (.err e, s') := by rw [held, h]

theorem held_panic {m : Place σ (Mutex α)} {body : Eff σ ε β} {s s' : σ} (h : body s = (.panic, s')) :
    held m body s = (.panic, poison m s') := by rw [held, h]

theorem lock_poisoned {m : Place σ (Mutex α)} {body : Eff σ ε β} {s : σ} (h : (m.get s).poisoned = true) :
    lock m body s = (.panic, s) := by simp [lock, h]

/-- A mutex that is fine adds no panic to the body's. -/
theorem lock_panic_iff {m : Place σ (Mutex α)} {body : Eff σ ε β} {s : σ} (h : (m.get s).poisoned = false) :
    (lock m body s).1 = .panic ↔ (body s).1 = .panic := by
  unfold lock
  rw [h]
  rcases body s with ⟨_ | _ | _, _⟩ <;> simp

theorem lock_ok {m : Place σ (Mutex α)} {body : Eff σ ε β} {s s' : σ} {b : β}
    (h : lock m body s = (.ok b, s')) : body s = (.ok b, s') := by
  unfold lock at h
  split at h
  · cases h
  · rcases hb : body s with ⟨_ | _ | _, s1⟩ <;> rw [hb] at h <;> simp_all

theorem lock_err {m : Place σ (Mutex α)} {body : Eff σ ε β} {s s' : σ} {e : ε}
    (h : lock m body s = (.err e, s')) : body s = (.err e, s') := by
  unfold lock at h
  split at h
  · cases h
  · rcases hb : body s with ⟨_ | _ | _, s1⟩ <;> rw [hb] at h <;> simp_all

/-- What a section under a lock leaves. -/
theorem lock_state (m : Place σ (Mutex α)) (body : Eff σ ε β) (s : σ) :
    (lock m body s).2 = s ∨ (lock m body s).2 = (body s).2 ∨ (lock m body s).2 = poison m (body s).2 := by
  unfold lock
  by_cases hp : (m.get s).poisoned = true
  · rw [if_pos hp]; exact Or.inl rfl
  · rw [if_neg hp]
    rcases body s with ⟨_ | _ | _, s1⟩
    · exact Or.inr (Or.inl rfl)
    · exact Or.inr (Or.inl rfl)
    · exact Or.inr (Or.inr rfl)

theorem lock_of_ne_panic {m : Place σ (Mutex α)} {body : Eff σ ε β} {s : σ} (h : (lock m body s).1 ≠ .panic) :
    lock m body s = body s := by
  rcases hl : lock m body s with ⟨b | e | _, s'⟩
  · exact (lock_ok hl).symm
  · exact (lock_err hl).symm
  · exact absurd (by rw [hl]) h

theorem lock_congr {m : Place σ (Mutex α)} {body body' : Eff σ ε β} {s : σ} (h : body s = body' s) :
    lock m body s = lock m body' s := by
  unfold lock
  rw [h]

theorem lock_not_panic {m : Place σ (Mutex α)} {body : Eff σ ε β} {s : σ} (h : (m.get s).poisoned = false)
    (hb : (body s).1 ≠ .panic) : lock m body s = body s := by
  unfold lock
  rcases hbody : body s with ⟨_ | _ | _, s1⟩ <;> simp_all

/-! ## Calls that move along a relation -/

/-- Run from `s`, `x` only takes `move`s; an `ok` result satisfies `p`, an error `q`, and a
    panic leaves a state satisfying `d`. -/
structure Along (move : σ → σ → Prop) (x : Eff σ ε α) (s : σ) (p : α → σ → Prop) (q : ε → σ → Prop)
    (d : σ → Prop) : Prop where
  path : Relation.ReflTransGen move s (x s).2
  ok : ∀ a, (x s).1 = .ok a → p a (x s).2
  err : ∀ e, (x s).1 = .err e → q e (x s).2
  panic : (x s).1 = .panic → d (x s).2

namespace Along

variable {move move' : σ → σ → Prop} {x : Eff σ ε α} {s t : σ} {p p' : α → σ → Prop} {q q' : ε → σ → Prop}
  {d d' : σ → Prop}

theorem of_ok {a : α} (h : x s = (.ok a, t)) (path : Relation.ReflTransGen move s t) (ha : p a t) :
    Along move x s p q d := by
  refine ⟨by rw [h]; exact path, fun b hb => ?_, fun e he => ?_, fun hb => ?_⟩
  · rw [h] at hb ⊢; cases hb; exact ha
  · rw [h] at he; cases he
  · rw [h] at hb; cases hb

theorem of_err {e : ε} (h : x s = (.err e, t)) (path : Relation.ReflTransGen move s t) (he : q e t) :
    Along move x s p q d := by
  refine ⟨by rw [h]; exact path, fun b hb => ?_, fun e' he' => ?_, fun hb => ?_⟩
  · rw [h] at hb; cases hb
  · rw [h] at he' ⊢; cases he'; exact he
  · rw [h] at hb; cases hb

theorem of_panic (h : x s = (.panic, t)) (path : Relation.ReflTransGen move s t) (hd : d t) :
    Along move x s p q d := by
  refine ⟨by rw [h]; exact path, fun b hb => ?_, fun e he => ?_, fun _ => by rw [h]; exact hd⟩
  · rw [h] at hb; cases hb
  · rw [h] at he; cases he

theorem run_path {r : Outcome ε α} (h : Along move x s p q d) (hx : x s = (r, t)) :
    Relation.ReflTransGen move s t := by
  have := h.path; rwa [hx] at this

theorem run_ok {a : α} (h : Along move x s p q d) (hx : x s = (.ok a, t)) : p a t := by
  have := h.ok a (by rw [hx]); rwa [hx] at this

theorem run_err {e : ε} (h : Along move x s p q d) (hx : x s = (.err e, t)) : q e t := by
  have := h.err e (by rw [hx]); rwa [hx] at this

theorem run_panic (h : Along move x s p q d) (hx : x s = (.panic, t)) : d t := by
  have := h.panic (by rw [hx]); rwa [hx] at this

theorem pure {a : α} (h : p a s) : Along move (pure a : Eff σ ε α) s p q d := of_ok rfl .refl h

theorem fail {e : ε} (h : q e s) : Along move (Eff.fail e : Eff σ ε α) s p q d := of_err rfl .refl h

theorem panics (h : d s) : Along move (Eff.panic : Eff σ ε α) s p q d := of_panic rfl .refl h

theorem read {f : σ → α} (h : p (f s) s) : Along move (Eff.read f : Eff σ ε α) s p q d := of_ok rfl .refl h

theorem ofExcept {y : Except ε α} (ha : ∀ a, y = .ok a → p a s) (he : ∀ e, y = .error e → q e s) :
    Along move (Eff.ofExcept y) s p q d := by
  cases y with
  | ok a => exact of_ok rfl .refl (ha a rfl)
  | error e => exact of_err rfl .refl (he e rfl)

theorem modify {f : σ → σ} {p : Unit → σ → Prop} (hm : move s (f s)) (h : p () (f s)) :
    Along move (Eff.modify f : Eff σ ε Unit) s p q d := of_ok rfl (.single hm) h

theorem mono (h : Along move x s p q d) (hp : ∀ a t, p a t → p' a t) (hq : ∀ e t, q e t → q' e t)
    (hd : ∀ t, d t → d' t) : Along move x s p' q' d' where
  path := h.path
  ok := fun a ha => hp a _ (h.ok a ha)
  err := fun e he => hq e _ (h.err e he)
  panic := fun hx => hd _ (h.panic hx)

/-- A call that neither fails nor panics. -/
theorem sure (h : Along move x s p (fun _ _ => False) fun _ => False) : Along move x s p q d :=
  h.mono (fun _ _ h => h) (fun _ _ h => h.elim) fun _ h => h.elim

/-- A result's fact may use how the call got there. -/
theorem with_path (h : Along move x s p q d) :
    Along move x s (fun a t => p a t ∧ Relation.ReflTransGen move s t) q d where
  path := h.path
  ok := fun a ha => ⟨h.ok a ha, h.path⟩
  err := h.err
  panic := h.panic

/-- A result's fact may use which call it is the result of. -/
theorem with_run (h : Along move x s p q d) : Along move x s (fun a t => p a t ∧ x s = (.ok a, t)) q d where
  path := h.path
  ok := fun a ha => ⟨h.ok a ha, Prod.ext ha rfl⟩
  err := h.err
  panic := h.panic

/-- A call that takes `move`s takes any larger relation's. -/
theorem lift (h : Along move x s p q d) (hm : ∀ a b, move a b → move' a b) : Along move' x s p q d where
  path := Relation.ReflTransGen.mono hm _ _ h.path
  ok := h.ok
  err := h.err
  panic := h.panic

/-- The same, where the larger relation asks for what every move keeps. -/
theorem lift_keeps {I : σ → Prop} (h : Along move x s p q d) (hs : I s) (hI : ∀ a b, I a → move a b → I b)
    (hm : ∀ a b, I a → move a b → move' a b) : Along move' x s p q d where
  path := by
    have both : ∀ t, Relation.ReflTransGen move s t → I t ∧ Relation.ReflTransGen move' s t := by
      intro t path
      induction path with
      | refl => exact ⟨hs, .refl⟩
      | tail _ hb ih => exact ⟨hI _ _ ih.1 hb, ih.2.tail (hm _ _ ih.1 hb)⟩
    exact (both _ h.path).2
  ok := h.ok
  err := h.err
  panic := h.panic

theorem bind {f : α → Eff σ ε β} {p' : β → σ → Prop} (hx : Along move x s p q d)
    (hf : ∀ a t, Relation.ReflTransGen move s t → p a t → Along move (f a) t p' q d) :
    Along move (x >>= f) s p' q d := by
  rcases he : x s with ⟨a | e | _, s1⟩
  · have h2 := hf a s1 (hx.run_path he) (hx.run_ok he)
    have path := hx.run_path he
    rcases hr : f a s1 with ⟨b | e | _, s2⟩
    · exact of_ok ((bind_ok he).trans hr) (path.trans (h2.run_path hr)) (h2.run_ok hr)
    · exact of_err ((bind_ok he).trans hr) (path.trans (h2.run_path hr)) (h2.run_err hr)
    · exact of_panic ((bind_ok he).trans hr) (path.trans (h2.run_path hr)) (h2.run_panic hr)
  · exact of_err (bind_err he) (hx.run_path he) (hx.run_err he)
  · exact of_panic (bind_panic he) (hx.run_path he) (hx.run_panic he)

/-- There is nothing to unwrap in a call that cannot fail. -/
theorem unwrap_eq (h : Along move x s p (fun _ _ => False) d) : Eff.unwrap x s = x s := by
  rcases he : x s with ⟨a | e | _, s1⟩
  · rw [Eff.unwrap, he]
  · exact (h.run_err he).elim
  · rw [Eff.unwrap, he]

theorem unwrap (h : Along move x s p (fun _ _ => False) d) : Along move (Eff.unwrap x) s p q d := by
  have he := h.unwrap_eq
  refine ⟨by rw [he]; exact h.path, fun a ha => ?_, fun e hx => ?_, fun hx => ?_⟩
  · rw [he] at ha ⊢; exact h.ok a ha
  · rw [he] at hx; exact (h.err e hx).elim
  · rw [he] at hx ⊢; exact h.panic hx

/-- Under a lock: the body's moves, and the move that poisons the mutex after a panic. -/
theorem lock {m : Place σ (Mutex β)} (d' : σ → Prop) (hpoisoned : (m.get s).poisoned = true → d s)
    (hbody : (m.get s).poisoned = false → Along move x s p q d')
    (hpoison : ∀ t, Relation.ReflTransGen move s t → d' t → move t (poison m t) ∧ d (poison m t)) :
    Along move (lock m x) s p q d := by
  cases hm : (m.get s).poisoned with
  | true => exact of_panic (lock_poisoned hm) .refl (hpoisoned hm)
  | false =>
    have hb := hbody hm
    rcases he : x s with ⟨a | e | _, s1⟩
    · exact of_ok (by simp [Effect.lock, hm, he]) (hb.run_path he) (hb.run_ok he)
    · exact of_err (by simp [Effect.lock, hm, he]) (hb.run_path he) (hb.run_err he)
    · obtain ⟨h1, h2⟩ := hpoison s1 (hb.run_path he) (hb.run_panic he)
      exact of_panic (by simp [Effect.lock, hm, he]) ((hb.run_path he).tail h1) h2

end Along

/-- What every move keeps, a path keeps. -/
theorem path_keeps {move : σ → σ → Prop} {I : σ → Prop} (hI : ∀ a b, I a → move a b → I b) {s s' : σ}
    (path : Relation.ReflTransGen move s s') (hs : I s) : I s' := by
  induction path with
  | refl => exact hs
  | tail _ hm ih => exact hI _ _ ih hm

/-- A call after a call, when all either does are moves. -/
theorem bind_path {move : σ → σ → Prop} {x : Eff σ ε α} {f : α → Eff σ ε β} {s : σ}
    (hx : Relation.ReflTransGen move s (x s).2) (hf : ∀ a t, Relation.ReflTransGen move t (f a t).2) :
    Relation.ReflTransGen move s ((x >>= f) s).2 := by
  rcases hr : x s with ⟨a | e | _, t⟩ <;> rw [hr] at hx
  · rw [bind_ok hr]
    exact hx.trans (hf a t)
  · rw [bind_err hr]
    exact hx
  · rw [bind_panic hr]
    exact hx

/-! ## Calls that only take steps of a relation -/

/-- Wherever the call starts and however it ends, it only takes steps of `move`. -/
def Takes (move : σ → σ → Prop) (x : Eff σ ε α) : Prop := ∀ s, Relation.ReflTransGen move s (x s).2

namespace Takes

variable {move : σ → σ → Prop} {x : Eff σ ε α}

theorem of_step (h : ∀ s, move s (x s).2) : Takes move x := fun s => .single (h s)

theorem of_state (h : ∀ s, (x s).2 = s) : Takes move x := fun s => by rw [h s]

theorem pure (a : α) : Takes move (pure a : Eff σ ε α) := of_state fun _ => rfl

theorem fail (e : ε) : Takes move (Eff.fail e : Eff σ ε α) := of_state fun _ => rfl

theorem read (f : σ → α) : Takes move (Eff.read f : Eff σ ε α) := of_state fun _ => rfl

theorem ofOutcome (r : Outcome ε α) : Takes move (Eff.ofOutcome r : Eff σ ε α) := of_state fun _ => rfl

theorem ofExcept (r : Except ε α) : Takes move (Eff.ofExcept r : Eff σ ε α) := by
  cases r with
  | ok a => exact pure a
  | error e => exact fail e

theorem modify {f : σ → σ} (h : ∀ s, move s (f s)) : Takes move (Eff.modify f : Eff σ ε Unit) := of_step h

theorem bind {f : α → Eff σ ε β} (hx : Takes move x) (hf : ∀ a, Takes move (f a)) : Takes move (x >>= f) :=
  fun s => bind_path (hx s) fun a t => hf a t

theorem lock {m : Place σ (Mutex β)} (hx : Takes move x) (hpoison : ∀ s, move s (poison m s)) :
    Takes move (lock m x) := by
  intro s
  rcases lock_state m x s with h | h | h
  · rw [h]
  · rw [h]
    exact hx s
  · rw [h]
    exact (hx s).tail (hpoison _)

theorem lift {move' : σ → σ → Prop} (hx : Takes move x) (hm : ∀ s t, move s t → move' s t) : Takes move' x :=
  fun s => path_keeps (I := fun t => Relation.ReflTransGen move' s t) (fun _ _ h ht => h.tail (hm _ _ ht)) (hx s) .refl

/-- What no step changes, the call does not change. -/
theorem keeps {τ : Type} {f : σ → τ} (hx : Takes move x) (hm : ∀ s t, move s t → f t = f s) (s : σ) : f (x s).2 = f s :=
  path_keeps (I := fun t => f t = f s) (fun _ _ h ht => (hm _ _ ht).trans h) (hx s) rfl

end Takes

/-! ## Calls that keep a fact unless they panic -/

/-- Unless it panics, the call keeps `I`. -/
def Quiet (I : σ → Prop) (x : Eff σ ε α) : Prop := ∀ s, I s → (x s).1 ≠ .panic → I (x s).2

namespace Quiet

variable {I : σ → Prop} {x : Eff σ ε α}

theorem of_world (h : ∀ s, I s → I (x s).2) : Quiet I x := fun s hs _ => h s hs

/-- A call all of whose moves keep `I`. -/
theorem of_along {p : α → σ → Prop} {q : ε → σ → Prop} {d : σ → Prop}
    (h : ∀ s, Along (fun a b => I a → I b) x s p q d) : Quiet I x :=
  of_world fun s hs => path_keeps (I := I) (fun _ _ ha hm => hm ha) (h s).path hs

theorem pure (a : α) : Quiet I (pure a : Eff σ ε α) := of_world fun _ hs => hs

theorem fail (e : ε) : Quiet I (Eff.fail e : Eff σ ε α) := of_world fun _ hs => hs

theorem read (f : σ → α) : Quiet I (Eff.read f : Eff σ ε α) := of_world fun _ hs => hs

theorem ofExcept (r : Except ε α) : Quiet I (Eff.ofExcept r : Eff σ ε α) := by
  cases r with
  | ok a => exact pure a
  | error e => exact fail e

theorem ofOutcome (r : Outcome ε α) : Quiet I (Eff.ofOutcome r : Eff σ ε α) := of_world fun _ hs => hs

theorem modify {f : σ → σ} (h : ∀ s, I s → I (f s)) : Quiet I (Eff.modify f : Eff σ ε Unit) := of_world h

theorem bind {f : α → Eff σ ε β} (hx : Quiet I x) (hf : ∀ a, Quiet I (f a)) : Quiet I (x >>= f) := by
  intro s hs hne
  have h := hx s hs
  rcases he : x s with ⟨a | e | _, s1⟩
  · rw [he] at h
    rw [bind_ok he] at hne ⊢
    exact hf a s1 (h (by simp)) hne
  · rw [he] at h
    rw [bind_err he]
    exact h (by simp)
  · rw [bind_panic he] at hne
    exact absurd rfl hne

theorem unwrap (hx : Quiet I x) : Quiet I (Eff.unwrap x) := by
  intro s hs hne
  have h := hx s hs
  unfold Eff.unwrap at hne ⊢
  rcases he : x s with ⟨a | e | _, s1⟩
  · rw [he] at h; exact h (by simp)
  · rw [he] at hne; exact absurd rfl hne
  · rw [he] at hne; exact absurd rfl hne

/-- Only a panic poisons the mutex. -/
theorem lock {m : Place σ (Mutex β)} (hx : Quiet I x) : Quiet I (lock m x) := by
  intro s hs hne
  have h := hx s hs
  unfold Effect.lock at hne ⊢
  by_cases hp : (m.get s).poisoned = true
  · rw [if_pos hp] at hne; exact absurd rfl hne
  · rw [if_neg hp] at hne ⊢
    rcases he : x s with ⟨a | e | _, s1⟩
    · rw [he] at h; exact h (by simp)
    · rw [he] at h; exact h (by simp)
    · rw [he] at hne; exact absurd rfl hne

end Quiet

end ParquetKeyManagement.Effect
