/-
  ParquetKeyManagement.Support.Interference — what a program may count on while others run.

  A `Contract` is what the threads agree on: an invariant, an order in which the state
  evolves, and what each lock protects. `Program.Safe` says that a program keeps its side,
  from a state, with certain guards: whatever the others do in between that the contract
  allows, each of its steps keeps the invariant, lets the state evolve, and writes nothing
  that is protected by a lock it does not hold exclusively; and it ends with a fact that no
  other thread can spoil.
  - `Safe.bind`, `Safe.holding`, `Safe.mutex`: how safe programs are put together.
  - `Safe.frame`: what a lock protects stays while a program runs under it that never takes it.
  - `Pool.Reach.sound`: threads that are safe one by one are safe together.
-/

import ParquetKeyManagement.Support.Programs

namespace ParquetKeyManagement.Locks

open Effect

variable {τ L σ ρ ρ' ε α β : Type}

/-- What threads agree on. -/
structure Contract (L σ : Type) where
  Inv : σ → Prop
  Evolves : σ → σ → Prop
  /-- What the lock protects is the same in both states. -/
  Same : L → σ → σ → Prop
  evolves_refl : ∀ s, Evolves s s
  evolves_trans : ∀ {s s' s''}, Evolves s s' → Evolves s' s'' → Evolves s s''
  same_refl : ∀ l s, Same l s s
  same_trans : ∀ {l s s' s''}, Same l s s' → Same l s' s'' → Same l s s''

variable (C : Contract L σ)

namespace Contract

/-- What the others may do while a thread has the guards `held`. -/
structure Rely (held : List (L × Mode)) (s s' : σ) : Prop where
  inv : C.Inv s'
  evolves : C.Evolves s s'
  same : ∀ g ∈ held, C.Same g.1 s s'

/-- What a thread may do with the guards `held`. -/
structure Guar (held : List (L × Mode)) (s s' : σ) : Prop where
  inv : C.Inv s'
  evolves : C.Evolves s s'
  same : ∀ l, (l, .exclusive) ∉ held → C.Same l s s'

variable {C} {held : List (L × Mode)} {s s' s'' : σ}

theorem Rely.refl (h : C.Inv s) : C.Rely held s s := ⟨h, C.evolves_refl s, fun _ _ => C.same_refl _ s⟩

theorem Rely.trans (h : C.Rely held s s') (h' : C.Rely held s' s'') : C.Rely held s s'' :=
  ⟨h'.inv, C.evolves_trans h.evolves h'.evolves, fun g hg => C.same_trans (h.same g hg) (h'.same g hg)⟩

/-- With fewer guards more can happen. -/
theorem Rely.sub {held' : List (L × Mode)} (h : C.Rely held s s') (hsub : held' ⊆ held) : C.Rely held' s s' :=
  ⟨h.inv, h.evolves, fun g hg => h.same g (hsub hg)⟩

theorem Guar.refl (h : C.Inv s) : C.Guar held s s := ⟨h, C.evolves_refl s, fun l _ => C.same_refl l s⟩

/-- A step that writes nothing that a lock protects. -/
theorem Guar.of_same (hinv : C.Inv s') (hevolves : C.Evolves s s') (h : ∀ l, C.Same l s s') : C.Guar held s s' :=
  ⟨hinv, hevolves, fun l _ => h l⟩

end Contract

/-! ## Safe programs -/

namespace Program

/-- Run from a state with the guards `held`, the program keeps to the contract, and ends with the guards `out`, and
    with `post` of its result for as long as the others please. -/
def Safe (out : List (L × Mode)) (post : ρ → σ → Prop) : List (L × Mode) → Program L σ ρ → σ → Prop
  | held, done r, s => held = out ∧ ∀ s', C.Rely held s s' → post r s'
  | held, atomic write next, s => ∀ s', C.Rely held s s' →
    C.Guar held s' (write s') ∧ (next s').Safe out post held (write s')
  | held, acquire l mode next, s => ∀ s', C.Rely held s s' → next.Safe out post ((l, mode) :: held) s'
  | held, release l mode next, s => ∃ rest, held = (l, mode) :: rest ∧
    ∀ s', C.Rely held s s' → next.Safe out post rest s'

variable {C} {held mid out : List (L × Mode)} {post : ρ → σ → Prop} {s s' : σ}

theorem Safe.rely {p : Program L σ ρ} (h : p.Safe C out post held s) (hr : C.Rely held s s') :
    p.Safe C out post held s' := by
  cases p with
  | done r => exact ⟨h.1, fun s'' hr' => h.2 s'' (hr.trans hr')⟩
  | atomic write next => exact fun s'' hr' => h s'' (hr.trans hr')
  | acquire l mode next => exact fun s'' hr' => h s'' (hr.trans hr')
  | release l mode next =>
    obtain ⟨rest, hheld, h⟩ := h
    exact ⟨rest, hheld, fun s'' hr' => h s'' (hr.trans hr')⟩

/-- A program after a program: the second starts with what no other thread can spoil. -/
theorem Safe.bind {p : Program L σ ρ'} {f : ρ' → Program L σ ρ} {fact : ρ' → σ → Prop} (hs : C.Inv s)
    (hp : p.Safe C mid fact held s)
    (hf : ∀ r s', C.Inv s' → (∀ s'', C.Rely mid s' s'' → fact r s'') → (f r).Safe C out post mid s') :
    (p.bind f).Safe C out post held s := by
  induction p generalizing held s with
  | done r =>
    obtain ⟨rfl, hfact⟩ := hp
    exact hf r s hs hfact
  | atomic write next ih => exact fun s' hr => ⟨(hp s' hr).1, ih s' (hp s' hr).1.inv (hp s' hr).2⟩
  | acquire l mode next ih => exact fun s' hr => ih hr.inv (hp s' hr)
  | release l mode next ih =>
    obtain ⟨rest, hheld, hp⟩ := hp
    exact ⟨rest, hheld, fun s' hr => ih hr.inv (hp s' hr)⟩

theorem Safe.mono {p : Program L σ ρ} {post' : ρ → σ → Prop} (h : p.Safe C out post held s)
    (hpost : ∀ r s', post r s' → post' r s') : p.Safe C out post' held s := by
  induction p generalizing held s with
  | done r => exact ⟨h.1, fun s' hr => hpost r s' (h.2 s' hr)⟩
  | atomic write next ih => exact fun s' hr => ⟨(h s' hr).1, ih s' (h s' hr).2⟩
  | acquire l mode next ih => exact fun s' hr => ih (h s' hr)
  | release l mode next ih =>
    obtain ⟨rest, hheld, h⟩ := h
    exact ⟨rest, hheld, fun s' hr => ih (h s' hr)⟩

/-- The end of a program may speak of its start. -/
theorem Safe.evolves {p : Program L σ ρ} (h : p.Safe C out post held s) :
    p.Safe C out (fun r s' => post r s' ∧ C.Evolves s s') held s := by
  have hfrom : ∀ s0, C.Evolves s0 s → p.Safe C out (fun r s' => post r s' ∧ C.Evolves s0 s') held s := by
    intro s0 h0
    induction p generalizing held s with
    | done r => exact ⟨h.1, fun s' hr => ⟨h.2 s' hr, C.evolves_trans h0 hr.evolves⟩⟩
    | atomic write next ih =>
      exact fun s' hr =>
        ⟨(h s' hr).1, ih s' (h s' hr).2 (C.evolves_trans h0 (C.evolves_trans hr.evolves (h s' hr).1.evolves))⟩
    | acquire l mode next ih => exact fun s' hr => ih (h s' hr) (C.evolves_trans h0 hr.evolves)
    | release l mode next ih =>
      obtain ⟨rest, hheld, h⟩ := h
      exact ⟨rest, hheld, fun s' hr => ih (h s' hr) (C.evolves_trans h0 hr.evolves)⟩
  exact hfrom s (C.evolves_refl s)

/-- What the locks of `frame` protect stays as it is while a program runs under them that never takes them
    exclusively, which a program that keeps to an order does not. -/
theorem Safe.frame {O : LockOrder L} {p : Program L σ ρ} {frame : List (L × Mode)} (h : p.Safe C out post held s)
    (ho : p.Ordered O (held ++ frame) (out ++ frame)) (hframe : ∀ g ∈ frame, (g.1, .exclusive) ∉ held) :
    p.Safe C (out ++ frame) (fun r s' => post r s' ∧ ∀ g ∈ frame, C.Same g.1 s s') (held ++ frame) s := by
  have hleft : ∀ {held : List (L × Mode)} {s s' : σ}, C.Rely (held ++ frame) s s' → C.Rely held s s' :=
    fun hr => hr.sub (List.subset_append_left ..)
  have hkept : ∀ {held : List (L × Mode)} {s0 s s' : σ}, C.Rely (held ++ frame) s s' →
      (∀ g ∈ frame, C.Same g.1 s0 s) → ∀ g ∈ frame, C.Same g.1 s0 s' :=
    fun hr h0 g hg => C.same_trans (h0 g hg) (hr.same g (List.mem_append_right _ hg))
  have hfrom : ∀ s0, (∀ g ∈ frame, C.Same g.1 s0 s) →
      p.Safe C (out ++ frame) (fun r s' => post r s' ∧ ∀ g ∈ frame, C.Same g.1 s0 s') (held ++ frame) s := by
    intro s0 h0
    induction p generalizing held s with
    | done r => exact ⟨ho, fun s' hr => ⟨h.2 s' (hleft hr), hkept hr h0⟩⟩
    | atomic write next ih =>
      intro s' hr
      obtain ⟨hguar, hnext⟩ := h s' (hleft hr)
      refine ⟨⟨hguar.inv, hguar.evolves, fun l hl => hguar.same l fun hmem => hl (List.mem_append_left _ hmem)⟩, ?_⟩
      refine ih s' hnext (ho s') hframe fun g hg => ?_
      exact C.same_trans (hkept hr h0 g hg) (hguar.same g.1 (hframe g hg))
    | acquire l mode next ih =>
      intro s' hr
      refine ih (h s' (hleft hr)) ho.2 (fun g hg hmem => ?_) (hkept hr h0)
      rcases List.mem_cons.mp hmem with he | hmem
      · -- the lock is held already, and so not above all that are
        obtain ⟨rfl, rfl⟩ := Prod.mk.inj he
        have hfalse : O.readOnly g.1 = false := by
          cases hread : O.readOnly g.1 with
          | false => rfl
          | true => cases ho.1.shared hread
        exact absurd (ho.1.above hfalse g (List.mem_append_right _ hg) hfalse) (lt_irrefl _)
      · exact hframe g hg hmem
    | release l mode next ih =>
      obtain ⟨rest, rfl, hnext⟩ := h
      obtain ⟨rest', he, ho⟩ := ho
      obtain rfl : rest ++ frame = rest' := (List.cons.inj he).2
      exact ⟨rest ++ frame, rfl, fun s' hr => ih (hnext s' (hleft hr)) ho
        (fun g hg hmem => hframe g hg (List.mem_cons_of_mem _ hmem)) (hkept hr h0)⟩
  exact hfrom s fun g _ => C.same_refl g.1 s

end Program

/-! ## Safe routines -/

/-- `p` of a value, `q` of an error, and `d` after a panic. -/
def Ends (p : α → σ → Prop) (q : ε → σ → Prop) (d : σ → Prop) : Outcome ε α → σ → Prop
  | .ok a, s => p a s
  | .err e, s => q e s
  | .panic, s => d s

namespace Routine

/-- The routine keeps to the contract and gives back the guards it takes; a value ends in `p`, an error in `q` and a
    panic in `d`. -/
def Safe (held : List (L × Mode)) (x : Routine L σ ε α) (s : σ) (p : α → σ → Prop) (q : ε → σ → Prop) (d : σ → Prop) :
    Prop := Program.Safe C held (Ends p q d) held x s

variable {C} {held : List (L × Mode)} {s : σ} {p : α → σ → Prop} {q : ε → σ → Prop} {d : σ → Prop}

namespace Safe

theorem finish {r : Outcome ε α} (h : ∀ s', C.Rely held s s' → Ends p q d r s') :
    (Routine.finish r : Routine L σ ε α).Safe C held s p q d := ⟨rfl, h⟩

theorem pure {a : α} (h : ∀ s', C.Rely held s s' → p a s') : (pure a : Routine L σ ε α).Safe C held s p q d := ⟨rfl, h⟩

/-- A call that runs in one step. -/
theorem ofCall {x : Eff σ ε α} (hx : ∀ s', C.Rely held s s' → C.Guar held s' (x s').2 ∧
    ∀ s'', C.Rely held (x s').2 s'' → Ends p q d (x s').1 s'') : (ofCall x : Routine L σ ε α).Safe C held s p q d :=
  fun s' hr => ⟨(hx s' hr).1, rfl, (hx s' hr).2⟩

theorem mono {x : Routine L σ ε α} {p' : α → σ → Prop} {q' : ε → σ → Prop} {d' : σ → Prop}
    (h : x.Safe C held s p q d) (hp : ∀ a s', p a s' → p' a s') (hq : ∀ e s', q e s' → q' e s')
    (hd : ∀ s', d s' → d' s') : x.Safe C held s p' q' d' := by
  refine Program.Safe.mono h fun r s' hr => ?_
  cases r with
  | ok a => exact hp a s' hr
  | err e => exact hq e s' hr
  | panic => exact hd s' hr

/-- The end of a routine may speak of its start. -/
theorem evolves {x : Routine L σ ε α} (h : x.Safe C held s p q d) :
    x.Safe C held s (fun a s' => p a s' ∧ C.Evolves s s') (fun e s' => q e s' ∧ C.Evolves s s')
      (fun s' => d s' ∧ C.Evolves s s') := by
  refine (Program.Safe.evolves h).mono fun r s' hr => ?_
  cases r with
  | ok a => exact hr
  | err e => exact hr
  | panic => exact hr

/-- A routine after a routine: the second starts with what no other thread can spoil, later on. -/
theorem bind {x : Routine L σ ε α} {f : α → Routine L σ ε β} {p' : β → σ → Prop} (hs : C.Inv s)
    (hx : x.Safe C held s p q d)
    (hf : ∀ a s', C.Inv s' → C.Evolves s s' → p a s' → (f a).Safe C held s' p' q d) :
    (x >>= f).Safe C held s p' q d := by
  refine Program.Safe.bind hs (Program.Safe.evolves hx) fun r s' hs' hr => ?_
  cases r with
  | ok a => exact hf a s' hs' (hr s' (.refl hs')).2 (hr s' (.refl hs')).1
  | err e => exact finish fun s'' hr' => (hr s'' hr').1
  | panic => exact finish fun s'' hr' => (hr s'' hr').1

/-- There is nothing to unwrap in a routine that cannot fail. -/
theorem unwrap {x : Routine L σ ε α} (hs : C.Inv s) (hx : x.Safe C held s p (fun _ _ => False) d) :
    (Routine.unwrap x).Safe C held s p q d := by
  refine Program.Safe.bind hs hx fun r s' hs' hr => ?_
  cases r with
  | ok a => exact finish hr
  | err e => exact (hr s' (.refl hs')).elim
  | panic => exact finish hr

/-- Under a lock; what holds at the end is to hold without it too. -/
theorem holding {x : Routine L σ ε α} {l : L} {mode : Mode} {p' : α → σ → Prop} {q' : ε → σ → Prop} {d' : σ → Prop}
    (hx : ∀ s', C.Rely held s s' → x.Safe C ((l, mode) :: held) s' p q d)
    (hout : ∀ r s' s'', Ends p q d r s' → C.Rely held s' s'' → Ends p' q' d' r s'') :
    (holding l mode x).Safe C held s p' q' d' := by
  intro s' hr
  refine Program.Safe.bind hr.inv (hx s' hr) fun r s1 hs1 h1 => ?_
  exact ⟨held, rfl, fun s2 hr2 => ⟨rfl, fun s3 hr3 => hout r s2 s3 (h1 s2 hr2) hr3⟩⟩

/-- Under a mutex, which a panic poisons. -/
theorem mutex {x : Routine L σ ε α} {l : L} {m : Place σ (Mutex β)} {p' : α → σ → Prop} {q' : ε → σ → Prop}
    {d' : σ → Prop} (hpoisoned : ∀ s', C.Inv s' → (m.get s').poisoned = true → d' s')
    (hx : ∀ s', C.Rely held s s' → (m.get s').poisoned = false → x.Safe C ((l, .exclusive) :: held) s' p q d)
    (hpoison : ∀ s', C.Inv s' → d s' → C.Guar ((l, .exclusive) :: held) s' (poison m s') ∧ d' (poison m s'))
    (hd : ∀ s' s'', d' s' → C.Rely held s' s'' → d' s'')
    (hout : ∀ r s' s'', r ≠ .panic → Ends p q d r s' → C.Rely held s' s'' → Ends p' q' d' r s'') :
    (mutex l m x).Safe C held s p' q' d' := by
  intro s' hr s1 hr1
  have hr01 : C.Rely held s s1 := hr.trans (hr1.sub (List.subset_cons_self ..))
  refine ⟨.refl hr1.inv, ?_⟩
  -- the end of the section: the lock is given back
  have hunlock : ∀ (r : Outcome ε α) s2, (∀ s3 s4, C.Rely ((l, .exclusive) :: held) s2 s3 → C.Rely held s3 s4 →
      Ends p' q' d' r s4) →
      Program.Safe C held (Ends p' q' d') ((l, .exclusive) :: held) (unlock l r) s2 :=
    fun r s2 h => ⟨held, rfl, fun s3 hr3 => ⟨rfl, fun s4 hr4 => h s3 s4 hr3 hr4⟩⟩
  show Program.Safe C held _ ((l, .exclusive) :: held) (inMutex l m x s1) s1
  unfold inMutex
  by_cases hpois : (m.get s1).poisoned = true
  · rw [if_pos hpois]
    refine hunlock _ _ fun s3 s4 hr3 hr4 => ?_
    exact hd s1 s4 (hpoisoned s1 hr1.inv hpois) ((hr3.sub (List.subset_cons_self ..)).trans hr4)
  · rw [if_neg hpois]
    refine Program.Safe.bind hr1.inv (hx s1 hr01 (Bool.eq_false_iff.mpr hpois)) fun r s2 hs2 h2 => ?_
    cases r with
    | ok a => exact hunlock _ _ fun s3 s4 hr3 hr4 => hout _ s3 s4 (fun he => by cases he) (h2 s3 hr3) hr4
    | err e => exact hunlock _ _ fun s3 s4 hr3 hr4 => hout _ s3 s4 (fun he => by cases he) (h2 s3 hr3) hr4
    | panic =>
      intro s3 hr3
      obtain ⟨hguar, hafter⟩ := hpoison s3 hr3.inv (h2 s3 hr3)
      refine ⟨hguar, hunlock _ _ fun s4 s5 hr4 hr5 => ?_⟩
      exact hd _ s5 hafter ((hr4.sub (List.subset_cons_self ..)).trans hr5)

/-- What a lock protects stays as it is while a routine runs under it that keeps to an order. -/
theorem frame {O : LockOrder L} {x : Routine L σ ε α} {held frame : List (L × Mode)} (h : x.Safe C held s p q d)
    (ho : x.Ordered O (held ++ frame)) (hframe : ∀ g ∈ frame, (g.1, .exclusive) ∉ held) :
    x.Safe C (held ++ frame) s (fun a s' => p a s' ∧ ∀ g ∈ frame, C.Same g.1 s s')
      (fun e s' => q e s' ∧ ∀ g ∈ frame, C.Same g.1 s s') (fun s' => d s' ∧ ∀ g ∈ frame, C.Same g.1 s s') := by
  refine (Program.Safe.frame h ho hframe).mono fun r s' hr => ?_
  cases r with
  | ok a => exact hr
  | err e => exact hr
  | panic => exact hr

end Safe

end Routine

/-! ## Safe threads -/

namespace Pool

variable {C} [DecidableEq τ] {s s' : Pool τ L σ ρ} {t : τ} {post : τ → ρ → σ → Prop}

/-- Every thread keeps to the contract from where it is. -/
structure Sound (C : Contract L σ) (post : τ → ρ → σ → Prop) (s : Pool τ L σ ρ) : Prop where
  inv : C.Inv s.state
  safe : ∀ t, (s.pc t).rest.Safe C [] (post t) (s.pc t).held s.state
  exclusion : Exclusion threads s.pc

omit [DecidableEq τ] in
theorem Sound.init {w : σ} {p : τ → Program L σ ρ} (hw : C.Inv w) (hp : ∀ t, (p t).Safe C [] (post t) [] w) :
    Sound C post (init w p) :=
  ⟨hw, hp, fun _ _ _ _ hg => by cases hg⟩

omit [DecidableEq τ] in
/-- What one thread does, the others may count on. -/
theorem Sound.rely (h : Sound C post s) {w : σ} (hguar : C.Guar (s.pc t).held s.state w) {t' : τ} (hne : t' ≠ t) :
    C.Rely (s.pc t').held s.state w := by
  refine ⟨hguar.inv, hguar.evolves, fun g hg => hguar.same g.1 fun hown => ?_⟩
  exact hne (h.exclusion t t' g.1 g.2 hown hg).symm

omit [DecidableEq τ] in
theorem Sound.guar_atomic (h : Sound C post s) {write : σ → σ} {next : σ → Program L σ ρ}
    (hrest : (s.pc t).rest = .atomic write next) : C.Guar (s.pc t).held s.state (write s.state) := by
  have hsafe := h.safe t
  rw [hrest] at hsafe
  exact (hsafe s.state (.refl h.inv)).1

theorem Sound.step (h : Sound C post s) (hstep : s.Step t s') : Sound C post s' ∧ C.Evolves s.state s'.state := by
  have hexcl := hstep.exclusion h.exclusion
  have hsafe := h.safe t
  -- the thread's own safety is what is left of it; the others' is kept
  have hothers : ∀ {w : σ} {p : Point L σ ρ}, C.Guar (s.pc t).held s.state w → p.rest.Safe C [] (post t) p.held w →
      ∀ t', (Function.update s.pc t p t').rest.Safe C [] (post t') (Function.update s.pc t p t').held w := by
    intro w p hguar hp t'
    by_cases he : t' = t
    · subst he
      rw [Function.update_self]
      exact hp
    · rw [Function.update_of_ne he]
      exact (h.safe t').rely (h.rely hguar he)
  cases hstep with
  | atomic write next hpc =>
    rw [hpc] at hsafe
    obtain ⟨hguar, hnext⟩ := hsafe s.state (.refl h.inv)
    exact ⟨⟨hguar.inv, hothers hguar hnext, hexcl⟩, hguar.evolves⟩
  | acquire l mode next hpc _ =>
    rw [hpc] at hsafe
    exact ⟨⟨h.inv, hothers (.refl h.inv) (hsafe s.state (.refl h.inv)), hexcl⟩, C.evolves_refl _⟩
  | release l mode next held hpc hheld =>
    rw [hpc] at hsafe
    obtain ⟨rest, he, hnext⟩ := hsafe
    have hp := hnext s.state (.refl h.inv)
    rw [hheld] at he
    cases he
    exact ⟨⟨h.inv, hothers (.refl h.inv) hp, hexcl⟩, C.evolves_refl _⟩

/-- Threads that are safe one by one are safe together. -/
theorem Reach.sound (hreach : Reach s s') (h : Sound C post s) : Sound C post s' ∧ C.Evolves s.state s'.state := by
  induction hreach with
  | refl => exact ⟨h, C.evolves_refl _⟩
  | tail _ hm ih =>
    obtain ⟨t, hstep⟩ := hm
    obtain ⟨hsound, hevolves⟩ := ih.1.step hstep
    exact ⟨hsound, C.evolves_trans ih.2 hevolves⟩

end Pool

end ParquetKeyManagement.Locks
