/-
  ParquetKeyManagement.Support.Traces — runs of threads with everything that was done in them.

  A `Deed` is a step of a thread: the guards it held, and the state before and after. A run
  with its deeds is a `Pool.Trace`. `Program.Writes` says of a program, whatever the state,
  which locks it takes and what it may do at each step, given the guards it holds there;
  what a program may do can also come to depend on what it has met (`Program.Settles`).
  - `Pool.Reach.trace`: every run has its deeds.
  - `Pool.Trace.runs_alone`: a thread can run a part of its program as if alone while no other holds a lock.
  - `Pool.Trace.settles`: each deed is one that the thread's program allows.
-/

import ParquetKeyManagement.Support.Programs

namespace ParquetKeyManagement.Locks

open Effect

variable {τ L σ ρ ρ' ε α β ι : Type}

structure Deed (τ L σ : Type) where
  thread : τ
  held : List (L × Mode)
  before : σ
  after : σ

/-- What the thread does while it runs a program with nothing in between. -/
def Program.deeds (t : τ) : List (L × Mode) → Program L σ ρ → σ → List (Deed τ L σ)
  | _, done _, _ => []
  | held, atomic write next, s => ⟨t, held, s, write s⟩ :: (next s).deeds t held (write s)
  | held, acquire l mode next, s => ⟨t, held, s, s⟩ :: next.deeds t ((l, mode) :: held) s
  | held, release _ _ next, s => ⟨t, held, s, s⟩ :: next.deeds t held.tail s

namespace Pool

variable [DecidableEq τ] {s₀ s s' : Pool τ L σ ρ} {t : τ} {ds : List (Deed τ L σ)} {O : LockOrder L}

/-- A run with its deeds, the oldest first. -/
inductive Trace (s₀ : Pool τ L σ ρ) : List (Deed τ L σ) → Pool τ L σ ρ → Prop
  | start : Trace s₀ [] s₀
  | step {ds : List (Deed τ L σ)} {s s' : Pool τ L σ ρ} {t : τ} : Trace s₀ ds s → s.Step t s' →
    Trace s₀ (ds ++ [⟨t, (s.pc t).held, s.state, s'.state⟩]) s'

theorem Trace.reach (h : Trace s₀ ds s) : Reach s₀ s := by
  induction h with
  | start => exact .refl
  | step _ hstep ih => exact ih.tail ⟨_, hstep⟩

theorem Reach.trace (h : Reach s₀ s) : ∃ ds, Trace s₀ ds s := by
  induction h with
  | refl => exact ⟨[], .start⟩
  | tail _ hm ih =>
    obtain ⟨ds, hds⟩ := ih
    obtain ⟨t, hstep⟩ := hm
    exact ⟨_, hds.step hstep⟩

/-- With no lock in other hands, a thread can run a part of its program to the part's end, and does there what the
    part does alone. -/
theorem Trace.runs_alone {out : List (L × Mode)} {ρ₁ : Type} {p : Program L σ ρ₁} {f : ρ₁ → Program L σ ρ}
    (h : Trace s₀ ds s) (hp : p.Ordered O (s.pc t).held out)
    (hshared : ∀ g ∈ (s.pc t).held, O.readOnly g.1 = true → g.2 = .shared)
    (hothers : ∀ t', t' ≠ t → (s.pc t').held = []) (hrest : (s.pc t).rest = p.bind f) :
    Trace s₀ (ds ++ p.deeds t (s.pc t).held s.state)
      ⟨(p.alone s.state).2, Function.update s.pc t ⟨out, f (p.alone s.state).1⟩⟩ := by
  -- a step of the thread leaves the others where they were
  have hne : ∀ (point : Point L σ ρ) t', t' ≠ t → (Function.update s.pc t point t').held = [] := by
    intro point t' he
    rw [Function.update_of_ne he]
    exact hothers t' he
  induction p generalizing s ds with
  | done r =>
    obtain rfl : (s.pc t).held = out := hp
    have hself : Function.update s.pc t ⟨(s.pc t).held, f r⟩ = s.pc := by
      rw [show f r = (s.pc t).rest from hrest.symm]
      exact Function.update_eq_self t s.pc
    show Trace s₀ (ds ++ []) ⟨s.state, Function.update s.pc t ⟨(s.pc t).held, f r⟩⟩
    rw [hself, List.append_nil]
    exact h
  | atomic write next ih =>
    have hstep := h.step (Step.atomic write (fun s => (next s).bind f) hrest)
    have hrun := ih s.state hstep
    simp only [Function.update_self, Function.update_idem, List.append_assoc, List.singleton_append] at hrun
    exact hrun (hp s.state) hshared (hne _) trivial hne
  | acquire l mode next ih =>
    obtain ⟨hl, hnext⟩ := hp
    have hstep := h.step (Step.acquire l mode (next.bind f) hrest (admits_of_others hl hshared hothers))
    have hrun := ih hstep
    simp only [Function.update_self, Function.update_idem, List.append_assoc, List.singleton_append] at hrun
    refine hrun hnext (fun g hg hr => ?_) (hne _) trivial hne
    rcases List.mem_cons.mp hg with rfl | hg
    · exact hl.shared hr
    · exact hshared g hg hr
  | release l mode next ih =>
    obtain ⟨held, hheld, hnext⟩ := hp
    have hstep := h.step (Step.release l mode (next.bind f) held hrest hheld)
    have hrun := ih hstep
    simp only [Function.update_self, Function.update_idem, List.append_assoc, List.singleton_append] at hrun
    rw [show held = (s.pc t).held.tail by rw [hheld]; rfl] at hrun hnext
    refine hrun hnext (fun g hg hr => ?_) (hne _) trivial hne
    exact hshared g (List.mem_of_mem_tail hg) hr

theorem runs_alone {out : List (L × Mode)} {ρ₁ : Type} {p : Program L σ ρ₁} {f : ρ₁ → Program L σ ρ}
    (hp : p.Ordered O (s.pc t).held out) (hshared : ∀ g ∈ (s.pc t).held, O.readOnly g.1 = true → g.2 = .shared)
    (hothers : ∀ t', t' ≠ t → (s.pc t').held = []) (hrest : (s.pc t).rest = p.bind f) :
    Reach s ⟨(p.alone s.state).2, Function.update s.pc t ⟨out, f (p.alone s.state).1⟩⟩ :=
  (Trace.start.runs_alone hp hshared hothers hrest).reach

/-- With no lock in any hands, a thread can run a part of its program that gives back the locks it takes. -/
theorem Trace.runs_part {ρ₁ : Type} {p : Program L σ ρ₁} {f : ρ₁ → Program L σ ρ} (h : Trace s₀ ds s)
    (hp : p.Ordered O [] []) (hheld : ∀ t, (s.pc t).held = []) (hrest : (s.pc t).rest = p.bind f) :
    Trace s₀ (ds ++ p.deeds t [] s.state)
      ⟨(p.alone s.state).2, Function.update s.pc t ⟨[], f (p.alone s.state).1⟩⟩ := by
  rw [← hheld t] at hp
  have hrun := h.runs_alone hp (fun g hg => by rw [hheld] at hg; cases hg) (fun t' _ => hheld t') hrest
  rwa [hheld] at hrun

end Pool

/-! ## What a program may do -/

namespace Program

/-- Started with the guards `held`, the program takes only locks that `A` allows, and ends with the guards `out`; `R`
    holds of every step, with the guards that are held there. -/
def Writes (A : L → Mode → Prop) (R : List (L × Mode) → σ → σ → Prop) :
    List (L × Mode) → Program L σ ρ → List (L × Mode) → Prop
  | held, done _, out => held = out
  | held, atomic write next, out => ∀ s, R held s (write s) ∧ (next s).Writes A R held out
  | held, acquire l mode next, out => (∀ s, R held s s) ∧ A l mode ∧ next.Writes A R ((l, mode) :: held) out
  | held, release l mode next, out => (∀ s, R held s s) ∧ ∃ rest, held = (l, mode) :: rest ∧ next.Writes A R rest out

variable {A A' : L → Mode → Prop} {R R' : List (L × Mode) → σ → σ → Prop} {held m out : List (L × Mode)}

theorem Writes.bind {p : Program L σ ρ} {f : ρ → Program L σ ρ'} (hp : p.Writes A R held m)
    (hf : ∀ r, (f r).Writes A R m out) : (p.bind f).Writes A R held out := by
  induction p generalizing held with
  | done r =>
    obtain rfl : held = m := hp
    exact hf r
  | atomic write next ih => exact fun s => ⟨(hp s).1, ih s (hp s).2⟩
  | acquire l mode next ih => exact ⟨hp.1, hp.2.1, ih hp.2.2⟩
  | release l mode next ih =>
    obtain ⟨hrefl, rest, hheld, hp⟩ := hp
    exact ⟨hrefl, rest, hheld, ih hp⟩

theorem Writes.mono {p : Program L σ ρ} (h : p.Writes A R held out) (hA : ∀ l mode, A l mode → A' l mode)
    (hR : ∀ held s s', R held s s' → R' held s s') : p.Writes A' R' held out := by
  induction p generalizing held with
  | done r => exact h
  | atomic write next ih => exact fun s => ⟨hR _ _ _ (h s).1, ih s (h s).2⟩
  | acquire l mode next ih => exact ⟨fun s => hR _ _ _ (h.1 s), hA _ _ h.2.1, ih h.2.2⟩
  | release l mode next ih =>
    obtain ⟨hrefl, rest, hheld, h⟩ := h
    exact ⟨fun s => hR _ _ _ (hrefl s), rest, hheld, ih h⟩

/-- Under more guards the program does the same; its own are of locks that it takes. -/
theorem Writes.frame {p : Program L σ ρ} {Q : σ → σ → Prop} (frame : List (L × Mode))
    (h : p.Writes A (fun _ => Q) held out) (hheld : ∀ g ∈ held, A g.1 g.2)
    (hR : ∀ own, (∀ g ∈ own, A g.1 g.2) → ∀ s s', Q s s' → R (own ++ frame) s s') :
    p.Writes A R (held ++ frame) (out ++ frame) := by
  induction p generalizing held with
  | done r => exact congrArg (· ++ frame) h
  | atomic write next ih => exact fun s => ⟨hR _ hheld _ _ (h s).1, ih s (h s).2 hheld⟩
  | acquire l mode next ih =>
    refine ⟨fun s => hR _ hheld _ _ (h.1 s), h.2.1, ih h.2.2 fun g hg => ?_⟩
    rcases List.mem_cons.mp hg with rfl | hg
    · exact h.2.1
    · exact hheld g hg
  | release l mode next ih =>
    obtain ⟨hrefl, rest, rfl, h⟩ := h
    refine ⟨fun s => hR _ hheld _ _ (hrefl s), rest ++ frame, rfl, ih h fun g hg => ?_⟩
    exact hheld g (List.mem_cons_of_mem _ hg)

/-- The program does what one of the `R i` allows of each step; until it is settled which, it does what all allow. -/
inductive Settles (R : ι → List (L × Mode) → σ → σ → Prop) (out : List (L × Mode)) :
    List (L × Mode) → Program L σ ρ → Prop
  | on {A : L → Mode → Prop} {held : List (L × Mode)} {p : Program L σ ρ} (i : ι) : p.Writes A (R i) held out →
    Settles R out held p
  | atomic {held : List (L × Mode)} {write : σ → σ} {next : σ → Program L σ ρ} :
    (∀ s, ∀ i, R i held s (write s)) → (∀ s, Settles R out held (next s)) → Settles R out held (.atomic write next)
  | acquire {held : List (L × Mode)} {l : L} {mode : Mode} {next : Program L σ ρ} :
    (∀ s, ∀ i, R i held s s) → Settles R out ((l, mode) :: held) next → Settles R out held (.acquire l mode next)
  | release {rest : List (L × Mode)} {l : L} {mode : Mode} {next : Program L σ ρ} :
    (∀ s, ∀ i, R i ((l, mode) :: rest) s s) → Settles R out rest next →
    Settles R out ((l, mode) :: rest) (.release l mode next)

variable {F : ι → List (L × Mode) → σ → σ → Prop}

/-- What a program does first that all allow does not settle anything. -/
theorem Writes.settles_bind {p : Program L σ ρ} {f : ρ → Program L σ ρ'}
    (hp : p.Writes A (fun held s s' => ∀ i, F i held s s') held m) (hf : ∀ r, (f r).Settles F out m) :
    (p.bind f).Settles F out held := by
  induction p generalizing held with
  | done r =>
    obtain rfl : held = m := hp
    exact hf r
  | atomic write next ih => exact .atomic (fun s => (hp s).1) fun s => ih s (hp s).2
  | acquire l mode next ih => exact .acquire hp.1 (ih hp.2.2)
  | release l mode next ih =>
    obtain ⟨hrefl, rest, rfl, hp⟩ := hp
    exact .release hrefl (ih hp)

/-- Nor does what it does at the end. -/
theorem Settles.bind {p : Program L σ ρ} {f : ρ → Program L σ ρ'} (hp : p.Settles F m held)
    (hf : ∀ r, (f r).Writes A (fun held s s' => ∀ i, F i held s s') m out) : (p.bind f).Settles F out held := by
  induction hp with
  | on i hw =>
    refine .on (A := fun _ _ => True) i ((hw.mono (fun _ _ _ => trivial) fun _ _ _ h => h).bind fun r => ?_)
    exact (hf r).mono (fun _ _ _ => trivial) fun _ _ _ h => h i
  | atomic hR _ ih => exact .atomic hR ih
  | acquire hR _ ih => exact .acquire hR ih
  | release hR _ ih => exact .release hR ih

end Program

namespace Routine

/-- What the routine does, with the guards `held` or more; it gives back the locks it takes. -/
def Writes (A : L → Mode → Prop) (R : List (L × Mode) → σ → σ → Prop) (held : List (L × Mode)) (x : Routine L σ ε α) :
    Prop := Program.Writes A R held x held

variable {A A' : L → Mode → Prop} {R R' : List (L × Mode) → σ → σ → Prop} {Q : σ → σ → Prop} {held : List (L × Mode)}

namespace Writes

theorem finish (r : Outcome ε α) : (Routine.finish r : Routine L σ ε α).Writes A R held := rfl

theorem pure (a : α) : (pure a : Routine L σ ε α).Writes A R held := rfl

theorem ofCall {x : Eff σ ε α} (h : ∀ s, R held s (x s).2) : (ofCall x : Routine L σ ε α).Writes A R held :=
  fun s => ⟨h s, rfl⟩

theorem mono {x : Routine L σ ε α} (h : x.Writes A R held) (hA : ∀ l mode, A l mode → A' l mode)
    (hR : ∀ held s s', R held s s' → R' held s s') : x.Writes A' R' held := Program.Writes.mono h hA hR

theorem after {x : Routine L σ ε α} {f : Outcome ε α → Routine L σ ε β} (hx : x.Writes A R held)
    (hf : ∀ r, (f r).Writes A R held) : (x.after f).Writes A R held := Program.Writes.bind hx hf

theorem bind {x : Routine L σ ε α} {f : α → Routine L σ ε β} (hx : x.Writes A R held)
    (hf : ∀ a, (f a).Writes A R held) : (x >>= f).Writes A R held := by
  refine hx.after fun r => ?_
  cases r with
  | ok a => exact hf a
  | err e => exact finish _
  | panic => exact finish _

theorem unwrap {x : Routine L σ ε α} (hx : x.Writes A R held) : (Routine.unwrap x).Writes A R held := by
  refine hx.after fun r => ?_
  cases r with
  | ok a => exact finish _
  | err e => exact finish _
  | panic => exact finish _

theorem ite {c : Prop} [Decidable c] {x y : Routine L σ ε α} (hx : x.Writes A R held) (hy : y.Writes A R held) :
    (if c then x else y).Writes A R held := by
  split
  · exact hx
  · exact hy

theorem holding {x : Routine L σ ε α} {l : L} {mode : Mode} (hl : A l mode) (hrefl : ∀ held s, R held s s)
    (hx : x.Writes A R ((l, mode) :: held)) : (holding l mode x).Writes A R held :=
  ⟨hrefl held, hl, Program.Writes.bind hx fun _ => ⟨hrefl _, held, rfl, rfl⟩⟩

theorem mutex {x : Routine L σ ε α} {l : L} {m : Place σ (Mutex β)} (hl : A l .exclusive)
    (hfree : ∀ s, R held s s) (hrefl : ∀ s, R ((l, .exclusive) :: held) s s)
    (hpoison : ∀ s, R ((l, .exclusive) :: held) s (poison m s)) (hx : x.Writes A R ((l, .exclusive) :: held)) :
    (mutex l m x).Writes A R held := by
  refine ⟨hfree, hl, fun s => ⟨hrefl s, ?_⟩⟩
  show Program.Writes A R ((l, .exclusive) :: held) (inMutex l m x s) held
  have hunlock : ∀ r : Outcome ε α, Program.Writes A R ((l, .exclusive) :: held) (unlock l r) held :=
    fun r => ⟨hrefl, held, rfl, rfl⟩
  unfold inMutex
  split
  · exact hunlock _
  · refine Program.Writes.bind hx fun r => ?_
    cases r with
    | ok a => exact hunlock _
    | err e => exact hunlock _
    | panic => exact fun s => ⟨hpoison s, hunlock _⟩

/-- A routine that does nothing else under any guards is told by what it does under none. -/
theorem frame {x : Routine L σ ε α} (h : x.Writes A (fun _ => Q) [])
    (hR : ∀ own, (∀ g ∈ own, A g.1 g.2) → ∀ s s', Q s s' → R (own ++ held) s s') : x.Writes A R held :=
  Program.Writes.frame held h (fun _ hg => by cases hg) hR

end Writes

end Routine

/-! ## What was done in a run -/

namespace Pool

variable [DecidableEq τ] {s₀ s s' : Pool τ L σ ρ} {t : τ} {ds : List (Deed τ L σ)}
  {R : τ → ι → List (L × Mode) → σ → σ → Prop}

theorem Step.writes {A : L → Mode → Prop} {R : List (L × Mode) → σ → σ → Prop} (hstep : s.Step t s')
    (h : (s.pc t).rest.Writes A R (s.pc t).held []) :
    (s'.pc t).rest.Writes A R (s'.pc t).held [] ∧ R (s.pc t).held s.state s'.state := by
  cases hstep with
  | atomic write next hrest =>
    rw [hrest] at h
    simp only [Function.update_self]
    exact ⟨(h s.state).2, (h s.state).1⟩
  | acquire l mode next hrest _ =>
    rw [hrest] at h
    simp only [Function.update_self]
    exact ⟨h.2.2, h.1 s.state⟩
  | release l mode next held hrest hheld =>
    rw [hrest] at h
    obtain ⟨hrefl, rest, he, hnext⟩ := h
    rw [hheld] at he
    cases he
    simp only [Function.update_self]
    exact ⟨hnext, hrefl s.state⟩

/-- A step settles which way the program goes, or leaves it open and is one that all ways allow. -/
theorem Step.settles {R : ι → List (L × Mode) → σ → σ → Prop} (hstep : s.Step t s')
    (h : (s.pc t).rest.Settles R [] (s.pc t).held) :
    (∃ A i, (s'.pc t).rest.Writes A (R i) (s'.pc t).held [] ∧ R i (s.pc t).held s.state s'.state) ∨
      ((s'.pc t).rest.Settles R [] (s'.pc t).held ∧ ∀ i, R i (s.pc t).held s.state s'.state) := by
  have hon : ∀ A i, (s.pc t).rest.Writes A (R i) (s.pc t).held [] →
      ∃ A i, (s'.pc t).rest.Writes A (R i) (s'.pc t).held [] ∧ R i (s.pc t).held s.state s'.state :=
    fun A i hw => ⟨A, i, hstep.writes hw⟩
  cases hstep with
  | atomic write next hrest =>
    rw [hrest] at h hon
    simp only [Function.update_self] at hon ⊢
    generalize (s.pc t).held = held at h hon ⊢
    cases h with
    | on i hw => exact Or.inl (hon _ i hw)
    | atomic hR hnext =>
      exact Or.inr ⟨hnext s.state, hR s.state⟩
  | acquire l mode next hrest _ =>
    rw [hrest] at h hon
    simp only [Function.update_self] at hon ⊢
    generalize (s.pc t).held = held at h hon ⊢
    cases h with
    | on i hw => exact Or.inl (hon _ i hw)
    | acquire hR hnext =>
      exact Or.inr ⟨hnext, hR s.state⟩
  | release l mode next held hrest hheld =>
    rw [hrest, hheld] at h hon
    simp only [Function.update_self] at hon ⊢
    rw [hheld]
    cases h with
    | on i hw => exact Or.inl (hon _ i hw)
    | release hR hnext =>
      exact Or.inr ⟨hnext, hR s.state⟩

/-- In a run each thread does what its program allows, in one of the ways that it may settle on. -/
theorem Trace.settles [Inhabited ι] (h : Trace s₀ ds s) (hp : ∀ t, (s₀.pc t).rest.Settles (R t) [] (s₀.pc t).held) :
    ∃ i : τ → ι, ∀ d ∈ ds, R d.thread (i d.thread) d.held d.before d.after := by
  -- a thread has settled, or has done only what all ways allow
  have hall : ∀ t, (∃ A i, (s.pc t).rest.Writes A (R t i) (s.pc t).held [] ∧
        ∀ d ∈ ds, d.thread = t → R t i d.held d.before d.after) ∨
      ((s.pc t).rest.Settles (R t) [] (s.pc t).held ∧ ∀ i, ∀ d ∈ ds, d.thread = t → R t i d.held d.before d.after) := by
    induction h with
    | start => exact fun t => Or.inr ⟨hp t, fun i d hd => by cases hd⟩
    | @step ds s s' t _ hstep ih =>
      intro t'
      by_cases ht : t' = t
      · subst ht
        -- what the thread did before, and does now
        have hmore : ∀ i, (∀ d ∈ ds, d.thread = t' → R t' i d.held d.before d.after) →
            R t' i (s.pc t').held s.state s'.state → ∀ d ∈ ds ++ [⟨t', (s.pc t').held, s.state, s'.state⟩],
              d.thread = t' → R t' i d.held d.before d.after := by
          intro i hds hnow d hd ht
          rcases List.mem_append.mp hd with hd | hd
          · exact hds d hd ht
          · cases List.mem_singleton.mp hd
            exact hnow
        rcases ih t' with ⟨A, i, hw, hds⟩ | ⟨hs, hds⟩
        · exact Or.inl ⟨A, i, (hstep.writes hw).1, hmore i hds (hstep.writes hw).2⟩
        · rcases hstep.settles hs with ⟨A, i, hw, hnow⟩ | ⟨hs', hnow⟩
          · exact Or.inl ⟨A, i, hw, hmore i (hds i) hnow⟩
          · exact Or.inr ⟨hs', fun i => hmore i (hds i) (hnow i)⟩
      · have hpc : s'.pc t' = s.pc t' := by
          obtain ⟨p, hpc, _⟩ := hstep.pc_eq
          rw [hpc, Function.update_of_ne ht]
        have hold : ∀ i, (∀ d ∈ ds, d.thread = t' → R t' i d.held d.before d.after) →
            ∀ d ∈ ds ++ [⟨t, (s.pc t).held, s.state, s'.state⟩], d.thread = t' → R t' i d.held d.before d.after := by
          intro i hds d hd he
          rcases List.mem_append.mp hd with hd | hd
          · exact hds d hd he
          · cases List.mem_singleton.mp hd
            exact absurd he.symm ht
        rw [hpc]
        rcases ih t' with ⟨A, i, hw, hds⟩ | ⟨hs, hds⟩
        · exact Or.inl ⟨A, i, hw, hold i hds⟩
        · exact Or.inr ⟨hs, fun i => hold i (hds i)⟩
  have hone : ∀ t, ∃ i, ∀ d ∈ ds, d.thread = t → R t i d.held d.before d.after := by
    intro t
    rcases hall t with ⟨A, i, _, hds⟩ | ⟨_, hds⟩
    · exact ⟨i, hds⟩
    · exact ⟨default, hds default⟩
  choose i hi using hone
  exact ⟨i, fun d hd => hi d.thread d hd rfl⟩

end Pool

end ParquetKeyManagement.Locks
