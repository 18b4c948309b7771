/-
  ParquetKeyManagement.Support.Memo — values that threads produce once and then share.

  Values are kept in a map behind a mutex. A thread that misses one takes the mutex, looks the
  key up, produces the value and stores it; whatever else it does, it may be stopped anywhere.
  What a step produced can be seen from the states before and after it (`yields`).
  `Program.Memoizes` is what one thread has to keep to: while it has the mutex, a step leaves
  the map alone, or produces a value that is missing, or stores the one that was produced last
  (`Posting`), and the mutex is not given back in between (`Account.owed`). That nobody else
  writes the map meanwhile is what the mutex protects by the threads' contract.
  - `Writes.memoizes`: programs that never take the mutex, and produce nothing if it is held
    over them.
  - `getOrMake_memoizes`, `makeAndStore_memoizes`: looking a key up, producing what is missing
    and storing it.
  - `Books.of_trace`: after every run, no value was produced twice, nor one that was there before,
    and what was produced is in the map, or owed by the thread that has the mutex.
-/

import Mathlib.Data.List.AList
import ParquetKeyManagement.Support.Interference
import ParquetKeyManagement.Support.Traces

namespace ParquetKeyManagement.Locks

open Effect

variable {τ L σ ρ ρ' ε α β κ ν : Type}

namespace Memo

section

variable [DecidableEq κ] (map : Place σ (AList fun _ : κ => ν)) (yields : σ → σ → List κ) (allowed : κ → Prop)

/-- What a step does under the mutex, by a thread that owes the first and then the second value. -/
inductive Posting : Option κ → σ → Option κ → σ → Prop
  | quiet {owed : Option κ} {s s' : σ} : map.get s' = map.get s → yields s s' = [] → Posting owed s owed s'
  | produce (k : κ) {s s' : σ} : allowed k → k ∉ map.get s → map.get s' = map.get s → yields s s' = [k] →
    Posting none s (some k) s'
  | store (k : κ) (v : ν) {s s' : σ} : map.get s' = (map.get s).insert k v → yields s s' = [] →
    Posting (some k) s none s'

end

/-- Whether a thread has taken the mutex, and the key whose value it has produced and not stored yet. -/
structure Account (κ : Type) where
  opened : Prop
  owed : Option κ

/-- Nothing is owed, and a value satisfies `P`. -/
def Settled (P : α → σ → Prop) (r : Outcome ε α) (g : Account κ) (s : σ) : Prop :=
  g.owed = none ∧ ∀ a, r = .ok a → P a s

end Memo

open Memo

/-! ## Programs that memoize -/

section

variable [DecidableEq κ] (C : Contract L σ) (l : L) (map : Place σ (AList fun _ : κ => ν))
  (yields : σ → σ → List κ) (allowed : κ → Prop)

namespace Program

/-- Run from a state with the guards `held` and the account `g`, the program keeps to the protocol, and ends with the
    guards `out`, and with `post` for as long as the others please. -/
def Memoizes (out : List (L × Mode)) (post : ρ → Account κ → σ → Prop) :
    Account κ → List (L × Mode) → Program L σ ρ → σ → Prop
  | g, held, done r, s => held = out ∧ ∀ s', C.Rely held s s' → post r g s'
  | g, held, atomic write next, s => ∀ s', C.Rely held s s' → C.Guar held s' (write s') →
    ∃ owed, ((l, .exclusive) ∈ held → Posting map yields allowed g.owed s' owed (write s')) ∧
      ((l, .exclusive) ∉ held → owed = g.owed) ∧ (next s').Memoizes out post { g with owed } held (write s')
  | g, held, acquire l' mode next, s => ∀ s', C.Rely held s s' →
    next.Memoizes out post { g with opened := g.opened ∨ (l' = l ∧ mode = .exclusive) } ((l', mode) :: held) s'
  | g, held, release l' mode next, s => (l' = l → g.owed = none) ∧ ∃ rest, held = (l', mode) :: rest ∧
    ∀ s', C.Rely held s s' → next.Memoizes out post g rest s'

variable {C l map yields allowed} {held mid out : List (L × Mode)} {g : Account κ} {s s' : σ}
  {post : ρ → Account κ → σ → Prop}

theorem Memoizes.rely {p : Program L σ ρ} (h : p.Memoizes C l map yields allowed out post g held s)
    (hr : C.Rely held s s') : p.Memoizes C l map yields allowed out post g held s' := by
  cases p with
  | done r => exact ⟨h.1, fun s'' hr' => h.2 s'' (hr.trans hr')⟩
  | atomic write next => exact fun s'' hr' => h s'' (hr.trans hr')
  | acquire l' mode next => exact fun s'' hr' => h s'' (hr.trans hr')
  | release l' mode next =>
    obtain ⟨howed, rest, hheld, h⟩ := h
    exact ⟨howed, rest, hheld, fun s'' hr' => h s'' (hr.trans hr')⟩

theorem Memoizes.bind {p : Program L σ ρ'} {f : ρ' → Program L σ ρ} {fact : ρ' → Account κ → σ → Prop} (hs : C.Inv s)
    (hp : p.Memoizes C l map yields allowed mid fact g held s)
    (hf : ∀ r g' s', C.Inv s' → C.Evolves s s' → (∀ s'', C.Rely mid s' s'' → fact r g' s'') →
      (f r).Memoizes C l map yields allowed out post g' mid s') :
    (p.bind f).Memoizes C l map yields allowed out post g held s := by
  have hfrom : ∀ s0, C.Evolves s0 s →
      (∀ r g' s', C.Inv s' → C.Evolves s0 s' → (∀ s'', C.Rely mid s' s'' → fact r g' s'') →
        (f r).Memoizes C l map yields allowed out post g' mid s') →
      (p.bind f).Memoizes C l map yields allowed out post g held s := by
    clear hf
    intro s0 h0 hf
    induction p generalizing g held s with
    | done r =>
      obtain ⟨rfl, hfact⟩ := hp
      exact hf r g s hs h0 hfact
    | atomic write next ih =>
      intro s' hr hguar
      obtain ⟨owed, hentry, hsame, hnext⟩ := hp s' hr hguar
      exact ⟨owed, hentry, hsame, ih s' hguar.inv hnext (C.evolves_trans h0 (C.evolves_trans hr.evolves hguar.evolves))⟩
    | acquire l' mode next ih => exact fun s' hr => ih hr.inv (hp s' hr) (C.evolves_trans h0 hr.evolves)
    | release l' mode next ih =>
      obtain ⟨howed, rest, hheld, hp⟩ := hp
      exact ⟨howed, rest, hheld, fun s' hr => ih hr.inv (hp s' hr) (C.evolves_trans h0 hr.evolves)⟩
  exact hfrom s (C.evolves_refl s) hf

theorem Memoizes.mono {p : Program L σ ρ} {post' : ρ → Account κ → σ → Prop}
    (h : p.Memoizes C l map yields allowed out post g held s) (hpost : ∀ r g' s', post r g' s' → post' r g' s') :
    p.Memoizes C l map yields allowed out post' g held s := by
  induction p generalizing g held s with
  | done r => exact ⟨h.1, fun s' hr => hpost r g s' (h.2 s' hr)⟩
  | atomic write next ih =>
    intro s' hr hguar
    obtain ⟨owed, hentry, hsame, hnext⟩ := h s' hr hguar
    exact ⟨owed, hentry, hsame, ih s' hnext⟩
  | acquire l' mode next ih => exact fun s' hr => ih (h s' hr)
  | release l' mode next ih =>
    obtain ⟨howed, rest, hheld, h⟩ := h
    exact ⟨howed, rest, hheld, fun s' hr => ih (h s' hr)⟩

/-- The end of a program may speak of its start. -/
theorem Memoizes.evolves {p : Program L σ ρ} (h : p.Memoizes C l map yields allowed out post g held s) :
    p.Memoizes C l map yields allowed out (fun r g' s' => post r g' s' ∧ C.Evolves s s') g held s := by
  have hfrom : ∀ s0, C.Evolves s0 s →
      p.Memoizes C l map yields allowed out (fun r g' s' => post r g' s' ∧ C.Evolves s0 s') g held s := by
    intro s0 h0
    induction p generalizing g held s with
    | done r => exact ⟨h.1, fun s' hr => ⟨h.2 s' hr, C.evolves_trans h0 hr.evolves⟩⟩
    | atomic write next ih =>
      intro s' hr hguar
      obtain ⟨owed, hentry, hsame, hnext⟩ := h s' hr hguar
      exact ⟨owed, hentry, hsame, ih s' hnext (C.evolves_trans h0 (C.evolves_trans hr.evolves hguar.evolves))⟩
    | acquire l' mode next ih => exact fun s' hr => ih (h s' hr) (C.evolves_trans h0 hr.evolves)
    | release l' mode next ih =>
      obtain ⟨howed, rest, hheld, h⟩ := h
      exact ⟨howed, rest, hheld, fun s' hr => ih (h s' hr) (C.evolves_trans h0 hr.evolves)⟩
  exact hfrom s (C.evolves_refl s)

/-- A program that never takes the mutex; if it runs under it, it leaves the map alone and produces nothing. -/
theorem Writes.memoizes {A : L → Mode → Prop} {Q : σ → σ → Prop} {p : Program L σ ρ} {own out' : List (L × Mode)}
    (h : p.Writes A (fun _ => Q) own out') (hA : ∀ mode, ¬ A l mode) (hown : ∀ mode, (l, mode) ∉ own)
    (hsame : ∀ s s', C.Same l s s' → map.get s' = map.get s)
    (hQ : (l, .exclusive) ∈ held → ∀ s s', Q s s' → map.get s' = map.get s ∧ yields s s' = []) :
    p.Memoizes C l map yields allowed (out' ++ held)
      (fun _ g' s' => g' = g ∧ ((l, .exclusive) ∈ held → map.get s' = map.get s)) g (own ++ held) s := by
  have hkept : ∀ {own : List (L × Mode)} {s s' : σ}, C.Rely (own ++ held) s s' → (l, .exclusive) ∈ held →
      map.get s' = map.get s := fun hr hl => hsame _ _ (hr.same _ (List.mem_append_right _ hl))
  have hfrom : ∀ s0, ((l, .exclusive) ∈ held → map.get s = map.get s0) →
      p.Memoizes C l map yields allowed (out' ++ held)
        (fun _ g' s' => g' = g ∧ ((l, .exclusive) ∈ held → map.get s' = map.get s0)) g (own ++ held) s := by
    intro s0 h0
    induction p generalizing own s with
    | done r => exact ⟨congrArg (· ++ held) h, fun s' hr => ⟨rfl, fun hl => (hkept hr hl).trans (h0 hl)⟩⟩
    | atomic write next ih =>
      intro s' hr _
      refine ⟨g.owed, fun hl => ?_, fun _ => rfl, ih s' (h s').2 hown fun hl => ?_⟩
      · have hheld : (l, .exclusive) ∈ held := (List.mem_append.mp hl).resolve_left (hown _)
        exact .quiet (hQ hheld _ _ (h s').1).1 (hQ hheld _ _ (h s').1).2
      · exact ((hQ hl _ _ (h s').1).1.trans (hkept hr hl)).trans (h0 hl)
    | acquire l' mode next ih =>
      have hne : l' ≠ l := fun he => hA mode (he ▸ h.2.1)
      intro s' hr
      have hacc : ({ g with opened := g.opened ∨ (l' = l ∧ mode = .exclusive) } : Account κ) = g := by
        rw [show (g.opened ∨ (l' = l ∧ mode = .exclusive)) = g.opened from propext ⟨fun h => h.resolve_right
          fun h => hne h.1, Or.inl⟩]
      rw [hacc]
      refine ih h.2.2 (fun mode' hmem => ?_) fun hl => (hkept hr hl).trans (h0 hl)
      rcases List.mem_cons.mp hmem with he | hmem
      · exact hne (Prod.mk.inj he).1.symm
      · exact hown mode' hmem
    | release l' mode next ih =>
      obtain ⟨_, rest, rfl, h⟩ := h
      refine ⟨fun he => absurd (List.mem_cons_self ..) (he ▸ hown mode), rest ++ held, rfl, fun s' hr => ?_⟩
      exact ih h (fun mode' hmem => hown mode' (List.mem_cons_of_mem _ hmem)) fun hl => (hkept hr hl).trans (h0 hl)
  exact hfrom s fun _ => rfl

/-- A program that never takes the mutex, and does not run under it. -/
theorem Writes.memoizes_outside {A : L → Mode → Prop} {R : List (L × Mode) → σ → σ → Prop} {p : Program L σ ρ}
    (h : p.Writes A R [] []) (hA : ∀ mode, ¬ A l mode) (hsame : ∀ s s', C.Same l s s' → map.get s' = map.get s) :
    p.Memoizes C l map yields allowed [] (fun _ g' _ => g' = g) g [] s := by
  have hany : p.Writes A (fun _ _ _ => True) [] [] := h.mono (fun _ _ h => h) fun _ _ _ _ => trivial
  have hmemo : p.Memoizes C l map yields allowed ([] ++ []) _ g ([] ++ []) s :=
    hany.memoizes hA (fun _ hmem => by cases hmem) hsame fun hl => by cases hl
  exact hmemo.mono fun _ _ _ h => h.1

end Program

/-! ## Routines that memoize -/

namespace Routine

/-- The routine keeps to the protocol and gives back the guards it takes. -/
def Memoizes (held : List (L × Mode)) (x : Routine L σ ε α) (g : Account κ) (s : σ)
    (q : Outcome ε α → Account κ → σ → Prop) : Prop :=
  Program.Memoizes C l map yields allowed held q g held x s

variable {C l map yields allowed} {held : List (L × Mode)} {g : Account κ} {s : σ}
  {q : Outcome ε α → Account κ → σ → Prop}

namespace Memoizes

theorem finish {r : Outcome ε α} (h : ∀ s', C.Rely held s s' → q r g s') :
    (Routine.finish r : Routine L σ ε α).Memoizes C l map yields allowed held g s q := ⟨rfl, h⟩

theorem mono {x : Routine L σ ε α} {q' : Outcome ε α → Account κ → σ → Prop}
    (h : x.Memoizes C l map yields allowed held g s q) (hpost : ∀ r g' s', q r g' s' → q' r g' s') :
    x.Memoizes C l map yields allowed held g s q' := Program.Memoizes.mono h hpost

theorem evolves {x : Routine L σ ε α} (h : x.Memoizes C l map yields allowed held g s q) :
    x.Memoizes C l map yields allowed held g s fun r g' s' => q r g' s' ∧ C.Evolves s s' :=
      Program.Memoizes.evolves h

/-- A call that runs in one step under the mutex. -/
theorem ofCall {x : Eff σ ε α} (hl : (l, .exclusive) ∈ held) (hx : ∀ s', C.Rely held s s' →
    ∃ owed, Posting map yields allowed g.owed s' owed (x s').2 ∧
      ∀ s'', C.Rely held (x s').2 s'' → q (x s').1 { g with owed } s'') :
    (ofCall x).Memoizes C l map yields allowed held g s q := by
  intro s' hr _
  obtain ⟨owed, hentry, hpost⟩ := hx s' hr
  exact ⟨owed, fun _ => hentry, fun h => absurd hl h, rfl, hpost⟩

theorem after {x : Routine L σ ε α} {f : Outcome ε α → Routine L σ ε β} {q' : Outcome ε β → Account κ → σ → Prop}
    (hs : C.Inv s) (hx : x.Memoizes C l map yields allowed held g s q)
    (hf : ∀ r g' s', C.Inv s' → C.Evolves s s' → (∀ s'', C.Rely held s' s'' → q r g' s'') →
      (f r).Memoizes C l map yields allowed held g' s' q') :
    (x.after f).Memoizes C l map yields allowed held g s q' := Program.Memoizes.bind hs hx hf

/-- A routine after a routine; what an error or a panic ends with is to be an end of both. -/
theorem bind {x : Routine L σ ε α} {f : α → Routine L σ ε β} {q' : Outcome ε β → Account κ → σ → Prop}
    (hs : C.Inv s) (hx : x.Memoizes C l map yields allowed held g s q)
    (herr : ∀ e g' s', C.Evolves s s' → q (.err e) g' s' → q' (.err e) g' s')
    (hpanic : ∀ g' s', C.Evolves s s' → q .panic g' s' → q' .panic g' s')
    (hf : ∀ a g' s', C.Inv s' → C.Evolves s s' → (∀ s'', C.Rely held s' s'' → q (.ok a) g' s'') →
      (f a).Memoizes C l map yields allowed held g' s' q') :
    (x >>= f).Memoizes C l map yields allowed held g s q' := by
  refine hx.after hs fun r g' s' hs' he hr => ?_
  cases r with
  | ok a => exact hf a g' s' hs' he hr
  | err e => exact finish fun s'' hr' => herr e g' s'' (C.evolves_trans he hr'.evolves) (hr s'' hr')
  | panic => exact finish fun s'' hr' => hpanic g' s'' (C.evolves_trans he hr'.evolves) (hr s'' hr')

/-- A routine after a routine that leaves nothing owed. -/
theorem bind_settled {x : Routine L σ ε α} {f : α → Routine L σ ε β} {P : α → σ → Prop} {P' : β → σ → Prop}
    (hs : C.Inv s) (hx : x.Memoizes C l map yields allowed held g s (Settled P))
    (hf : ∀ a g' s', C.Inv s' → C.Evolves s s' → g'.owed = none → (∀ s'', C.Rely held s' s'' → P a s'') →
      (f a).Memoizes C l map yields allowed held g' s' (Settled P')) :
    (x >>= f).Memoizes C l map yields allowed held g s (Settled P') := by
  refine .bind hs hx (fun e _ _ _ h => ⟨h.1, fun _ he => by cases he⟩) (fun _ _ _ h => ⟨h.1, fun _ he => by cases he⟩)
    fun a g' s1 hs1 he1 h1 => ?_
  exact hf a g' s1 hs1 he1 (h1 s1 (.refl hs1)).1 fun s2 hr2 => (h1 s2 hr2).2 a rfl

/-- A call that runs in one step elsewhere. -/
theorem ofCall_outside {x : Eff σ ε α} (hl : (l, .exclusive) ∉ held)
    (hx : ∀ s', C.Rely held s s' → ∀ s'', C.Rely held (x s').2 s'' → q (x s').1 g s'') :
    (Routine.ofCall x).Memoizes C l map yields allowed held g s q :=
  fun s' hr _ => ⟨g.owed, fun h => absurd h hl, fun _ => rfl, rfl, hx s' hr⟩

/-- Under another lock; what holds at the end is to hold without it too. -/
theorem holding {x : Routine L σ ε α} {l' : L} {mode : Mode} {q' : Outcome ε α → Account κ → σ → Prop} (hne : l' ≠ l)
    (hx : ∀ s', C.Rely held s s' → x.Memoizes C l map yields allowed ((l', mode) :: held) g s' q)
    (hout : ∀ r g' s' s'', q r g' s' → C.Rely held s' s'' → q' r g' s'') :
    (holding l' mode x).Memoizes C l map yields allowed held g s q' := by
  intro s' hr
  rw [show (g.opened ∨ (l' = l ∧ mode = .exclusive)) = g.opened from
    propext ⟨fun h => h.resolve_right fun h => hne h.1, Or.inl⟩]
  refine Program.Memoizes.bind hr.inv (hx s' hr) fun r g' s1 hs1 _ h1 => ?_
  exact ⟨fun he => absurd he hne, held, rfl, fun s2 hr2 => ⟨rfl, fun s3 hr3 => hout r g' s2 s3 (h1 s2 hr2) hr3⟩⟩

/-- The mutex itself: nothing is owed when it is given back. -/
theorem mutex {x : Routine L σ ε α} {m : Place σ (Mutex β)} {q' : Outcome ε α → Account κ → σ → Prop}
    (howed : g.owed = none) (hrefl : ∀ s, yields s s = [])
    (hpoison : ∀ s, map.get (poison m s) = map.get s ∧ yields s (poison m s) = [])
    (hx : ∀ g' s', g'.owed = none → C.Rely held s s' →
      x.Memoizes C l map yields allowed ((l, .exclusive) :: held) g' s' fun r g' s' => g'.owed = none ∧ q r g' s')
    (hpanic : ∀ g' s', g'.owed = none → q' .panic g' s')
    (hout : ∀ r g' s' s'', g'.owed = none → q r g' s' → C.Rely held s' s'' → q' r g' s'') :
    (mutex l m x).Memoizes C l map yields allowed held g s q' := by
  intro s' hr s1 hr1 _
  have hr01 : C.Rely held s s1 := hr.trans (hr1.sub (List.subset_cons_self ..))
  refine ⟨g.owed, fun _ => .quiet rfl (hrefl s1), fun _ => rfl, ?_⟩
  -- the end of the section: the lock is given back
  have hunlock : ∀ (r : Outcome ε α) (g' : Account κ) s2, g'.owed = none →
      (∀ s3 s4, C.Rely ((l, .exclusive) :: held) s2 s3 → C.Rely held s3 s4 → q' r g' s4) →
      Program.Memoizes C l map yields allowed held q' g' ((l, .exclusive) :: held) (unlock l r) s2 :=
    fun r g' s2 hg h => ⟨fun _ => hg, held, rfl, fun s3 hr3 => ⟨rfl, fun s4 hr4 => h s3 s4 hr3 hr4⟩⟩
  show Program.Memoizes C l map yields allowed held q' _ _ (inMutex l m x s1) s1
  unfold inMutex
  split
  · exact hunlock _ _ _ howed fun _ s4 _ _ => hpanic _ s4 howed
  · refine Program.Memoizes.bind hr1.inv (hx _ s1 howed hr01) fun r g' s2 hs2 _ h2 => ?_
    obtain ⟨hg', _⟩ := h2 s2 (.refl hs2)
    cases r with
    | ok a => exact hunlock _ _ _ hg' fun s3 s4 hr3 hr4 => hout _ g' s3 s4 hg' (h2 s3 hr3).2 hr4
    | err e => exact hunlock _ _ _ hg' fun s3 s4 hr3 hr4 => hout _ g' s3 s4 hg' (h2 s3 hr3).2 hr4
    | panic =>
      intro s3 hr3 _
      refine ⟨g'.owed, fun _ => .quiet (hpoison s3).1 (hpoison s3).2, fun _ => rfl, ?_⟩
      exact hunlock _ _ _ hg' fun _ s5 _ _ => hpanic _ s5 hg'

/-- A routine that never takes the mutex; if it runs under it, it leaves the map alone and produces nothing. -/
theorem of_writes {A : L → Mode → Prop} {Q : σ → σ → Prop} {x : Routine L σ ε α} (h : x.Writes A (fun _ => Q) [])
    (hA : ∀ mode, ¬ A l mode) (hsame : ∀ s s', C.Same l s s' → map.get s' = map.get s)
    (hQ : (l, .exclusive) ∈ held → ∀ s s', Q s s' → map.get s' = map.get s ∧ yields s s' = []) :
    x.Memoizes C l map yields allowed held g s
      fun _ g' s' => g' = g ∧ ((l, .exclusive) ∈ held → map.get s' = map.get s) :=
  Program.Writes.memoizes h hA (fun _ hmem => by cases hmem) hsame hQ

end Memoizes

end Routine

end

/-! ## Looking up, producing and storing -/

namespace Memo

section

variable [DecidableEq κ] (map : Place σ (AList fun _ : κ => ν)) (k : κ)

/-- The value under the key, or what is made if it is missing. -/
def getOrMake (make : Routine L σ ε ν) : Routine L σ ε ν := do
  match (← (Routine.ofCall (Eff.read map.get) : Routine L σ ε _)).lookup k with
  | some v => pure v
  | none => make

/-- Produce a value and store it. -/
def makeAndStore (produce : Routine L σ ε ν) : Routine L σ ε ν := do
  let v ← produce
  Routine.ofCall (Eff.modify (map.modify fun m => m.insert k v))
  pure v

/-- A value is owed for the key if one was produced. -/
def Owes : Outcome ε ν → Account κ → σ → Prop
  | .ok _, g, _ => g.owed = some k
  | _, g, _ => g.owed = none

variable {map k} {C : Contract L σ} {l : L} {yields : σ → σ → List κ} {allowed : κ → Prop} {held : List (L × Mode)}
  {g : Account κ} {s : σ}

theorem getOrMake_memoizes {make : Routine L σ ε ν} (hs : C.Inv s) (hl : (l, .exclusive) ∈ held) (howed : g.owed = none)
    (hrefl : ∀ s, yields s s = []) (hsame : ∀ s s', C.Same l s s' → map.get s' = map.get s)
    (hmake : ∀ s', C.Inv s' → C.Evolves s s' → k ∉ map.get s' →
      make.Memoizes C l map yields allowed held g s' (Settled fun v s => (map.get s).lookup k = some v)) :
    (getOrMake map k make).Memoizes C l map yields allowed held g s
      (Settled fun v s => (map.get s).lookup k = some v) := by
  have hread : (Routine.ofCall (Eff.read map.get) : Routine L σ ε _).Memoizes C l map yields allowed held g s
      fun r g' s' => g' = g ∧ r = .ok (map.get s') :=
    .ofCall hl fun s1 _ => ⟨g.owed, .quiet rfl (hrefl s1), fun s2 hr2 =>
      ⟨rfl, congrArg Outcome.ok (hsame _ _ (hr2.same _ hl)).symm⟩⟩
  refine .bind hs hread (fun _ _ _ _ h => by cases h.2) (fun _ _ _ h => by cases h.2) fun m g' s1 hs1 he1 h1 => ?_
  obtain ⟨rfl, hm⟩ := h1 s1 (.refl hs1)
  cases hm
  cases hlookup : (map.get s1).lookup k with
  | some v =>
    refine .finish fun s2 hr2 => ⟨howed, fun v' hv => ?_⟩
    cases hv
    rw [hsame _ _ (hr2.same _ hl)]
    exact hlookup
  | none => exact hmake s1 hs1 he1 (AList.lookup_eq_none.mp hlookup)

theorem makeAndStore_memoizes {produce : Routine L σ ε ν} (hs : C.Inv s) (hl : (l, .exclusive) ∈ held)
    (hsame : ∀ s s', C.Same l s s' → map.get s' = map.get s)
    (hstore : ∀ s v, yields s (map.modify (fun m => m.insert k v) s) = [])
    (hproduce : produce.Memoizes C l map yields allowed held g s (Owes k)) :
    (makeAndStore map k produce).Memoizes C l map yields allowed held g s
      (Settled fun v s => (map.get s).lookup k = some v) := by
  refine .bind hs hproduce (fun e _ _ _ h => ⟨h, fun _ he => by cases he⟩) (fun _ _ _ h => ⟨h, fun _ he => by cases he⟩)
    fun v g' s1 hs1 _ h1 => ?_
  have howed : g'.owed = some k := h1 s1 (.refl hs1)
  have hget : ∀ s, map.get (map.modify (fun m => m.insert k v) s) = (map.get s).insert k v :=
    fun s => Place.get_modify map (fun m => m.insert k v) s
  have hwrite : (Routine.ofCall (Eff.modify (map.modify fun m => m.insert k v)) : Routine L σ ε Unit).Memoizes C l map
      yields allowed held g' s1 fun r g'' s' => (g''.owed = none ∧ (map.get s').lookup k = some v) ∧ r = .ok () := by
    refine .ofCall hl fun s2 _ => ⟨none, ?_, fun s3 hr3 => ⟨⟨rfl, ?_⟩, rfl⟩⟩
    · rw [howed]
      exact .store k v (hget s2) (hstore s2 v)
    · rw [hsame _ _ (hr3.same _ hl)]
      show (map.get (map.modify _ s2)).lookup k = some v
      rw [hget, AList.lookup_insert]
  refine .bind hs1 hwrite (fun _ _ _ _ h => by cases h.2) (fun _ _ _ h => by cases h.2) fun _ g'' s2 _ _ h2 => ?_
  refine .finish fun s3 hr3 => ⟨(h2 s3 hr3).1.1, fun v' hv => ?_⟩
  cases hv
  exact (h2 s3 hr3).1.2

end

/-! ## All threads -/

variable [DecidableEq τ] [DecidableEq κ] [DecidableEq L]

/-- What was produced under the mutex. -/
def made (l : L) (yields : τ → σ → σ → List κ) (ds : List (Deed τ L σ)) : List κ :=
  ds.flatMap fun d => if (l, Mode.exclusive) ∈ d.held then yields d.thread d.before d.after else []

section

variable (C : Contract L σ) (l : L) (map : Place σ (AList fun _ : κ => ν)) (yields : τ → σ → σ → List κ)
  (allowed : τ → κ → Prop) (post : τ → ρ → Account κ → σ → Prop)

/-- What is known after a run from `s₀` of threads that memoize, with an account for each. -/
structure Books (s₀ : σ) (ds : List (Deed τ L σ)) (s : Pool τ L σ ρ) (g : τ → Account κ) : Prop where
  programs : ∀ t, (s.pc t).rest.Memoizes C l map (yields t) (allowed t) [] (post t) (g t) (s.pc t).held s.state
  settled : ∀ t, (l, .exclusive) ∉ (s.pc t).held → (g t).owed = none
  holder : ∀ t, (l, .exclusive) ∈ (s.pc t).held → (g t).opened
  missing : ∀ t k, (g t).owed = some k → k ∉ map.get s.state
  nodup : (made l yields ds).Nodup
  source : ∀ k, k ∈ made l yields ds ∨ k ∈ map.get s₀ ↔ k ∈ map.get s.state ∨ ∃ t, (g t).owed = some k
  fresh : ∀ k ∈ made l yields ds, k ∉ map.get s₀
  opened : ∀ d ∈ ds, (l, .exclusive) ∈ d.held → (g d.thread).opened
  owner : ∀ t, (g t).owed ≠ none → ∃ d ∈ ds, d.thread = t ∧ (l, .exclusive) ∈ d.held
  allowed : ∀ k ∈ made l yields ds, ∃ d ∈ ds, (l, .exclusive) ∈ d.held ∧ allowed d.thread k

end

variable {C : Contract L σ} {l : L} {map : Place σ (AList fun _ : κ => ν)} {yields : τ → σ → σ → List κ}
  {allowed : τ → κ → Prop} {post : τ → ρ → Account κ → σ → Prop} {post₀ : τ → ρ → σ → Prop} {s₀ w : σ}
  {ds : List (Deed τ L σ)} {s s' : Pool τ L σ ρ} {g : τ → Account κ} {a : Account κ} {p : Point L σ ρ} {t : τ}

omit [DecidableEq τ] [DecidableEq κ] in
theorem made_append (d : Deed τ L σ) : made l yields (ds ++ [d]) = made l yields ds ++
    if (l, Mode.exclusive) ∈ d.held then yields d.thread d.before d.after else [] := by
  simp [made]

namespace Books

/-- A thread that has gone on leaves the others' programs as they were. -/
theorem programs_update (h : Books C l map yields allowed post s₀ ds s g) (hs : Pool.Sound C post₀ s)
    (hguar : C.Guar (s.pc t).held s.state w)
    (hp : p.rest.Memoizes C l map (yields t) (allowed t) [] (post t) a p.held w) (t' : τ) :
    (Function.update s.pc t p t').rest.Memoizes C l map (yields t') (allowed t') [] (post t')
      (Function.update g t a t') (Function.update s.pc t p t').held w := by
  by_cases he : t' = t
  · subst he
    rw [Function.update_self, Function.update_self]
    exact hp
  · rw [Function.update_of_ne he, Function.update_of_ne he]
    exact (h.programs t').rely (hs.rely hguar he)

omit [DecidableEq τ] in
/-- While a thread has the mutex, no other owes anything. -/
theorem others_settled (h : Books C l map yields allowed post s₀ ds s g) (hs : Pool.Sound C post₀ s)
    (hl : (l, .exclusive) ∈ (s.pc t).held) {t' : τ} (hne : t' ≠ t) : (g t').owed = none :=
  h.settled t' fun hmem => hne (hs.exclusion t t' l .exclusive hl hmem).symm

/-- While a thread has the mutex, it alone can owe anything, before its step and after it. -/
theorem owed_update (h : Books C l map yields allowed post s₀ ds s g) (hs : Pool.Sound C post₀ s)
    (hl : (l, .exclusive) ∈ (s.pc t).held) {t' : τ} {k : κ} :
    (Function.update g t a t').owed = some k ↔ t' = t ∧ a.owed = some k := by
  by_cases he : t' = t
  · subst he
    rw [Function.update_self]
    exact ⟨fun hk => ⟨rfl, hk⟩, fun hk => hk.2⟩
  · rw [Function.update_of_ne he, h.others_settled hs hl he]
    exact ⟨fun hk => (by cases hk), fun hk => absurd hk.1 he⟩

omit [DecidableEq τ] in
theorem source_held (h : Books C l map yields allowed post s₀ ds s g) (hs : Pool.Sound C post₀ s)
    (hl : (l, .exclusive) ∈ (s.pc t).held) (k : κ) :
    k ∈ made l yields ds ∨ k ∈ map.get s₀ ↔ k ∈ map.get s.state ∨ (g t).owed = some k := by
  refine (h.source k).trans (or_congr_right ⟨fun ⟨t', ht'⟩ => ?_, fun hk => ⟨t, hk⟩⟩)
  by_cases he : t' = t
  · rwa [he] at ht'
  · rw [h.others_settled hs hl he] at ht'
    cases ht'

/-- The accounts after a step: the one of the thread that made it is `a`, the others are kept. -/
theorem accounts (h : Books C l map yields allowed post s₀ ds s g)
    (hopened : (g t).opened ∨ (l, .exclusive) ∈ p.held → a.opened)
    (hsettled : (l, .exclusive) ∉ p.held → a.owed = none)
    (howner : a.owed ≠ none → (g t).owed ≠ none ∨ (l, .exclusive) ∈ (s.pc t).held) :
    (∀ t', (l, .exclusive) ∉ (Function.update s.pc t p t').held → (Function.update g t a t').owed = none) ∧
    (∀ t', (l, .exclusive) ∈ (Function.update s.pc t p t').held → (Function.update g t a t').opened) ∧
    (∀ d ∈ ds ++ [⟨t, (s.pc t).held, s.state, w⟩], (l, .exclusive) ∈ d.held →
      (Function.update g t a d.thread).opened) ∧
    ∀ t', (Function.update g t a t').owed ≠ none →
      ∃ d ∈ ds ++ [⟨t, (s.pc t).held, s.state, w⟩], d.thread = t' ∧ (l, .exclusive) ∈ d.held := by
  have hkept : ∀ t', (g t').opened → (Function.update g t a t').opened := by
    intro t' ho
    by_cases he : t' = t
    · subst he
      rw [Function.update_self]
      exact hopened (Or.inl ho)
    · rwa [Function.update_of_ne he]
  have hmore : ∀ t', (g t').owed ≠ none →
      ∃ d ∈ ds ++ [⟨t, (s.pc t).held, s.state, w⟩], d.thread = t' ∧ (l, .exclusive) ∈ d.held := by
    intro t' ht'
    obtain ⟨d, hd, hown⟩ := h.owner t' ht'
    exact ⟨d, List.mem_append_left _ hd, hown⟩
  refine ⟨fun t' hl => ?_, fun t' hl => ?_, fun d hd hl => ?_, fun t' ht' => ?_⟩
  · by_cases he : t' = t
    · subst he
      rw [Function.update_self] at hl ⊢
      exact hsettled hl
    · rw [Function.update_of_ne he] at hl ⊢
      exact h.settled t' hl
  · by_cases he : t' = t
    · subst he
      rw [Function.update_self] at hl ⊢
      exact hopened (Or.inr hl)
    · rw [Function.update_of_ne he] at hl ⊢
      exact h.holder t' hl
  · rcases List.mem_append.mp hd with hd | hd
    · exact hkept _ (h.opened d hd hl)
    · cases List.mem_singleton.mp hd
      exact hkept t (h.holder t hl)
  · by_cases he : t' = t
    · subst he
      rw [Function.update_self] at ht'
      rcases howner ht' with hn | hl
      · exact hmore t' hn
      · exact ⟨_, List.mem_append_right _ (List.mem_singleton.mpr rfl), rfl, hl⟩
    · rw [Function.update_of_ne he] at ht'
      exact hmore t' ht'

omit [DecidableEq τ] in
/-- What was produced before was allowed then. -/
theorem allowed_append (h : Books C l map yields allowed post s₀ ds s g) (d : Deed τ L σ) {k : κ}
    (hk : k ∈ made l yields ds) : ∃ d' ∈ ds ++ [d], (l, .exclusive) ∈ d'.held ∧ allowed d'.thread k := by
  obtain ⟨d', hd', hown⟩ := h.allowed k hk
  exact ⟨d', List.mem_append_left _ hd', hown⟩

/-- A step that leaves the map and what is owed as they are, and produces nothing under the mutex. -/
theorem quiet (h : Books C l map yields allowed post s₀ ds s g) (hs : Pool.Sound C post₀ s)
    (hguar : C.Guar (s.pc t).held s.state w)
    (hp : p.rest.Memoizes C l map (yields t) (allowed t) [] (post t) a p.held w)
    (howed : a.owed = (g t).owed) (hopened : (g t).opened ∨ (l, .exclusive) ∈ p.held → a.opened)
    (hyields : (l, .exclusive) ∈ (s.pc t).held → yields t s.state w = [])
    (hsettled : (l, .exclusive) ∉ p.held → a.owed = none) (hmap : map.get w = map.get s.state) :
    Books C l map yields allowed post s₀ (ds ++ [⟨t, (s.pc t).held, s.state, w⟩]) ⟨w, Function.update s.pc t p⟩
      (Function.update g t a) := by
  have hsame : ∀ t', (Function.update g t a t').owed = (g t').owed := by
    intro t'
    by_cases he : t' = t
    · subst he
      rw [Function.update_self, howed]
    · rw [Function.update_of_ne he]
  have hmade : made l yields (ds ++ [⟨t, (s.pc t).held, s.state, w⟩]) = made l yields ds := by
    rw [made_append]
    by_cases hl : (l, Mode.exclusive) ∈ (s.pc t).held
    · rw [if_pos hl, hyields hl, List.append_nil]
    · rw [if_neg hl, List.append_nil]
  obtain ⟨h1, h2, h3, h4⟩ := h.accounts (w := w) hopened hsettled fun hn => Or.inl (howed ▸ hn)
  refine ⟨h.programs_update hs hguar hp, h1, h2, fun t' k hk => ?_, ?_, fun k => ?_, fun k hk => ?_, h3, h4,
    fun k hk => h.allowed_append _ (hmade ▸ hk)⟩
  · rw [hsame] at hk
    show k ∉ map.get w
    rw [hmap]
    exact h.missing t' k hk
  · rw [hmade]
    exact h.nodup
  · simp only [hmade, hsame, hmap]
    exact h.source k
  · exact h.fresh k (hmade ▸ hk)

/-- A step that produces a value that is missing. -/
theorem produce (h : Books C l map yields allowed post s₀ ds s g) (hs : Pool.Sound C post₀ s)
    (hl : (l, .exclusive) ∈ (s.pc t).held) (hguar : C.Guar (s.pc t).held s.state w) {rest : Program L σ ρ} {k : κ}
    (hallowed : allowed t k) (howed : (g t).owed = none) (hmissing : k ∉ map.get s.state)
    (hmap : map.get w = map.get s.state) (hyields : yields t s.state w = [k])
    (hp : rest.Memoizes C l map (yields t) (allowed t) [] (post t) ⟨(g t).opened, some k⟩ (s.pc t).held w) :
    Books C l map yields allowed post s₀ (ds ++ [⟨t, (s.pc t).held, s.state, w⟩])
      ⟨w, Function.update s.pc t ⟨(s.pc t).held, rest⟩⟩ (Function.update g t ⟨(g t).opened, some k⟩) := by
  have hmade : made l yields (ds ++ [⟨t, (s.pc t).held, s.state, w⟩]) = made l yields ds ++ [k] := by
    rw [made_append, if_pos hl, hyields]
  have hnew : k ∉ made l yields ds ∧ k ∉ map.get s₀ := by
    rw [← not_or, h.source_held hs hl k, howed]
    exact fun hk => hk.elim hmissing fun he => by cases he
  have hafter : ∀ x, (∃ t', (Function.update g t ⟨(g t).opened, some k⟩ t').owed = some x) ↔ x = k := by
    simp only [h.owed_update hs hl, Option.some.injEq, exists_eq_left]
    exact fun x => eq_comm
  obtain ⟨h1, h2, h3, h4⟩ := h.accounts (w := w) (p := ⟨(s.pc t).held, rest⟩) (a := ⟨(g t).opened, some k⟩)
    (fun _ => h.holder t hl) (fun hn => absurd hl hn) fun _ => Or.inr hl
  refine ⟨h.programs_update hs hguar hp, h1, h2, fun t' x hx => ?_, ?_, fun x => ?_, fun x hx => ?_, h3, h4,
    fun x hx => ?_⟩
  · obtain rfl := (hafter x).mp ⟨t', hx⟩
    show x ∉ map.get w
    rwa [hmap]
  · rw [hmade]
    exact List.nodup_append.mpr ⟨h.nodup, List.nodup_singleton k, fun x hx y hy he => by
      obtain rfl := List.mem_singleton.mp hy
      exact hnew.1 (he ▸ hx)⟩
  · have hx := h.source_held hs hl x
    rw [howed] at hx
    rw [hmade, List.mem_append, List.mem_singleton, hafter, hmap, or_right_comm, hx]
    simp
  · rw [hmade, List.mem_append, List.mem_singleton] at hx
    rcases hx with hx | rfl
    · exact h.fresh x hx
    · exact hnew.2
  · rw [hmade, List.mem_append, List.mem_singleton] at hx
    rcases hx with hx | rfl
    · exact h.allowed_append _ hx
    · exact ⟨_, List.mem_append_right _ (List.mem_singleton.mpr rfl), hl, hallowed⟩

/-- A step that stores the value that was produced last. -/
theorem store (h : Books C l map yields allowed post s₀ ds s g) (hs : Pool.Sound C post₀ s)
    (hl : (l, .exclusive) ∈ (s.pc t).held) (hguar : C.Guar (s.pc t).held s.state w) {rest : Program L σ ρ} {k : κ}
    {v : ν} (howed : (g t).owed = some k) (hmap : map.get w = (map.get s.state).insert k v)
    (hyields : yields t s.state w = [])
    (hp : rest.Memoizes C l map (yields t) (allowed t) [] (post t) ⟨(g t).opened, none⟩ (s.pc t).held w) :
    Books C l map yields allowed post s₀ (ds ++ [⟨t, (s.pc t).held, s.state, w⟩])
      ⟨w, Function.update s.pc t ⟨(s.pc t).held, rest⟩⟩ (Function.update g t ⟨(g t).opened, none⟩) := by
  have hmade : made l yields (ds ++ [⟨t, (s.pc t).held, s.state, w⟩]) = made l yields ds := by
    rw [made_append, if_pos hl, hyields, List.append_nil]
  have hafter : ∀ t' x, (Function.update g t ⟨(g t).opened, none⟩ t').owed ≠ some x :=
    fun t' x hx => by cases ((h.owed_update hs hl).mp hx).2
  obtain ⟨h1, h2, h3, h4⟩ := h.accounts (w := w) (p := ⟨(s.pc t).held, rest⟩) (a := ⟨(g t).opened, none⟩)
    (fun _ => h.holder t hl) (fun _ => rfl) fun hn => absurd rfl hn
  refine ⟨h.programs_update hs hguar hp, h1, h2, fun t' x hx => absurd hx (hafter t' x), ?_, fun x => ?_,
    fun x hx => h.fresh x (hmade ▸ hx), h3, h4, fun x hx => h.allowed_append _ (hmade ▸ hx)⟩
  · rw [hmade]
    exact h.nodup
  · have hx := h.source_held hs hl x
    rw [howed, Option.some.injEq] at hx
    simp only [hmade, hx, hmap, AList.mem_insert, hafter, exists_false, or_false]
    rw [eq_comm (a := k), or_comm]

/-- A step under the mutex. -/
theorem posting (h : Books C l map yields allowed post s₀ ds s g) (hs : Pool.Sound C post₀ s)
    (hl : (l, .exclusive) ∈ (s.pc t).held) (hguar : C.Guar (s.pc t).held s.state w) {owed : Option κ}
    {rest : Program L σ ρ} (hposting : Posting map (yields t) (allowed t) (g t).owed s.state owed w)
    (hp : rest.Memoizes C l map (yields t) (allowed t) [] (post t) { g t with owed } (s.pc t).held w) :
    Books C l map yields allowed post s₀ (ds ++ [⟨t, (s.pc t).held, s.state, w⟩])
      ⟨w, Function.update s.pc t ⟨(s.pc t).held, rest⟩⟩ (Function.update g t { g t with owed }) := by
  generalize hg : (g t).owed = owes at hposting
  cases hposting with
  | quiet hmap hyields =>
    exact h.quiet hs hguar hp hg.symm (fun _ => h.holder t hl) (fun _ => hyields) (fun hn => absurd hl hn) hmap
  | produce k hallowed hmissing hmap hyields => exact h.produce hs hl hguar hallowed hg hmissing hmap hyields hp
  | store k v hmap hyields => exact h.store hs hl hguar hg hmap hyields hp

end Books

/-- After every run of threads that memoize, their books are in order. -/
theorem Books.of_trace {p₀ : Pool τ L σ ρ} (hs : Pool.Sound C post₀ p₀) (htrace : Pool.Trace p₀ ds s)
    (hp : ∀ t, (p₀.pc t).rest.Memoizes C l map (yields t) (allowed t) [] (post t) ⟨False, none⟩ (p₀.pc t).held p₀.state)
    (hheld : ∀ t, (l, .exclusive) ∉ (p₀.pc t).held) (hrefl : ∀ t s, yields t s s = [])
    (hsame : ∀ s s', C.Same l s s' → map.get s' = map.get s) :
    ∃ g, Books C l map yields allowed post p₀.state ds s g := by
  induction htrace with
  | start =>
    refine ⟨fun _ => ⟨False, none⟩, hp, fun _ _ => rfl, fun t hl => absurd hl (hheld t), fun _ _ hk => (by cases hk),
      List.nodup_nil, fun k => ?_, fun k hk => (by cases hk), fun _ hd => (by cases hd), fun _ h => absurd rfl h,
      fun _ hk => (by cases hk)⟩
    simp [made]
  | @step ds s s' t htrace hstep ih =>
    obtain ⟨g, h⟩ := ih
    have hs' := (htrace.reach.sound hs).1
    have hprogram := h.programs t
    cases hstep with
    | atomic write next hrest =>
      have hguar := hs'.guar_atomic hrest
      rw [hrest] at hprogram
      obtain ⟨owed, hin, hout, hnext⟩ := hprogram s.state (.refl hs'.inv) hguar
      by_cases hl : (l, .exclusive) ∈ (s.pc t).held
      · exact ⟨_, h.posting hs' hl hguar (hin hl) hnext⟩
      · exact ⟨_, h.quiet hs' hguar hnext (hout hl) (fun ho => ho.resolve_right hl) (fun hl' => absurd hl' hl)
          (fun _ => (hout hl).trans (h.settled t hl)) (hsame _ _ (hguar.same l hl))⟩
    | acquire l' mode next hrest _ =>
      rw [hrest] at hprogram
      refine ⟨_, h.quiet hs' (.refl hs'.inv) (hprogram s.state (.refl hs'.inv)) rfl (fun ho => ?_) (fun _ => hrefl t _)
        (fun hn => h.settled t fun hl => hn (List.mem_cons_of_mem _ hl)) rfl⟩
      rcases ho with ho | hl
      · exact Or.inl ho
      rcases List.mem_cons.mp hl with he | hl
      · obtain ⟨rfl, rfl⟩ := Prod.mk.inj he
        exact Or.inr ⟨rfl, rfl⟩
      · exact Or.inl (h.holder t hl)
    | release l' mode next held hrest hheld' =>
      rw [hrest] at hprogram
      obtain ⟨howed, rest, he, hnext⟩ := hprogram
      rw [hheld'] at he
      cases he
      refine ⟨_, h.quiet hs' (.refl hs'.inv) (hnext s.state (.refl hs'.inv)) rfl (fun ho => ?_) (fun _ => hrefl t _)
        (fun hn => ?_) rfl⟩
      · exact ho.elim id fun hl => h.holder t (hheld' ▸ List.mem_cons_of_mem _ hl)
      · by_cases hl : l' = l
        · exact howed hl
        · refine h.settled t fun hmem => ?_
          rw [hheld'] at hmem
          rcases List.mem_cons.mp hmem with he | hmem
          · exact hl (Prod.mk.inj he).1.symm
          · exact hn hmem

end Memo

end ParquetKeyManagement.Locks
