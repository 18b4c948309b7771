/-
  ParquetKeyManagement.Support.Settings — records that are written as text entries and set
  from them.

  A record is `Configurable` when it lists its fields as entries, each with a name and a
  text, or none, and when a field can be set by name from a text. A field is described by
  what it takes over from another record (`Setting`); the laws that make a list of fields a
  record's (`Lawful`) speak of agreement on a field alone, so they hold in whatever order,
  and however often, fields are set.
  - `Lawful.parts`: the fields of two parts, under their parts' names, are those of the whole.
  - `replay_valued`: setting the texts of a record, in any order, in a record that holds
    nothing where it holds nothing, gives the record.
-/

import Mathlib.Data.List.Basic

namespace ParquetKeyManagement

variable {ρ σ τ ε : Type}

/-- A field of a record: whether it holds nothing, and how one record takes it over from another. -/
structure Setting (ρ : Type) where
  name : String
  isNone : ρ → Bool
  /-- `copy o d` is `d` with this field of `o`. -/
  copy : ρ → ρ → ρ

namespace Setting

/-- The records have the same in this field. -/
def Agrees (f : Setting ρ) (o d : ρ) : Prop := f.copy o d = d

/-- Fields that a record has, and no others. -/
structure Lawful (fields : List (Setting ρ)) : Prop where
  copied : ∀ f ∈ fields, ∀ o d, f.Agrees o (f.copy o d)
  kept : ∀ f ∈ fields, ∀ g ∈ fields, ∀ o d, f.Agrees o d → f.Agrees o (g.copy o d)
  none : ∀ f ∈ fields, ∀ o d, f.isNone o = true → f.isNone d = true → f.Agrees o d
  ext : ∀ o d, (∀ f ∈ fields, f.Agrees o d) → d = o

/-- It is enough that taking over fields commutes, and that taking over all of them leaves nothing. -/
theorem Lawful.of_commute {fields : List (Setting ρ)}
    (hcopied : ∀ f ∈ fields, ∀ o d, f.copy o (f.copy o d) = f.copy o d)
    (hcommute : ∀ f ∈ fields, ∀ g ∈ fields, ∀ o d, f.copy o (g.copy o d) = g.copy o (f.copy o d))
    (hnone : ∀ f ∈ fields, ∀ o d, f.isNone o = true → f.isNone d = true → f.copy o d = d)
    (hall : ∀ o d, fields.foldl (fun d f => f.copy o d) d = o) : Lawful fields where
  copied := hcopied
  kept f hf g hg o d h := by
    show f.copy o (g.copy o d) = g.copy o d
    rw [hcommute f hf g hg, h]
  none := hnone
  ext o d h := by
    have hsame : ∀ fs : List (Setting ρ), (∀ f ∈ fs, f.Agrees o d) → fs.foldl (fun d f => f.copy o d) d = d := by
      intro fs
      induction fs with
      | nil => intro _; rfl
      | cons f fs ih =>
        intro h
        have hf : f.copy o d = d := h f (List.mem_cons_self ..)
        rw [List.foldl_cons, hf]
        exact ih fun g hg => h g (List.mem_cons_of_mem _ hg)
    rw [← hsame fields h]
    exact hall o d

/-! ## Parts -/

/-- A part of a record. -/
structure Part (ρ σ : Type) where
  get : ρ → σ
  set : σ → ρ → ρ
  get_set : ∀ a r, get (set a r) = a
  set_get : ∀ r, set (get r) r = r

/-- A field of a part, as one of the whole. -/
def within (part : String) (p : Part ρ σ) (f : Setting σ) : Setting ρ where
  name := part ++ "." ++ f.name
  isNone r := f.isNone (p.get r)
  copy o d := p.set (f.copy (p.get o) (p.get d)) d

theorem within_agrees {part : String} {p : Part ρ σ} {f : Setting σ} {o d : ρ} :
    (f.within part p).Agrees o d ↔ f.Agrees (p.get o) (p.get d) := by
  constructor
  · intro h
    have := congrArg p.get h
    rwa [within, p.get_set] at this
  · intro h
    show p.set (f.copy (p.get o) (p.get d)) d = d
    rw [h, p.set_get]

theorem get_within {part : String} {p : Part ρ σ} {f : Setting σ} {o d : ρ} :
    p.get ((f.within part p).copy o d) = f.copy (p.get o) (p.get d) := p.get_set _ _

section

variable {p : Part ρ σ} {q : Part ρ τ} {fs : List (Setting σ)} {gs : List (Setting τ)}

theorem Lawful.within_copied (hs : Lawful fs) (part : String) {f : Setting σ} (hf : f ∈ fs) (o d : ρ) :
    (f.within part p).Agrees o ((f.within part p).copy o d) := by
  rw [within_agrees, get_within]
  exact hs.copied f hf _ _

theorem Lawful.within_kept (hs : Lawful fs) (part : String) {f g : Setting σ} (hf : f ∈ fs) (hg : g ∈ fs) {o d : ρ}
    (h : (f.within part p).Agrees o d) : (f.within part p).Agrees o ((g.within part p).copy o d) := by
  rw [within_agrees] at h ⊢
  rw [get_within]
  exact hs.kept f hf g hg _ _ h

/-- A field of another part is left alone. -/
theorem within_kept_other (hother : ∀ b r, p.get (q.set b r) = p.get r) {a b : String} {f : Setting σ} {g : Setting τ}
    {o d : ρ} (h : (f.within a p).Agrees o d) : (f.within a p).Agrees o ((g.within b q).copy o d) := by
  rw [within_agrees] at h ⊢
  show f.Agrees (p.get o) (p.get (q.set _ d))
  rw [hother]
  exact h

/-- The fields of two parts that make up the whole. -/
theorem Lawful.parts (hs : Lawful fs) (ht : Lawful gs) (hpq : ∀ b r, p.get (q.set b r) = p.get r)
    (hqp : ∀ a r, q.get (p.set a r) = q.get r) (hext : ∀ o d, p.get d = p.get o → q.get d = q.get o → d = o)
    (a b : String) : Lawful (fs.map (within a p) ++ gs.map (within b q)) where
  copied f' hf' o d := by
    rcases List.mem_append.mp hf' with hf' | hf'
    · obtain ⟨f, hf, rfl⟩ := List.mem_map.mp hf'
      exact hs.within_copied a hf o d
    · obtain ⟨g, hg, rfl⟩ := List.mem_map.mp hf'
      exact ht.within_copied b hg o d
  kept f' hf' g' hg' o d h := by
    rcases List.mem_append.mp hf' with hf' | hf' <;> rcases List.mem_append.mp hg' with hg' | hg'
    · obtain ⟨f, hf, rfl⟩ := List.mem_map.mp hf'
      obtain ⟨g, hg, rfl⟩ := List.mem_map.mp hg'
      exact hs.within_kept a hf hg h
    · obtain ⟨f, _, rfl⟩ := List.mem_map.mp hf'
      obtain ⟨g, _, rfl⟩ := List.mem_map.mp hg'
      exact within_kept_other hpq h
    · obtain ⟨f, _, rfl⟩ := List.mem_map.mp hf'
      obtain ⟨g, _, rfl⟩ := List.mem_map.mp hg'
      exact within_kept_other hqp h
    · obtain ⟨f, hf, rfl⟩ := List.mem_map.mp hf'
      obtain ⟨g, hg, rfl⟩ := List.mem_map.mp hg'
      exact ht.within_kept b hf hg h
  none f' hf' o d ho hd := by
    rcases List.mem_append.mp hf' with hf' | hf'
    · obtain ⟨f, hf, rfl⟩ := List.mem_map.mp hf'
      exact within_agrees.mpr (hs.none f hf _ _ ho hd)
    · obtain ⟨g, hg, rfl⟩ := List.mem_map.mp hf'
      exact within_agrees.mpr (ht.none g hg _ _ ho hd)
  ext o d h := by
    refine hext o d (hs.ext _ _ fun f hf => ?_) (ht.ext _ _ fun g hg => ?_)
    · exact within_agrees.mp (h _ (List.mem_append_left _ (List.mem_map.mpr ⟨f, hf, rfl⟩)))
    · exact within_agrees.mp (h _ (List.mem_append_right _ (List.mem_map.mpr ⟨g, hg, rfl⟩)))

end

end Setting

/-! ## Entries -/

/-- A field as text: its name, and what it holds, if anything. -/
structure Entry where
  key : String
  value : Option String
  description : String
  deriving DecidableEq

structure Configurable (ρ ε : Type) where
  entries : ρ → List Entry
  set : ρ → (key value : String) → Except ε ρ

namespace Configurable

variable (X : Configurable ρ ε)

/-- There is one entry for each field, in order, without a text for one that holds nothing; and setting a field from its
    text in a record takes it over from that record. -/
structure Lists (fields : List (Setting ρ)) : Prop where
  entries : ∀ o, (X.entries o).map (fun e => (e.key, e.value.isNone)) = fields.map fun f => (f.name, f.isNone o)
  set : ∀ o d, ∀ f ∈ fields, ∀ e ∈ X.entries o, e.key = f.name → ∀ text, e.value = some text →
    X.set d f.name text = .ok (f.copy o d)

/-- The names and texts of the fields that hold something. -/
def valued (o : ρ) : List (String × String) :=
  (X.entries o).filterMap fun e => e.value.map fun text => (e.key, text)

/-- Set fields by their names, one after another. -/
def replay (d : ρ) (texts : List (String × String)) : Except ε ρ := texts.foldlM (fun d text => X.set d text.1 text.2) d

end Configurable

/-! ## Entries of parts -/

/-- An entry of a part, as one of the whole. -/
def Entry.under (part : String) (e : Entry) : Entry := { e with key := part ++ "." ++ e.key }

namespace Configurable

section

variable {X : Configurable ρ ε} {A : Configurable σ ε} {B : Configurable τ ε} {p : Setting.Part ρ σ}
  {q : Setting.Part ρ τ} {fs : List (Setting σ)} {gs : List (Setting τ)}

theorem Lists.under_entries (HA : A.Lists fs) (part : String) (p : Setting.Part ρ σ) (o : ρ) :
    ((A.entries (p.get o)).map (Entry.under part)).map (fun e => (e.key, e.value.isNone)) =
      (fs.map (Setting.within part p)).map fun f => (f.name, f.isNone o) := by
  have h := congrArg (List.map fun x : String × Bool => (part ++ "." ++ x.1, x.2)) (HA.entries (p.get o))
  rw [List.map_map, List.map_map] at h
  rw [List.map_map, List.map_map]
  exact h

/-- Setting a field of a part from its entry. -/
theorem Lists.under_set (HA : A.Lists fs) {part : String}
    (hset : ∀ o key text, X.set o (part ++ "." ++ key) text = (A.set (p.get o) key text).map fun v => p.set v o)
    {o d : ρ} {f : Setting σ} (hf : f ∈ fs) {e : Entry} (he : e ∈ A.entries (p.get o))
    (hkey : (e.under part).key = (f.within part p).name) {text : String} (hvalue : e.value = some text) :
    X.set d (f.within part p).name text = .ok ((f.within part p).copy o d) := by
  have hname : e.key = f.name := by
    rw [← String.toList_inj]
    have := congrArg String.toList hkey
    simpa [Entry.under, Setting.within] using this
  show X.set d (part ++ "." ++ f.name) text = _
  rw [hset, HA.set (p.get o) (p.get d) f hf e he hname text hvalue]
  rfl

/-- A record that lists the entries of two parts under their names, and sets them there. -/
theorem Lists.parts (HA : A.Lists fs) (HB : B.Lists gs) {a b : String} (hne : ∀ k k', a ++ "." ++ k ≠ b ++ "." ++ k')
    (hentries : ∀ o, X.entries o =
      (A.entries (p.get o)).map (Entry.under a) ++ (B.entries (q.get o)).map (Entry.under b))
    (hseta : ∀ o key text, X.set o (a ++ "." ++ key) text = (A.set (p.get o) key text).map fun v => p.set v o)
    (hsetb : ∀ o key text, X.set o (b ++ "." ++ key) text = (B.set (q.get o) key text).map fun v => q.set v o) :
    X.Lists (fs.map (Setting.within a p) ++ gs.map (Setting.within b q)) where
  entries o := by rw [hentries, List.map_append, List.map_append, HA.under_entries a p o, HB.under_entries b q o]
  set o d f' hf' e' he' hkey text hvalue := by
    rw [hentries] at he'
    rcases List.mem_append.mp hf' with hf' | hf' <;> rcases List.mem_append.mp he' with he' | he'
    · obtain ⟨f, hf, rfl⟩ := List.mem_map.mp hf'
      obtain ⟨e, he, rfl⟩ := List.mem_map.mp he'
      exact HA.under_set hseta hf he hkey hvalue
    · obtain ⟨f, _, rfl⟩ := List.mem_map.mp hf'
      obtain ⟨e, _, rfl⟩ := List.mem_map.mp he'
      exact absurd hkey.symm (hne f.name e.key)
    · obtain ⟨f, _, rfl⟩ := List.mem_map.mp hf'
      obtain ⟨e, _, rfl⟩ := List.mem_map.mp he'
      exact absurd hkey (hne e.key f.name)
    · obtain ⟨f, hf, rfl⟩ := List.mem_map.mp hf'
      obtain ⟨e, he, rfl⟩ := List.mem_map.mp he'
      exact HB.under_set hsetb hf he hkey hvalue

end

/-! ## Replaying -/

variable {X : Configurable ρ ε} {fields : List (Setting ρ)} {o d : ρ}

theorem mem_valued {text : String × String} :
    text ∈ X.valued o ↔ ∃ e ∈ X.entries o, e.key = text.1 ∧ e.value = some text.2 := by
  unfold valued
  rw [List.mem_filterMap]
  constructor
  · intro h
    obtain ⟨e, he, h⟩ := h
    obtain ⟨value, hvalue, rfl⟩ := Option.map_eq_some_iff.mp h
    exact ⟨e, he, rfl, hvalue⟩
  · intro h
    obtain ⟨e, he, hkey, hvalue⟩ := h
    exact ⟨e, he, by rw [hvalue, hkey]; rfl⟩

/-- Every text is that of a field. -/
theorem Lists.field_of_valued (H : X.Lists fields) {text : String × String} (h : text ∈ X.valued o) :
    ∃ f ∈ fields, f.name = text.1 := by
  obtain ⟨e, he, hkey, _⟩ := mem_valued.mp h
  have hmem : (e.key, e.value.isNone) ∈ fields.map fun f => (f.name, f.isNone o) := by
    rw [← H.entries o]
    exact List.mem_map.mpr ⟨e, he, rfl⟩
  obtain ⟨f, hf, heq⟩ := List.mem_map.mp hmem
  exact ⟨f, hf, (Prod.mk.inj heq).1.trans hkey⟩

/-- Every field that holds something has a text. -/
theorem Lists.valued_of_field (H : X.Lists fields) {f : Setting ρ} (hf : f ∈ fields) (hsome : f.isNone o = false) :
    ∃ text ∈ X.valued o, text.1 = f.name := by
  have hmem : (f.name, f.isNone o) ∈ (X.entries o).map fun e => (e.key, e.value.isNone) := by
    rw [H.entries o]
    exact List.mem_map.mpr ⟨f, hf, rfl⟩
  obtain ⟨e, he, heq⟩ := List.mem_map.mp hmem
  obtain ⟨hkey, hnone⟩ := Prod.mk.inj heq
  rw [hsome] at hnone
  obtain ⟨value, hvalue⟩ := Option.isSome_iff_exists.mp (Option.isNone_eq_false_iff.mp hnone)
  exact ⟨(f.name, value), mem_valued.mpr ⟨e, he, hkey, hvalue⟩, rfl⟩

/-- Setting a text of the record takes over every field of that name. -/
theorem Lists.set_valued (H : X.Lists fields) {text : String × String} (h : text ∈ X.valued o) (d : ρ) {f : Setting ρ}
    (hf : f ∈ fields) (hname : f.name = text.1) : X.set d text.1 text.2 = .ok (f.copy o d) := by
  obtain ⟨e, he, hkey, hvalue⟩ := mem_valued.mp h
  rw [← hname]
  exact H.set o d f hf e he (hkey.trans hname.symm) text.2 hvalue

/-- Replaying texts of the record: what agrees goes on to, and what has been set agrees. -/
theorem Lists.replay_agrees (H : X.Lists fields) (L : Setting.Lawful fields) {texts : List (String × String)}
    (htexts : ∀ text ∈ texts, text ∈ X.valued o) (d : ρ) :
    ∃ d', X.replay d texts = .ok d' ∧
      ∀ f ∈ fields, (f.Agrees o d ∨ ∃ text ∈ texts, text.1 = f.name) → f.Agrees o d' := by
  induction texts generalizing d with
  | nil =>
    refine ⟨d, rfl, fun f _ h => ?_⟩
    rcases h with h | ⟨_, hmem, _⟩
    · exact h
    · cases hmem
  | cons text texts ih =>
    have htext := htexts text (List.mem_cons_self ..)
    obtain ⟨g, hg, hname⟩ := H.field_of_valued htext
    have hset := H.set_valued htext d hg hname
    obtain ⟨d', hrun, hagrees⟩ := ih (fun t ht => htexts t (List.mem_cons_of_mem _ ht)) (g.copy o d)
    refine ⟨d', ?_, fun f hf h => hagrees f hf ?_⟩
    · unfold replay at hrun ⊢
      rw [List.foldlM_cons, hset]
      exact hrun
    · rcases h with h | ⟨t, ht, he⟩
      · exact Or.inl (L.kept f hf g hg o d h)
      · rcases List.mem_cons.mp ht with rfl | ht
        · -- the text just set is this field's
          have hset' := H.set_valued htext d hf he.symm
          rw [hset] at hset'
          rw [Except.ok.inj hset']
          exact Or.inl (L.copied f hf o d)
        · exact Or.inr ⟨t, ht, he⟩

/-- Replaying the texts of a record in any order, in one that holds nothing where it holds nothing, gives the record. -/
theorem replay_valued (H : X.Lists fields) (L : Setting.Lawful fields)
    (hnone : ∀ f ∈ fields, f.isNone o = true → f.isNone d = true) {texts : List (String × String)}
    (hperm : texts.Perm (X.valued o)) : X.replay d texts = .ok o := by
  obtain ⟨d', hrun, hagrees⟩ := H.replay_agrees L (fun text ht => hperm.mem_iff.mp ht) d
  rw [hrun]
  refine congrArg _ (L.ext o d' fun f hf => hagrees f hf ?_)
  cases ho : f.isNone o with
  | true => exact Or.inl (L.none f hf o d ho (hnone f hf ho))
  | false =>
    obtain ⟨text, htext, hname⟩ := H.valued_of_field hf ho
    exact Or.inr ⟨text, hperm.mem_iff.mpr htext, hname⟩

end Configurable

end ParquetKeyManagement
