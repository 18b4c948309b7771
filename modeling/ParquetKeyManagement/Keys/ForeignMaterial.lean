/-
  ParquetKeyManagement.Keys.ForeignMaterial — key material that other implementations write
  (`deserialize` of `key_material.rs`, `retrieve_key` of `key_unwrapper.rs`).

  Reading an object collects its known members, and what it collects does not depend on
  their order or on the unknown ones (`ofJson_obj`).
  - `material_format`: what is written reads back, also reordered, with members added that
    are unknown or left out that are null; no other material type is read.
  - `external_recognised_iff`: metadata of external key material is recognised only when it
    carries four members that belong to the external file. With the reference alone it is
    refused as that of a file encrypted without a KMS (`reference_alone_refused`).
-/

import ParquetKeyManagement.Keys.Unwrapper

namespace ParquetKeyManagement

open Effect

variable (env : Env)

namespace KeyMaterial

/-! ## Collecting members -/

/-- The members of an object that are the structure's. -/
def known (members : List (String × Json)) : List (String × Json) :=
  members.filter fun x => (fields.lookup x.1).isSome

/-- An object that the visitor goes through: no known member is repeated, and each has a value of its type. -/
structure Readable (members : List (String × Json)) : Prop where
  once : ((known members).map Prod.fst).Nodup
  typed : ∀ x ∈ members, ∀ t, fields.lookup x.1 = some t → checkValue t x.2 = .ok ()

variable {members seen seen' : List (String × Json)} {x : String × Json} {name : String} {t : FieldType}

theorem known_skip (hx : fields.lookup x.1 = none) : known (x :: members) = known members := by
  simp [known, hx]

theorem known_cons (hx : fields.lookup x.1 = some t) : known (x :: members) = x :: known members := by
  simp [known, hx]

theorem mem_known : x ∈ known members ↔ x ∈ members ∧ ∃ t, fields.lookup x.1 = some t := by
  rw [known, List.mem_filter, Option.isSome_iff_exists]

theorem readable_skip (hx : fields.lookup x.1 = none) : Readable (x :: members) ↔ Readable members := by
  constructor
  · intro h
    exact ⟨by rw [← known_skip hx]; exact h.once, fun y hy => h.typed y (List.mem_cons_of_mem _ hy)⟩
  · intro h
    refine ⟨by rw [known_skip hx]; exact h.once, fun y hy t ht => ?_⟩
    rcases List.mem_cons.mp hy with rfl | hy
    · rw [hx] at ht; cases ht
    · exact h.typed y hy t ht

theorem readable_cons (hx : fields.lookup x.1 = some t) :
    Readable (x :: members) ↔ checkValue t x.2 = .ok () ∧ x.1 ∉ (known members).map Prod.fst ∧ Readable members := by
  constructor
  · intro h
    have hn := h.once
    rw [known_cons hx, List.map_cons, List.nodup_cons] at hn
    exact ⟨h.typed x (List.mem_cons_self ..) t hx, hn.1, hn.2, fun y hy => h.typed y (List.mem_cons_of_mem _ hy)⟩
  · intro h
    obtain ⟨hv, hnew, hr⟩ := h
    refine ⟨by rw [known_cons hx, List.map_cons]; exact List.nodup_cons.mpr ⟨hnew, hr.once⟩, fun y hy t' ht' => ?_⟩
    rcases List.mem_cons.mp hy with rfl | hy
    · rw [hx] at ht'; cases ht'; exact hv
    · exact hr.typed y hy t' ht'

theorem lookup_cons_self (v : Json) : List.lookup name ((name, v) :: seen) = some v := List.lookup_cons_self

theorem lookup_cons_ne (h : name ≠ x.1) : (x :: seen).lookup name = seen.lookup name := by
  rw [List.lookup_cons, beq_eq_false_iff_ne.mpr h]

theorem lookup_cons_none : (x :: seen).lookup name = none ↔ name ≠ x.1 ∧ seen.lookup name = none := by
  by_cases e : name = x.1
  · subst e
    simp
  · rw [lookup_cons_ne e]
    exact ⟨fun h => ⟨e, h⟩, fun h => h.2⟩

theorem visitMap_skip (hx : fields.lookup x.1 = none) : visitMap seen (x :: members) = visitMap seen members := by
  simp [visitMap, hx]

theorem visitMap_known (hx : fields.lookup x.1 = some t) :
    visitMap seen (x :: members) = .ok seen' ↔
      seen.lookup x.1 = none ∧ checkValue t x.2 = .ok () ∧ visitMap (x :: seen) members = .ok seen' := by
  simp only [visitMap, hx]
  cases seen.lookup x.1 with
  | some _ => simp
  | none =>
    cases checkValue t x.2 with
    | error _ => simp
    | ok _ => simp

/-- The visitor accepts a readable object none of whose members it has seen. -/
theorem visitMap_ok_iff :
    (∃ seen', visitMap seen members = .ok seen') ↔
      Readable members ∧ ∀ x ∈ known members, seen.lookup x.1 = none := by
  induction members generalizing seen with
  | nil => exact ⟨fun _ => ⟨⟨List.nodup_nil, by simp⟩, by simp [known]⟩, fun _ => ⟨seen, rfl⟩⟩
  | cons x rest ih =>
    cases hx : fields.lookup x.1 with
    | none => rw [visitMap_skip hx, readable_skip hx, known_skip hx, ih]
    | some t =>
      simp only [visitMap_known hx, exists_and_left, ih, readable_cons hx, known_cons hx, List.forall_mem_cons,
        lookup_cons_none]
      constructor
      · intro h
        obtain ⟨hs, hv, hr, hrest⟩ := h
        refine ⟨⟨hv, fun hmem => ?_, hr⟩, hs, fun y hy => (hrest y hy).2⟩
        -- the rest must not name this member again
        obtain ⟨y, hy, he⟩ := List.mem_map.mp hmem
        exact (hrest y hy).1 he
      · intro h
        obtain ⟨⟨hv, hnew, hr⟩, hs, hrest⟩ := h
        exact ⟨hs, hv, hr, fun y hy => ⟨fun he => hnew (List.mem_map.mpr ⟨y, hy, he⟩), hrest y hy⟩⟩

/-- What the visitor has collected under a known name is what the object has there. -/
theorem visitMap_lookup (h : visitMap seen members = .ok seen') (hname : fields.lookup name = some t) :
    seen'.lookup name = (seen.lookup name).or (members.lookup name) := by
  induction members generalizing seen with
  | nil => cases h; simp
  | cons x rest ih =>
    cases hx : fields.lookup x.1 with
    | none =>
      have hne : name ≠ x.1 := by intro e; rw [e, hx] at hname; cases hname
      rw [visitMap_skip hx] at h
      rw [ih h, lookup_cons_ne hne]
    | some t' =>
      obtain ⟨hs, _, hrest⟩ := (visitMap_known hx).mp h
      rw [ih hrest]
      by_cases e : name = x.1
      · subst e
        rw [hs, lookup_cons_self, lookup_cons_self]
        rfl
      · rw [lookup_cons_ne e, lookup_cons_ne e]

/-- A known member of a readable object is found by its name. -/
theorem Readable.lookup (h : Readable members) {v : Json} (hname : fields.lookup name = some t)
    (hv : (name, v) ∈ members) : members.lookup name = some v := by
  induction members with
  | nil => cases hv
  | cons x rest ih =>
    rcases List.mem_cons.mp hv with rfl | hv
    · exact lookup_cons_self v
    · have hne : name ≠ x.1 := by
        intro e
        subst e
        exact ((readable_cons hname).mp h).2.1 (List.mem_map.mpr ⟨_, mem_known.mpr ⟨hv, t, hname⟩, rfl⟩)
      rw [lookup_cons_ne hne]
      cases hx : fields.lookup x.1 with
      | none => exact ih ((readable_skip hx).mp h) hv
      | some t' => exact ih ((readable_cons hx).mp h).2.2 hv

theorem mem_of_lookup {v : Json} (h : members.lookup name = some v) : (name, v) ∈ members := by
  obtain ⟨before, after, rfl, _⟩ := List.lookup_eq_some_iff.mp h
  simp

/-- The structure is put together from the known members alone. -/
theorem ofFields_congr (h : ∀ name t, fields.lookup name = some t → seen.lookup name = seen'.lookup name) :
    ofFields seen = ofFields seen' := by
  simp only [ofFields, string, bool, optionString, h "keyMaterialType" _ rfl, h "internalStorage" _ rfl,
    h "keyReference" _ rfl, h "isFooterKey" _ rfl, h "kmsInstanceID" _ rfl, h "kmsInstanceURL" _ rfl,
    h "masterKeyID" _ rfl, h "wrappedDEK" _ rfl, h "doubleWrapping" _ rfl, h "keyEncryptionKeyID" _ rfl,
    h "wrappedKEK" _ rfl]

/-- A readable object gives the structure its members spell; no other object gives one. -/
theorem ofJson_obj {m : KeyMaterial} :
    ofJson (.obj members) = .ok m ↔ Readable members ∧ ofFields members = .ok m := by
  have hsame : ∀ seen, visitMap [] members = .ok seen → ofFields seen = ofFields members := by
    intro seen h
    exact ofFields_congr fun name t hname => by rw [visitMap_lookup h hname]; rfl
  constructor
  · intro h
    cases hv : visitMap [] members with
    | error _ => simp only [ofJson, hv] at h; cases h
    | ok seen =>
      simp only [ofJson, hv] at h
      exact ⟨(visitMap_ok_iff.mp ⟨seen, hv⟩).1, (hsame seen hv).symm.trans h⟩
  · intro h
    obtain ⟨hr, ho⟩ := h
    obtain ⟨seen, hv⟩ := (@visitMap_ok_iff members []).mpr ⟨hr, fun _ _ => rfl⟩
    simp only [ofJson, hv]
    exact (hsame seen hv).trans ho

/-! ## The same material, written by others -/

/-- Objects that spell the material `m`: as it is written here, reordered, with a member that is not the structure's, or
    without one that is null. -/
inductive Spells (m : KeyMaterial) : List (String × Json) → Prop where
  | written : Spells m m.toJson
  | reordered {members members' : List (String × Json)} : Spells m members → members.Perm members' → Spells m members'
  | unknown {members : List (String × Json)} (x : String × Json) :
    Spells m members → fields.lookup x.1 = none → Spells m (x :: members)
  | withoutNull {members : List (String × Json)} (name : String) : Spells m ((name, .null) :: members) →
    Spells m members

/-- What such objects have in common: the known members are the material's, each once, and none
but nulls are missing. -/
structure Lists (m : KeyMaterial) (members : List (String × Json)) : Prop where
  known : ∀ x ∈ known members, x ∈ m.toJson
  kept : ∀ x ∈ m.toJson, x.2 ≠ .null → x ∈ members
  once : ((KeyMaterial.known members).map Prod.fst).Nodup

variable {m : KeyMaterial}

theorem known_toJson (m : KeyMaterial) : known m.toJson = m.toJson := by
  simp [known, toJson, fields, List.lookup_cons]

theorem toJson_once (m : KeyMaterial) : (m.toJson.map Prod.fst).Nodup := by
  show (fields.map Prod.fst).Nodup
  decide

theorem toJson_typed (m : KeyMaterial) : ∀ x ∈ m.toJson, ∀ t, fields.lookup x.1 = some t →
    checkValue t x.2 = .ok () := by
  have hread : Readable m.toJson :=
    (visitMap_ok_iff.mp ⟨_, visitMap_toJson m⟩).1
  exact hread.typed

theorem Spells.lists (h : Spells m members) : Lists m members := by
  induction h with
  | written =>
    exact ⟨fun x hx => by rwa [known_toJson] at hx, fun x hx _ => hx, by rw [known_toJson]; exact toJson_once m⟩
  | reordered _ hp ih =>
    have hk := hp.filter fun x => (fields.lookup x.1).isSome
    exact ⟨fun x hx => ih.known x (hk.mem_iff.mpr hx), fun x hx hn => hp.mem_iff.mp (ih.kept x hx hn),
      (hk.map Prod.fst).nodup_iff.mp ih.once⟩
  | unknown x _ hx ih =>
    exact ⟨fun y hy => ih.known y (by rwa [known_skip hx] at hy),
      fun y hy hn => List.mem_cons_of_mem _ (ih.kept y hy hn), by rw [known_skip hx]; exact ih.once⟩
  | @withoutNull members name _ ih =>
    have hsub : (KeyMaterial.known members).Sublist (KeyMaterial.known ((name, .null) :: members)) :=
      (List.sublist_cons_self _ _).filter _
    refine ⟨fun x hx => ih.known x (hsub.subset hx), fun x hx hn => ?_, (hsub.map Prod.fst).nodup ih.once⟩
    rcases List.mem_cons.mp (ih.kept x hx hn) with rfl | hmem
    · exact absurd rfl hn
    · exact hmem

theorem Lists.readable (h : Lists m members) : Readable members :=
  ⟨h.once, fun x hx t ht => toJson_typed m x (h.known x (mem_known.mpr ⟨hx, t, ht⟩)) t ht⟩

/-- A member that is not null is found. -/
theorem Lists.lookup (h : Lists m members) {v : Json} (hname : fields.lookup name = some t) (hv : (name, v) ∈ m.toJson)
    (hnull : v ≠ .null) : members.lookup name = some v :=
  h.readable.lookup hname (h.kept _ hv hnull)

theorem Lists.string (h : Lists m members) {s : String} (hname : fields.lookup name = some t)
    (hv : (name, .str s) ∈ m.toJson) : string members name = .ok s := by
  simp [KeyMaterial.string, h.lookup hname hv]

theorem Lists.bool (h : Lists m members) {b : Bool} (hname : fields.lookup name = some t)
    (hv : (name, .bool b) ∈ m.toJson) : bool members name = .ok b := by
  simp [KeyMaterial.bool, h.lookup hname hv]

/-- An optional member that is null may be null or missing. -/
theorem Lists.optionString (h : Lists m members) {o : Option String} (hname : fields.lookup name = some t)
    (hv : (name, optionToJson o) ∈ m.toJson) : optionString members name = o := by
  cases o with
  | some s =>
    have hl := h.lookup hname hv (by simp [optionToJson])
    rw [KeyMaterial.optionString, hl]
    rfl
  | none =>
    cases hl : members.lookup name with
    | none => simp [KeyMaterial.optionString, hl]
    | some v =>
      have hmem := h.known _ (mem_known.mpr ⟨mem_of_lookup hl, t, hname⟩)
      have he : ((name, v) : String × Json) = (name, .null) := List.inj_on_of_nodup_map (toJson_once m) hmem hv rfl
      cases he
      simp [KeyMaterial.optionString, hl]

theorem Lists.ofFields (h : Lists m members) : ofFields members = .ok m := by
  have e1 : KeyMaterial.string members "keyMaterialType" = .ok m.keyMaterialType := h.string rfl (by simp [toJson])
  have e2 : KeyMaterial.bool members "internalStorage" = .ok m.internalStorage := h.bool rfl (by simp [toJson])
  have e3 : KeyMaterial.bool members "isFooterKey" = .ok m.isFooterKey := h.bool rfl (by simp [toJson])
  have e4 : KeyMaterial.string members "masterKeyID" = .ok m.masterKeyId := h.string rfl (by simp [toJson])
  have e5 : KeyMaterial.string members "wrappedDEK" = .ok m.wrappedDek := h.string rfl (by simp [toJson])
  have e6 : KeyMaterial.bool members "doubleWrapping" = .ok m.doubleWrapping := h.bool rfl (by simp [toJson])
  have h1 : KeyMaterial.optionString members "keyReference" = m.keyReference := h.optionString rfl (by simp [toJson])
  have h2 : KeyMaterial.optionString members "kmsInstanceID" = m.kmsInstanceId := h.optionString rfl (by simp [toJson])
  have h3 : KeyMaterial.optionString members "kmsInstanceURL" = m.kmsInstanceUrl :=
    h.optionString rfl (by simp [toJson])
  have h4 : KeyMaterial.optionString members "keyEncryptionKeyID" = m.keyEncryptionKeyId :=
    h.optionString rfl (by simp [toJson])
  have h5 : KeyMaterial.optionString members "wrappedKEK" = m.wrappedKek := h.optionString rfl (by simp [toJson])
  simp only [KeyMaterial.ofFields, e1, e2, e3, e4, e5, e6, h1, h2, h3, h4, h5]
  rfl

/-- However it is spelled, the material is read. -/
theorem Spells.ofJson (h : Spells m members) : ofJson (.obj members) = .ok m :=
  ofJson_obj.mpr ⟨h.lists.readable, h.lists.ofFields⟩

/-! ## Other material types -/

/-- A value whose material type is `type`: as a member of an object, or as the first item of an array. -/
inductive HasType (type : String) : Json → Prop where
  | member {members : List (String × Json)} :
    ("keyMaterialType", .str type) ∈ members → HasType type (.obj members)
  | item (items : List Json) : HasType type (.arr (.str type :: items))

theorem except_bind_ok {ε α β : Type} {x : Except ε α} {f : α → Except ε β} {b : β} (h : x >>= f = .ok b) :
    ∃ a, x = .ok a ∧ f a = .ok b := by
  cases x with
  | error _ => cases h
  | ok a => exact ⟨a, rfl, h⟩

theorem ofFields_type (h : ofFields seen = .ok m) : string seen "keyMaterialType" = .ok m.keyMaterialType := by
  obtain ⟨keyMaterialType, ht, h⟩ := except_bind_ok h
  obtain ⟨_, _, h⟩ := except_bind_ok h
  obtain ⟨_, _, h⟩ := except_bind_ok h
  obtain ⟨_, _, h⟩ := except_bind_ok h
  obtain ⟨_, _, h⟩ := except_bind_ok h
  obtain ⟨_, _, h⟩ := except_bind_ok h
  cases h
  exact ht

/-- Items are only ever added under their own names. -/
theorem visitSeq_lookup {fs : List (String × FieldType)} {items : List Json} (h : visitSeq seen fs items = .ok seen')
    (hname : name ∉ fs.map Prod.fst) : seen'.lookup name = seen.lookup name := by
  induction fs generalizing seen items with
  | nil =>
    cases items with
    | nil => cases h; rfl
    | cons _ _ => cases h
  | cons f fs ih =>
    cases items with
    | nil => cases h
    | cons v items =>
      rw [List.map_cons, List.mem_cons, not_or] at hname
      unfold visitSeq at h
      split at h
      · cases h
      · rw [ih h hname.2, lookup_cons_ne hname.1]

/-- The type read is the type there is. -/
theorem HasType.ofJson {type : String} {json : Json} (ht : HasType type json) (h : ofJson json = .ok m) :
    m.keyMaterialType = type := by
  cases ht with
  | member hmem =>
    obtain ⟨hr, ho⟩ := ofJson_obj.mp h
    have hs := ofFields_type ho
    rw [KeyMaterial.string, hr.lookup rfl hmem] at hs
    cases hs
    rfl
  | item items =>
    obtain ⟨seen, hv, ho⟩ := except_bind_ok h
    have hs := ofFields_type ho
    have hl : seen.lookup "keyMaterialType" = some (.str type) := by
      rw [fields, visitSeq, checkValue_string] at hv
      rw [visitSeq_lookup hv (by decide)]
      rfl
    rw [KeyMaterial.string, hl] at hs
    cases hs
    rfl

/-! ## The format -/

theorem deserialize_of_ofJson {text : String} {json : Json} (hread : env.serdeJson.read text = .ok json)
    (ho : ofJson json = .ok m) (ht : m.keyMaterialType = "PKMT1") : deserialize env text = .ok m := by
  simp [deserialize, hread, ho, ht]

/-- The error that takes the file for one encrypted without a KMS. -/
def notKeyMaterial (e : String) : ParquetError :=
  .general
    s!"Error deserializing JSON encryption key material: {e}. Perhaps this file was encrypted without using a KMS?"

theorem deserialize_of_error {text : String} {json : Json} {e : Json.DataError}
    (hread : env.serdeJson.read text = .ok json) (ho : ofJson json = .error e) :
    deserialize env text = .error (notKeyMaterial (env.showDataError text e)) := by
  simp only [deserialize, hread, ho]
  rfl

theorem deserialize_ok {text : String} {json : Json} (hread : env.serdeJson.read text = .ok json)
    (h : deserialize env text = .ok m) : ofJson json = .ok m := by
  cases ho : ofJson json with
  | error e => rw [deserialize_of_error env hread ho] at h; cases h
  | ok material =>
    simp only [deserialize, hread, ho] at h
    split at h
    · cases h
    · cases h; rfl

/-- Key material reads back from what is written for it and from whatever else spells it, and no other material type is
    read. -/
theorem material_format :
    (∀ m : KeyMaterial, m.keyMaterialType = "PKMT1" →
      (∃ text, m.serialize env = .ok text ∧ deserialize env text = .ok m) ∧
      ∀ text members, env.serdeJson.read text = .ok (.obj members) → Spells m members →
        deserialize env text = .ok m) ∧
    ∀ text json type, env.serdeJson.read text = .ok json → HasType type json → type ≠ "PKMT1" →
      ∀ m, deserialize env text ≠ .ok m := by
  refine ⟨fun m ht => ⟨?_, fun text members hread hs => ?_⟩, fun text json type hread htype hne m h => ?_⟩
  · obtain ⟨text, hs⟩ := serialize_ok env m
    exact ⟨text, hs, deserialize_serialize env ht hs⟩
  · exact deserialize_of_ofJson env hread hs.ofJson ht
  · exact hne ((htype.ofJson (deserialize_ok env hread h)).symm.trans (deserialize_type env h))

/-- A material of a column key. -/
def sampleMaterial : KeyMaterial where
  keyMaterialType := "PKMT1"
  internalStorage := true
  keyReference := none
  isFooterKey := false
  kmsInstanceId := none
  kmsInstanceUrl := none
  masterKeyId := "kc"
  wrappedDek := "\"null\""
  doubleWrapping := false
  keyEncryptionKeyId := none
  wrappedKek := none

theorem material_format_sample :
    ∃ text, Env.sample.serdeJson.print (.obj (("writer", .str "other") :: sampleMaterial.toJson.reverse.drop 2)) =
      .ok text ∧ deserialize Env.sample text = .ok sampleMaterial := by
  have hspells : Spells sampleMaterial (("writer", .str "other") :: sampleMaterial.toJson.reverse.drop 2) :=
    .unknown _ (.withoutNull "keyEncryptionKeyID" (.withoutNull "wrappedKEK"
      (.reordered .written (List.reverse_perm _).symm))) (by decide)
  obtain ⟨text, hprint, hread⟩ := Env.sample.serdeJson.read_print
    (("writer", .str "other") :: sampleMaterial.toJson.reverse.drop 2) (by
      intro x hx
      rcases List.mem_cons.mp hx with rfl | hx
      · rfl
      · exact toJson_scalar _ x (List.mem_reverse.mp (List.mem_of_mem_drop hx)))
  exact ⟨text, hprint, ((material_format Env.sample).1 sampleMaterial rfl).2 text _ hread hspells⟩

/-! ## External key material -/

/-- Metadata whose key material is in another file. -/
structure External (members : List (String × Json)) : Prop where
  keyMaterialType : ("keyMaterialType", .str "PKMT1") ∈ members
  internalStorage : ("internalStorage", .bool false) ∈ members
  keyReference : ∃ reference, ("keyReference", .str reference) ∈ members

/-- The object also has the members that describe the key itself, and spells none of its known members twice or with a
    value of another type. -/
def Complete (members : List (String × Json)) : Prop :=
  Readable members ∧
    ∀ name ∈ ["isFooterKey", "masterKeyID", "wrappedDEK", "doubleWrapping"], ∃ v, (name, v) ∈ members

theorem Readable.string (h : Readable members) (hname : fields.lookup name = some .string)
    (hv : ∃ v, (name, v) ∈ members) : ∃ s, string members name = .ok s := by
  obtain ⟨v, hv⟩ := hv
  have ht := h.typed _ hv _ hname
  cases v with
  | str s => exact ⟨s, by rw [KeyMaterial.string, h.lookup hname hv]⟩
  | _ => cases ht

theorem Readable.bool (h : Readable members) (hname : fields.lookup name = some .bool)
    (hv : ∃ v, (name, v) ∈ members) : ∃ b, bool members name = .ok b := by
  obtain ⟨v, hv⟩ := hv
  have ht := h.typed _ hv _ hname
  cases v with
  | bool b => exact ⟨b, by rw [KeyMaterial.bool, h.lookup hname hv]⟩
  | _ => cases ht

theorem mem_of_string {s : String} (h : string members name = .ok s) : ∃ v, (name, v) ∈ members := by
  unfold KeyMaterial.string at h
  split at h
  · exact ⟨_, mem_of_lookup ‹_›⟩
  · cases h

theorem mem_of_bool {b : Bool} (h : bool members name = .ok b) : ∃ v, (name, v) ∈ members := by
  unfold KeyMaterial.bool at h
  split at h
  · exact ⟨_, mem_of_lookup ‹_›⟩
  · cases h

/-- Complete metadata of external key material is read as such. -/
theorem Complete.ofJson (hc : Complete members) (hx : External members) :
    ∃ m, ofJson (.obj members) = .ok m ∧ m.keyMaterialType = "PKMT1" ∧ m.internalStorage = false := by
  obtain ⟨hr, hmem⟩ := hc
  have e1 : KeyMaterial.string members "keyMaterialType" = .ok "PKMT1" := by
    rw [KeyMaterial.string, hr.lookup rfl hx.keyMaterialType]
  have e2 : KeyMaterial.bool members "internalStorage" = .ok false := by
    rw [KeyMaterial.bool, hr.lookup rfl hx.internalStorage]
  obtain ⟨_, e3⟩ := hr.bool rfl (hmem "isFooterKey" (by simp))
  obtain ⟨_, e4⟩ := hr.string rfl (hmem "masterKeyID" (by simp))
  obtain ⟨_, e5⟩ := hr.string rfl (hmem "wrappedDEK" (by simp))
  obtain ⟨_, e6⟩ := hr.bool rfl (hmem "doubleWrapping" (by simp))
  have ho : ∃ m, ofFields members = .ok m ∧ m.keyMaterialType = "PKMT1" ∧ m.internalStorage = false := by
    simp only [ofFields, e1, e2, e3, e4, e5, e6]
    exact ⟨_, rfl, rfl, rfl⟩
  obtain ⟨m, ho, hm⟩ := ho
  exact ⟨m, ofJson_obj.mpr ⟨hr, ho⟩, hm⟩

/-- An object that gives the structure is complete. -/
theorem complete_of_ofJson (h : ofJson (.obj members) = .ok m) : Complete members := by
  obtain ⟨hr, ho⟩ := ofJson_obj.mp h
  obtain ⟨_, _, ho⟩ := except_bind_ok ho
  obtain ⟨_, _, ho⟩ := except_bind_ok ho
  obtain ⟨_, e3, ho⟩ := except_bind_ok ho
  obtain ⟨_, e4, ho⟩ := except_bind_ok ho
  obtain ⟨_, e5, ho⟩ := except_bind_ok ho
  obtain ⟨_, e6, _⟩ := except_bind_ok ho
  refine ⟨hr, fun name hname => ?_⟩
  simp only [List.mem_cons, List.not_mem_nil, or_false] at hname
  rcases hname with rfl | rfl | rfl | rfl
  · exact mem_of_bool e3
  · exact mem_of_string e4
  · exact mem_of_string e5
  · exact mem_of_bool e6

end KeyMaterial

namespace KeyUnwrapper

open KeyMaterial

/-- Retrieving a key with this metadata answers that its key material is external, and does nothing else. -/
def RecognisedAsExternal (keyMetadata : Bytes) : Prop :=
  ∀ (u : KeyUnwrapper) (w : World), retrieveKey env u keyMetadata w =
    (.err (.nyi "Decryption using external key material is not yet implemented"), w)

theorem readMaterial_eq {keyMetadata : Bytes} {text : String} (htext : fromUtf8 keyMetadata = .ok text) :
    readMaterial env keyMetadata = deserialize env text := by
  rw [readMaterial, htext]
  rfl

theorem recognised_of_read {keyMetadata : Bytes} {m : KeyMaterial} (hread : readMaterial env keyMetadata = .ok m)
    (hm : m.internalStorage = false) : RecognisedAsExternal env keyMetadata := by
  intro u w
  rw [retrieveKey, hread, bind_ok (ofExcept_ok ..), if_pos (by simp [hm])]
  rfl

theorem retrieveKey_unread {keyMetadata : Bytes} {e : ParquetError} (hread : readMaterial env keyMetadata = .error e)
    (u : KeyUnwrapper) (w : World) : retrieveKey env u keyMetadata w = (.err e, w) := by
  rw [retrieveKey, hread, bind_err (ofExcept_error ..)]

/-- Incomplete metadata is taken for that of a file encrypted without a KMS. -/
theorem retrieveKey_incomplete {keyMetadata : Bytes} {text : String} {members : List (String × Json)}
    (htext : fromUtf8 keyMetadata = .ok text) (hread : env.serdeJson.read text = .ok (.obj members))
    (hc : ¬ Complete members) (u : KeyUnwrapper) (w : World) :
    ∃ e, retrieveKey env u keyMetadata w = (.err (notKeyMaterial e), w) := by
  cases ho : KeyMaterial.ofJson (.obj members) with
  | ok m => exact absurd (complete_of_ofJson ho) hc
  | error e =>
    have hd := (readMaterial_eq env htext).trans (deserialize_of_error env hread ho)
    exact ⟨_, retrieveKey_unread env hd u w⟩

/-- Metadata of external key material is recognised exactly when it also has the members that describe the key, and
    when it is not, it is taken for that of a file encrypted without a KMS. -/
theorem external_recognised_iff {keyMetadata : Bytes} {text : String} {members : List (String × Json)}
    (htext : fromUtf8 keyMetadata = .ok text) (hread : env.serdeJson.read text = .ok (.obj members))
    (hx : External members) :
    (RecognisedAsExternal env keyMetadata ↔ Complete members) ∧
      (¬ Complete members → ∀ u w, ∃ e, retrieveKey env u keyMetadata w = (.err (notKeyMaterial e), w)) := by
  refine ⟨⟨fun h => ?_, fun hc => ?_⟩, retrieveKey_incomplete env htext hread⟩
  · by_contra hc
    obtain ⟨e, he⟩ := retrieveKey_incomplete env htext hread hc ⟨0, 0, ⟨none⟩, 0⟩ (World.init (fun _ => "") 0)
    rw [h] at he
    cases he
  · obtain ⟨m, ho, ht, hi⟩ := hc.ofJson hx
    exact recognised_of_read env ((readMaterial_eq env htext).trans (deserialize_of_ofJson env hread ho ht)) hi

theorem external_recognised_iff_sample :
    ∃ text, serialize Env.sample { sampleMaterial with internalStorage := false, keyReference := some "keys-0" } =
      .ok text ∧
      RecognisedAsExternal Env.sample (intoBytes text) := by
  let m : KeyMaterial := { sampleMaterial with internalStorage := false, keyReference := some "keys-0" }
  obtain ⟨text, hprint, hread⟩ := Env.sample.serdeJson.read_print m.toJson m.toJson_scalar
  have hx : External m.toJson :=
    ⟨by simp [m, toJson, sampleMaterial], by simp [m, toJson], "keys-0", by simp [m, toJson, optionToJson]⟩
  have hc : Complete m.toJson := ⟨(Spells.written (m := m)).lists.readable, by simp [m, toJson]⟩
  exact ⟨text, by rw [serialize, hprint], (external_recognised_iff Env.sample (fromUtf8_intoBytes _) hread hx).1.mpr hc⟩

/-- Metadata with the reference and nothing else. -/
def referenceAlone : List (String × Json) :=
  [("keyMaterialType", .str "PKMT1"), ("internalStorage", .bool false), ("keyReference", .str "keys-0")]

def referenceAloneText : String :=
  "\x7b\"keyMaterialType\":\"PKMT1\",\"internalStorage\":false,\"keyReference\":\"keys-0\"\x7d"

theorem read_referenceAlone : Env.sample.serdeJson.read referenceAloneText = .ok (.obj referenceAlone) := by
  have hprint : referenceAloneText.toList = Json.printObject referenceAlone := by decide
  have hscalar : ∀ x ∈ referenceAlone, Json.isScalar x.2 = true := by decide
  show Json.compact.read referenceAloneText = _
  simp only [Json.compact, hprint, Json.readObject_print hscalar]

theorem referenceAlone_external : External referenceAlone :=
  ⟨List.mem_cons_self .., List.mem_cons_of_mem _ (List.mem_cons_self ..), "keys-0", by simp [referenceAlone]⟩

/-- With the reference alone, the file is taken for one that was encrypted without a KMS. -/
theorem reference_alone_refused :
    fromUtf8 (intoBytes referenceAloneText) = .ok referenceAloneText ∧
      Env.sample.serdeJson.read referenceAloneText = .ok (.obj referenceAlone) ∧ External referenceAlone ∧
      ¬ RecognisedAsExternal Env.sample (intoBytes referenceAloneText) ∧
      ∀ u w, ∃ e, retrieveKey Env.sample u (intoBytes referenceAloneText) w = (.err (notKeyMaterial e), w) := by
  have hc : ¬ Complete referenceAlone := by
    intro hc
    obtain ⟨v, hv⟩ := hc.2 "isFooterKey" (by simp)
    simp [referenceAlone] at hv
  have hrefused := retrieveKey_incomplete Env.sample (fromUtf8_intoBytes _) read_referenceAlone hc
  refine ⟨fromUtf8_intoBytes _, read_referenceAlone, referenceAlone_external, fun h => ?_, hrefused⟩
  obtain ⟨e, he⟩ := hrefused ⟨0, 0, ⟨none⟩, 0⟩ (World.init (fun _ => "") 0)
  rw [h] at he
  cases he

end KeyUnwrapper

end ParquetKeyManagement
