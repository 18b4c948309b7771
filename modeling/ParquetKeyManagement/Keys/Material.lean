/-
  ParquetKeyManagement.Keys.Material — the key material stored in a file (`key_material.rs`).

  Key material is a JSON object of eleven members. Reading follows `serde`'s derived
  visitors: an object's members may come in any order, unknown ones are skipped, a repeated
  or ill-typed known one is an error, and an optional member may be absent; an array of the
  eleven values in order is read as well. `deserialize` also refuses every material type but
  "PKMT1".
  - `deserialize_serialize`: what is written reads back.
-/

import ParquetKeyManagement.Kms.World

namespace ParquetKeyManagement

open Effect

variable (env : Env)

/-! ## Text and bytes -/

/-- `str::from_utf8`. -/
def fromUtf8 (bytes : Bytes) : Except ParquetError String :=
  match String.fromUTF8? ⟨bytes.toArray⟩ with
  | some s => .ok s
  | none => .error (.external "core::str::Utf8Error")

/-- `String::into_bytes`. -/
def intoBytes (s : String) : Bytes := s.toByteArray.data.toList

@[simp] theorem fromUtf8_intoBytes (s : String) : fromUtf8 (intoBytes s) = .ok s := by
  have h : (⟨(intoBytes s).toArray⟩ : ByteArray) = s.toByteArray := by simp [intoBytes]
  unfold fromUtf8
  rw [h]
  simp [String.fromUTF8?, s.isValidUTF8, String.fromUTF8]

/-! ## Key material -/

structure KeyMaterial where
  keyMaterialType : String
  internalStorage : Bool
  keyReference : Option String
  isFooterKey : Bool
  kmsInstanceId : Option String
  kmsInstanceUrl : Option String
  masterKeyId : String
  wrappedDek : String
  doubleWrapping : Bool
  keyEncryptionKeyId : Option String
  wrappedKek : Option String
  deriving DecidableEq, Repr

namespace KeyMaterial

inductive FieldType where
  | string
  | bool
  | optionString

/-- The members, in the order of the structure's fields. -/
def fields : List (String × FieldType) :=
  [("keyMaterialType", .string), ("internalStorage", .bool), ("keyReference", .optionString),
   ("isFooterKey", .bool), ("kmsInstanceID", .optionString), ("kmsInstanceURL", .optionString),
   ("masterKeyID", .string), ("wrappedDEK", .string), ("doubleWrapping", .bool),
   ("keyEncryptionKeyID", .optionString), ("wrappedKEK", .optionString)]

def optionToJson : Option String → Json
  | none => .null
  | some s => .str s

def toJson (m : KeyMaterial) : List (String × Json) :=
  [("keyMaterialType", .str m.keyMaterialType), ("internalStorage", .bool m.internalStorage),
   ("keyReference", optionToJson m.keyReference), ("isFooterKey", .bool m.isFooterKey),
   ("kmsInstanceID", optionToJson m.kmsInstanceId), ("kmsInstanceURL", optionToJson m.kmsInstanceUrl),
   ("masterKeyID", .str m.masterKeyId), ("wrappedDEK", .str m.wrappedDek),
   ("doubleWrapping", .bool m.doubleWrapping), ("keyEncryptionKeyID", optionToJson m.keyEncryptionKeyId),
   ("wrappedKEK", optionToJson m.wrappedKek)]

def checkValue : FieldType → Json → Except Json.DataError Unit
  | .string, .str _ | .bool, .bool _ | .optionString, .str _ | .optionString, .null => .ok ()
  | .bool, v => .error (.invalidType v "a boolean")
  | _, v => .error (.invalidType v "a string")

/-- Collect the known members of an object. -/
def visitMap (seen : List (String × Json)) : List (String × Json) → Except Json.DataError (List (String × Json))
  | [] => .ok seen
  | (k, v) :: rest =>
    match fields.lookup k with
    | none => visitMap seen rest
    | some t =>
      if (seen.lookup k).isSome then .error (.duplicateField k)
      else match checkValue t v with
        | .error e => .error e
        | .ok () => visitMap ((k, v) :: seen) rest

/-- Name the items of an array by position. -/
def visitSeq (seen : List (String × Json)) :
    List (String × FieldType) → List Json → Except Json.DataError (List (String × Json))
  | [], [] => .ok seen
  | [], _ :: _ => .error .trailingItems
  | _ :: _, [] => .error (.invalidLength seen.length)
  | (k, t) :: fs, v :: vs =>
    match checkValue t v with
    | .error e => .error e
    | .ok () => visitSeq ((k, v) :: seen) fs vs

def string (seen : List (String × Json)) (name : String) : Except Json.DataError String :=
  match seen.lookup name with
  | some (.str s) => .ok s
  | _ => .error (.missingField name)

def bool (seen : List (String × Json)) (name : String) : Except Json.DataError Bool :=
  match seen.lookup name with
  | some (.bool b) => .ok b
  | _ => .error (.missingField name)

def optionString (seen : List (String × Json)) (name : String) : Option String :=
  match seen.lookup name with
  | some (.str s) => some s
  | _ => none

/-- Put the structure together from its collected members. -/
def ofFields (seen : List (String × Json)) : Except Json.DataError KeyMaterial := do
  let keyMaterialType ← string seen "keyMaterialType"
  let internalStorage ← bool seen "internalStorage"
  let isFooterKey ← bool seen "isFooterKey"
  let masterKeyId ← string seen "masterKeyID"
  let wrappedDek ← string seen "wrappedDEK"
  let doubleWrapping ← bool seen "doubleWrapping"
  .ok { keyMaterialType, internalStorage, keyReference := optionString seen "keyReference", isFooterKey,
        kmsInstanceId := optionString seen "kmsInstanceID", kmsInstanceUrl := optionString seen "kmsInstanceURL",
        masterKeyId, wrappedDek, doubleWrapping, keyEncryptionKeyId := optionString seen "keyEncryptionKeyID",
        wrappedKek := optionString seen "wrappedKEK" }

def ofJson : Json → Except Json.DataError KeyMaterial
  | .obj members => visitMap [] members >>= ofFields
  | .arr items => visitSeq [] fields items >>= ofFields
  | v => .error (.invalidType v "struct KeyMaterial")

def deserialize (keyMaterial : String) : Except ParquetError KeyMaterial :=
  let refused (e : String) : ParquetError := .general
    s!"Error deserializing JSON encryption key material: {e}. Perhaps this file was encrypted without using a KMS?"
  match env.serdeJson.read keyMaterial with
  | .error e => .error (refused e)
  | .ok json =>
    match ofJson json with
    | .error e => .error (refused (env.showDataError keyMaterial e))
    | .ok material =>
      if material.keyMaterialType ≠ "PKMT1" then
        .error (.general s!"Unsupported key material type: {material.keyMaterialType}")
      else .ok material

def serialize (m : KeyMaterial) : Except ParquetError String :=
  match env.serdeJson.print (.obj m.toJson) with
  | .ok text => .ok text
  | .error e => .error (.general s!"Error serializing key material to JSON: {e}")

end KeyMaterial

/-! ## The builder -/

structure KeyMaterialBuilder where
  isFooterKey : Bool
  kmsInstanceId : Option String
  kmsInstanceUrl : Option String
  masterKeyId : Option String
  wrappedDek : Option String
  doubleWrapping : Bool
  keyEncryptionKeyId : Option String
  wrappedKek : Option String

namespace KeyMaterialBuilder

def forFooterKey (kmsInstanceId kmsInstanceUrl : String) : KeyMaterialBuilder where
  isFooterKey := true
  kmsInstanceId := some kmsInstanceId
  kmsInstanceUrl := some kmsInstanceUrl
  masterKeyId := none
  wrappedDek := none
  doubleWrapping := false
  keyEncryptionKeyId := none
  wrappedKek := none

def forColumnKey : KeyMaterialBuilder where
  isFooterKey := false
  kmsInstanceId := none
  kmsInstanceUrl := none
  masterKeyId := none
  wrappedDek := none
  doubleWrapping := false
  keyEncryptionKeyId := none
  wrappedKek := none

def withSingleWrappedKey (b : KeyMaterialBuilder) (masterKeyId wrappedDek : String) : KeyMaterialBuilder :=
  { b with doubleWrapping := false, masterKeyId := some masterKeyId, wrappedDek := some wrappedDek }

def withDoubleWrappedKey (b : KeyMaterialBuilder) (masterKeyId keyEncryptionKeyId wrappedKek wrappedDek : String) :
    KeyMaterialBuilder :=
  { b with doubleWrapping := true, masterKeyId := some masterKeyId, keyEncryptionKeyId := some keyEncryptionKeyId,
           wrappedKek := some wrappedKek, wrappedDek := some wrappedDek }

def build (b : KeyMaterialBuilder) : Except ParquetError KeyMaterial :=
  match b.masterKeyId, b.wrappedDek with
  | some masterKeyId, some wrappedDek => .ok
    { keyMaterialType := "PKMT1", internalStorage := true, keyReference := none, isFooterKey := b.isFooterKey,
      kmsInstanceId := b.kmsInstanceId, kmsInstanceUrl := b.kmsInstanceUrl, masterKeyId, wrappedDek,
      doubleWrapping := b.doubleWrapping, keyEncryptionKeyId := b.keyEncryptionKeyId, wrappedKek := b.wrappedKek }
  | _, _ => .error (.general "Wrapped key not set when building key material")

/-- What the built material has from its builder. -/
structure Builds (b : KeyMaterialBuilder) (m : KeyMaterial) : Prop where
  keyMaterialType : m.keyMaterialType = "PKMT1"
  internalStorage : m.internalStorage = true
  isFooterKey : m.isFooterKey = b.isFooterKey
  kmsInstanceId : m.kmsInstanceId = b.kmsInstanceId
  kmsInstanceUrl : m.kmsInstanceUrl = b.kmsInstanceUrl
  masterKeyId : some m.masterKeyId = b.masterKeyId
  wrappedDek : some m.wrappedDek = b.wrappedDek
  doubleWrapping : m.doubleWrapping = b.doubleWrapping
  keyEncryptionKeyId : m.keyEncryptionKeyId = b.keyEncryptionKeyId
  wrappedKek : m.wrappedKek = b.wrappedKek

theorem build_ok {b : KeyMaterialBuilder} {m : KeyMaterial} (h : b.build = .ok m) : b.Builds m := by
  unfold build at h
  split at h
  · rename_i hm hw
    cases h
    exact ⟨rfl, rfl, rfl, rfl, rfl, hm.symm, hw.symm, rfl, rfl, rfl⟩
  · cases h

end KeyMaterialBuilder

/-! ## What is written reads back -/

namespace KeyMaterial

@[simp] theorem checkValue_string (s : String) : checkValue .string (.str s) = .ok () := rfl

@[simp] theorem checkValue_bool (b : Bool) : checkValue .bool (.bool b) = .ok () := rfl

@[simp] theorem checkValue_option (o : Option String) : checkValue .optionString (optionToJson o) = .ok () := by
  cases o <;> rfl

theorem toJson_scalar (m : KeyMaterial) : ∀ x ∈ m.toJson, Json.isScalar x.2 = true := by
  have ho : ∀ o, Json.isScalar (optionToJson o) = true := fun o => by cases o <;> rfl
  intro x hx
  simp only [toJson, List.mem_cons, List.not_mem_nil, or_false] at hx
  rcases hx with rfl | rfl | rfl | rfl | rfl | rfl | rfl | rfl | rfl | rfl | rfl
  all_goals first | rfl | exact ho _

theorem visitMap_toJson (m : KeyMaterial) : visitMap [] m.toJson = .ok m.toJson.reverse := by
  simp [toJson, visitMap, fields, List.lookup_cons]

theorem optionString_of {seen : List (String × Json)} {name : String} {o : Option String}
    (h : seen.lookup name = some (optionToJson o)) : optionString seen name = o := by
  cases o <;> simp [optionString, h, optionToJson]

theorem ofJson_toJson (m : KeyMaterial) : ofJson (.obj m.toJson) = .ok m := by
  have hv := visitMap_toJson m
  show visitMap [] m.toJson >>= ofFields = .ok m
  rw [hv]
  show ofFields m.toJson.reverse = .ok m
  have h1 : optionString m.toJson.reverse "keyReference" = m.keyReference := optionString_of rfl
  have h2 : optionString m.toJson.reverse "kmsInstanceID" = m.kmsInstanceId := optionString_of rfl
  have h3 : optionString m.toJson.reverse "kmsInstanceURL" = m.kmsInstanceUrl := optionString_of rfl
  have h4 : optionString m.toJson.reverse "keyEncryptionKeyID" = m.keyEncryptionKeyId := optionString_of rfl
  have h5 : optionString m.toJson.reverse "wrappedKEK" = m.wrappedKek := optionString_of rfl
  have e1 : string m.toJson.reverse "keyMaterialType" = .ok m.keyMaterialType := rfl
  have e2 : bool m.toJson.reverse "internalStorage" = .ok m.internalStorage := rfl
  have e3 : bool m.toJson.reverse "isFooterKey" = .ok m.isFooterKey := rfl
  have e4 : string m.toJson.reverse "masterKeyID" = .ok m.masterKeyId := rfl
  have e5 : string m.toJson.reverse "wrappedDEK" = .ok m.wrappedDek := rfl
  have e6 : bool m.toJson.reverse "doubleWrapping" = .ok m.doubleWrapping := rfl
  simp only [ofFields, h1, h2, h3, h4, h5, e1, e2, e3, e4, e5, e6]
  rfl

theorem deserialize_serialize {m : KeyMaterial} {text : String} (ht : m.keyMaterialType = "PKMT1")
    (h : m.serialize env = .ok text) : deserialize env text = .ok m := by
  obtain ⟨t, hp, hr⟩ := env.serdeJson.read_print m.toJson m.toJson_scalar
  have he : t = text := by rw [serialize, hp] at h; cases h; rfl
  subst he
  simp [deserialize, hr, ofJson_toJson, ht]

/-- Serializing never fails. -/
theorem serialize_ok (m : KeyMaterial) : ∃ text, m.serialize env = .ok text := by
  obtain ⟨t, hp, _⟩ := env.serdeJson.read_print m.toJson m.toJson_scalar
  exact ⟨t, by rw [serialize, hp]⟩

theorem deserialize_type {text : String} {m : KeyMaterial} (h : deserialize env text = .ok m) :
    m.keyMaterialType = "PKMT1" := by
  unfold deserialize at h
  simp only at h
  split at h
  · cases h
  · split at h
    · cases h
    · split at h
      · cases h
      · cases h; exact not_not.mp ‹_›

end KeyMaterial

end ParquetKeyManagement
