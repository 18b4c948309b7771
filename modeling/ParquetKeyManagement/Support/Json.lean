/-
  ParquetKeyManagement.Support.Json — JSON values, and a printer and parser of JSON texts as
  an interface.

  `Codec` is a library that prints values and parses texts; the only law asked of it is that
  an object of scalar members parses back from what it is printed as. `compact` is such a
  library for flat objects: it prints without whitespace, escapes quotes, backslashes and
  control characters, and parses what it prints (`readMembers_print`).
-/

import Mathlib.Data.List.Basic

namespace ParquetKeyManagement

inductive Json where
  | null
  | bool (b : Bool)
  | num (literal : String)
  | str (s : String)
  | arr (items : List Json)
  | obj (members : List (String × Json))

namespace Json

def isScalar : Json → Bool
  | .null | .bool _ | .str _ => true
  | _ => false

structure Codec where
  print : Json → Except String String
  read : String → Except String Json
  read_print : ∀ members : List (String × Json), (∀ m ∈ members, isScalar m.2 = true) →
    ∃ text, print (.obj members) = .ok text ∧ read text = .ok (.obj members)

/-- Why a value of another shape was refused when a structure was read from it. -/
inductive DataError where
  | missingField (name : String)
  | duplicateField (name : String)
  | invalidType (value : Json) (expected : String)
  | invalidLength (length : Nat)
  | trailingItems

/-! ## Strings -/

def hexChar (n : Nat) : Char := if n < 10 then Char.ofNat (48 + n) else Char.ofNat (87 + n)

def hexVal (c : Char) : Option Nat :=
  if 48 ≤ c.toNat ∧ c.toNat ≤ 57 then some (c.toNat - 48)
  else if 97 ≤ c.toNat ∧ c.toNat ≤ 102 then some (c.toNat - 87)
  else if 65 ≤ c.toNat ∧ c.toNat ≤ 70 then some (c.toNat - 55)
  else none

def escapeChar (c : Char) : List Char :=
  if c = '"' then ['\\', '"']
  else if c = '\\' then ['\\', '\\']
  else if c.toNat = 8 then ['\\', 'b']
  else if c.toNat = 9 then ['\\', 't']
  else if c.toNat = 10 then ['\\', 'n']
  else if c.toNat = 12 then ['\\', 'f']
  else if c.toNat = 13 then ['\\', 'r']
  else if c.toNat < 32 then ['\\', 'u', '0', '0', hexChar (c.toNat / 16), hexChar (c.toNat % 16)]
  else [c]

def printString (s : List Char) : List Char := '"' :: (s.flatMap escapeChar ++ ['"'])

/-- The rest of a string literal, after its opening quote. -/
def readString : List Char → Option (List Char × List Char)
  | [] => none
  | '"' :: rest => some ([], rest)
  | '\\' :: 'u' :: a :: b :: c :: d :: rest =>
    match hexVal a, hexVal b, hexVal c, hexVal d with
    | some a, some b, some c, some d =>
      let n := a * 4096 + b * 256 + c * 16 + d
      -- a surrogate pair is not put together here
      if 55296 ≤ n ∧ n ≤ 57343 then none
      else (readString rest).map fun r => (Char.ofNat n :: r.1, r.2)
    | _, _, _, _ => none
  | '\\' :: c :: rest =>
    let plain : Option Char :=
      if c = '"' ∨ c = '\\' ∨ c = '/' then some c
      else if c = 'b' then some (Char.ofNat 8)
      else if c = 't' then some (Char.ofNat 9)
      else if c = 'n' then some (Char.ofNat 10)
      else if c = 'f' then some (Char.ofNat 12)
      else if c = 'r' then some (Char.ofNat 13)
      else none
    match plain with
    | some x => (readString rest).map fun r => (x :: r.1, r.2)
    | none => none
  | c :: rest => if c.toNat < 32 ∨ c = '\\' then none else (readString rest).map fun r => (c :: r.1, r.2)

theorem hexVal_hexChar_all : ∀ n < 16, hexVal (hexChar n) = some n := by decide

theorem readString_plain {c : Char} (rest : List Char) (h1 : c ≠ '"') (h2 : c ≠ '\\') (h3 : ¬ c.toNat < 32) :
    readString (c :: rest) = (readString rest).map fun r => (c :: r.1, r.2) := by
  have h : ¬ (c.toNat < 32 ∨ c = '\\') := by simp [h2, h3]
  rw [readString.eq_def]
  split
  · simp_all
  · simp_all
  · simp_all
  · simp_all
  · rename_i he; cases he; rw [if_neg h]

theorem char_of_toNat {c : Char} {n : Nat} (h : c.toNat = n) : Char.ofNat n = c := by
  subst h; exact Char.ofNat_toNat c

theorem readString_escapeChar (c : Char) (rest : List Char) :
    readString (escapeChar c ++ rest) = (readString rest).map fun r => (c :: r.1, r.2) := by
  unfold escapeChar
  split
  · subst_vars; simp [readString]
  split
  · subst_vars; simp [readString]
  split
  · rename_i h; rw [← char_of_toNat h]; simp [readString]
  split
  · rename_i h; rw [← char_of_toNat h]; simp [readString]
  split
  · rename_i h; rw [← char_of_toNat h]; simp [readString]
  split
  · rename_i h; rw [← char_of_toNat h]; simp [readString]
  split
  · rename_i h; rw [← char_of_toNat h]; simp [readString]
  split
  · rename_i h
    have h0 : hexVal '0' = some 0 := by decide
    have h1 := hexVal_hexChar_all (c.toNat / 16) (by omega)
    have h2 := hexVal_hexChar_all (c.toNat % 16) (by omega)
    have hc : Char.ofNat (c.toNat / 16 * 16 + c.toNat % 16) = c := char_of_toNat (by omega)
    have hs : ¬ 55296 ≤ c.toNat / 16 * 16 + c.toNat % 16 := by omega
    simp [readString, h0, h1, h2, hs, hc]
  · exact readString_plain rest ‹_› ‹_› ‹_›

theorem readString_print (s rest : List Char) : readString (s.flatMap escapeChar ++ '"' :: rest) = some (s, rest) := by
  induction s with
  | nil => simp [readString]
  | cons c s ih =>
    rw [List.flatMap_cons, List.append_assoc, readString_escapeChar, ih]
    rfl

/-! ## Flat objects -/

def printScalar : Json → List Char
  | .null => ['n', 'u', 'l', 'l']
  | .bool true => ['t', 'r', 'u', 'e']
  | .bool false => ['f', 'a', 'l', 's', 'e']
  | .str s => printString s.toList
  | _ => []

def readScalar : List Char → Option (Json × List Char)
  | 'n' :: 'u' :: 'l' :: 'l' :: rest => some (.null, rest)
  | 't' :: 'r' :: 'u' :: 'e' :: rest => some (.bool true, rest)
  | 'f' :: 'a' :: 'l' :: 's' :: 'e' :: rest => some (.bool false, rest)
  | '"' :: rest => (readString rest).map fun r => (.str (String.ofList r.1), r.2)
  | _ => none

theorem readScalar_print {v : Json} (h : isScalar v = true) (rest : List Char) :
    readScalar (printScalar v ++ rest) = some (v, rest) := by
  cases v with
  | null => rfl
  | bool b => cases b <;> rfl
  | str s => simp [printScalar, printString, readScalar, readString_print, String.ofList_toList]
  | num _ => cases h
  | arr _ => cases h
  | obj _ => cases h

def printMember (m : String × Json) : List Char := printString m.1.toList ++ ':' :: printScalar m.2

/-- The members of an object, up to and with its closing brace. -/
def printMembers : List (String × Json) → List Char
  | [] => ['}']
  | [m] => printMember m ++ ['}']
  | m :: ms => printMember m ++ ',' :: printMembers ms

/-- `n` bounds the number of members. -/
def readMembers : Nat → List Char → Option (List (String × Json))
  | 0, _ => none
  | n + 1, '"' :: text =>
    match readString text with
    | some (k, ':' :: text) =>
      match readScalar text with
      | some (v, ['}']) => some [(String.ofList k, v)]
      | some (v, ',' :: text) => (readMembers n text).map ((String.ofList k, v) :: ·)
      | _ => none
    | _ => none
  | _, _ => none

theorem printMember_append (m : String × Json) (rest : List Char) :
    printMember m ++ rest = '"' :: (m.1.toList.flatMap escapeChar ++ '"' :: ':' :: (printScalar m.2 ++ rest)) := by
  simp [printMember, printString]

theorem readMembers_print :
    ∀ (ms : List (String × Json)) (n : Nat), ms ≠ [] → ms.length ≤ n → (∀ m ∈ ms, isScalar m.2 = true) →
      readMembers n (printMembers ms) = some ms := by
  intro ms
  induction ms with
  | nil => intro n h; exact absurd rfl h
  | cons m ms ih =>
    intro n _ hn hs
    cases n with
    | zero => simp at hn
    | succ n =>
      have hm := readScalar_print (hs m (List.mem_cons_self ..))
      cases ms with
      | nil => simp [printMembers, printMember_append, readMembers, readString_print, hm, String.ofList_toList]
      | cons m' ms =>
        have := ih n (by simp) (by simpa using hn) fun x hx => hs x (List.mem_cons_of_mem _ hx)
        simp [printMembers, printMember_append, readMembers, readString_print, hm, String.ofList_toList, this]

def printObject (members : List (String × Json)) : List Char := '{' :: printMembers members

def readObject : List Char → Option (List (String × Json))
  | ['{', '}'] => some []
  | '{' :: text => readMembers text.length text
  | _ => none

theorem length_le_printMembers (ms : List (String × Json)) : ms.length ≤ (printMembers ms).length := by
  induction ms with
  | nil => simp
  | cons m ms ih =>
    cases ms with
    | nil => simp [printMembers]
    | cons m' ms => simp [printMembers] at ih ⊢; omega

theorem readObject_print {ms : List (String × Json)} (hs : ∀ m ∈ ms, isScalar m.2 = true) :
    readObject (printObject ms) = some ms := by
  cases ms with
  | nil => rfl
  | cons m ms =>
    have h := readMembers_print (m :: ms) _ (by simp) (length_le_printMembers _) hs
    rw [printObject, readObject.eq_def]
    split
    · rename_i he
      -- a member starts with a quote, so the text is not the empty object's
      cases ms <;> simp [printMembers, printMember_append] at he
    · rename_i he; cases he; exact h
    · rename_i he; exact absurd rfl (he _)

/-- The compact printer and parser of flat objects. -/
def compact : Codec where
  print
    | .obj members => .ok (String.ofList (printObject members))
    | _ => .error "only flat objects are printed"
  read text :=
    match readObject text.toList with
    | some members => .ok (.obj members)
    | none => .error "expected a flat object"
  read_print members hs := ⟨_, rfl, by rw [String.toList_ofList, readObject_print hs]⟩

end Json

end ParquetKeyManagement
