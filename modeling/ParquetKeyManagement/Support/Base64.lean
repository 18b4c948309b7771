/-
  ParquetKeyManagement.Support.Base64 — the standard base64 alphabet with canonical padding
  (RFC 4648 as the `STANDARD` engine reads it: padding required, unused bits zero, no
  whitespace).

  Three bytes become four characters; a last group of one or two bytes is padded with `=`.
  - `decode_encode`: decoding undoes encoding.
  - `encode_of_decode`: what decodes is the encoding of what it decodes to, so a string has
    at most one meaning and every meaning one string (`decode_eq_some_iff`).
-/

import Mathlib.Data.List.Basic

namespace ParquetKeyManagement.Base64

def encodeChar (n : Nat) : Char :=
  if n < 26 then Char.ofNat (65 + n)
  else if n < 52 then Char.ofNat (97 + (n - 26))
  else if n < 62 then Char.ofNat (48 + (n - 52))
  else if n = 62 then '+'
  else '/'

def decodeChar (c : Char) : Option Nat :=
  let n := c.toNat
  if 65 ≤ n ∧ n ≤ 90 then some (n - 65)
  else if 97 ≤ n ∧ n ≤ 122 then some (n - 97 + 26)
  else if 48 ≤ n ∧ n ≤ 57 then some (n - 48 + 52)
  else if c = '+' then some 62
  else if c = '/' then some 63
  else none

def encodeBytes : List UInt8 → List Char
  | [] => []
  | [a] => [encodeChar (a.toNat / 4), encodeChar (a.toNat % 4 * 16), '=', '=']
  | [a, b] =>
    [encodeChar (a.toNat / 4), encodeChar (a.toNat % 4 * 16 + b.toNat / 16), encodeChar (b.toNat % 16 * 4), '=']
  | a :: b :: c :: rest =>
    encodeChar (a.toNat / 4) :: encodeChar (a.toNat % 4 * 16 + b.toNat / 16) ::
      encodeChar (b.toNat % 16 * 4 + c.toNat / 64) :: encodeChar (c.toNat % 64) :: encodeBytes rest

def decodeChars : List Char → Option (List UInt8)
  | [] => some []
  | c0 :: c1 :: c2 :: c3 :: rest =>
    match decodeChar c0, decodeChar c1 with
    | some s0, some s1 =>
      if c2 = '=' then
        -- one byte in the last group; the low four bits of the second character are unused
        if c3 = '=' ∧ rest = [] ∧ s1 % 16 = 0 then some [UInt8.ofNat (s0 * 4 + s1 / 16)] else none
      else match decodeChar c2 with
        | none => none
        | some s2 =>
          if c3 = '=' then
            if rest = [] ∧ s2 % 4 = 0 then
              some [UInt8.ofNat (s0 * 4 + s1 / 16), UInt8.ofNat (s1 % 16 * 16 + s2 / 4)]
            else none
          else match decodeChar c3, decodeChars rest with
            | some s3, some bytes =>
              some (UInt8.ofNat (s0 * 4 + s1 / 16) :: UInt8.ofNat (s1 % 16 * 16 + s2 / 4) ::
                UInt8.ofNat (s2 % 4 * 64 + s3) :: bytes)
            | _, _ => none
    | _, _ => none
  | _ => none

def encode (bytes : List UInt8) : String := String.ofList (encodeBytes bytes)

def decode (s : String) : Option (List UInt8) := decodeChars s.toList

/-! ## Characters -/

theorem decodeChar_encodeChar_all : ∀ n < 64, decodeChar (encodeChar n) = some n := by decide

theorem encodeChar_ne_pad_all : ∀ n < 64, encodeChar n ≠ '=' := by decide

@[simp] theorem decodeChar_encodeChar {n : Nat} (h : n < 64) : decodeChar (encodeChar n) = some n :=
  decodeChar_encodeChar_all n h

@[simp] theorem encodeChar_ne_pad {n : Nat} (h : n < 64) : encodeChar n ≠ '=' := encodeChar_ne_pad_all n h

theorem encodeChar_of_decodeChar {c : Char} {n : Nat} (h : decodeChar c = some n) : n < 64 ∧ encodeChar n = c := by
  unfold decodeChar at h
  simp only at h
  split at h
  · rename_i hr
    cases h
    refine ⟨by omega, ?_⟩
    rw [encodeChar, if_pos (by omega), show 65 + (c.toNat - 65) = c.toNat by omega, Char.ofNat_toNat]
  split at h
  · rename_i hr
    cases h
    refine ⟨by omega, ?_⟩
    rw [encodeChar, if_neg (by omega), if_pos (by omega), show 97 + (c.toNat - 97 + 26 - 26) = c.toNat by omega,
      Char.ofNat_toNat]
  split at h
  · rename_i hr
    cases h
    refine ⟨by omega, ?_⟩
    rw [encodeChar, if_neg (by omega), if_neg (by omega), if_pos (by omega),
      show 48 + (c.toNat - 48 + 52 - 52) = c.toNat by omega, Char.ofNat_toNat]
  split at h
  · rename_i hr; cases h; exact ⟨by omega, hr.symm⟩
  split at h
  · rename_i hr; cases h; exact ⟨by omega, hr.symm⟩
  · cases h

/-! ## Groups -/

theorem byte_lt (a : UInt8) : a.toNat < 256 := a.toNat_lt

theorem byte_of {a : UInt8} {n : Nat} (h : n = a.toNat) : UInt8.ofNat n = a := by
  subst h; exact UInt8.ofNat_toNat

theorem decodeChars_encodeBytes (bytes : List UInt8) : decodeChars (encodeBytes bytes) = some bytes := by
  fun_induction encodeBytes bytes with
  | case1 => rfl
  | case2 a =>
    have ha := byte_lt a
    rw [decodeChars, decodeChar_encodeChar (by omega), decodeChar_encodeChar (by omega)]
    simp only [if_true, true_and]
    rw [if_pos (by omega), byte_of (a := a) (by omega)]
  | case3 a b =>
    have ha := byte_lt a
    have hb := byte_lt b
    rw [decodeChars, decodeChar_encodeChar (by omega), decodeChar_encodeChar (by omega)]
    simp only [encodeChar_ne_pad (show b.toNat % 16 * 4 < 64 by omega), if_false]
    rw [decodeChar_encodeChar (by omega)]
    simp only [if_true, true_and]
    rw [if_pos (by omega), byte_of (a := a) (by omega), byte_of (a := b) (by omega)]
  | case4 a b c rest ih =>
    have ha := byte_lt a
    have hb := byte_lt b
    have hc := byte_lt c
    rw [decodeChars, decodeChar_encodeChar (by omega), decodeChar_encodeChar (by omega)]
    simp only [encodeChar_ne_pad (show b.toNat % 16 * 4 + c.toNat / 64 < 64 by omega), if_false]
    rw [decodeChar_encodeChar (by omega)]
    simp only [encodeChar_ne_pad (show c.toNat % 64 < 64 by omega), if_false]
    rw [decodeChar_encodeChar (by omega), ih]
    simp only
    rw [byte_of (a := a) (by omega), byte_of (a := b) (by omega), byte_of (a := c) (by omega)]

theorem toNat_byte {n : Nat} (h : n < 256) : (UInt8.ofNat n).toNat = n := by
  simp [UInt8.toNat_ofNat']; omega

theorem encodeBytes_of_decodeChars (cs : List Char) :
    ∀ bytes, decodeChars cs = some bytes → encodeBytes bytes = cs := by
  fun_induction decodeChars cs with
  | case1 => intro bytes h; cases h; rfl
  | case2 c0 c1 c3 rest s0 s1 h1 h0 hok =>
    intro bytes h
    cases h
    obtain ⟨rfl, rfl, hpad⟩ := hok
    obtain ⟨l0, e0⟩ := encodeChar_of_decodeChar h0
    obtain ⟨l1, e1⟩ := encodeChar_of_decodeChar h1
    rw [encodeBytes, toNat_byte (by omega), show (s0 * 4 + s1 / 16) / 4 = s0 by omega,
      show (s0 * 4 + s1 / 16) % 4 * 16 = s1 by omega, e0, e1]
  | case5 c0 c1 c2 rest s0 s1 h1 h0 hc2 s2 h2 hok =>
    intro bytes h
    cases h
    obtain ⟨rfl, hpad⟩ := hok
    obtain ⟨l0, e0⟩ := encodeChar_of_decodeChar h0
    obtain ⟨l1, e1⟩ := encodeChar_of_decodeChar h1
    obtain ⟨l2, e2⟩ := encodeChar_of_decodeChar h2
    rw [encodeBytes, toNat_byte (by omega), toNat_byte (by omega), show (s0 * 4 + s1 / 16) / 4 = s0 by omega,
      show (s0 * 4 + s1 / 16) % 4 * 16 + (s1 % 16 * 16 + s2 / 4) / 16 = s1 by omega,
      show (s1 % 16 * 16 + s2 / 4) % 16 * 4 = s2 by omega, e0, e1, e2]
  | case7 c0 c1 c2 c3 rest s0 s1 h1 h0 hc2 s2 h2 hc3 s3 bytes' hrest h3 ih =>
    intro bytes h
    cases h
    obtain ⟨l0, e0⟩ := encodeChar_of_decodeChar h0
    obtain ⟨l1, e1⟩ := encodeChar_of_decodeChar h1
    obtain ⟨l2, e2⟩ := encodeChar_of_decodeChar h2
    obtain ⟨l3, e3⟩ := encodeChar_of_decodeChar h3
    rw [encodeBytes, toNat_byte (by omega), toNat_byte (by omega), toNat_byte (by omega),
      show (s0 * 4 + s1 / 16) / 4 = s0 by omega,
      show (s0 * 4 + s1 / 16) % 4 * 16 + (s1 % 16 * 16 + s2 / 4) / 16 = s1 by omega,
      show (s1 % 16 * 16 + s2 / 4) % 16 * 4 + (s2 % 4 * 64 + s3) / 64 = s2 by omega,
      show (s2 % 4 * 64 + s3) % 64 = s3 by omega, e0, e1, e2, e3, ih _ hrest]
  | _ => intro bytes h; cases h

/-! ## Strings -/

@[simp] theorem decode_encode (bytes : List UInt8) : decode (encode bytes) = some bytes := by
  rw [decode, encode, String.toList_ofList, decodeChars_encodeBytes]

theorem encode_of_decode {s : String} {bytes : List UInt8} (h : decode s = some bytes) : encode bytes = s := by
  rw [encode, encodeBytes_of_decodeChars _ _ h, String.ofList_toList]

/-- Exactly the canonical encodings decode. -/
theorem decode_eq_some_iff {s : String} {bytes : List UInt8} : decode s = some bytes ↔ s = encode bytes :=
  ⟨fun h => (encode_of_decode h).symm, fun h => by rw [h, decode_encode]⟩

theorem encode_inj {a b : List UInt8} (h : encode a = encode b) : a = b := by
  have := congrArg decode h
  simpa using this

example : encode [77, 97, 110, 33] = "TWFuIQ==" := by decide

example : decode "TWFuIR==" = none := by decide

end ParquetKeyManagement.Base64
