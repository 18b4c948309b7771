/-
  ParquetKeyManagement.Support.Aead — authenticated encryption with associated data, as an
  interface with its laws.

  `sealDetached` encrypts and returns the ciphertext and a tag apart; `openSealed` takes the
  ciphertext with the tag appended and answers the plaintext when the tag is right. The laws
  say that exactly the sealed texts open, for the same key, nonce and associated data.
  `openInPlace` is the form that decrypts a buffer in place: the plaintext is a prefix of
  the buffer it leaves, which keeps its length.

  `checksum` is a small instance of the interface, good for evaluating examples: it hides
  nothing, but its tag depends on the key, the nonce, the associated data and the text.
-/

import Mathlib.Data.List.Basic

namespace ParquetKeyManagement

structure Aead (tagLen : Nat) where
  sealDetached : (key nonce aad plaintext : List UInt8) → Option (List UInt8 × List UInt8)
  openSealed : (key nonce aad sealed : List UInt8) → Option (List UInt8)
  sealed_length : ∀ {key nonce aad p c t}, sealDetached key nonce aad p = some (c, t) →
    c.length = p.length ∧ t.length = tagLen
  open_iff : ∀ {key nonce aad sealed p}, openSealed key nonce aad sealed = some p ↔
    ∃ c t, sealDetached key nonce aad p = some (c, t) ∧ sealed = c ++ t

namespace Aead

variable {tagLen : Nat} (A : Aead tagLen) {key nonce aad p c t sealed : List UInt8}

theorem open_seal (h : A.sealDetached key nonce aad p = some (c, t)) : A.openSealed key nonce aad (c ++ t) = some p :=
  A.open_iff.mpr ⟨c, t, h, rfl⟩

theorem open_length (h : A.openSealed key nonce aad sealed = some p) : sealed.length = p.length + tagLen := by
  obtain ⟨c, t, hs, rfl⟩ := A.open_iff.mp h
  obtain ⟨hc, ht⟩ := A.sealed_length hs
  simp [hc, ht]

/-- What the buffer holds after a successful decryption in place. -/
def openInPlace (key nonce aad inOut : List UInt8) : Option (List UInt8) :=
  (A.openSealed key nonce aad inOut).map fun p => p ++ inOut.drop p.length

theorem openInPlace_some {buffer : List UInt8} (h : A.openInPlace key nonce aad sealed = some buffer) :
    ∃ p, A.openSealed key nonce aad sealed = some p ∧ buffer.length = p.length + tagLen ∧
      buffer.take p.length = p := by
  unfold openInPlace at h
  cases ho : A.openSealed key nonce aad sealed with
  | none => rw [ho] at h; cases h
  | some p =>
    rw [ho] at h
    cases h
    have := A.open_length ho
    exact ⟨p, rfl, by simp; omega, by simp⟩

theorem openInPlace_of_open (h : A.openSealed key nonce aad sealed = some p) :
    ∃ buffer, A.openInPlace key nonce aad sealed = some buffer ∧ buffer.length = p.length + tagLen ∧
      buffer.take p.length = p := by
  have := A.open_length h
  exact ⟨p ++ sealed.drop p.length, by simp [openInPlace, h], by simp; omega, by simp⟩

end Aead

/-! ## A small instance -/

def digest (bytes : List UInt8) : UInt8 := bytes.foldl (fun d b => d * 31 + b) 7

def checksumTag (key nonce aad p : List UInt8) : List UInt8 :=
  (List.range 16).map fun i => key.getD i 0 + digest (nonce ++ aad ++ p)

def checksum : Aead 16 where
  sealDetached key nonce aad p := some (p, checksumTag key nonce aad p)
  openSealed key nonce aad sealed :=
    let p := sealed.take (sealed.length - 16)
    if sealed = p ++ checksumTag key nonce aad p then some p else none
  sealed_length h := by cases h; simp [checksumTag]
  open_iff := by
    intro key nonce aad sealed p
    simp only [Option.some.injEq, Prod.mk.injEq]
    constructor
    · intro h
      split at h
      · rename_i hs; cases h; exact ⟨_, _, ⟨rfl, rfl⟩, hs⟩
      · cases h
    · intro hexists
      obtain ⟨c, t, ⟨rfl, rfl⟩, rfl⟩ := hexists
      have : (p ++ checksumTag key nonce aad p).take ((p ++ checksumTag key nonce aad p).length - 16) = p := by
        simp [checksumTag]
      rw [if_pos (by rw [this]), this]

end ParquetKeyManagement
