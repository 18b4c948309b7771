/-
  ParquetKeyManagement.Kms.TestKms — the KMS the library ships for tests (`test_kms/mod.rs`).

  A factory keeps the master keys and the details of every client it was asked for, and its
  clients count what they wrap and unwrap in counters they share with it. A wrapped key is the
  base64 text of a nonce, the ciphertext and its tag, with the master key's identifier as the
  associated data; a text that decodes to less than a nonce makes a client panic.
  - `wrapKey_ok_iff`: when a client wraps a key, and what it answers.
  - `unwrapKey_wrapKey`: what one client wrapped, every client unwraps.
-/

import ParquetKeyManagement.Keys.Encryption
import ParquetKeyManagement.Keys.Material

namespace ParquetKeyManagement

open Effect

structure TestKmsClientFactory where
  keyMap : HashMap String Bytes
  invocations : List KmsConnectionConfigDetails
  keysWrapped : Nat
  keysUnwrapped : Nat

/-- A client's counters are its factory's. -/
structure TestKmsClient where
  keyMap : HashMap String Bytes

/-- A call of the factory or of a client. -/
abbrev TestCall (α : Type) : Type := Eff TestKmsClientFactory ParquetError α

namespace TestKmsClientFactory

/-- The default keys conventionally used in tests. -/
def withDefaultKeys : TestKmsClientFactory where
  keyMap := (((∅ : HashMap String Bytes).insert "kf" (intoBytes "0123456789012345")).insert "kc1"
    (intoBytes "1234567890123450")).insert "kc2" (intoBytes "1234567890123451")
  invocations := []
  keysWrapped := 0
  keysUnwrapped := 0

def createClient (kmsConnectionConfig : KmsConnectionConfigDetails) : TestCall TestKmsClient := do
  Eff.modify fun f => { f with invocations := f.invocations ++ [kmsConnectionConfig] }
  Eff.read fun f => ⟨f.keyMap⟩

def countWrapped (f : TestKmsClientFactory) : TestKmsClientFactory := { f with keysWrapped := f.keysWrapped + 1 }

def countUnwrapped (f : TestKmsClientFactory) : TestKmsClientFactory := { f with keysUnwrapped := f.keysUnwrapped + 1 }

end TestKmsClientFactory

namespace TestKmsClient

variable (env : Env) (k : TestKmsClient)

def getKey (masterKeyIdentifier : String) : Except ParquetError Bytes :=
  match k.keyMap.lookup masterKeyIdentifier with
  | none => .error (.general s!"Invalid master key '{masterKeyIdentifier}'")
  | some key =>
    if key.length = 16 then .ok key
    else .error (.general "Error creating AES key 'ring::error::Unspecified'")

/-- The nonce is drawn by use `i` of the generator. -/
def wrapKey (i : Nat) (keyBytes : Bytes) (masterKeyIdentifier : String) : TestCall String := do
  let key ← Eff.ofExcept (k.getKey masterKeyIdentifier)
  match env.fill i nonceLen with
  | none => Eff.fail (.external "ring::error::Unspecified")
  | some nonce =>
    match env.aes128Gcm.sealDetached key nonce.1 (intoBytes masterKeyIdentifier) keyBytes with
    | none => Eff.fail (.external "ring::error::Unspecified")
    | some (ciphertext, tag) => do
      Eff.modify TestKmsClientFactory.countWrapped
      pure (Base64.encode (nonce.1 ++ ciphertext ++ tag))

def unwrapKey (wrappedKey masterKeyIdentifier : String) : TestCall Bytes := do
  let key ← Eff.ofExcept (k.getKey masterKeyIdentifier)
  match Base64.decode wrappedKey with
  | none => Eff.fail (.general s!"Error base64 decoding wrapped key: {env.showBase64Error wrappedKey}")
  | some wrapped =>
    -- `&wrapped_key[..NONCE_LEN]`
    if wrapped.length < nonceLen then Eff.panic
    else
      match env.aes128Gcm.openInPlace key (wrapped.take nonceLen) (intoBytes masterKeyIdentifier)
        (wrapped.drop nonceLen) with
      | none => Eff.fail (.external "ring::error::Unspecified")
      | some plaintext =>
        -- `plaintext.len() - tag_len`
        if plaintext.length < tagLen then Eff.panic
        else do
          Eff.modify TestKmsClientFactory.countUnwrapped
          pure (plaintext.take (plaintext.length - tagLen))

/-! ## When the calls succeed -/

section

variable {env} {k} {f f' : TestKmsClientFactory} {masterKeyIdentifier wrappedKey : String}
  {key keyBytes : Bytes} {i : Nat}

theorem getKey_ok (h : k.getKey masterKeyIdentifier = .ok key) : key.length = 16 := by
  unfold getKey at h
  split at h
  · cases h
  · split at h
    · cases h; assumption
    · cases h

/-- A call answers the same whatever was counted before, and counts what it wraps. -/
theorem wrapKey_cases (env : Env) (k : TestKmsClient) (i : Nat) (keyBytes : Bytes) (masterKeyIdentifier : String) :
    (∃ wrappedKey, ∀ f, k.wrapKey env i keyBytes masterKeyIdentifier f = (.ok wrappedKey, f.countWrapped)) ∨
      ∃ e, ∀ f, k.wrapKey env i keyBytes masterKeyIdentifier f = (.err e, f) := by
  unfold wrapKey
  cases k.getKey masterKeyIdentifier with
  | error e => exact Or.inr ⟨e, fun f => rfl⟩
  | ok key =>
    cases hfill : env.fill i nonceLen with
    | none => exact Or.inr ⟨_, fun f => rfl⟩
    | some nonce =>
      cases hs : env.aes128Gcm.sealDetached key nonce.1 (intoBytes masterKeyIdentifier) keyBytes with
      | none => exact Or.inr ⟨.external "ring::error::Unspecified", fun f => by simp [bind_run, hs]⟩
      | some sealed =>
        exact Or.inl ⟨Base64.encode (nonce.1 ++ sealed.1 ++ sealed.2), fun f => by simp [bind_run, hs]⟩

theorem wrapKey_ok_iff :
    (k.wrapKey env i keyBytes masterKeyIdentifier f).1 = .ok wrappedKey ↔
      ∃ key nonce ciphertext tag, k.getKey masterKeyIdentifier = .ok key ∧ env.fill i nonceLen = some nonce ∧
        env.aes128Gcm.sealDetached key nonce.1 (intoBytes masterKeyIdentifier) keyBytes = some (ciphertext, tag) ∧
        wrappedKey = Base64.encode (nonce.1 ++ ciphertext ++ tag) := by
  constructor
  · intro h
    obtain ⟨f', hrun⟩ : ∃ f', k.wrapKey env i keyBytes masterKeyIdentifier f =
        (.ok wrappedKey, f') := ⟨_, Prod.ext h rfl⟩
    obtain ⟨key, f1, hkey, hrest⟩ := bind_eq_ok hrun
    obtain ⟨hget, rfl⟩ := ofExcept_eq_ok hkey
    cases hfill : env.fill i nonceLen with
    | none => simp [hfill] at hrest
    | some nonce =>
      cases hs : env.aes128Gcm.sealDetached key nonce.1 (intoBytes masterKeyIdentifier) keyBytes with
      | none => simp [hfill, hs] at hrest
      | some sealed =>
        simp only [hfill, hs, bind_run, modify_run, pure_run, Prod.mk.injEq, Outcome.ok.injEq] at hrest
        exact ⟨key, nonce, sealed.1, sealed.2, hget, rfl, hs, hrest.1.symm⟩
  · intro h
    obtain ⟨key, nonce, ciphertext, tag, hkey, hfill, hs, rfl⟩ := h
    simp [wrapKey, bind_run, hkey, hfill, hs]

/-- Unwrapping decrypts as `decryptEncryptionKey` does, and the master key's identifier stands
    for the KEK's id. -/
inductive Unwraps (env : Env) (k : TestKmsClient) (wrappedKey masterKeyIdentifier : String) (key : Bytes) : Prop
  | ok (keyBytes : Bytes) : decryptEncryptionKey env wrappedKey (intoBytes masterKeyIdentifier) key = .ok keyBytes →
    (∀ f, k.unwrapKey env wrappedKey masterKeyIdentifier f = (.ok keyBytes, f.countUnwrapped)) →
    Unwraps env k wrappedKey masterKeyIdentifier key
  | err (e : ParquetError) : (∃ e', decryptEncryptionKey env wrappedKey (intoBytes masterKeyIdentifier) key = .err e') →
    (∀ f, k.unwrapKey env wrappedKey masterKeyIdentifier f = (.err e, f)) →
    Unwraps env k wrappedKey masterKeyIdentifier key
  | panic : decryptEncryptionKey env wrappedKey (intoBytes masterKeyIdentifier) key = .panic →
    (∀ f, k.unwrapKey env wrappedKey masterKeyIdentifier f = (.panic, f)) →
    Unwraps env k wrappedKey masterKeyIdentifier key

theorem unwrapKey_cases (hkey : k.getKey masterKeyIdentifier = .ok key) :
    Unwraps env k wrappedKey masterKeyIdentifier key := by
  have haes := aesKey_of_length (getKey_ok hkey)
  cases hd : Base64.decode wrappedKey with
  | none =>
    exact .err (.general s!"Error base64 decoding wrapped key: {env.showBase64Error wrappedKey}")
      ⟨.general s!"Could not base64 decode data encryption key: {env.showBase64Error wrappedKey}",
        by simp only [decryptEncryptionKey, hd]⟩ fun f => by simp [unwrapKey, bind_run, hkey, hd]
  | some wrapped =>
    by_cases hl : wrapped.length < nonceLen
    · exact .panic (by simp [decryptEncryptionKey, hd, haes, hl]) fun f => by simp [unwrapKey, bind_run, hkey, hd, hl]
    · cases ho : env.aes128Gcm.openInPlace key (wrapped.take nonceLen) (intoBytes masterKeyIdentifier)
        (wrapped.drop nonceLen) with
      | none =>
        exact .err (.external "ring::error::Unspecified")
          ⟨.external "ring::error::Unspecified", by simp only [decryptEncryptionKey, hd, haes, hl, ho, if_false]⟩
            fun f => by simp [unwrapKey, bind_run, hkey, hd, hl, ho]
      | some plaintext =>
        by_cases hp : plaintext.length < tagLen
        · exact .panic (by simp [decryptEncryptionKey, hd, haes, hl, ho, hp])
            fun f => by simp [unwrapKey, bind_run, hkey, hd, hl, ho, hp]
        · exact .ok (plaintext.take (plaintext.length - tagLen)) (by simp [decryptEncryptionKey, hd, haes, hl, ho, hp])
            fun f => by simp [unwrapKey, bind_run, hkey, hd, hl, ho, hp]

/-- An answer does not depend on what was counted before. -/
theorem unwrapKey_ok (h : (k.unwrapKey env wrappedKey masterKeyIdentifier f).1 = .ok keyBytes)
    (f' : TestKmsClientFactory) :
    k.unwrapKey env wrappedKey masterKeyIdentifier f' = (.ok keyBytes, f'.countUnwrapped) := by
  cases hkey : k.getKey masterKeyIdentifier with
  | error e => simp [unwrapKey, bind_run, hkey] at h
  | ok key =>
    have hcases : Unwraps env k wrappedKey masterKeyIdentifier key := unwrapKey_cases hkey
    cases hcases with
    | ok keyBytes' _ hrun =>
      rw [hrun f] at h
      cases h
      exact hrun f'
    | err e _ hrun => rw [hrun f] at h; cases h
    | panic _ hrun => rw [hrun f] at h; cases h

/-- A key that a client wrapped, every client with its master key unwraps, and counts. -/
theorem unwrapKey_wrapKey (h : (k.wrapKey env i keyBytes masterKeyIdentifier f).1 = .ok wrappedKey)
    (f' : TestKmsClientFactory) : k.unwrapKey env wrappedKey masterKeyIdentifier f' =
    (.ok keyBytes, f'.countUnwrapped) := by
  obtain ⟨key, nonce, ciphertext, tag, hkey, _, hs, rfl⟩ := wrapKey_ok_iff.mp h
  have hdec := decrypt_of_seal env (getKey_ok hkey) nonce.2 hs
  have hcases : Unwraps env k (Base64.encode (nonce.1 ++ ciphertext ++ tag)) masterKeyIdentifier key :=
    unwrapKey_cases hkey
  cases hcases with
  | ok keyBytes' hok hrun =>
    rw [hdec] at hok
    cases hok
    exact hrun f'
  | err e herr _ =>
    obtain ⟨e', herr⟩ := herr
    rw [hdec] at herr
    cases herr
  | panic hpanic _ => rw [hdec] at hpanic; cases hpanic

end

end TestKmsClient

end ParquetKeyManagement
