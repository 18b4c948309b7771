/-
  ParquetKeyManagement.Keys.Encryption — encryption of data encryption keys (DEKs) with key
  encryption keys (`key_encryption.rs`).

  The wrapped DEK is the base64 text of a 12-byte nonce, the ciphertext and a 16-byte tag;
  the KEK id is the associated data. `decryptEncryptionKey` takes the nonce off the front
  with a slice and drops the tag with a length subtraction, and both panic when the lengths
  do not fit. What it accepts is exactly what `encryptEncryptionKey` can give
  (`decrypt_iff_encrypt`).
-/

import ParquetKeyManagement.Kms.World

namespace ParquetKeyManagement

open Effect

variable (env : Env)

/-- `UnboundKey::new` of AES-128-GCM: the key has 16 bytes. -/
def aesKey (kekBytes : Bytes) : Except ParquetError Bytes :=
  if kekBytes.length = 16 then .ok kekBytes
  else .error (.general "Error creating AES key from key encryption key bytes: ring::error::Unspecified")

def encryptEncryptionKey (dek kekId kekBytes : Bytes) : Call String := do
  let kek ← Eff.ofExcept (aesKey kekBytes)
  let nonce ← fill env nonceLen
  match env.aes128Gcm.sealDetached kek nonce kekId dek with
  | none => Eff.fail (.external "ring::error::Unspecified")
  | some (ciphertext, tag) => pure (Base64.encode (nonce ++ ciphertext ++ tag))

def decryptEncryptionKey (wrappedKey : String) (kekId kekBytes : Bytes) : Outcome ParquetError Bytes :=
  match Base64.decode wrappedKey with
  | none => .err (.general s!"Could not base64 decode data encryption key: {env.showBase64Error wrappedKey}")
  | some encryptedKey =>
    match aesKey kekBytes with
    | .error e => .err e
    | .ok kek =>
      -- `&encrypted_key[..NONCE_LEN]`
      if encryptedKey.length < nonceLen then .panic
      else
        match env.aes128Gcm.openInPlace kek (encryptedKey.take nonceLen) kekId (encryptedKey.drop nonceLen) with
        | none => .err (.external "ring::error::Unspecified")
        | some plaintext =>
          -- `plaintext.len() - algorithm.tag_len()`
          if plaintext.length < tagLen then .panic
          else .ok (plaintext.take (plaintext.length - tagLen))

/-! ## What decryption does -/

theorem aesKey_ok {kekBytes kek : Bytes} (h : aesKey kekBytes = .ok kek) : kekBytes.length = 16 ∧ kek = kekBytes := by
  unfold aesKey at h
  split at h
  · cases h; exact ⟨‹_›, rfl⟩
  · cases h

theorem aesKey_of_length {kekBytes : Bytes} (h : kekBytes.length = 16) : aesKey kekBytes = .ok kekBytes := by
  simp [aesKey, h]

/-- Decryption panics exactly on a text too short for a nonce, under a key of the right
    length. -/
theorem decryptEncryptionKey_panic_iff (wrappedKey : String) (kekId kekBytes : Bytes) :
    decryptEncryptionKey env wrappedKey kekId kekBytes = .panic ↔
      kekBytes.length = 16 ∧ ∃ encryptedKey, Base64.decode wrappedKey = some encryptedKey ∧
        encryptedKey.length < nonceLen := by
  unfold decryptEncryptionKey
  cases hd : Base64.decode wrappedKey with
  | none => simp
  | some encryptedKey =>
    by_cases hk : kekBytes.length = 16
    · simp only [aesKey_of_length hk, hk, true_and, Option.some.injEq, exists_eq_left']
      by_cases hl : encryptedKey.length < nonceLen
      · simp [hl]
      · simp only [hl, if_false, iff_false]
        cases ho : env.aes128Gcm.openInPlace kekBytes (encryptedKey.take nonceLen) kekId
          (encryptedKey.drop nonceLen) with
        | none => simp
        | some plaintext =>
          -- what opens carries a tag, so the subtraction never underflows
          obtain ⟨p, _, hlen, _⟩ := env.aes128Gcm.openInPlace_some ho
          have : ¬ plaintext.length < tagLen := by omega
          simp [this]
    · simp [aesKey, hk]

/-- Decryption undoes encryption under the same KEK and KEK id, whatever nonce was drawn. -/
theorem decrypt_of_seal {dek kekId kek nonce ciphertext tag : Bytes} (hkek : kek.length = 16)
    (hn : nonce.length = nonceLen) (hs : env.aes128Gcm.sealDetached kek nonce kekId dek = some (ciphertext, tag)) :
    decryptEncryptionKey env (Base64.encode (nonce ++ ciphertext ++ tag)) kekId kek = .ok dek := by
  obtain ⟨buffer, ho, hlen, htake⟩ := env.aes128Gcm.openInPlace_of_open (env.aes128Gcm.open_seal hs)
  have h1 : (nonce ++ ciphertext ++ tag).take nonceLen = nonce := by
    rw [List.append_assoc, List.take_left' hn]
  have h2 : (nonce ++ ciphertext ++ tag).drop nonceLen = ciphertext ++ tag := by
    rw [List.append_assoc, List.drop_left' hn]
  have h3 : ¬ (nonce ++ ciphertext ++ tag).length < nonceLen := by simp [hn]
  have h4 : ¬ buffer.length < tagLen := by omega
  have h5 : buffer.length - tagLen = dek.length := by omega
  simp only [decryptEncryptionKey, Base64.decode_encode, aesKey_of_length hkek, if_neg h3, h1, h2, ho, if_neg h4, h5,
    htake]

/-- A KEK of the wrong length, or a text that is not base64, is an error. -/
theorem decryptEncryptionKey_ok {wrappedKey : String} {kekId kekBytes dek : Bytes}
    (h : decryptEncryptionKey env wrappedKey kekId kekBytes = .ok dek) : kekBytes.length = 16 := by
  unfold decryptEncryptionKey at h
  split at h
  · cases h
  · split at h
    · cases h
    · exact (aesKey_ok ‹_›).1

/-- What encryption leaves: a sealed text under the drawn nonce. -/
theorem encryptEncryptionKey_ok {dek kekId kekBytes : Bytes} {w w' : World} {wrapped : String}
    (h : encryptEncryptionKey env dek kekId kekBytes w = (.ok wrapped, w')) :
    kekBytes.length = 16 ∧ ∃ nonce ciphertext tag, nonce.length = nonceLen ∧
      env.aes128Gcm.sealDetached kekBytes nonce kekId dek = some (ciphertext, tag) ∧
      wrapped = Base64.encode (nonce ++ ciphertext ++ tag) := by
  obtain ⟨kek, w1, h1, hrest⟩ := bind_eq_ok h
  obtain ⟨hlen, rfl⟩ := aesKey_ok (ofExcept_eq_ok h1).1
  obtain ⟨nonce, w2, h2, hsealed⟩ := bind_eq_ok hrest
  have hn : nonce.length = nonceLen := by
    unfold fill at h2
    split at h2
    · rename_i bytes _; cases h2; exact bytes.2
    · cases h2
  cases hs : env.aes128Gcm.sealDetached kek nonce kekId dek with
  | none => simp only [hs] at hsealed; cases hsealed
  | some sealed =>
    simp only [hs] at hsealed
    cases hsealed
    exact ⟨hlen, nonce, sealed.1, sealed.2, hn, hs, rfl⟩

/-! ## Both directions -/

/-- The surroundings with the next nonce chosen. -/
def Env.drawing (nonce : { bytes : Bytes // bytes.length = nonceLen }) : Env :=
  { env with fill := fun i len => if h : len = nonceLen then some ⟨nonce.1, by rw [nonce.2, h]⟩ else env.fill i len }

theorem fill_drawing (nonce : { bytes : Bytes // bytes.length = nonceLen }) (w : World) :
    fill (env.drawing nonce) nonceLen w = (.ok nonce.1, w.tick 0) := by
  simp [fill, Env.drawing]

/-- With a nonce drawn, encryption gives the encoding of the nonce, the ciphertext and the tag. -/
theorem encryptEncryptionKey_drawing {nonce : { bytes : Bytes // bytes.length = nonceLen }}
    {dek kekId kekBytes ciphertext tag : Bytes} (hkek : kekBytes.length = 16)
    (hs : env.aes128Gcm.sealDetached kekBytes nonce.1 kekId dek = some (ciphertext, tag)) (w : World) :
    (encryptEncryptionKey (env.drawing nonce) dek kekId kekBytes w).1 =
      .ok (Base64.encode (nonce.1 ++ ciphertext ++ tag)) := by
  have hs' : (env.drawing nonce).aes128Gcm.sealDetached kekBytes nonce.1 kekId dek = some (ciphertext, tag) := hs
  unfold encryptEncryptionKey
  rw [aesKey_of_length hkek, bind_ok (ofExcept_ok ..), bind_ok (fill_drawing env nonce w), hs']
  rfl

/-- What is accepted is the encoding of a nonce, a ciphertext and its tag. -/
theorem decryptEncryptionKey_sealed {wrappedKey : String} {kekId kekBytes dek : Bytes}
    (h : decryptEncryptionKey env wrappedKey kekId kekBytes = .ok dek) :
    ∃ nonce ciphertext tag, nonce.length = nonceLen ∧
      env.aes128Gcm.sealDetached kekBytes nonce kekId dek = some (ciphertext, tag) ∧
      wrappedKey = Base64.encode (nonce ++ ciphertext ++ tag) := by
  have hkek := decryptEncryptionKey_ok env h
  unfold decryptEncryptionKey at h
  cases hd : Base64.decode wrappedKey with
  | none => rw [hd] at h; cases h
  | some encryptedKey =>
    simp only [hd, aesKey_of_length hkek] at h
    split at h
    · cases h
    · rename_i hlong
      cases ho : env.aes128Gcm.openInPlace kekBytes (encryptedKey.take nonceLen) kekId (encryptedKey.drop nonceLen) with
      | none => rw [ho] at h; cases h
      | some plaintext =>
        obtain ⟨p, hopen, hlen, htake⟩ := env.aes128Gcm.openInPlace_some ho
        -- the tag is what the truncation cuts off
        have hshort : ¬ plaintext.length < tagLen := by omega
        have hcut : plaintext.length - tagLen = p.length := by omega
        simp only [ho, if_neg hshort, hcut, htake] at h
        cases h
        obtain ⟨ciphertext, tag, hs, hbody⟩ := env.aes128Gcm.open_iff.mp hopen
        have hnonce : (encryptedKey.take nonceLen).length = nonceLen := by rw [List.length_take]; omega
        refine ⟨encryptedKey.take nonceLen, ciphertext, tag, hnonce, hs, ?_⟩
        rw [List.append_assoc, ← hbody, List.take_append_drop]
        exact Base64.decode_eq_some_iff.mp hd

/-- Decryption accepts exactly what encryption gives under the same KEK and KEK id for some nonce, and answers the key
    that was encrypted. -/
theorem decrypt_iff_encrypt (wrappedKey : String) (kekId kekBytes dek : Bytes) (w : World) :
    (decryptEncryptionKey env wrappedKey kekId kekBytes = .ok dek ↔
      kekBytes.length = 16 ∧ ∃ nonce : { bytes : Bytes // bytes.length = nonceLen },
        (encryptEncryptionKey (env.drawing nonce) dek kekId kekBytes w).1 = .ok wrappedKey) ∧
    ((encryptEncryptionKey env dek kekId kekBytes w).1 = .ok wrappedKey →
      decryptEncryptionKey env wrappedKey kekId kekBytes = .ok dek) := by
  refine ⟨⟨fun h => ?_, fun h => ?_⟩, fun h => ?_⟩
  · have hkek := decryptEncryptionKey_ok env h
    obtain ⟨nonce, ciphertext, tag, hn, hs, rfl⟩ := decryptEncryptionKey_sealed env h
    exact ⟨hkek, ⟨nonce, hn⟩, encryptEncryptionKey_drawing env hkek hs w⟩
  · obtain ⟨_, nonce, he⟩ := h
    obtain ⟨hkek, nonce', ciphertext, tag, hn, hs, rfl⟩ := encryptEncryptionKey_ok (env.drawing nonce) (Prod.ext he rfl)
    exact decrypt_of_seal env hkek hn hs
  · obtain ⟨hkek, nonce, ciphertext, tag, hn, hs, rfl⟩ := encryptEncryptionKey_ok env (Prod.ext h rfl)
    exact decrypt_of_seal env hkek hn hs

theorem decrypt_iff_encrypt_sample :
    decryptEncryptionKey Env.sample
      (Base64.encode (counter 0 nonceLen ++ [1] ++ checksumTag (counter 5 16) (counter 0 nonceLen) [2] [1])) [2]
      (counter 5 16) = .ok [1] :=
  (decrypt_iff_encrypt Env.sample _ [2] (counter 5 16) [1] (World.init (fun _ => "") 0)).2
    (by rfl)

end ParquetKeyManagement
