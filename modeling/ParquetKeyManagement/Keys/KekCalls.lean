/-
  ParquetKeyManagement.Keys.KekCalls — what the KMS is asked for while a key is wrapped.

  A new KEK is wrapped by the KMS at the end of its making (`Generation`), and the key material
  names it (`Names`).
  - `KeyWrapper.generate_cases`: the KMS wrapped one key and no more, or none.
  - `KeyWrapper.sealDek_frame`: it is not asked for anything when a data key is encrypted.
-/

import ParquetKeyManagement.Keys.Retrieval
import ParquetKeyManagement.Keys.WriterMoves

namespace ParquetKeyManagement

open Effect

variable (env : Env)

/-! ## What the KMS served -/

def KmsEvent.wraps : KmsEvent → Bool
  | .wrapKey _ _ _ (.ok _) => true
  | _ => false

def KmsEvent.unwraps : KmsEvent → Bool
  | .unwrapKey _ _ _ (.ok _) => true
  | _ => false

/-- The master key that a key was wrapped with. -/
def KmsEvent.wrappedFor : KmsEvent → Option String
  | .wrapKey _ _ masterKeyIdentifier (.ok _) => some masterKeyIdentifier
  | _ => none

section

variable {w w' : World}

theorem KmsEvent.served_of_unwraps {e : KmsEvent} (h : e.unwraps = true) : e.served = true := by
  unfold unwraps at h
  split at h
  · rfl
  · cases h

theorem KmsEvent.wrappedFor_of_not_served {e : KmsEvent} (h : e.served = false) : e.wrappedFor = none := by
  unfold wrappedFor
  split
  · cases h
  · rfl

theorem RegistryOnly.countP_eq (h : RegistryOnly w w') {p : KmsEvent → Bool} (hp : ∀ e, p e = true → e.served = true) :
    w'.log.countP p = w.log.countP p := by
  obtain ⟨es, hlog, hserved⟩ := h.log
  have hzero : es.countP p = 0 := List.countP_eq_zero.mpr fun e he hpe => by
    have := hp e hpe
    rw [hserved e he] at this
    cases this
  rw [hlog, List.countP_append, hzero, Nat.add_zero]

theorem fill_frame (len : Nat) (w : World) :
    Along RegistryOnly (fill env len) w (fun _ _ => True) (fun _ _ => True) (fun _ => False) := by
  have path := Relation.ReflTransGen.single (RegistryOnly.tick w 0)
  cases hr : env.fill w.calls len with
  | some bytes => exact Along.of_ok (a := bytes.1) (by simp only [fill, hr]) path trivial
  | none => exact Along.of_err (e := .external "ring::error::Unspecified") (by simp only [fill, hr]) path trivial

end

/-! ## Wrapping -/

namespace KeyWrapper

/-- What follows once the KEK is there: the DEK is encrypted with it. -/
def sealDek (key : Bytes) (masterKeyId : String) (b : KeyMaterialBuilder) (kek : KeyEncryptionKey) :
    Call KeyMaterial := do
  let wrappedDek ← encryptEncryptionKey env key kek.keyId kek.key
  Eff.ofExcept (b.withDoubleWrappedKey masterKeyId kek.encodedKeyId kek.wrappedKey wrappedDek).build

/-- How generating a KEK can end. -/
inductive Generation (masterKeyId : String) (w : World) : Outcome ParquetError KeyEncryptionKey × World → Prop
  | wrapped (client : KmsClient) (kek : KeyEncryptionKey) (w1 w2 : World) : RegistryOnly w w1 →
    kek.encodedKeyId = Base64.encode kek.keyId → wrapKey env client kek.key masterKeyId w1 = (.ok kek.wrappedKey, w2) →
    w2 = w1.record (.wrapKey client kek.key masterKeyId (.ok kek.wrappedKey)) →
    Generation masterKeyId w (.ok kek, w2)
  | failed (r : Outcome ParquetError KeyEncryptionKey) (w1 : World) : r.isOk = false → RegistryOnly w w1 →
    Generation masterKeyId w (r, w1)

theorem generate_cases (masterKeyId : String) (kmsManager : ManagerId) (config : KmsConnectionConfig)
    (lifetime : Option Duration) (w : World) :
    Generation env masterKeyId w (generateKeyEncryptionKey env masterKeyId kmsManager config lifetime w) := by
  unfold generateKeyEncryptionKey
  have hkey := RegistryOnly.of_along (fill_frame env kekLen w)
  rcases h1 : fill env kekLen w with ⟨key | e | _, w1⟩ <;> rw [h1] at hkey
  · rw [bind_ok h1]
    have hkeyId := hkey.trans (.of_along (fill_frame env kekLen w1))
    rcases h2 : fill env kekLen w1 with ⟨keyId | e | _, w2⟩ <;> rw [h2] at hkeyId
    · rw [bind_ok h2]
      have hclient := hkeyId.trans (.of_along (KmsManager.getClient_frame env kmsManager config lifetime w2))
      rcases h3 : KmsManager.getClient env kmsManager config lifetime w2 with
        ⟨client | e | _, w3⟩ <;> rw [h3] at hclient
      · rw [bind_ok h3]
        rcases wrapKey_cases env client key masterKeyId w3 with ⟨wrapped, h4⟩ | ⟨e, he, hframe⟩
        · rw [bind_ok h4]
          exact .wrapped client _ w3 _ hclient rfl h4 rfl
        · rw [bind_err (Prod.ext he rfl)]
          exact .failed _ _ rfl (hclient.trans hframe)
      · rw [bind_err h3]
        exact .failed _ _ rfl hclient
      · rw [bind_panic h3]
        exact .failed _ _ rfl hclient
    · rw [bind_err h2]
      exact .failed _ _ rfl hkeyId
    · rw [bind_panic h2]
      exact .failed _ _ rfl hkeyId
  · rw [bind_err h1]
    exact .failed _ _ rfl hkey
  · rw [bind_panic h1]
    exact .failed _ _ rfl hkey

/-- Encrypting a DEK draws a nonce and writes nothing. -/
theorem encrypt_frame (key kekId kekBytes : Bytes) (w : World) :
    Along RegistryOnly (encryptEncryptionKey env key kekId kekBytes) w (fun _ _ => True) (fun _ _ => True)
      (fun _ => False) := by
  unfold encryptEncryptionKey
  refine Along.bind (Along.ofExcept (p := fun _ _ => True) (fun _ _ => trivial) fun _ _ => trivial) fun aes w1 _ _ => ?_
  refine (fill_frame env nonceLen w1).bind fun nonce w2 _ _ => ?_
  cases env.aes128Gcm.sealDetached aes nonce kekId key with
  | none => exact Along.fail trivial
  | some r => exact Along.pure trivial

theorem sealDek_frame (key : Bytes) (masterKeyId : String) (b : KeyMaterialBuilder)
    (kek : KeyEncryptionKey) (w : World) :
    RegistryOnly w (sealDek env key masterKeyId b kek w).2 :=
  .of_along ((encrypt_frame env key kek.keyId kek.key w).bind fun _ _ _ _ =>
    Along.ofExcept (p := fun _ _ => True) (fun _ _ => trivial) fun _ _ => trivial)

theorem writeCaches_poison (a : KekWriteCache) (w : World) :
    ((poison (writeCachePlace a) w).writeCaches a).data = (w.writeCaches a).data := by
  have h := congrArg Mutex.data (Place.get_modify (writeCachePlace a) (fun c => { c with poisoned := true }) w)
  exact h

/-- What a material says of the KEK it was made with. -/
structure Names (masterKeyId : String) (kek : KeyEncryptionKey) (m : KeyMaterial) : Prop where
  keyMaterialType : m.keyMaterialType = "PKMT1"
  masterKeyId : m.masterKeyId = masterKeyId
  keyEncryptionKeyId : m.keyEncryptionKeyId = some kek.encodedKeyId
  wrappedKek : m.wrappedKek = some kek.wrappedKey

variable {env : Env} {key : Bytes} {masterKeyId : String}

/-- The material says which KEK the data key was encrypted with. -/
theorem names_of_build {b : KeyMaterialBuilder} {kek : KeyEncryptionKey} {wrappedDek : String} {m : KeyMaterial}
    (h : (b.withDoubleWrappedKey masterKeyId kek.encodedKeyId kek.wrappedKey wrappedDek).build = .ok m) :
    Names masterKeyId kek m := by
  have hm := KeyMaterialBuilder.build_ok h
  exact ⟨hm.keyMaterialType, Option.some.inj hm.masterKeyId, hm.keyEncryptionKeyId, hm.wrappedKek⟩

end KeyWrapper

end ParquetKeyManagement
