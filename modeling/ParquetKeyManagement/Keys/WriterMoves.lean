/-
  ParquetKeyManagement.Keys.WriterMoves — every write a key wrapper makes to the shared state.

  Besides the writes of the registry, a wrapper asks the KMS to wrap, and stores new KEKs in
  its write cache (`WriterMove`). Each write carries what is known when it happens. A write
  cache's mutex is poisoned only by a panic of the registry under it.
  - `getKeyMetadata_along`: key metadata reads back as material that `Describes` the key.
-/

import ParquetKeyManagement.Kms.Registry
import ParquetKeyManagement.Factory.CryptoFactory

namespace ParquetKeyManagement

open Effect

variable (env : Env)

/-! ## Facts about the KMS and the random number generator -/

theorem HeldClient.record {m : ManagerId} {config : KmsConnectionConfig} {client : KmsClient} {w : World}
    (h : HeldClient m config client w) (e : KmsEvent) : HeldClient m config client (w.record e) := by
  obtain ⟨v, hl, hv, hcurrent⟩ := h
  exact ⟨v, hl, hv, hcurrent.imp id fun hf => ⟨hf.1, hf.2.1, List.mem_append_left _ hf.2.2⟩⟩

/-- The KMS wrapped `keyBytes` for a client of the configuration. -/
def Wrapped (m : ManagerId) (config : KmsConnectionConfig) (keyBytes : Bytes) (masterKeyId wrapped : String)
    (w : World) : Prop :=
  ∃ client, HeldClient m config client w ∧ .wrapKey client keyBytes masterKeyId (.ok wrapped) ∈ w.log ∧
    ∃ i, env.wrapKey i client keyBytes masterKeyId = .ok wrapped

/-- The generator's answer to use `i` was `bytes`. -/
def Env.Drew (i : Nat) (bytes : Bytes) : Prop := ∃ h, env.fill i kekLen = some ⟨bytes, h⟩

theorem Env.Drew.length {i : Nat} {bytes : Bytes} (h : env.Drew i bytes) : bytes.length = kekLen := by
  obtain ⟨hl, _⟩ := h
  exact hl

theorem Env.Drew.eq {i : Nat} {b b' : Bytes} (h : env.Drew i b) (h' : env.Drew i b') : b = b' := by
  obtain ⟨_, h1⟩ := h
  obtain ⟨_, h2⟩ := h'
  rw [h1] at h2
  cases h2
  rfl

/-- A KEK and its id were drawn one after the other, by the uses before `n`. -/
def Drawn (key keyId : Bytes) (n : Nat) : Prop := ∃ i, i + 1 < n ∧ env.Drew i key ∧ env.Drew (i + 1) keyId

/-- What `generate_key_encryption_key` makes. -/
structure NewKek (m : ManagerId) (config : KmsConnectionConfig) (masterKeyId : String) (kek : KeyEncryptionKey)
    (w : World) : Prop where
  encoded : kek.encodedKeyId = Base64.encode kek.keyId
  drawn : Drawn env kek.key kek.keyId w.calls
  wrapped : Wrapped env m config kek.key masterKeyId kek.wrappedKey w

/-! ## Writing -/

namespace World

/-- Some mutex is poisoned. -/
def Poisoned (w : World) : Prop :=
  (∃ m, w.ManagerPoisoned m) ∨ (∃ a, (w.readCaches a).poisoned = true) ∨ ∃ a, (w.writeCaches a).poisoned = true

end World

/-- The writes that make a KEK, before it is stored. -/
inductive KekMove (k : KeyWrapper) : World → World → Prop
  | manager {w w' : World} :
    ManagerMove k.kmsManager k.kmsConnectionConfig k.encryptionConfiguration.cacheLifetime w w' → KekMove k w w'
  | wrap (w : World) (client : KmsClient) (keyBytes : Bytes) (masterKeyId : String) :
    HeldClient k.kmsManager k.kmsConnectionConfig client w →
    KekMove k w (w.record (.wrapKey client keyBytes masterKeyId (env.wrapKey w.calls client keyBytes masterKeyId)))

/-- A KEK is stored for a master key that has none. -/
inductive WriterMove (k : KeyWrapper) : World → World → Prop
  | manager {w w' : World} :
    ManagerMove k.kmsManager k.kmsConnectionConfig k.encryptionConfiguration.cacheLifetime w w' → WriterMove k w w'
  | wrap (w : World) (client : KmsClient) (keyBytes : Bytes) (masterKeyId : String) :
    HeldClient k.kmsManager k.kmsConnectionConfig client w →
    WriterMove k w (w.record (.wrapKey client keyBytes masterKeyId (env.wrapKey w.calls client keyBytes masterKeyId)))
  | storeKek (w : World) (masterKeyId : String) (kek : KeyEncryptionKey) :
    NewKek env k.kmsManager k.kmsConnectionConfig masterKeyId kek w → (k.keks.get w).lookup masterKeyId = none →
    WriterMove k w (k.keks.modify (fun m => m.insert masterKeyId kek) w)
  | poison (w : World) : w.ManagerPoisoned k.kmsManager → WriterMove k w (poison (writeCachePlace k.masterKeyToKek) w)

theorem KekMove.writer {env : Env} {k : KeyWrapper} {w w' : World} (h : KekMove env k w w') :
    WriterMove env k w w' := by
  cases h with
  | manager h => exact .manager h
  | wrap client keyBytes masterKeyId hc => exact .wrap w client keyBytes masterKeyId hc

/-- No entry is put into a write cache while a KEK is made. -/
theorem KekMove.writeKeks_lookup {env : Env} {k : KeyWrapper} {w w' : World} (h : KekMove env k w w')
    {a : KekWriteCache} {masterKeyId : String} (hnone : (w.writeCaches a).data.lookup masterKeyId = none) :
    (w'.writeCaches a).data.lookup masterKeyId = none := by
  cases h with
  | manager h =>
    cases hl : (w'.writeCaches a).data.lookup masterKeyId with
    | none => rfl
    | some kek =>
      rw [h.writeKeks_lookup hl] at hnone
      cases hnone
  | wrap client keyBytes _ _ => exact hnone

theorem WriterMove.grows {env : Env} {k : KeyWrapper} {w w' : World} (h : WriterMove env k w w') : w.Grows w' := by
  cases h with
  | manager h => exact h.grows
  | wrap client keyBytes masterKeyId _ => exact w.grows_record _
  | storeKek masterKeyId kek _ _ => exact { World.Grows.refl w with }
  | poison _ => exact { World.Grows.refl w with }

/-- What is in a write cache after a move was there before, or has just been made. -/
theorem WriterMove.writeKeks_lookup {env : Env} {k : KeyWrapper} {w w' : World} (h : WriterMove env k w w')
    {a : KekWriteCache} {masterKeyId : String} {kek : KeyEncryptionKey}
    (hl : (w'.writeCaches a).data.lookup masterKeyId = some kek) :
    (w.writeCaches a).data.lookup masterKeyId = some kek ∨
      (a = k.masterKeyToKek ∧ NewKek env k.kmsManager k.kmsConnectionConfig masterKeyId kek w) := by
  cases h with
  | manager h => exact Or.inl (h.writeKeks_lookup hl)
  | wrap client keyBytes _ _ => exact Or.inl hl
  | storeKek masterKeyId' kek' hnew _ =>
    change (Function.update w.writeCaches k.masterKeyToKek _ a).data.lookup masterKeyId = some kek at hl
    by_cases ha : a = k.masterKeyToKek
    · subst ha
      rw [Function.update_self] at hl
      change ((w.writeCaches k.masterKeyToKek).data.insert masterKeyId' kek').lookup masterKeyId = some kek at hl
      by_cases hk : masterKeyId = masterKeyId'
      · subst hk
        rw [AList.lookup_insert] at hl
        cases hl
        exact Or.inr ⟨rfl, hnew⟩
      · rw [AList.lookup_insert_ne hk] at hl; exact Or.inl hl
    · rw [Function.update_of_ne ha] at hl; exact Or.inl hl
  | poison _ =>
    change (Function.update w.writeCaches k.masterKeyToKek _ a).data.lookup masterKeyId = some kek at hl
    by_cases ha : a = k.masterKeyToKek
    · subst ha; rw [Function.update_self] at hl; exact Or.inl hl
    · rw [Function.update_of_ne ha] at hl; exact Or.inl hl

/-- A KEK that is in a write cache stays there. -/
theorem WriterMove.writeKeks_kept {env : Env} {k : KeyWrapper} {w w' : World} (h : WriterMove env k w w')
    {a : KekWriteCache} (ha : a < w.nextWriteCache) {masterKeyId : String} {kek : KeyEncryptionKey}
    (hl : (w.writeCaches a).data.lookup masterKeyId = some kek) :
    (w'.writeCaches a).data.lookup masterKeyId = some kek := by
  cases h with
  | manager h => rwa [h.writeKeks_kept ha]
  | wrap client keyBytes _ _ => exact hl
  | storeKek masterKeyId' kek' _ hnone =>
    show (Function.update w.writeCaches k.masterKeyToKek _ a).data.lookup masterKeyId = some kek
    by_cases hk : a = k.masterKeyToKek
    · subst hk
      have hne : masterKeyId ≠ masterKeyId' := by
        rintro rfl
        cases hl.symm.trans hnone
      rw [Function.update_self]
      exact (AList.lookup_insert_ne hne).trans hl
    · rwa [Function.update_of_ne hk]
  | poison _ =>
    show (Function.update w.writeCaches k.masterKeyToKek _ a).data.lookup masterKeyId = some kek
    by_cases hk : a = k.masterKeyToKek
    · subst hk
      rwa [Function.update_self]
    · rwa [Function.update_of_ne hk]

theorem WriterMove.readKeks_lookup {env : Env} {k : KeyWrapper} {w w' : World} (h : WriterMove env k w w')
    {a : KekReadCache} {kekId : String} {kek : Bytes} (hl : (w'.readCaches a).data.lookup kekId = some kek) :
    (w.readCaches a).data.lookup kekId = some kek := by
  cases h with
  | manager h => exact h.readKeks_lookup hl
  | wrap client keyBytes _ _ => exact hl
  | storeKek masterKeyId kek' _ _ => exact hl
  | poison _ => exact hl

namespace KeyWrapper

variable (k : KeyWrapper)

theorem getClient_along (w : World) :
    Along (KekMove env k)
      (KmsManager.getClient env k.kmsManager k.kmsConnectionConfig k.encryptionConfiguration.cacheLifetime) w
      (HeldClient k.kmsManager k.kmsConnectionConfig) (fun _ _ => True) (World.ManagerPoisoned · k.kmsManager) :=
  ((KmsManager.getClient_along env k.kmsManager k.kmsConnectionConfig _ (Nat.zero_le _)).lift
    fun _ _ h => .manager h).mono (fun _ _ h => h) (fun _ _ _ => trivial) fun _ h => h

theorem wrapKey_along {w : World} {client : KmsClient} (hc : HeldClient k.kmsManager k.kmsConnectionConfig client w)
    (keyBytes : Bytes) (masterKeyId : String) :
    Along (KekMove env k) (wrapKey env client keyBytes masterKeyId) w
      (Wrapped env k.kmsManager k.kmsConnectionConfig keyBytes masterKeyId) (fun _ _ => True) (fun _ => False) := by
  have path := Relation.ReflTransGen.single (KekMove.wrap w client keyBytes masterKeyId hc : KekMove env k w _)
  cases hr : env.wrapKey w.calls client keyBytes masterKeyId with
  | ok wrapped =>
    rw [hr] at path
    refine Along.of_ok (a := wrapped) ?_ path
      ⟨client, hc.record _, List.mem_append_right _ (List.mem_singleton.mpr rfl), _, hr⟩
    simp only [wrapKey, hr]
  | error e =>
    rw [hr] at path
    refine Along.of_err (e := e) ?_ path trivial
    simp only [wrapKey, hr]

theorem fill_along (len : Nat) (w : World) :
    Along (KekMove env k) (fill env len) w
      (fun bytes w' => w' = w.tick 0 ∧ ∃ h, env.fill w.calls len = some ⟨bytes, h⟩) (fun _ _ => True)
      (fun _ => False) := by
  have path := Relation.ReflTransGen.single (KekMove.manager (.tick w 0) : KekMove env k w _)
  cases hr : env.fill w.calls len with
  | some bytes =>
    refine Along.of_ok (a := bytes.1) (t := w.tick 0) ?_ path ⟨rfl, bytes.2, rfl⟩
    simp only [fill, hr]
  | none =>
    refine Along.of_err (t := w.tick 0) (e := .external "ring::error::Unspecified") ?_ path trivial
    simp only [fill, hr]

theorem generateKek_along (masterKeyId : String) (w : World) :
    Along (KekMove env k)
      (generateKeyEncryptionKey env masterKeyId k.kmsManager k.kmsConnectionConfig
        k.encryptionConfiguration.cacheLifetime) w
      (NewKek env k.kmsManager k.kmsConnectionConfig masterKeyId) (fun _ _ => True)
      (World.ManagerPoisoned · k.kmsManager) := by
  unfold generateKeyEncryptionKey
  refine ((fill_along env k kekLen w).mono (fun _ _ h => h) (fun _ _ h => h) fun _ h => h.elim).bind
    fun key w1 _ h1 => ?_
  obtain ⟨rfl, hkey⟩ := h1
  refine ((fill_along env k kekLen (w.tick 0)).mono (fun _ _ h => h) (fun _ _ h => h) fun _ h => h.elim).bind
    fun keyId w2 _ h2 => ?_
  obtain ⟨rfl, hkeyId⟩ := h2
  refine (getClient_along env k ((w.tick 0).tick 0)).bind fun client w3 path3 hc => ?_
  refine ((wrapKey_along env k hc key masterKeyId).mono (fun _ _ h => h) (fun _ _ h => h) fun _ h => h.elim).bind
    fun wrappedKey w4 path4 hw => Along.pure ⟨rfl, ⟨w.calls, ?_, hkey, hkeyId⟩, hw⟩
  have hg := World.Grows.of_path (fun _ _ h => (KekMove.writer h).grows) (path3.trans path4)
  exact lt_of_lt_of_le (Nat.lt_succ_self (w.calls + 1)) hg.calls

/-- The KEK is in the write cache under the master key. -/
def HoldsKek (masterKeyId : String) (kek : KeyEncryptionKey) (w : World) : Prop :=
  (k.keks.get w).lookup masterKeyId = some kek

theorem getKek_along (masterKeyId : String) (w : World) :
    Along (WriterMove env k) (getKek env k masterKeyId) w (HoldsKek k masterKeyId) (fun _ _ => True)
      (World.ManagerPoisoned · k.kmsManager) := by
  unfold getKek
  refine Along.bind (Along.read (p := fun c w' => c = k.keks.get w') rfl) fun cache w1 _ hc => ?_
  subst hc
  cases hl : (k.keks.get w1).lookup masterKeyId with
  | some kek => exact Along.pure hl
  | none =>
    refine ((generateKek_along env k masterKeyId w1).with_path.lift fun _ _ h => KekMove.writer h).bind
      fun kek w2 _ h2 => ?_
    have hnone : (k.keks.get w2).lookup masterKeyId = none :=
      path_keeps (I := fun w => (k.keks.get w).lookup masterKeyId = none)
        (fun _ _ hi hm => hm.writeKeks_lookup hi) h2.2 hl
    refine Along.bind (p := fun _ => HoldsKek k masterKeyId kek)
      (Along.modify (.storeKek w2 masterKeyId kek h2.1 hnone) ?_)
      fun _ w3 _ h3 => Along.pure h3
    rw [HoldsKek, Place.get_modify, AList.lookup_insert]

/-- What the key material that was made for a key says. -/
inductive Describes (key : Bytes) (masterKeyId : String) (b : KeyMaterialBuilder) (m : KeyMaterial) (w : World) : Prop
  | single (wrapped : String) :
    k.encryptionConfiguration.doubleWrapping = false →
    Wrapped env k.kmsManager k.kmsConnectionConfig key masterKeyId wrapped w →
    (b.withSingleWrappedKey masterKeyId wrapped).build = .ok m → Describes key masterKeyId b m w
  | double (kek : KeyEncryptionKey) (wrappedDek : String) :
    k.encryptionConfiguration.doubleWrapping = true → HoldsKek k masterKeyId kek w →
    decryptEncryptionKey env wrappedDek kek.keyId kek.key = .ok key →
    (b.withDoubleWrappedKey masterKeyId kek.encodedKeyId kek.wrappedKey wrappedDek).build = .ok m →
    Describes key masterKeyId b m w

theorem encrypt_along {key masterKeyId kek} {w : World} (hk : HoldsKek k masterKeyId kek w) :
    Along (WriterMove env k) (encryptEncryptionKey env key kek.keyId kek.key) w
      (fun wrappedDek w' => HoldsKek k masterKeyId kek w' ∧
        decryptEncryptionKey env wrappedDek kek.keyId kek.key = .ok key)
      (fun _ _ => True) (fun _ => False) := by
  unfold encryptEncryptionKey
  refine Along.bind (Along.ofExcept (p := fun a w' => aesKey kek.key = .ok a ∧ w' = w) (fun _ h => ⟨h, rfl⟩)
    fun _ _ => trivial) fun kekBytes w1 _ h1 => ?_
  obtain ⟨haes, rfl⟩ := h1
  obtain ⟨hlen, rfl⟩ := aesKey_ok haes
  refine ((fill_along env k nonceLen w1).lift fun _ _ h => h.writer).bind fun nonce w2 _ h2 => ?_
  obtain ⟨rfl, hn, _⟩ := h2
  cases hs : env.aes128Gcm.sealDetached kek.key nonce kek.keyId key with
  | none => exact Along.fail trivial
  | some r => exact Along.pure ⟨hk, decrypt_of_seal env hlen hn hs⟩

theorem doubleWrap_along (hd : k.encryptionConfiguration.doubleWrapping = true) (key : Bytes) (masterKeyId : String)
    (b : KeyMaterialBuilder) (w : World) :
    Along (WriterMove env k) (doubleWrap env k key masterKeyId b) w (Describes env k key masterKeyId b)
      (fun _ _ => True) World.Poisoned := by
  refine Along.lock (World.ManagerPoisoned · k.kmsManager) (fun h => Or.inr (Or.inr ⟨_, h⟩)) (fun _ => ?_)
    fun w' _ h => ⟨.poison w' h, Or.inr (Or.inr ⟨_, poisoned_poison (writeCachePlace k.masterKeyToKek) w'⟩)⟩
  refine (getKek_along env k masterKeyId w).bind fun kek w1 _ hk => ?_
  refine ((encrypt_along env k hk).mono (fun _ _ h => h) (fun _ _ h => h) fun _ h => h.elim).bind
    fun wrappedDek w2 _ h2 => ?_
  exact Along.ofExcept (fun m hm => .double kek wrappedDek hd h2.1 h2.2 hm) fun _ _ => trivial

theorem singleWrap_along (hd : k.encryptionConfiguration.doubleWrapping = false) (key : Bytes) (masterKeyId : String)
    (b : KeyMaterialBuilder) (w : World) :
    Along (WriterMove env k) (singleWrap env k key masterKeyId b) w (Describes env k key masterKeyId b)
      (fun _ _ => True) World.Poisoned := by
  unfold singleWrap
  have hclient := (getClient_along env k w).lift fun _ _ h => h.writer
  refine (hclient.mono (fun _ _ h => h) (fun _ _ h => h) fun _ h => Or.inl ⟨_, h⟩).bind fun client w1 _ hc => ?_
  have hwrap := (wrapKey_along env k hc key masterKeyId).lift fun _ _ h => h.writer
  refine (hwrap.mono (fun _ _ h => h) (fun _ _ h => h) fun _ h => h.elim).bind fun wrapped w2 _ hw => ?_
  exact Along.ofExcept (fun m hm => .single wrapped hd hw hm) fun _ _ => trivial

theorem Describes.type {env : Env} {k : KeyWrapper} {key : Bytes} {masterKeyId : String} {b : KeyMaterialBuilder}
    {m : KeyMaterial} {w : World} (h : Describes env k key masterKeyId b m w) : m.keyMaterialType = "PKMT1" := by
  cases h with
  | single _ _ _ hm => exact (KeyMaterialBuilder.build_ok hm).keyMaterialType
  | double _ _ _ _ _ hm => exact (KeyMaterialBuilder.build_ok hm).keyMaterialType

theorem readMaterial_intoBytes (text : String) :
    KeyUnwrapper.readMaterial env (intoBytes text) = KeyMaterial.deserialize env text := by
  unfold KeyUnwrapper.readMaterial
  rw [fromUtf8_intoBytes]
  rfl

/-- Every material is the reading of some metadata. -/
theorem exists_metadata {m : KeyMaterial} (ht : m.keyMaterialType = "PKMT1") :
    ∃ metadata, KeyUnwrapper.readMaterial env metadata = .ok m := by
  obtain ⟨text, htext⟩ := m.serialize_ok env
  exact ⟨intoBytes text, (readMaterial_intoBytes env text).trans (KeyMaterial.deserialize_serialize env ht htext)⟩

/-- Key metadata reads back as material that describes the key. -/
theorem getKeyMetadata_along (key : Bytes) (masterKeyId : String) (isFooterKey : Bool) (w : World) :
    Along (WriterMove env k) (getKeyMetadata env k key masterKeyId isFooterKey) w
      (fun metadata w' => ∃ m, KeyUnwrapper.readMaterial env metadata = .ok m ∧
        Describes env k key masterKeyId (k.materialBuilder isFooterKey) m w')
      (fun _ _ => True) World.Poisoned := by
  unfold getKeyMetadata
  refine Along.bind (p := Describes env k key masterKeyId (k.materialBuilder isFooterKey)) ?_ fun m w1 _ hm => ?_
  · unfold wrap
    cases hd : k.encryptionConfiguration.doubleWrapping with
    | true => exact doubleWrap_along env k hd ..
    | false => exact singleWrap_along env k hd ..
  · obtain ⟨text, ht⟩ := m.serialize_ok env
    rw [ht]
    refine Along.bind (p := fun a w' => a = text ∧ w' = w1) (Along.of_ok rfl .refl ⟨rfl, rfl⟩) fun a w2 _ h2 => ?_
    obtain ⟨rfl, rfl⟩ := h2
    exact Along.pure ⟨m, (readMaterial_intoBytes env a).trans (KeyMaterial.deserialize_serialize env hm.type ht), hm⟩

end KeyWrapper

end ParquetKeyManagement
