/-
  ParquetKeyManagement.Keys.Unwrapper — retrieving data encryption keys from key metadata
  (`key_unwrapper.rs`).

  A `KeyUnwrapper` owns a slot that holds its connection configuration: footer metadata may
  fill in an instance ID or URL that the configuration lacks, once, for every later call.
  The KEK cache's mutex is held over the whole of `unwrapDoubleWrappedKey`, and a KEK the
  KMS unwrapped is stored before it is used.
-/

import ParquetKeyManagement.Kms.Manager
import ParquetKeyManagement.Keys.Encryption
import ParquetKeyManagement.Keys.Material
import ParquetKeyManagement.Factory.Configuration

namespace ParquetKeyManagement

open Effect

variable (env : Env)

structure KeyUnwrapper where
  kmsManager : ManagerId
  kmsConnectionConfig : ConfigSlot
  decryptionConfiguration : DecryptionConfiguration
  kekCache : KekReadCache
  deriving DecidableEq

namespace KeyUnwrapper

/-- `RwLock::new`. -/
def newConfigSlot (kmsConnectionConfig : KmsConnectionConfig) : Call ConfigSlot := fun w =>
  (.ok w.nextConfig,
    { w with configs := Function.update w.configs w.nextConfig kmsConnectionConfig, nextConfig := w.nextConfig + 1 })

def new (kmsManager : ManagerId) (kmsConnectionConfig : KmsConnectionConfig)
    (decryptionConfiguration : DecryptionConfiguration) : Call KeyUnwrapper := do
  let kekCache ←
    KmsManager.getKekReadCache env kmsManager kmsConnectionConfig decryptionConfiguration.cacheLifetime
  let slot ← newConfigSlot kmsConnectionConfig
  pure { kmsManager, kmsConnectionConfig := slot, decryptionConfiguration, kekCache }

variable (u : KeyUnwrapper)

/-- `unwrapSingleWrappedKey` with a DEK, and the miss of `unwrapDoubleWrappedKey` with a KEK:
    a key the KMS wrapped. -/
def unwrapWithKms (wrapped masterKeyId : String) : Call Bytes := do
  let kmsConnectionConfig ← Eff.read (configPlace u.kmsConnectionConfig).get
  let client ← KmsManager.getClient env u.kmsManager kmsConnectionConfig u.decryptionConfiguration.cacheLifetime
  unwrapKey env client wrapped masterKeyId

def unwrapSingleWrappedKey (wrappedDek masterKeyId : String) : Call Bytes :=
  unwrapWithKms env u wrappedDek masterKeyId

/-- The KEKs under the held mutex. -/
def keks : Place World (HashMap String Bytes) := (readCachePlace u.kekCache).comp mutexData

/-- The KEK with this id, from the cache or unwrapped. -/
def getKek (masterKeyId kekId wrappedKek : String) : Call Bytes := do
  let kekCache ← Eff.read u.keks.get
  match kekCache.lookup kekId with
  | some kek => pure kek
  | none => do
    let kek ← unwrapWithKms env u wrappedKek masterKeyId
    Eff.modify (u.keks.modify fun m => m.insert kekId kek)
    pure kek

def decodeKekId (kekId : String) : Except ParquetError Bytes :=
  match Base64.decode kekId with
  | some bytes => .ok bytes
  | none => .error (.general s!"Could not base64 decode key encryption key id: {env.showBase64Error kekId}")

def unwrapDoubleWrappedKey (wrappedDek masterKeyId kekId wrappedKek : String) : Call Bytes :=
  lock (readCachePlace u.kekCache) do
    let kek ← getKek env u masterKeyId kekId wrappedKek
    let decodedKekId ← Eff.ofExcept (decodeKekId env kekId)
    Eff.ofOutcome (decryptEncryptionKey env wrappedDek decodedKekId kek)

/-- The configuration with the instance ID from the metadata where it has none. -/
def withInstanceId (c : KmsConnectionConfig) (kmsInstanceId : String) : Except ParquetError KmsConnectionConfig :=
  if c.kmsInstanceId.isEmpty then
    if kmsInstanceId.isEmpty then
      .error (.general "KMS instance ID not set in connection configuration or footer key metadata")
    else .ok (c.setKmsInstanceId kmsInstanceId)
  else .ok c

def withInstanceUrl (c : KmsConnectionConfig) (kmsInstanceUrl : String) : Except ParquetError KmsConnectionConfig :=
  if c.kmsInstanceUrl.isEmpty then
    if kmsInstanceUrl.isEmpty then
      .error (.general "KMS instance URL not set in connection configuration or footer key metadata")
    else .ok (c.setKmsInstanceUrl kmsInstanceUrl)
  else .ok c

/-- If the KMS instance ID or URL weren't provided in the connection configuration, try to
    read them from the footer key metadata. -/
def updateKmsConfigFromFooterMetadata (kmsInstanceId kmsInstanceUrl : String) : Call Unit := do
  let slot := configPlace u.kmsConnectionConfig
  let kmsConnectionConfig ← Eff.read slot.get
  if ¬ kmsConnectionConfig.kmsInstanceId.isEmpty ∧ ¬ kmsConnectionConfig.kmsInstanceUrl.isEmpty then pure ()
  else do
    -- the ID is written before the URL is looked at
    let withId ← Eff.ofExcept (withInstanceId kmsConnectionConfig kmsInstanceId)
    Eff.modify (slot.set withId)
    let withUrl ← Eff.ofExcept (withInstanceUrl withId kmsInstanceUrl)
    Eff.modify (slot.set withUrl)

/-- If unwrapping a footer key, optionally set the KMS instance ID and URL. -/
def updateKmsConfig (m : KeyMaterial) : Call Unit :=
  match m.kmsInstanceId, m.kmsInstanceUrl with
  | some kmsInstanceId, some kmsInstanceUrl => updateKmsConfigFromFooterMetadata u kmsInstanceId kmsInstanceUrl
  | _, _ => pure ()

def unwrapDek (m : KeyMaterial) : Call Bytes :=
  if m.doubleWrapping then
    match m.keyEncryptionKeyId, m.wrappedKek with
    | some kekId, some wrappedKek => unwrapDoubleWrappedKey env u m.wrappedDek m.masterKeyId kekId wrappedKek
    | _, _ => Eff.fail (.general "Key uses double wrapping but key encryption key is not set")
  else unwrapSingleWrappedKey env u m.wrappedDek m.masterKeyId

/-- The text of the metadata, read as key material. -/
def readMaterial (keyMetadata : Bytes) : Except ParquetError KeyMaterial := do
  let keyMaterial ← fromUtf8 keyMetadata
  KeyMaterial.deserialize env keyMaterial

def retrieveKey (keyMetadata : Bytes) : Call Bytes := do
  let keyMaterial ← Eff.ofExcept (readMaterial env keyMetadata)
  if ¬ keyMaterial.internalStorage then
    Eff.fail (.nyi "Decryption using external key material is not yet implemented")
  else do
    updateKmsConfig u keyMaterial
    unwrapDek env u keyMaterial

end KeyUnwrapper

end ParquetKeyManagement
