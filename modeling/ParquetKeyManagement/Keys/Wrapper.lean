/-
  ParquetKeyManagement.Keys.Wrapper — creating key material for data encryption keys
  (`key_wrapper.rs`).

  Under double wrapping the KEK of a master key is taken from the shared write cache, whose
  mutex is held while a missing one is generated, wrapped by the KMS and stored, and while
  the DEK is encrypted with it. Under single wrapping the KMS wraps the DEK itself.
-/

import ParquetKeyManagement.Kms.Manager
import ParquetKeyManagement.Keys.Encryption
import ParquetKeyManagement.Keys.Material
import ParquetKeyManagement.Factory.Configuration

namespace ParquetKeyManagement

open Effect

variable (env : Env)

structure KeyWrapper where
  kmsManager : ManagerId
  kmsConnectionConfig : KmsConnectionConfig
  encryptionConfiguration : EncryptionConfiguration
  masterKeyToKek : KekWriteCache

def kekLen : Nat := 16

def generateKeyEncryptionKey (masterKeyId : String) (kmsManager : ManagerId) (kmsConnectionConfig : KmsConnectionConfig)
    (cacheLifetime : Option Duration) : Call KeyEncryptionKey := do
  let key ← fill env kekLen
  let keyId ← fill env kekLen
  let encodedKeyId := Base64.encode keyId
  let kmsClient ← KmsManager.getClient env kmsManager kmsConnectionConfig cacheLifetime
  let wrappedKey ← wrapKey env kmsClient key masterKeyId
  pure { keyId, encodedKeyId, key, wrappedKey }

/-- If instance ID or URL weren't provided, set them to non-empty default values. -/
def orDefault (s : String) : String := if s.isEmpty then s ++ "DEFAULT" else s

namespace KeyWrapper

def new (kmsManager : ManagerId) (kmsConnectionConfig : KmsConnectionConfig)
    (encryptionConfiguration : EncryptionConfiguration) : Call KeyWrapper := do
  let masterKeyToKek ←
    KmsManager.getKekWriteCache env kmsManager kmsConnectionConfig encryptionConfiguration.cacheLifetime
  pure { kmsManager, kmsConnectionConfig, encryptionConfiguration, masterKeyToKek }

variable (k : KeyWrapper) (key : Bytes) (masterKeyId : String)

/-- The KEKs under the held mutex. -/
def keks : Place World (HashMap String KeyEncryptionKey) := (writeCachePlace k.masterKeyToKek).comp mutexData

/-- The KEK of a master key, from the cache or new. -/
def getKek : Call KeyEncryptionKey := do
  let masterKeyToKek ← Eff.read k.keks.get
  match masterKeyToKek.lookup masterKeyId with
  | some kek => pure kek
  | none => do
    let kek ← generateKeyEncryptionKey env masterKeyId k.kmsManager k.kmsConnectionConfig
      k.encryptionConfiguration.cacheLifetime
    Eff.modify (k.keks.modify fun m => m.insert masterKeyId kek)
    pure kek

def doubleWrap (b : KeyMaterialBuilder) : Call KeyMaterial :=
  lock (writeCachePlace k.masterKeyToKek) do
    let kek ← getKek env k masterKeyId
    let wrappedDek ← encryptEncryptionKey env key kek.keyId kek.key
    Eff.ofExcept (b.withDoubleWrappedKey masterKeyId kek.encodedKeyId kek.wrappedKey wrappedDek).build

def singleWrap (b : KeyMaterialBuilder) : Call KeyMaterial := do
  let kmsClient ← KmsManager.getClient env k.kmsManager k.kmsConnectionConfig k.encryptionConfiguration.cacheLifetime
  let wrapped ← wrapKey env kmsClient key masterKeyId
  Eff.ofExcept (b.withSingleWrappedKey masterKeyId wrapped).build

def materialBuilder (isFooterKey : Bool) : KeyMaterialBuilder :=
  if isFooterKey then
    KeyMaterialBuilder.forFooterKey (orDefault k.kmsConnectionConfig.kmsInstanceId)
      (orDefault k.kmsConnectionConfig.kmsInstanceUrl)
  else KeyMaterialBuilder.forColumnKey

def wrap (b : KeyMaterialBuilder) : Call KeyMaterial :=
  if k.encryptionConfiguration.doubleWrapping then doubleWrap env k key masterKeyId b
  else singleWrap env k key masterKeyId b

def getKeyMetadata (isFooterKey : Bool) : Call Bytes := do
  let keyMaterial ← wrap env k key masterKeyId (k.materialBuilder isFooterKey)
  let serializedMaterial ← Eff.ofExcept (keyMaterial.serialize env)
  pure (intoBytes serializedMaterial)

end KeyWrapper

end ParquetKeyManagement
