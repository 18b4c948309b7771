/-
  ParquetKeyManagement.Factory.CryptoFactory — creating file encryption and decryption
  properties (`crypto_factory.rs`).

  A factory is named by its `KmsManager`. `fileEncryptionProperties` draws a data key for the
  footer and one for every column named in the configuration, visiting the master keys in an
  order of the map's, and files the column keys in the properties builder under the column's
  path, where a later key would replace an earlier one.
-/

import ParquetKeyManagement.Keys.Wrapper
import ParquetKeyManagement.Keys.Unwrapper

namespace ParquetKeyManagement

open Effect

variable (env : Env)

/-- A data key with its metadata. -/
structure EncryptionKey where
  key : Bytes
  metadata : Bytes
  deriving DecidableEq

/-- `parquet`'s properties, and their builder. -/
structure FileEncryptionProperties where
  footerKey : EncryptionKey
  plaintextFooter : Bool
  columnKeys : HashMap String EncryptionKey

/-- The key and metadata pairs of a file: the footer's and every column's. -/
def FileEncryptionProperties.keys (p : FileEncryptionProperties) : List EncryptionKey :=
  p.footerKey :: p.columnKeys.entries.map fun e => e.2

def FileEncryptionProperties.withColumnKeyAndMetadata (p : FileEncryptionProperties) (columnName : String)
    (key metadata : Bytes) : FileEncryptionProperties :=
  { p with columnKeys := p.columnKeys.insert columnName ⟨key, metadata⟩ }

namespace CryptoFactory

/-- `CryptoFactory::new`. -/
def new : Call ManagerId := do
  let kmsManager ← KmsManager.new env
  fun w => (.ok w.nextManager, { w.setManager w.nextManager kmsManager with nextManager := w.nextManager + 1 })

def fileDecryptionProperties (kmsManager : ManagerId) (kmsConnectionConfig : KmsConnectionConfig)
    (decryptionConfiguration : DecryptionConfiguration) : Call KeyUnwrapper :=
  KeyUnwrapper.new env kmsManager kmsConnectionConfig decryptionConfiguration

def dekLen : Nat := 16

def generateKey (masterKeyIdentifier : String) (isFooterKey : Bool) (keyWrapper : KeyWrapper) : Call EncryptionKey := do
  let key ← fill env dekLen
  let metadata ← keyWrapper.getKeyMetadata env key masterKeyIdentifier isFooterKey
  pure { key, metadata }

/-- The loop over the columns of one master key. -/
def addColumns (keyWrapper : KeyWrapper) (masterKeyId : String) :
    List String → FileEncryptionProperties → Call FileEncryptionProperties
  | [], builder => pure builder
  | columnPath :: columnPaths, builder => do
    let columnKey ← generateKey env masterKeyId false keyWrapper
    addColumns keyWrapper masterKeyId columnPaths
      (builder.withColumnKeyAndMetadata columnPath columnKey.key columnKey.metadata)

/-- The loop over the master keys. -/
def addColumnKeys (keyWrapper : KeyWrapper) :
    List (Sigma fun _ : String => List String) → FileEncryptionProperties → Call FileEncryptionProperties
  | [], builder => pure builder
  | e :: es, builder => do
    let builder ← addColumns env keyWrapper e.1 e.2 builder
    addColumnKeys keyWrapper es builder

def fileEncryptionProperties (kmsManager : ManagerId) (kmsConnectionConfig : KmsConnectionConfig)
    (encryptionConfiguration : EncryptionConfiguration) : Call FileEncryptionProperties :=
  if ¬ encryptionConfiguration.internalKeyMaterial then
    Eff.fail (.nyi "External key material is not yet implemented")
  else if encryptionConfiguration.dataKeyLengthBits ≠ 128 then
    Eff.fail (.nyi "Only 128 bit data keys are currently implemented")
  else do
    let keyWrapper ← KeyWrapper.new env kmsManager kmsConnectionConfig encryptionConfiguration
    let footerKey ← generateKey env encryptionConfiguration.footerKeyId true keyWrapper
    let builder : FileEncryptionProperties := ⟨footerKey, encryptionConfiguration.plaintextFooter, ∅⟩
    let order ← iterationOrder env
    addColumnKeys env keyWrapper (HashMap.inOrder order encryptionConfiguration.columnKeyIds) builder

end CryptoFactory

end ParquetKeyManagement
