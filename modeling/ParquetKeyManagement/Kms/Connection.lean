/-
  ParquetKeyManagement.Kms.Connection — connection configurations (`kms/mod.rs`), the
  library's errors, and the times of `std::time`.

  A connection configuration is a value that refers to its access token: the token lives in
  a cell shared by every clone of the configuration (`Arc<RwLock<String>>`), so a
  `TokenCell` names the cell and the shared state holds the token (`Kms.World`).
  `KmsConnectionConfigDetails` is what a client factory can read from a configuration, the
  token included, at the moment it is called.
-/

import Mathlib.Algebra.Group.Nat.Defs
import ParquetKeyManagement.Support.HashMap

namespace ParquetKeyManagement

abbrev Bytes : Type := List UInt8

/-- `parquet::errors::ParquetError`, the variants this library returns. -/
inductive ParquetError where
  | general (message : String)
  | nyi (message : String)
  /-- An error of another crate, wrapped by `?`. -/
  | external (source : String)
  deriving DecidableEq, Repr

/-! ## Times -/

def nanosPerSec : Nat := 10 ^ 9

/-- `std::time::Duration`: at most `u64::MAX` whole seconds. -/
structure Duration where
  nanos : Nat
  inRange : nanos < 2 ^ 64 * nanosPerSec
  deriving DecidableEq

namespace Duration

def fromSecs (secs : UInt64) : Duration where
  nanos := secs.toNat * nanosPerSec
  inRange := by have := secs.toNat_lt; unfold nanosPerSec; omega

def asSecs (d : Duration) : UInt64 := UInt64.ofNat (d.nanos / nanosPerSec)

end Duration

/-- A reading of the monotonic clock, in nanoseconds. -/
abbrev Instant : Type := Nat

/-- `Instant` keeps its seconds in a signed 64-bit integer. -/
def instantLimit : Nat := 2 ^ 63 * nanosPerSec

/-- `Instant::checked_add`; `Instant + Duration` panics where it answers `none`. -/
def Instant.checkedAdd (t : Instant) (d : Duration) : Option Instant :=
  if t + d.nanos < instantLimit then some (t + d.nanos) else none

/-! ## Connection configurations -/

/-- The cell that holds an access token. -/
abbrev TokenCell : Type := Nat

structure KmsConnectionConfig where
  kmsInstanceUrl : String
  kmsInstanceId : String
  keyAccessToken : TokenCell
  customKmsConf : HashMap String String
  deriving DecidableEq

namespace KmsConnectionConfig

def setKmsInstanceId (c : KmsConnectionConfig) (kmsInstanceId : String) : KmsConnectionConfig :=
  { c with kmsInstanceId }

def setKmsInstanceUrl (c : KmsConnectionConfig) (kmsInstanceUrl : String) : KmsConnectionConfig :=
  { c with kmsInstanceUrl }

end KmsConnectionConfig

/-- What a client factory reads from a configuration. -/
structure KmsConnectionConfigDetails where
  kmsInstanceId : String
  kmsInstanceUrl : String
  keyAccessToken : String
  customKmsConf : HashMap String String
  deriving DecidableEq

/-- A client object (`KmsClientRef`): which factory call returned it, and what that call
    could read. -/
structure KmsClient where
  serial : Nat
  config : KmsConnectionConfigDetails
  deriving DecidableEq

/-- A call of user code, with its result. -/
inductive KmsEvent where
  | createClient (config : KmsConnectionConfigDetails) (result : Except ParquetError KmsClient)
  | wrapKey (client : KmsClient) (keyBytes : Bytes) (masterKeyIdentifier : String)
      (result : Except ParquetError String)
  | unwrapKey (client : KmsClient) (wrappedKey masterKeyIdentifier : String) (result : Except ParquetError Bytes)

def KmsEvent.failed : KmsEvent → Bool
  | .createClient _ (.error _) | .wrapKey _ _ _ (.error _) | .unwrapKey _ _ _ (.error _) => true
  | _ => false

end ParquetKeyManagement
