/-
  ParquetKeyManagement.Kms.World — the state the library's calls share, and what they ask of
  their surroundings.

  `World` holds every object that outlives a call and is reached through an `Arc`: the
  token cells, the `KmsManager` of each `CryptoFactory`, the key-encryption-key (KEK) caches
  and the connection configuration of each `KeyUnwrapper`. An object is named by its
  address; a new object takes the next unused one.

  `Env` is everything the library calls and does not define: the clock, the random number
  generator, the iteration order of hash maps, the user's client factory and clients, the
  cipher and the JSON library. Every use is numbered (`World.calls`) and `Env` answers by
  number, so a theorem over every `Env` is about every behaviour of the surroundings. The
  calls of user code are logged with their results (`World.log`).
-/

import Mathlib.Logic.Function.Basic
import ParquetKeyManagement.Support.Effect
import ParquetKeyManagement.Support.Aead
import ParquetKeyManagement.Support.Base64
import ParquetKeyManagement.Support.Json
import ParquetKeyManagement.Kms.Connection

namespace ParquetKeyManagement

open Effect

/-! ## What the caches hold -/

/-- A key encryption key (KEK) with what encrypting files needs besides. -/
structure KeyEncryptionKey where
  keyId : Bytes
  encodedKeyId : String
  key : Bytes
  wrappedKey : String
  deriving DecidableEq

/-- The address of a cache of KEKs for reading, keyed by their base64 encoded key id. -/
abbrev KekReadCache : Type := Nat

/-- The address of a cache of KEKs for writing, keyed by master key identifier. -/
abbrev KekWriteCache : Type := Nat

structure ExpiringCacheValue (ν : Type) where
  value : ν
  expirationTime : Option Instant
  deriving DecidableEq

structure ExpiringCache (κ ν : Type) where
  cache : Mutex (HashMap κ (ExpiringCacheValue ν))
  lastCleanup : Instant

/-- Key used to cache KMS clients. -/
structure ClientKey where
  keyAccessToken : String
  kmsInstanceId : String
  deriving DecidableEq

/-- Key used to cache KEK caches. -/
structure KekCacheKey where
  keyAccessToken : String
  deriving DecidableEq

structure KmsManager where
  kmsClientCache : ExpiringCache ClientKey KmsClient
  kekReadCaches : ExpiringCache KekCacheKey KekReadCache
  kekWriteCaches : ExpiringCache KekCacheKey KekWriteCache

/-! ## The shared state -/

abbrev ManagerId : Type := Nat

/-- The address of a `KeyUnwrapper`'s `RwLock<Arc<KmsConnectionConfig>>`. -/
abbrev ConfigSlot : Type := Nat

structure World where
  /-- The latest reading of the clock. -/
  clock : Instant
  /-- How often the surroundings were used. -/
  calls : Nat
  tokens : TokenCell → String
  managers : ManagerId → KmsManager
  nextManager : ManagerId
  readCaches : KekReadCache → Mutex (HashMap String Bytes)
  nextReadCache : KekReadCache
  writeCaches : KekWriteCache → Mutex (HashMap String KeyEncryptionKey)
  nextWriteCache : KekWriteCache
  configs : ConfigSlot → KmsConnectionConfig
  nextConfig : ConfigSlot
  log : List KmsEvent
  /-- The factory and the access token each KEK cache was made for. Kept for the statements;
      no call reads it. -/
  readCacheOwner : KekReadCache → ManagerId × String
  writeCacheOwner : KekWriteCache → ManagerId × String

def nonceLen : Nat := 12

def tagLen : Nat := 16

/-- Everything the library calls and does not define. -/
structure Env where
  /-- The time that passed before the numbered use, in nanoseconds. -/
  elapsed : Nat → Nat
  /-- `SystemRandom::fill`. -/
  fill : Nat → (len : Nat) → Option { bytes : Bytes // bytes.length = len }
  order : Nat → IterationOrder
  createClient : Nat → KmsConnectionConfigDetails → Except ParquetError Unit
  wrapKey : Nat → KmsClient → (keyBytes : Bytes) → (masterKeyIdentifier : String) → Except ParquetError String
  unwrapKey : Nat → KmsClient → (wrappedKey masterKeyIdentifier : String) → Except ParquetError Bytes
  aes128Gcm : Aead tagLen
  serdeJson : Json.Codec
  /-- How a data error in the text reads. -/
  showDataError : (text : String) → Json.DataError → String
  /-- How the error of decoding the string as base64 reads. -/
  showBase64Error : String → String

/-- `n` in `len` bytes. -/
def counter (n len : Nat) : Bytes := (List.range len).map fun i => UInt8.ofNat (n / 256 ^ i)

/-- Surroundings in which nothing fails and time stands still: the generator counts, and the
    KMS wraps a key by encoding it. -/
def Env.sample : Env where
  elapsed _ := 0
  fill n len := some ⟨counter n len, by simp [counter]⟩
  order _ := IterationOrder.stored
  createClient _ _ := .ok ()
  wrapKey _ _ keyBytes _ := .ok (Base64.encode keyBytes)
  unwrapKey _ _ wrappedKey _ :=
    match Base64.decode wrappedKey with
    | some keyBytes => .ok keyBytes
    | none => .error (.general "not a wrapped key")
  aes128Gcm := checksum
  serdeJson := Json.compact
  showDataError _ _ := "invalid key material"
  showBase64Error _ := "invalid base64"

def sampleConfig : KmsConnectionConfig := ⟨"https://kms", "instance", 0, ∅⟩

abbrev Call (α : Type) : Type := Eff World ParquetError α

namespace World

def init (tokens : TokenCell → String) (clock : Instant) : World where
  clock := clock
  calls := 0
  tokens := tokens
  managers _ := ⟨⟨Mutex.new ∅, 0⟩, ⟨Mutex.new ∅, 0⟩, ⟨Mutex.new ∅, 0⟩⟩
  nextManager := 0
  readCaches _ := Mutex.new ∅
  nextReadCache := 0
  writeCaches _ := Mutex.new ∅
  nextWriteCache := 0
  configs _ := ⟨"", "", 0, ∅⟩
  nextConfig := 0
  log := []
  readCacheOwner _ := (0, "")
  writeCacheOwner _ := (0, "")

/-- The surroundings are used once more, and `elapsed` nanoseconds have passed. -/
def tick (w : World) (elapsed : Nat) : World := { w with clock := w.clock + elapsed, calls := w.calls + 1 }

def record (w : World) (e : KmsEvent) : World := { w with calls := w.calls + 1, log := w.log ++ [e] }

def setManager (w : World) (m : ManagerId) (k : KmsManager) : World :=
  { w with managers := Function.update w.managers m k }

end World

def KmsConnectionConfig.details (c : KmsConnectionConfig) (w : World) : KmsConnectionConfigDetails where
  kmsInstanceId := c.kmsInstanceId
  kmsInstanceUrl := c.kmsInstanceUrl
  keyAccessToken := w.tokens c.keyAccessToken
  customKmsConf := c.customKmsConf

/-! ## Uses of the surroundings -/

variable (env : Env)

def now : Call Instant := fun w =>
  let w' := w.tick (env.elapsed w.calls)
  (.ok w'.clock, w')

/-- Fill a buffer of `len` bytes with random bytes. -/
def fill (len : Nat) : Call Bytes := fun w =>
  match env.fill w.calls len with
  | some bytes => (.ok bytes.1, w.tick 0)
  | none => (.err (.external "ring::error::Unspecified"), w.tick 0)

def iterationOrder : Call IterationOrder := fun w => (.ok (env.order w.calls), w.tick 0)

/-- `KmsClientFactory::create_client`. The factory reads the token when it is called. -/
def createClient (config : KmsConnectionConfig) : Call KmsClient := fun w =>
  match env.createClient w.calls (config.details w) with
  | .ok () =>
    let client : KmsClient := ⟨w.calls, config.details w⟩
    (.ok client, w.record (.createClient (config.details w) (.ok client)))
  | .error e => (.err e, w.record (.createClient (config.details w) (.error e)))

def wrapKey (client : KmsClient) (keyBytes : Bytes) (masterKeyIdentifier : String) : Call String := fun w =>
  let result := env.wrapKey w.calls client keyBytes masterKeyIdentifier
  let w' := w.record (.wrapKey client keyBytes masterKeyIdentifier result)
  match result with
  | .ok wrapped => (.ok wrapped, w')
  | .error e => (.err e, w')

def unwrapKey (client : KmsClient) (wrappedKey masterKeyIdentifier : String) : Call Bytes := fun w =>
  let result := env.unwrapKey w.calls client wrappedKey masterKeyIdentifier
  let w' := w.record (.unwrapKey client wrappedKey masterKeyIdentifier result)
  match result with
  | .ok key => (.ok key, w')
  | .error e => (.err e, w')

/-! ## Token cells -/

/-- `KmsConnectionConfig::key_access_token`, and what `read_key_access_token`'s guard shows. -/
def keyAccessToken (config : KmsConnectionConfig) : Call String := Eff.read fun w => w.tokens config.keyAccessToken

def refreshKeyAccessToken (config : KmsConnectionConfig) (keyAccessToken : String) : Call Unit :=
  Eff.modify fun w => { w with tokens := Function.update w.tokens config.keyAccessToken keyAccessToken }

/-! ## Places -/

def managerPlace (m : ManagerId) : Place World KmsManager where
  get w := w.managers m
  set k w := w.setManager m k
  get_set k w := by simp [World.setManager]

def clientCachePlace (m : ManagerId) : Place World (ExpiringCache ClientKey KmsClient) :=
  (managerPlace m).comp ⟨KmsManager.kmsClientCache, fun c k => { k with kmsClientCache := c }, fun _ _ => rfl⟩

def readCachesPlace (m : ManagerId) : Place World (ExpiringCache KekCacheKey KekReadCache) :=
  (managerPlace m).comp ⟨KmsManager.kekReadCaches, fun c k => { k with kekReadCaches := c }, fun _ _ => rfl⟩

def writeCachesPlace (m : ManagerId) : Place World (ExpiringCache KekCacheKey KekWriteCache) :=
  (managerPlace m).comp ⟨KmsManager.kekWriteCaches, fun c k => { k with kekWriteCaches := c }, fun _ _ => rfl⟩

def readCachePlace (a : KekReadCache) : Place World (Mutex (HashMap String Bytes)) where
  get w := w.readCaches a
  set c w := { w with readCaches := Function.update w.readCaches a c }
  get_set c w := by simp

def writeCachePlace (a : KekWriteCache) : Place World (Mutex (HashMap String KeyEncryptionKey)) where
  get w := w.writeCaches a
  set c w := { w with writeCaches := Function.update w.writeCaches a c }
  get_set c w := by simp

def configPlace (i : ConfigSlot) : Place World KmsConnectionConfig where
  get w := w.configs i
  set c w := { w with configs := Function.update w.configs i c }
  get_set c w := by simp

def mutexData {α : Type} : Place (Mutex α) α where
  get := Mutex.data
  set a m := { m with data := a }
  get_set _ _ := rfl

/-- The mutex of an expiring cache. -/
def cacheLock {σ κ ν : Type} (place : Place σ (ExpiringCache κ ν)) :
    Place σ (Mutex (HashMap κ (ExpiringCacheValue ν))) :=
  place.comp ⟨ExpiringCache.cache, fun c e => { e with cache := c }, fun _ _ => rfl⟩

end ParquetKeyManagement
