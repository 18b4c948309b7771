/-
  ParquetKeyManagement.Factory.Programs — the whole library as programs of threads.

  Every function that takes a lock is written once more, cut where it takes locks and gives
  them back and where it calls user code: `Interleaved.getClient` is `KmsManager::get_client`
  as a thread runs it while others run theirs. The user's client factory and clients are
  programs too (`UserKms`), which may take locks of the library: a factory that reads the
  token of its configuration takes the lock of the token's cell. A factory that bridges to an
  asynchronous one runs the future to its end on the calling thread (`UserKms.bridge`).

  A thread is a `Client`: it makes requests one after the other, and what it asks for may
  depend on what it was answered and on what all threads were handed out so far. `Ledger`
  records the latter beside the shared state, and what the generator drew for which KEK; no
  function of the library reads the record.
  - `Request.alone_program`: run with nothing in between, each request does what the
    sequential functions do.
-/

import ParquetKeyManagement.Kms.Alone
import ParquetKeyManagement.Factory.System
import ParquetKeyManagement.Support.Interference

namespace ParquetKeyManagement

open Effect Locks

/-! ## Locks and state -/

inductive LibraryLock where
  | lastCleanup (m : ManagerId) (c : CacheName)
  | cache (m : ManagerId) (c : CacheName)
  | token (cell : TokenCell)
  | kekReads (a : KekReadCache)
  | kekWrites (a : KekWriteCache)
  | config (slot : ConfigSlot)
  deriving DecidableEq

/-- A call of `retrieve_key` that ended; `since` and `ended` are how many calls of user code there had been when it
    began and when it ended. -/
structure Retrieval where
  unwrapper : KeyUnwrapper
  keyMetadata : Bytes
  since : Nat
  ended : Nat
  result : Outcome ParquetError Bytes

/-- A KEK with the id that was drawn for it, and the number of that use of the generator. -/
structure DrawnKek where
  key : Bytes
  keyId : Bytes
  use : Nat

structure Ledger where
  world : World
  readers : List KeyUnwrapper
  files : List Written
  retrieved : List Retrieval
  drawn : List DrawnKek

def Ledger.init (tokens : TokenCell → String) (clock : Instant) : Ledger := ⟨World.init tokens clock, [], [], [], []⟩

/-- The key and metadata pairs of all files. -/
def Ledger.issued (s : Ledger) : List EncryptionKey := s.files.flatMap fun f => f.properties.keys

def worldPlace : Place Ledger World := ⟨Ledger.world, fun w s => { s with world := w }, fun _ _ => rfl⟩

abbrev Run (α : Type) : Type := Routine LibraryLock Ledger ParquetError α

/-- A section of the library: it runs in one step. -/
def call {α : Type} (x : Call α) : Run α := .ofCall (Eff.within worldPlace x)

/-! ## User code -/

/-- A client factory and its clients. -/
structure UserKms where
  createClient : KmsConnectionConfig → Run KmsClient
  wrapKey : KmsClient → (keyBytes : Bytes) → (masterKeyIdentifier : String) → Run String
  unwrapKey : KmsClient → (wrappedKey masterKeyIdentifier : String) → Run Bytes

/-- How a future is run to its end inside a synchronous call. -/
inductive ReenterAsync where
  | asyncStd
  | smol
  /-- `block_in_place` panics where the runtime has one thread, or there is none. -/
  | tokio (multiThreaded : Bool)

def ReenterAsync.reenter {α : Type} : ReenterAsync → Run α → Run α
  | .asyncStd, f | .smol, f | .tokio true, f => f
  | .tokio false, _ => Routine.finish .panic

namespace UserKms

/-- A KMS whose calls take no lock of the library. -/
def ofEnv (env : Env) : UserKms where
  createClient config := call (ParquetKeyManagement.createClient env config)
  wrapKey client keyBytes masterKeyIdentifier :=
    call (ParquetKeyManagement.wrapKey env client keyBytes masterKeyIdentifier)
  unwrapKey client wrappedKey masterKeyIdentifier :=
    call (ParquetKeyManagement.unwrapKey env client wrappedKey masterKeyIdentifier)

/-- A KMS whose factory reads the token with `key_access_token`. -/
def readingToken (env : Env) : UserKms :=
  { ofEnv env with
    createClient := fun config =>
      .holding (.token config.keyAccessToken) .shared (call (ParquetKeyManagement.createClient env config)) }

/-- `BridgeKmsClientFactory` over an asynchronous factory, and the `BridgeKmsClient`s around its clients. -/
def bridge (reenter : ReenterAsync) (inner : UserKms) : UserKms where
  createClient config := reenter.reenter (inner.createClient config)
  wrapKey client keyBytes masterKeyIdentifier := reenter.reenter (inner.wrapKey client keyBytes masterKeyIdentifier)
  unwrapKey client wrappedKey masterKeyIdentifier :=
    reenter.reenter (inner.unwrapKey client wrappedKey masterKeyIdentifier)

end UserKms

/-! ## The registry -/

namespace Interleaved

variable (env : Env) (kms : UserKms) {κ ν : Type}

def clearExpired (m : ManagerId) (c : CacheName) (cleanupInterval : Duration) : Run Unit := do
  let due ← Routine.holding (.lastCleanup m c) .exclusive (call (c.cleanupDue env m cleanupInterval))
  if due then Routine.holding (.cache m c) .exclusive (call (c.removeExpired env m)) else pure ()

def clearExpiredEntries (m : ManagerId) (cleanupInterval : Option Duration) : Run Unit :=
  match cleanupInterval with
  | none => pure ()
  | some cleanupInterval => do
    clearExpired env m .kmsClients cleanupInterval
    clearExpired env m .kekReadCaches cleanupInterval
    clearExpired env m .kekWriteCaches cleanupInterval

/-- What `get_or_create` does while it holds the mutex. -/
def lookupOrCreate [DecidableEq κ] (place : Place World (ExpiringCache κ ν)) (key : κ)
    (cacheLifetime : Option Duration) (creator : Run ν) : Run ν := do
  match ← call (ExpiringCache.findValid env place key) with
  | some value => pure value
  | none => do
    let value ← creator
    call (ExpiringCache.store env place key cacheLifetime value)

def getOrCreate [DecidableEq κ] (l : LibraryLock) (place : Place World (ExpiringCache κ ν)) (key : κ)
    (cacheLifetime : Option Duration) (creator : Run ν) : Run ν :=
  Routine.mutex l (worldPlace.comp (cacheLock place)) (lookupOrCreate env place key cacheLifetime creator)

/-- `KmsConnectionConfig::key_access_token`. -/
def readToken (config : KmsConnectionConfig) : Run String :=
  .holding (.token config.keyAccessToken) .shared (call (keyAccessToken config))

variable (m : ManagerId) (kmsConnectionConfig : KmsConnectionConfig) (cacheLifetime : Option Duration)

def getClient : Run KmsClient := do
  clearExpiredEntries env m cacheLifetime
  Routine.holding (.token kmsConnectionConfig.keyAccessToken) .shared do
    let token ← call (keyAccessToken kmsConnectionConfig)
    getOrCreate env (.cache m .kmsClients) (clientCachePlace m) ⟨token, kmsConnectionConfig.kmsInstanceId⟩ cacheLifetime
      (kms.createClient kmsConnectionConfig)

def getKekReadCache : Run KekReadCache := do
  clearExpiredEntries env m cacheLifetime
  let token ← readToken kmsConnectionConfig
  Routine.unwrap (getOrCreate env (.cache m .kekReadCaches) (readCachesPlace m) ⟨token⟩ cacheLifetime
    (call (KmsManager.newReadCache m token)))

def getKekWriteCache : Run KekWriteCache := do
  clearExpiredEntries env m cacheLifetime
  let token ← readToken kmsConnectionConfig
  Routine.unwrap (getOrCreate env (.cache m .kekWriteCaches) (writeCachesPlace m) ⟨token⟩ cacheLifetime
    (call (KmsManager.newWriteCache m token)))

/-! ## Wrapping -/

/-- Draw the id of a KEK. -/
def drawKeyId (key : Bytes) : Eff Ledger ParquetError Bytes := fun s =>
  match fill env kekLen s.world with
  | (.ok keyId, w) => (.ok keyId, { s with world := w, drawn := s.drawn ++ [⟨key, keyId, s.world.calls⟩] })
  | (r, w) => (r, { s with world := w })

def generateKeyEncryptionKey (masterKeyId : String) : Run KeyEncryptionKey := do
  let key ← call (fill env kekLen)
  let keyId ← Routine.ofCall (drawKeyId env key)
  let encodedKeyId := Base64.encode keyId
  let kmsClient ← getClient env kms m kmsConnectionConfig cacheLifetime
  let wrappedKey ← kms.wrapKey kmsClient key masterKeyId
  pure { keyId, encodedKeyId, key, wrappedKey }

def newKeyWrapper (kmsManager : ManagerId) (kmsConnectionConfig : KmsConnectionConfig)
    (encryptionConfiguration : EncryptionConfiguration) : Run KeyWrapper := do
  let masterKeyToKek ← getKekWriteCache env kmsManager kmsConnectionConfig encryptionConfiguration.cacheLifetime
  pure { kmsManager, kmsConnectionConfig, encryptionConfiguration, masterKeyToKek }

section

variable (k : KeyWrapper) (key : Bytes) (masterKeyId : String)

def getWriteKek : Run KeyEncryptionKey := do
  let masterKeyToKek ← call (Eff.read k.keks.get)
  match masterKeyToKek.lookup masterKeyId with
  | some kek => pure kek
  | none => do
    let kek ← generateKeyEncryptionKey env kms k.kmsManager k.kmsConnectionConfig
      k.encryptionConfiguration.cacheLifetime masterKeyId
    call (Eff.modify (k.keks.modify fun m => m.insert masterKeyId kek))
    pure kek

def doubleWrap (b : KeyMaterialBuilder) : Run KeyMaterial :=
  Routine.mutex (.kekWrites k.masterKeyToKek) (worldPlace.comp (writeCachePlace k.masterKeyToKek)) do
    let kek ← getWriteKek env kms k masterKeyId
    let wrappedDek ← call (encryptEncryptionKey env key kek.keyId kek.key)
    call (Eff.ofExcept (b.withDoubleWrappedKey masterKeyId kek.encodedKeyId kek.wrappedKey wrappedDek).build)

def singleWrap (b : KeyMaterialBuilder) : Run KeyMaterial := do
  let kmsClient ← getClient env kms k.kmsManager k.kmsConnectionConfig k.encryptionConfiguration.cacheLifetime
  let wrapped ← kms.wrapKey kmsClient key masterKeyId
  call (Eff.ofExcept (b.withSingleWrappedKey masterKeyId wrapped).build)

def wrap (b : KeyMaterialBuilder) : Run KeyMaterial :=
  if k.encryptionConfiguration.doubleWrapping then doubleWrap env kms k key masterKeyId b
  else singleWrap env kms k key masterKeyId b

def getKeyMetadata (isFooterKey : Bool) : Run Bytes := do
  let keyMaterial ← wrap env kms k key masterKeyId (k.materialBuilder isFooterKey)
  let serializedMaterial ← call (Eff.ofExcept (keyMaterial.serialize env))
  pure (intoBytes serializedMaterial)

def generateKey (isFooterKey : Bool) : Run EncryptionKey := do
  let key ← call (fill env CryptoFactory.dekLen)
  let metadata ← getKeyMetadata env kms k key masterKeyId isFooterKey
  pure { key, metadata }

def addColumns : List String → FileEncryptionProperties → Run FileEncryptionProperties
  | [], builder => pure builder
  | columnPath :: columnPaths, builder => do
    let columnKey ← generateKey env kms k masterKeyId false
    addColumns columnPaths (builder.withColumnKeyAndMetadata columnPath columnKey.key columnKey.metadata)

def addColumnKeys :
    List (Sigma fun _ : String => List String) → FileEncryptionProperties → Run FileEncryptionProperties
  | [], builder => pure builder
  | e :: es, builder => do
    let builder ← addColumns env kms k e.1 e.2 builder
    addColumnKeys es builder

end

def fileEncryptionProperties (kmsManager : ManagerId) (kmsConnectionConfig : KmsConnectionConfig)
    (encryptionConfiguration : EncryptionConfiguration) : Run FileEncryptionProperties :=
  if ¬ encryptionConfiguration.internalKeyMaterial then
    Routine.finish (.err (.nyi "External key material is not yet implemented"))
  else if encryptionConfiguration.dataKeyLengthBits ≠ 128 then
    Routine.finish (.err (.nyi "Only 128 bit data keys are currently implemented"))
  else do
    let keyWrapper ← newKeyWrapper env kmsManager kmsConnectionConfig encryptionConfiguration
    let footerKey ← generateKey env kms keyWrapper encryptionConfiguration.footerKeyId true
    let builder : FileEncryptionProperties := ⟨footerKey, encryptionConfiguration.plaintextFooter, ∅⟩
    let order ← call (iterationOrder env)
    addColumnKeys env kms keyWrapper (HashMap.inOrder order encryptionConfiguration.columnKeyIds) builder

/-! ## Unwrapping -/

def fileDecryptionProperties (kmsManager : ManagerId) (kmsConnectionConfig : KmsConnectionConfig)
    (decryptionConfiguration : DecryptionConfiguration) : Run KeyUnwrapper := do
  let kekCache ← getKekReadCache env kmsManager kmsConnectionConfig decryptionConfiguration.cacheLifetime
  let slot ← call (KeyUnwrapper.newConfigSlot kmsConnectionConfig)
  pure { kmsManager, kmsConnectionConfig := slot, decryptionConfiguration, kekCache }

section

variable (u : KeyUnwrapper)

/-- Have the KMS unwrap a key; the reader's configuration is locked, for reading, by the caller. -/
def unwrapWithKms (wrapped masterKeyId : String) : Run Bytes := do
  let kmsConnectionConfig ← call (Eff.read (configPlace u.kmsConnectionConfig).get)
  let client ← getClient env kms u.kmsManager kmsConnectionConfig u.decryptionConfiguration.cacheLifetime
  kms.unwrapKey client wrapped masterKeyId

def unwrapSingleWrappedKey (wrappedDek masterKeyId : String) : Run Bytes :=
  Routine.holding (.config u.kmsConnectionConfig) .shared (unwrapWithKms env kms u wrappedDek masterKeyId)

def getReadKek (masterKeyId kekId wrappedKek : String) : Run Bytes := do
  let kekCache ← call (Eff.read u.keks.get)
  match kekCache.lookup kekId with
  | some kek => pure kek
  | none => Routine.holding (.config u.kmsConnectionConfig) .shared do
    let kek ← unwrapWithKms env kms u wrappedKek masterKeyId
    call (Eff.modify (u.keks.modify fun m => m.insert kekId kek))
    pure kek

def unwrapDoubleWrappedKey (wrappedDek masterKeyId kekId wrappedKek : String) : Run Bytes :=
  Routine.mutex (.kekReads u.kekCache) (worldPlace.comp (readCachePlace u.kekCache)) do
    let kek ← getReadKek env kms u masterKeyId kekId wrappedKek
    let decodedKekId ← call (Eff.ofExcept (KeyUnwrapper.decodeKekId env kekId))
    call (Eff.ofOutcome (decryptEncryptionKey env wrappedDek decodedKekId kek))

def updateKmsConfig (m : KeyMaterial) : Run Unit :=
  match m.kmsInstanceId, m.kmsInstanceUrl with
  | some kmsInstanceId, some kmsInstanceUrl =>
    Routine.holding (.config u.kmsConnectionConfig) .exclusive
      (call (u.updateKmsConfigFromFooterMetadata kmsInstanceId kmsInstanceUrl))
  | _, _ => pure ()

def unwrapDek (m : KeyMaterial) : Run Bytes :=
  if m.doubleWrapping then
    match m.keyEncryptionKeyId, m.wrappedKek with
    | some kekId, some wrappedKek => unwrapDoubleWrappedKey env kms u m.wrappedDek m.masterKeyId kekId wrappedKek
    | _, _ => Routine.finish (.err (.general "Key uses double wrapping but key encryption key is not set"))
  else unwrapSingleWrappedKey env kms u m.wrappedDek m.masterKeyId

def retrieveKey (keyMetadata : Bytes) : Run Bytes := do
  let keyMaterial ← call (Eff.ofExcept (KeyUnwrapper.readMaterial env keyMetadata))
  if ¬ keyMaterial.internalStorage then
    Routine.finish (.err (.nyi "Decryption using external key material is not yet implemented"))
  else do
    updateKmsConfig u keyMaterial
    unwrapDek env kms u keyMaterial

end

/-! ## The other requests -/

/-- `KmsManager::new`. -/
def newManager : Run KmsManager := do
  let kmsClientCache ← call (ExpiringCache.new env)
  let kekReadCaches ← call (ExpiringCache.new env)
  let kekWriteCaches ← call (ExpiringCache.new env)
  pure { kmsClientCache, kekReadCaches, kekWriteCaches }

def newFactory : Run ManagerId := do
  let kmsManager ← newManager env
  call fun w => (.ok w.nextManager, { w.setManager w.nextManager kmsManager with nextManager := w.nextManager + 1 })

def refresh (config : KmsConnectionConfig) (keyAccessToken : String) : Run Unit :=
  .holding (.token config.keyAccessToken) .exclusive (call (refreshKeyAccessToken config keyAccessToken))

end Interleaved

/-! ## Threads -/

/-- What a request is answered. -/
inductive Reply where
  | factory (result : Outcome ParquetError ManagerId)
  | refreshed
  | waited
  | encryption (result : Outcome ParquetError FileEncryptionProperties)
  | decryption (result : Outcome ParquetError KeyUnwrapper)
  | key (result : Outcome ParquetError Bytes)

namespace Ledger

variable (s : Ledger)

/-! What is handed out is recorded. -/

def addFile (kmsManager : ManagerId) (config : KmsConnectionConfig) (enc : EncryptionConfiguration) :
    Outcome ParquetError FileEncryptionProperties → Ledger
  | .ok p => { s with files := s.files ++ [⟨kmsManager, config, enc, p⟩] }
  | _ => s

def addReader : Outcome ParquetError KeyUnwrapper → Ledger
  | .ok u => { s with readers := s.readers ++ [u] }
  | _ => s

def addRetrieval (u : KeyUnwrapper) (keyMetadata : Bytes) (since : Nat) (result : Outcome ParquetError Bytes) :
    Ledger :=
  { s with retrieved := s.retrieved ++ [⟨u, keyMetadata, since, s.world.log.length, result⟩] }

end Ledger

section

variable (env : Env) (kms : UserKms)

def Request.program : Request → Program LibraryLock Ledger Reply
  | .newFactory => (Interleaved.newFactory env).andThen fun r => .done (.factory r)
  | .refresh config keyAccessToken => (Interleaved.refresh config keyAccessToken).andThen fun _ => .done .refreshed
  | .wait elapsed => .atomic (worldPlace.modify fun w => w.wait elapsed) fun _ => .done .waited
  | .encrypt kmsManager config enc =>
    (Interleaved.fileEncryptionProperties env kms kmsManager config enc).andThen fun r =>
      .atomic (fun s => s.addFile kmsManager config enc r) fun _ => .done (.encryption r)
  | .decrypt kmsManager config dec =>
    (Interleaved.fileDecryptionProperties env kmsManager config dec).andThen fun r =>
      .atomic (fun s => s.addReader r) fun _ => .done (.decryption r)
  | .retrieve u keyMetadata =>
    .atomic id fun before =>
      (Interleaved.retrieveKey env kms u keyMetadata).andThen fun r =>
        .atomic (fun s => s.addRetrieval u keyMetadata before.world.log.length r) fun _ => .done (.key r)

/-- A thread: what it asks for next may depend on what it was answered, and on what all threads were handed out. -/
inductive Client where
  | stop
  | call (request : Ledger → Request) (next : Reply → Client)

def Client.program : Client → Program LibraryLock Ledger Unit
  | .stop => .done ()
  | .call request next =>
    .atomic id fun s => Program.bind ((request s).program env kms) fun reply => (next reply).program

end

/-! ## Run alone -/

/-- Nothing was handed out between the two. -/
structure Ledger.SameRecord (s s' : Ledger) : Prop where
  readers : s'.readers = s.readers
  files : s'.files = s.files
  retrieved : s'.retrieved = s.retrieved

theorem Ledger.SameRecord.refl (s : Ledger) : s.SameRecord s := ⟨rfl, rfl, rfl⟩

theorem Ledger.SameRecord.trans {s s' s'' : Ledger} (h : s.SameRecord s') (h' : s'.SameRecord s'') : s.SameRecord s'' :=
  ⟨h'.readers.trans h.readers, h'.files.trans h.files, h'.retrieved.trans h.retrieved⟩

/-- Run with nothing in between, the program does what the call does, and hands nothing out. -/
def Does {α : Type} (p : Run α) (x : Call α) : Prop :=
  ∀ s, ∃ s', p.alone s = ((x s.world).1, s') ∧ s'.world = (x s.world).2 ∧ s.SameRecord s'

namespace Does

variable {α β : Type} {p : Run α} {x : Call α}

theorem call (x : Call α) : Does (call x) x := fun _ => ⟨_, rfl, rfl, rfl, rfl, rfl⟩

theorem pure (a : α) : Does (pure a) (pure a) := fun s => ⟨s, rfl, rfl, .refl s⟩

theorem finish (r : Outcome ParquetError α) :
    Does (Routine.finish r) (Eff.ofOutcome r) := fun s => ⟨s, rfl, rfl, .refl s⟩

theorem bind {f : α → Run β} {g : α → Call β} (hp : Does p x) (hf : ∀ a, Does (f a) (g a)) :
    Does (p >>= f) (x >>= g) := by
  intro s
  obtain ⟨s', hrun, hworld, hsame⟩ := hp s
  rw [Routine.alone_bind, bind_run, bind_run, hrun]
  rcases hx : x s.world with ⟨a | e | _, w'⟩
  · rw [hx] at hworld
    obtain ⟨s'', hrun', hworld', hsame'⟩ := hf a s'
    rw [show s'.world = w' from hworld] at hrun' hworld'
    exact ⟨s'', hrun', hworld', hsame.trans hsame'⟩
  · rw [hx] at hworld
    exact ⟨s', rfl, hworld, hsame⟩
  · rw [hx] at hworld
    exact ⟨s', rfl, hworld, hsame⟩

theorem holding {l : LibraryLock} {mode : Mode} (hp : Does p x) : Does (Routine.holding l mode p) x := by
  intro s
  rw [Routine.alone_holding]
  exact hp s

theorem unwrap (hp : Does p x) : Does (Routine.unwrap p) (Eff.unwrap x) := by
  intro s
  obtain ⟨s', hrun, hworld, hsame⟩ := hp s
  rw [Routine.alone_unwrap]
  unfold Eff.unwrap
  rw [hrun]
  rcases hx : x s.world with ⟨a | e | _, w'⟩ <;> rw [hx] at hworld <;> exact ⟨s', rfl, hworld, hsame⟩

theorem mutex {l : LibraryLock} {m : Place World (Mutex β)} (hp : Does p x) :
    Does (Routine.mutex l (worldPlace.comp m) p) (lock m x) := by
  intro s
  obtain ⟨s', hrun, hworld, hsame⟩ := hp s
  rw [Routine.alone_mutex]
  unfold lock
  by_cases hpois : (m.get s.world).poisoned = true
  · rw [if_pos hpois, if_pos (show ((worldPlace.comp m).get s).poisoned = true from hpois)]
    exact ⟨s, rfl, rfl, .refl s⟩
  · rw [if_neg hpois, if_neg (show ¬ ((worldPlace.comp m).get s).poisoned = true from hpois), hrun]
    rcases hx : x s.world with ⟨a | e | _, w'⟩
    · rw [hx] at hworld
      exact ⟨s', rfl, hworld, hsame⟩
    · rw [hx] at hworld
      exact ⟨s', rfl, hworld, hsame⟩
    · rw [hx] at hworld
      cases hworld
      exact ⟨_, rfl, rfl, hsame.readers, hsame.files, hsame.retrieved⟩

theorem ite {c : Prop} [Decidable c] {p' : Run α} {x' : Call α} (h : Does p x) (h' : Does p' x') :
    Does (if c then p else p') (if c then x else x') := by
  split
  · exact h
  · exact h'

end Does

/-- The user's KMS, run alone, is the one of the surroundings. -/
structure UserKms.Realises (kms : UserKms) (env : Env) : Prop where
  createClient : ∀ config, Does (kms.createClient config) (ParquetKeyManagement.createClient env config)
  wrapKey : ∀ client keyBytes masterKeyId,
    Does (kms.wrapKey client keyBytes masterKeyId) (ParquetKeyManagement.wrapKey env client keyBytes masterKeyId)
  unwrapKey : ∀ client wrapped masterKeyId,
    Does (kms.unwrapKey client wrapped masterKeyId) (ParquetKeyManagement.unwrapKey env client wrapped masterKeyId)

theorem UserKms.ofEnv_realises (env : Env) : (UserKms.ofEnv env).Realises env where
  createClient _ := .call _
  wrapKey _ _ _ := .call _
  unwrapKey _ _ _ := .call _

theorem UserKms.readingToken_realises (env : Env) : (UserKms.readingToken env).Realises env :=
  { UserKms.ofEnv_realises env with createClient := fun _ => .holding (.call _) }

/-- Behind the bridge an asynchronous KMS is the same one, in any runtime but a single-threaded `tokio`. -/
theorem UserKms.Realises.bridge {kms : UserKms} {env : Env} (h : kms.Realises env) {r : ReenterAsync}
    (hr : r ≠ .tokio false) : (UserKms.bridge r kms).Realises env := by
  have hreenter : ∀ {α : Type} (p : Run α), r.reenter p = p := by
    intro α p
    cases r with
    | asyncStd => rfl
    | smol => rfl
    | tokio multiThreaded =>
      cases multiThreaded with
      | true => rfl
      | false => exact absurd rfl hr
  constructor
  · intro config
    show Does (r.reenter _) _
    rw [hreenter]
    exact h.createClient config
  · intro client keyBytes masterKeyId
    show Does (r.reenter _) _
    rw [hreenter]
    exact h.wrapKey client keyBytes masterKeyId
  · intro client wrapped masterKeyId
    show Does (r.reenter _) _
    rw [hreenter]
    exact h.unwrapKey client wrapped masterKeyId

namespace Interleaved

variable {env : Env} {kms : UserKms}

theorem does_clearExpired (m : ManagerId) (c : CacheName) (cleanupInterval : Duration) :
    Does (clearExpired env m c cleanupInterval) (c.clearExpired env m cleanupInterval) := by
  rw [CacheName.clearExpired_eq]
  refine Does.bind (Does.holding (.call _)) fun due => ?_
  cases due with
  | true => exact Does.holding (.call _)
  | false => exact .pure ()

theorem does_clearExpiredEntries (m : ManagerId) (cleanupInterval : Option Duration) :
    Does (clearExpiredEntries env m cleanupInterval) (KmsManager.clearExpiredEntries env m cleanupInterval) := by
  cases cleanupInterval with
  | none => exact .pure ()
  | some d =>
    refine (does_clearExpired m .kmsClients d).bind fun _ => ?_
    refine (does_clearExpired m .kekReadCaches d).bind fun _ => ?_
    exact does_clearExpired m .kekWriteCaches d

theorem does_getOrCreate {κ ν : Type} [DecidableEq κ] {l : LibraryLock}
    {place : Place World (ExpiringCache κ ν)} {key : κ}
    {cacheLifetime : Option Duration} {creator : Run ν} {x : Call ν} (h : Does creator x) :
    Does (getOrCreate env l place key cacheLifetime creator)
      (ExpiringCache.getOrCreate env place key cacheLifetime x) := by
  refine Does.mutex ?_
  rw [ExpiringCache.lookupOrCreate_eq]
  refine (Does.call _).bind fun found => ?_
  cases found with
  | some value => exact .pure value
  | none => exact h.bind fun value => .call _

theorem does_getClient (h : kms.Realises env) (m : ManagerId) (config : KmsConnectionConfig)
    (lifetime : Option Duration) :
    Does (getClient env kms m config lifetime) (KmsManager.getClient env m config lifetime) := by
  refine (does_clearExpiredEntries m lifetime).bind fun _ => ?_
  exact Does.holding ((Does.call _).bind fun token => does_getOrCreate (h.createClient config))

theorem does_readToken (config : KmsConnectionConfig) :
    Does (readToken config) (keyAccessToken config) := .holding (.call _)

theorem does_getKekReadCache (m : ManagerId) (config : KmsConnectionConfig) (lifetime : Option Duration) :
    Does (getKekReadCache env m config lifetime) (KmsManager.getKekReadCache env m config lifetime) := by
  refine (does_clearExpiredEntries m lifetime).bind fun _ => ?_
  exact (does_readToken config).bind fun token => (does_getOrCreate (.call _)).unwrap

theorem does_getKekWriteCache (m : ManagerId) (config : KmsConnectionConfig) (lifetime : Option Duration) :
    Does (getKekWriteCache env m config lifetime) (KmsManager.getKekWriteCache env m config lifetime) := by
  refine (does_clearExpiredEntries m lifetime).bind fun _ => ?_
  exact (does_readToken config).bind fun token => (does_getOrCreate (.call _)).unwrap

theorem does_drawKeyId (key : Bytes) : Does (Routine.ofCall (drawKeyId env key)) (fill env kekLen) := by
  intro s
  rw [Routine.alone_ofCall]
  unfold drawKeyId
  rcases fill env kekLen s.world with ⟨a | e | _, w⟩
  · exact ⟨_, rfl, rfl, rfl, rfl, rfl⟩
  · exact ⟨_, rfl, rfl, rfl, rfl, rfl⟩
  · exact ⟨_, rfl, rfl, rfl, rfl, rfl⟩

theorem does_generateKek (h : kms.Realises env) (m : ManagerId) (config : KmsConnectionConfig)
    (lifetime : Option Duration)
    (masterKeyId : String) : Does (generateKeyEncryptionKey env kms m config lifetime masterKeyId)
      (ParquetKeyManagement.generateKeyEncryptionKey env masterKeyId m config lifetime) := by
  refine (Does.call _).bind fun key => (does_drawKeyId key).bind fun keyId => ?_
  refine (does_getClient h m config lifetime).bind fun client => ?_
  exact (h.wrapKey client key masterKeyId).bind fun wrappedKey => .pure _

theorem does_getWriteKek (h : kms.Realises env) (k : KeyWrapper) (masterKeyId : String) :
    Does (getWriteKek env kms k masterKeyId) (k.getKek env masterKeyId) := by
  refine (Does.call _).bind fun keks => ?_
  cases keks.lookup masterKeyId with
  | some kek => exact .pure kek
  | none =>
    exact (does_generateKek h _ _ _ masterKeyId).bind fun kek => (Does.call _).bind fun _ => .pure kek

theorem does_getKeyMetadata (h : kms.Realises env) (k : KeyWrapper) (key : Bytes) (masterKeyId : String)
    (isFooterKey : Bool) :
    Does (getKeyMetadata env kms k key masterKeyId isFooterKey) (k.getKeyMetadata env key masterKeyId isFooterKey) := by
  refine Does.bind (Does.ite ?_ ?_) fun m => (Does.call _).bind fun text => .pure _
  · refine Does.mutex ((does_getWriteKek h k masterKeyId).bind fun kek => ?_)
    exact (Does.call _).bind fun wrappedDek => .call _
  · refine (does_getClient h _ _ _).bind fun client => ?_
    exact (h.wrapKey client key masterKeyId).bind fun wrapped => .call _

theorem does_generateKey (h : kms.Realises env) (k : KeyWrapper) (masterKeyId : String) (isFooterKey : Bool) :
    Does (generateKey env kms k masterKeyId isFooterKey) (CryptoFactory.generateKey env masterKeyId isFooterKey k) :=
  (Does.call _).bind fun key => (does_getKeyMetadata h k key masterKeyId isFooterKey).bind fun _ => .pure _

theorem does_addColumns (h : kms.Realises env) (k : KeyWrapper) (masterKeyId : String) (columnPaths : List String)
    (b : FileEncryptionProperties) : Does (addColumns env kms k masterKeyId columnPaths b)
      (CryptoFactory.addColumns env k masterKeyId columnPaths b) := by
  induction columnPaths generalizing b with
  | nil => exact .pure b
  | cons columnPath columnPaths ih => exact (does_generateKey h k masterKeyId false).bind fun key => ih _

theorem does_addColumnKeys (h : kms.Realises env) (k : KeyWrapper) (es : List (Sigma fun _ : String => List String))
    (b : FileEncryptionProperties) : Does (addColumnKeys env kms k es b) (CryptoFactory.addColumnKeys env k es b) := by
  induction es generalizing b with
  | nil => exact .pure b
  | cons e es ih => exact (does_addColumns h k e.1 e.2 b).bind fun b' => ih b'

theorem does_fileEncryptionProperties (h : kms.Realises env) (m : ManagerId) (config : KmsConnectionConfig)
    (enc : EncryptionConfiguration) : Does (fileEncryptionProperties env kms m config enc)
      (CryptoFactory.fileEncryptionProperties env m config enc) := by
  refine Does.ite (.finish _) (Does.ite (.finish _) ?_)
  refine Does.bind ((does_getKekWriteCache m config _).bind fun a => .pure _) fun k => ?_
  refine (does_generateKey h k _ true).bind fun footerKey => ?_
  exact (Does.call _).bind fun order => does_addColumnKeys h k _ _

theorem does_fileDecryptionProperties (m : ManagerId) (config : KmsConnectionConfig) (dec : DecryptionConfiguration) :
    Does (fileDecryptionProperties env m config dec) (CryptoFactory.fileDecryptionProperties env m config dec) :=
  (does_getKekReadCache m config _).bind fun _ => (Does.call _).bind fun _ => .pure _

theorem does_unwrapWithKms (h : kms.Realises env) (u : KeyUnwrapper) (wrapped masterKeyId : String) :
    Does (unwrapWithKms env kms u wrapped masterKeyId) (u.unwrapWithKms env wrapped masterKeyId) :=
  (Does.call _).bind fun config => (does_getClient h _ config _).bind fun client =>
    h.unwrapKey client wrapped masterKeyId

theorem does_getReadKek (h : kms.Realises env) (u : KeyUnwrapper) (masterKeyId kekId wrappedKek : String) :
    Does (getReadKek env kms u masterKeyId kekId wrappedKek) (u.getKek env masterKeyId kekId wrappedKek) := by
  refine (Does.call _).bind fun keks => ?_
  cases keks.lookup kekId with
  | some kek => exact .pure kek
  | none =>
    exact Does.holding ((does_unwrapWithKms h u wrappedKek masterKeyId).bind
      fun kek => (Does.call _).bind fun _ => .pure kek)

theorem does_updateKmsConfig (u : KeyUnwrapper) (m : KeyMaterial) :
    Does (updateKmsConfig u m) (u.updateKmsConfig m) := by
  unfold updateKmsConfig KeyUnwrapper.updateKmsConfig
  cases m.kmsInstanceId with
  | none => exact .pure ()
  | some id =>
    cases m.kmsInstanceUrl with
    | none => exact .pure ()
    | some url => exact .holding (.call _)

theorem does_unwrapDek (h : kms.Realises env) (u : KeyUnwrapper) (m : KeyMaterial) :
    Does (unwrapDek env kms u m) (u.unwrapDek env m) := by
  refine Does.ite ?_ (.holding (does_unwrapWithKms h u _ _))
  cases m.keyEncryptionKeyId with
  | none => exact .finish _
  | some kekId =>
    cases m.wrappedKek with
    | none => exact .finish _
    | some wrappedKek =>
      refine Does.mutex ((does_getReadKek h u _ kekId wrappedKek).bind fun kek => ?_)
      exact (Does.call _).bind fun decoded => .call _

theorem does_retrieveKey (h : kms.Realises env) (u : KeyUnwrapper) (keyMetadata : Bytes) :
    Does (retrieveKey env kms u keyMetadata) (u.retrieveKey env keyMetadata) := by
  refine (Does.call _).bind fun m => Does.ite (.finish _) ?_
  exact (does_updateKmsConfig u m).bind fun _ => does_unwrapDek h u m

theorem does_newFactory : Does (newFactory env) (CryptoFactory.new env) := by
  refine Does.bind ?_ fun kmsManager => .call _
  exact (Does.call _).bind fun c1 => (Does.call _).bind fun c2 => (Does.call _).bind fun c3 => .pure _

end Interleaved

/-! ## Requests run alone -/

/-- What the sequential request is answered. -/
def Request.reply (env : Env) (w : World) : Request → Reply
  | .newFactory => .factory (CryptoFactory.new env w).1
  | .refresh _ _ => .refreshed
  | .wait _ => .waited
  | .encrypt kmsManager config enc => .encryption (CryptoFactory.fileEncryptionProperties env kmsManager config enc w).1
  | .decrypt kmsManager config dec => .decryption (CryptoFactory.fileDecryptionProperties env kmsManager config dec w).1
  | .retrieve u keyMetadata => .key (u.retrieveKey env keyMetadata w).1

/-- The ledger shows the system. -/
structure Ledger.Shows (s : Ledger) (sys : System) : Prop where
  world : s.world = sys.world
  files : s.files = sys.files
  readers : s.readers = sys.readers.map Reader.unwrapper

section

variable {env : Env} {kms : UserKms}

theorem Does.andThen {α ρ : Type} {p : Run α} {x : Call α} (h : Does p x)
    (f : Outcome ParquetError α → Program LibraryLock Ledger ρ) (s : Ledger) :
    ∃ s', (p.andThen f).alone s = (f (x s.world).1).alone s' ∧ s'.world = (x s.world).2 ∧ s.SameRecord s' := by
  obtain ⟨s', hrun, hworld, hsame⟩ := h s
  refine ⟨s', ?_, hworld, hsame⟩
  rw [Routine.alone_andThen, hrun]

/-- A request that nothing comes in between does what the sequential one does, and is answered the same. -/
theorem Request.alone_program (h : kms.Realises env) (r : Request) {s : Ledger} {sys : System} (hs : s.Shows sys) :
    ∃ s', (r.program env kms).alone s = (r.reply env sys.world, s') ∧ s'.Shows (sys.exec env r) := by
  obtain ⟨hworld, hfiles, hreaders⟩ := hs
  rw [← hworld]
  -- what is handed out is added to what was
  have hshows : ∀ {s' : Ledger}, s'.world = System.after env sys.world r →
      s'.files = s.files ++ System.written env sys.world r →
      s'.readers = s.readers ++ (System.opened env sys.world r).map Reader.unwrapper → s'.Shows (sys.exec env r) := by
    intro s' hw hf hr
    refine ⟨hw, by rw [hf, hfiles]; rfl, ?_⟩
    rw [hr, hreaders, System.exec, List.map_append]
  rw [← hworld] at hshows
  cases r with
  | newFactory =>
    obtain ⟨s', hrun, hafter, hsame⟩ := (@Interleaved.does_newFactory env).andThen (fun r => .done (Reply.factory r)) s
    exact ⟨s', hrun, hshows hafter (by simp [hsame.files, System.written]) (by simp [hsame.readers, System.opened])⟩
  | refresh config token =>
    have hdoes : Does (Interleaved.refresh config token) (refreshKeyAccessToken config token) := .holding (.call _)
    obtain ⟨s', hrun, hafter, hsame⟩ := hdoes.andThen (fun _ => .done Reply.refreshed) s
    exact ⟨s', hrun, hshows hafter (by simp [hsame.files, System.written]) (by simp [hsame.readers, System.opened])⟩
  | wait elapsed =>
    exact ⟨_, rfl, hshows rfl (List.append_nil _).symm (List.append_nil _).symm⟩
  | encrypt m config enc =>
    obtain ⟨s', hrun, hafter, hsame⟩ := (Interleaved.does_fileEncryptionProperties h m config enc).andThen
      (fun r => .atomic (fun s => s.addFile m config enc r) fun _ => .done (Reply.encryption r)) s
    refine ⟨_, hrun, hshows ?_ ?_ ?_⟩
    · cases (CryptoFactory.fileEncryptionProperties env m config enc s.world).1 <;> exact hafter
    · cases hr : (CryptoFactory.fileEncryptionProperties env m config enc s.world).1 <;>
        simp [System.written, Ledger.addFile, hr, hsame.files]
    · cases (CryptoFactory.fileEncryptionProperties env m config enc s.world).1 <;>
        simp [System.opened, Ledger.addFile, hsame.readers]
  | decrypt m config dec =>
    obtain ⟨s', hrun, hafter, hsame⟩ := (@Interleaved.does_fileDecryptionProperties env m config dec).andThen
      (fun r => .atomic (fun s => s.addReader r) fun _ => .done (Reply.decryption r)) s
    refine ⟨_, hrun, hshows ?_ ?_ ?_⟩
    · cases (CryptoFactory.fileDecryptionProperties env m config dec s.world).1 <;> exact hafter
    · cases (CryptoFactory.fileDecryptionProperties env m config dec s.world).1 <;>
        simp [System.written, Ledger.addReader, hsame.files]
    · cases hr : (CryptoFactory.fileDecryptionProperties env m config dec s.world).1 <;>
        simp [System.opened, Ledger.addReader, hr, hsame.readers]
  | retrieve u keyMetadata =>
    obtain ⟨s', hrun, hafter, hsame⟩ := (Interleaved.does_retrieveKey h u keyMetadata).andThen
      (fun r => .atomic (fun s' => s'.addRetrieval u keyMetadata s.world.log.length r) fun _ => .done (Reply.key r)) s
    exact ⟨_, hrun, hshows hafter (by simp [Ledger.addRetrieval, hsame.files, System.written])
      (by simp [Ledger.addRetrieval, hsame.readers, System.opened])⟩

end

end ParquetKeyManagement
