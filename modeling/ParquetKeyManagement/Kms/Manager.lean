/-
  ParquetKeyManagement.Kms.Manager — the registry of a `CryptoFactory` (`kms_manager.rs`):
  expiring caches of KMS clients, keyed by access token and KMS instance id, and of KEK
  caches, keyed by access token.

  `getOrCreate` runs under the cache's mutex, its creator included. A hit returns the stored
  value; an absent or expired entry is created and stored with the caller's lifetime, and
  computing `now + lifetime` panics when the sum is no `Instant`. `clearExpired` is skipped
  while the last cleanup is more recent than the caller's interval.
-/

import ParquetKeyManagement.Kms.World

namespace ParquetKeyManagement

open Effect

variable (env : Env) {κ ν : Type}

/-! ## Entries -/

/-- `now() + d`. -/
def expirationAfter (d : Duration) : Call Instant := do
  let t ← now env
  match t.checkedAdd d with
  | some e => pure e
  | none => Eff.panic

namespace ExpiringCacheValue

def new (value : ν) (cacheDuration : Option Duration) : Call (ExpiringCacheValue ν) :=
  match cacheDuration with
  | none => pure ⟨value, none⟩
  | some d => do
    let e ← expirationAfter env d
    pure ⟨value, some e⟩

def isValid (v : ExpiringCacheValue ν) : Call Bool :=
  match v.expirationTime with
  | none => pure true
  | some expirationTime => do
    let t ← now env
    pure (decide (t < expirationTime))

end ExpiringCacheValue

/-! ## Expiring caches -/

namespace ExpiringCache

variable [DecidableEq κ] (place : Place World (ExpiringCache κ ν))

def new : Call (ExpiringCache κ ν) := do
  let t ← now env
  pure ⟨Mutex.new ∅, t⟩

/-- The entries under the held mutex. -/
def entries : Place World (HashMap κ (ExpiringCacheValue ν)) := (cacheLock place).comp mutexData

/-- The branch of `get_or_create` without a valid entry. -/
def create (key : κ) (cacheLifetime : Option Duration) (creator : Call ν) : Call ν := do
  let value ← creator
  let entry ← ExpiringCacheValue.new env value cacheLifetime
  Eff.modify ((entries place).modify fun cache => cache.insert key entry)
  pure value

/-- What `get_or_create` does while it holds the mutex. -/
def lookupOrCreate (key : κ) (cacheLifetime : Option Duration) (creator : Call ν) : Call ν := do
  let cache ← Eff.read (entries place).get
  match cache.lookup key with
  | some entry => do
    let valid ← entry.isValid env
    if valid then pure entry.value else create env place key cacheLifetime creator
  | none => create env place key cacheLifetime creator

def getOrCreate (key : κ) (cacheLifetime : Option Duration) (creator : Call ν) : Call ν :=
  lock (cacheLock place) (lookupOrCreate env place key cacheLifetime creator)

/-- The keys of the entries that are not valid, each checked at its own reading of the
    clock. -/
def toRemove : List (Sigma fun _ : κ => ExpiringCacheValue ν) → Call (List κ)
  | [] => pure []
  | e :: es => do
    let valid ← e.2.isValid env
    let rest ← toRemove es
    pure (if valid then rest else e.1 :: rest)

/-- Remove any expired entries from the cache. -/
def clearExpired (cleanupInterval : Duration) : Call Unit := do
  let lastCleanup ← Eff.read fun w => (place.get w).lastCleanup
  let instantNow ← now env
  -- a difference of instants saturates at zero
  if instantNow - lastCleanup < cleanupInterval.nanos then pure ()
  else do
    Eff.modify (place.modify fun c => { c with lastCleanup := instantNow })
    lock (cacheLock place) do
      let cache ← Eff.read (entries place).get
      let order ← iterationOrder env
      let keys ← toRemove env (HashMap.inOrder order cache)
      Eff.modify ((entries place).modify (HashMap.eraseAll keys))

/-! The sections that `get_or_create` and `clear_expired` are made of: what runs between taking
a lock and giving it, or control, away. -/

/-- The section of `clear_expired` under the lock of `last_cleanup`: whether to clean up. -/
def cleanupDue (cleanupInterval : Duration) : Call Bool := do
  let lastCleanup ← Eff.read fun w => (place.get w).lastCleanup
  let instantNow ← now env
  if instantNow - lastCleanup < cleanupInterval.nanos then pure false
  else do
    Eff.modify (place.modify fun c => { c with lastCleanup := instantNow })
    pure true

/-- The section of `clear_expired` under the lock of the cache. -/
def removeExpired : Call Unit := do
  let cache ← Eff.read (entries place).get
  let order ← iterationOrder env
  let keys ← toRemove env (HashMap.inOrder order cache)
  Eff.modify ((entries place).modify (HashMap.eraseAll keys))

theorem clearExpired_eq (cleanupInterval : Duration) :
    clearExpired env place cleanupInterval = (do
      let due ← cleanupDue env place cleanupInterval
      if due then lock (cacheLock place) (removeExpired env place) else pure ()) := by
  unfold clearExpired cleanupDue
  rw [bind_assoc]
  refine congrArg _ (funext fun lastCleanup => ?_)
  rw [bind_assoc]
  refine congrArg _ (funext fun instantNow => ?_)
  by_cases hc : instantNow - lastCleanup < cleanupInterval.nanos
  · rw [if_pos hc, if_pos hc]
    rfl
  · rw [if_neg hc, if_neg hc]
    rfl

/-- The valid entry of `get_or_create`, if there is one. -/
def findValid (key : κ) : Call (Option ν) := do
  let cache ← Eff.read (entries place).get
  match cache.lookup key with
  | some entry => do
    let valid ← entry.isValid env
    pure (if valid then some entry.value else none)
  | none => pure none

/-- Storing what the creator returned. -/
def store (key : κ) (cacheLifetime : Option Duration) (value : ν) : Call ν := do
  let entry ← ExpiringCacheValue.new env value cacheLifetime
  Eff.modify ((entries place).modify fun cache => cache.insert key entry)
  pure value

theorem create_eq (key : κ) (cacheLifetime : Option Duration) (creator : Call ν) :
    create env place key cacheLifetime creator = creator >>= store env place key cacheLifetime := rfl

theorem lookupOrCreate_eq (key : κ) (cacheLifetime : Option Duration) (creator : Call ν) :
    lookupOrCreate env place key cacheLifetime creator = (do
      match ← findValid env place key with
      | some value => pure value
      | none => creator >>= store env place key cacheLifetime) := by
  unfold lookupOrCreate findValid
  rw [bind_assoc]
  refine congrArg _ (funext fun cache => ?_)
  cases cache.lookup key with
  | none => rfl
  | some entry =>
    simp only
    rw [bind_assoc]
    refine congrArg _ (funext fun valid => ?_)
    cases valid <;> rfl

end ExpiringCache

/-! ## The registry -/

namespace KmsManager

def new : Call KmsManager := do
  let kmsClientCache ← ExpiringCache.new env
  let kekReadCaches ← ExpiringCache.new env
  let kekWriteCaches ← ExpiringCache.new env
  pure { kmsClientCache, kekReadCaches, kekWriteCaches }

variable (m : ManagerId) (kmsConnectionConfig : KmsConnectionConfig) (cacheLifetime : Option Duration)

def clearExpiredEntries (cleanupInterval : Option Duration) : Call Unit :=
  match cleanupInterval with
  | none => pure ()
  | some cleanupInterval => do
    ExpiringCache.clearExpired env (clientCachePlace m) cleanupInterval
    ExpiringCache.clearExpired env (readCachesPlace m) cleanupInterval
    ExpiringCache.clearExpired env (writeCachesPlace m) cleanupInterval

/-- The token cell is read-locked from the first reading of the token to the end. -/
def getClient : Call KmsClient := do
  clearExpiredEntries env m cacheLifetime
  let token ← keyAccessToken kmsConnectionConfig
  ExpiringCache.getOrCreate env (clientCachePlace m) ⟨token, kmsConnectionConfig.kmsInstanceId⟩ cacheLifetime
    (createClient env kmsConnectionConfig)

/-- A new, empty KEK cache. -/
def newReadCache (token : String) : Call KekReadCache := fun w =>
  (.ok w.nextReadCache,
    { w with readCaches := Function.update w.readCaches w.nextReadCache (Mutex.new ∅),
             readCacheOwner := Function.update w.readCacheOwner w.nextReadCache (m, token),
             nextReadCache := w.nextReadCache + 1 })

def newWriteCache (token : String) : Call KekWriteCache := fun w =>
  (.ok w.nextWriteCache,
    { w with writeCaches := Function.update w.writeCaches w.nextWriteCache (Mutex.new ∅),
             writeCacheOwner := Function.update w.writeCacheOwner w.nextWriteCache (m, token),
             nextWriteCache := w.nextWriteCache + 1 })

def getKekReadCache : Call KekReadCache := do
  clearExpiredEntries env m cacheLifetime
  let token ← keyAccessToken kmsConnectionConfig
  Eff.unwrap (ExpiringCache.getOrCreate env (readCachesPlace m) ⟨token⟩ cacheLifetime (newReadCache m token))

def getKekWriteCache : Call KekWriteCache := do
  clearExpiredEntries env m cacheLifetime
  let token ← keyAccessToken kmsConnectionConfig
  Eff.unwrap (ExpiringCache.getOrCreate env (writeCachesPlace m) ⟨token⟩ cacheLifetime (newWriteCache m token))

end KmsManager

end ParquetKeyManagement
