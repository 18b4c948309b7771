/-
  ParquetKeyManagement.Kms.Threads — any number of threads that call `get_client` and
  `refresh_key_access_token`, interleaved where locks are taken and released.

  A call is cut at its locks. `Pc` says where a thread is: at a lock it asks for (`at…`), or
  inside the section that lock guards (`in…`); `discipline` says which guards it holds there.
  A section runs in one step, up to the release that ends it, and does to the shared state
  what the same lines do in `Kms.Manager` (`cleanupDue`, `removeExpired`, `findValid`,
  `store`). The guard of the token's read lock is held from `atGetOrCreate` to
  `returning`, and a second one while the client factory reads the token.

  Kept for the statements, and read by no step: how often a token was written (`moment`), the
  tokens after each write, and what the factory, the client cache and the callers were given.
-/

import ParquetKeyManagement.Kms.Registry
import ParquetKeyManagement.Support.Locks

namespace ParquetKeyManagement

open Effect Locks

variable (env : Env)

/-- The expiring caches of a manager. -/
inductive CacheName where
  | kmsClients
  | kekReadCaches
  | kekWriteCaches
  deriving DecidableEq

namespace CacheName

variable (m : ManagerId)

def cleanupDue (cleanupInterval : Duration) : CacheName → Call Bool
  | .kmsClients => ExpiringCache.cleanupDue env (clientCachePlace m) cleanupInterval
  | .kekReadCaches => ExpiringCache.cleanupDue env (readCachesPlace m) cleanupInterval
  | .kekWriteCaches => ExpiringCache.cleanupDue env (writeCachesPlace m) cleanupInterval

def removeExpired : CacheName → Call Unit
  | .kmsClients => lock (cacheLock (clientCachePlace m)) (ExpiringCache.removeExpired env (clientCachePlace m))
  | .kekReadCaches => lock (cacheLock (readCachesPlace m)) (ExpiringCache.removeExpired env (readCachesPlace m))
  | .kekWriteCaches => lock (cacheLock (writeCachesPlace m)) (ExpiringCache.removeExpired env (writeCachesPlace m))

end CacheName

/-! ## Where a thread is -/

/-- A call of `get_client`. -/
structure GetClient where
  kmsConnectionConfig : KmsConnectionConfig
  cacheLifetime : Option Duration

namespace GetClient

variable (call : GetClient)

/-- The token cell of its configuration. -/
def cell : TokenCell := call.kmsConnectionConfig.keyAccessToken

/-- What it looks for, with this token. -/
def key (token : String) : ClientKey := ⟨token, call.kmsConnectionConfig.kmsInstanceId⟩

end GetClient

inductive ThreadCall where
  | getClient (call : GetClient)
  | refreshKeyAccessToken (kmsConnectionConfig : KmsConnectionConfig) (keyAccessToken : String)

/-- `token` is the one a `get_client` read, `since` the moment it did, and `started` the moment
    it called the client factory. -/
inductive Pc where
  | idle
  | atLastCleanup (call : GetClient) (interval : Duration) (c : CacheName)
  | inLastCleanup (call : GetClient) (interval : Duration) (c : CacheName)
  | atClear (call : GetClient) (interval : Duration) (c : CacheName)
  | inClear (call : GetClient) (interval : Duration) (c : CacheName)
  | atReadToken (call : GetClient)
  | atGetOrCreate (call : GetClient) (token : String) (since : Nat)
  | inGetOrCreate (call : GetClient) (token : String) (since : Nat)
  | atFactory (call : GetClient) (token : String) (since started : Nat)
  | inFactory (call : GetClient) (token : String) (since started : Nat)
  | created (call : GetClient) (token : String) (since : Nat) (result : Outcome ParquetError KmsClient)
  | returning (call : GetClient) (token : String) (since : Nat) (result : Outcome ParquetError KmsClient)
  | atRefresh (kmsConnectionConfig : KmsConnectionConfig) (keyAccessToken : String)
  | inRefresh (kmsConnectionConfig : KmsConnectionConfig) (keyAccessToken : String)

inductive LockName where
  | lastCleanup (c : CacheName)
  | cache (c : CacheName)
  | token (cell : TokenCell)
  deriving DecidableEq

namespace Pc

/-- The guards held there, the newest first. -/
def guards : Pc → List (LockName × Mode)
  | .inLastCleanup _ _ c => [(.lastCleanup c, .exclusive)]
  | .inClear _ _ c => [(.cache c, .exclusive)]
  | .atGetOrCreate call _ _ => [(.token call.cell, .shared)]
  | .inGetOrCreate call _ _ => [(.cache .kmsClients, .exclusive), (.token call.cell, .shared)]
  | .atFactory call _ _ _ => [(.cache .kmsClients, .exclusive), (.token call.cell, .shared)]
  | .inFactory call _ _ _ =>
    [(.token call.cell, .shared), (.cache .kmsClients, .exclusive), (.token call.cell, .shared)]
  | .created call _ _ _ => [(.cache .kmsClients, .exclusive), (.token call.cell, .shared)]
  | .returning call _ _ _ => [(.token call.cell, .shared)]
  | .inRefresh config _ => [(.token config.keyAccessToken, .exclusive)]
  | _ => []

/-- The lock asked for there. -/
def wants : Pc → Option (LockName × Mode)
  | .atLastCleanup _ _ c => some (.lastCleanup c, .exclusive)
  | .atClear _ _ c => some (.cache c, .exclusive)
  | .atReadToken call => some (.token call.cell, .shared)
  | .atGetOrCreate _ _ _ => some (.cache .kmsClients, .exclusive)
  | .atFactory call _ _ _ => some (.token call.cell, .shared)
  | .atRefresh config _ => some (.token config.keyAccessToken, .exclusive)
  | _ => none

end Pc

def discipline : Discipline LockName Pc := ⟨Pc.guards, Pc.wants⟩

/-- Where `get_client` begins: without a lifetime nothing is cleaned up. -/
def GetClient.start (call : GetClient) : Pc :=
  match call.cacheLifetime with
  | none => .atReadToken call
  | some cleanupInterval => .atLastCleanup call cleanupInterval .kmsClients

/-- What follows `clear_expired` of a cache. -/
def GetClient.afterClear (call : GetClient) (interval : Duration) : CacheName → Pc
  | .kmsClients => .atLastCleanup call interval .kekReadCaches
  | .kekReadCaches => .atLastCleanup call interval .kekWriteCaches
  | .kekWriteCaches => .atReadToken call

def ThreadCall.start : ThreadCall → Pc
  | .getClient call => call.start
  | .refreshKeyAccessToken config token => .atRefresh config token

/-! ## The state -/

/-- A call of the client factory that returned a client, with the moments it began and ended. -/
structure FactoryCall where
  kmsConnectionConfig : KmsConnectionConfig
  client : KmsClient
  started : Nat
  ended : Nat

/-- A call of `get_client` that ended, with the moments it read the token and ended. -/
structure ClientReturn where
  kmsConnectionConfig : KmsConnectionConfig
  result : Outcome ParquetError KmsClient
  readAt : Nat
  ended : Nat

/-- Threads `τ` over a shared state. -/
structure Machine (τ : Type) where
  world : World
  pc : τ → Pc
  todo : τ → List ThreadCall
  moment : Nat
  tokensAt : Nat → TokenCell → String
  factoryCalls : List FactoryCall
  stored : List (ClientKey × KmsClient)
  returned : List ClientReturn

namespace Machine

variable {τ : Type} [DecidableEq τ] (m : ManagerId) (s : Machine τ) (t : τ)

def init (w : World) (todo : τ → List ThreadCall) : Machine τ where
  world := w
  pc _ := .idle
  todo := todo
  moment := 0
  tokensAt _ := w.tokens
  factoryCalls := []
  stored := []
  returned := []

def goto (p : Pc) : Machine τ := { s with pc := Function.update s.pc t p }

@[simp] theorem goto_pc_self (p : Pc) : (s.goto t p).pc t = p := Function.update_self ..

theorem goto_pc_of_ne (p : Pc) {t' : τ} (h : t' ≠ t) : (s.goto t p).pc t' = s.pc t' := Function.update_of_ne h ..

/-- Where a thread is when it has the lock it asked for. -/
def acquired : Pc → Pc
  | .atLastCleanup call interval c => .inLastCleanup call interval c
  | .atClear call interval c => .inClear call interval c
  | .atReadToken call => .atGetOrCreate call (s.world.tokens call.cell) s.moment
  | .atGetOrCreate call token since => .inGetOrCreate call token since
  | .atFactory call token since started => .inFactory call token since started
  | .atRefresh config token => .inRefresh config token
  | p => p

/-! The sections, each up to the release that ends it. -/

def lastCleanup (call : GetClient) (interval : Duration) (c : CacheName) : Machine τ :=
  let r := c.cleanupDue env m interval s.world
  { s with world := r.2 }.goto t
    (match r.1 with
    | .ok true => .atClear call interval c
    | _ => call.afterClear interval c)

/-- A poisoned mutex ends the call. -/
def clear (call : GetClient) (interval : Duration) (c : CacheName) : Machine τ :=
  let r := c.removeExpired env m s.world
  { s with world := r.2 }.goto t
    (match r.1 with
    | .ok () => call.afterClear interval c
    | _ => .idle)

/-- A valid client is returned, for another the factory is called. -/
def getOrCreate (call : GetClient) (token : String) (since : Nat) : Machine τ :=
  if ((cacheLock (clientCachePlace m)).get s.world).poisoned then s.goto t (.returning call token since .panic)
  else
    let r := ExpiringCache.findValid env (clientCachePlace m) (call.key token) s.world
    { s with world := r.2 }.goto t
      (match r.1 with
      | .ok (some client) => .returning call token since (.ok client)
      | _ => .atFactory call token since s.moment)

/-- The factory reads the token and returns. -/
def factory (call : GetClient) (token : String) (since started : Nat) : Machine τ :=
  let r := createClient env call.kmsConnectionConfig s.world
  { s with
    world := r.2
    factoryCalls := match r.1 with
      | .ok client => s.factoryCalls ++ [FactoryCall.mk call.kmsConnectionConfig client started s.moment]
      | _ => s.factoryCalls }.goto t (.created call token since r.1)

/-- A new client is stored before the cache is released. -/
def storeClient (call : GetClient) (token : String) (since : Nat) (result : Outcome ParquetError KmsClient) :
    Machine τ :=
  let r := held (cacheLock (clientCachePlace m))
    (Eff.ofOutcome result >>= ExpiringCache.store env (clientCachePlace m) (call.key token) call.cacheLifetime) s.world
  { s with
    world := r.2
    stored := match r.1 with
      | .ok client => s.stored ++ [(call.key token, client)]
      | _ => s.stored }.goto t (.returning call token since r.1)

def finish (call : GetClient) (since : Nat) (result : Outcome ParquetError KmsClient) : Machine τ :=
  { s with returned := s.returned ++ [ClientReturn.mk call.kmsConnectionConfig result since s.moment] }.goto t .idle

def refresh (config : KmsConnectionConfig) (token : String) : Machine τ :=
  let r := refreshKeyAccessToken config token s.world
  { s with
    world := r.2
    moment := s.moment + 1
    tokensAt := Function.update s.tokensAt (s.moment + 1) r.2.tokens }.goto t .idle

/-- The thread runs the section it is in. -/
def advance : Machine τ :=
  match s.pc t with
  | .inLastCleanup call interval c => s.lastCleanup env m t call interval c
  | .inClear call interval c => s.clear env m t call interval c
  | .inGetOrCreate call token since => s.getOrCreate env m t call token since
  | .inFactory call token since started => s.factory env t call token since started
  | .created call token since result => s.storeClient env m t call token since result
  | .returning call _ since result => s.finish t call since result
  | .inRefresh config token => s.refresh t config token
  | _ => s

/-- A step of the thread `t`: it begins its next call, takes the lock it asks for, or runs the
    section it is in. -/
inductive Step : Machine τ → Prop
  | start (op : ThreadCall) (todo : List ThreadCall) : s.pc t = .idle → s.todo t = op :: todo →
    Step ({ s with todo := Function.update s.todo t todo }.goto t op.start)
  | acquire (l : LockName) (mode : Mode) : (s.pc t).wants = some (l, mode) → Admits discipline s.pc l mode →
    Step (s.goto t (s.acquired (s.pc t)))
  | advance : s.pc t ≠ .idle → (s.pc t).wants = none → Step (s.advance env m t)

/-- Every step on the way to a state satisfies `P`. -/
inductive Reach (P : Machine τ → τ → Prop) : Machine τ → Prop
  | init (w : World) (todo : τ → List ThreadCall) : w.clients m = ∅ → Reach P (.init w todo)
  | step {s s' : Machine τ} (t : τ) : Reach P s → s.Step env m t s' → P s t → Reach P s'

/-- The thread has no call left. -/
def Finished : Prop := s.pc t = .idle ∧ s.todo t = []

end Machine

/-! ## Where a step leads -/

/-- Where a thread can be after the section it is in. -/
inductive Pc.Leads : Pc → Pc → Prop
  | cleanupDue (call : GetClient) (interval : Duration) (c : CacheName) :
    Leads (.inLastCleanup call interval c) (.atClear call interval c)
  | cleanupNotDue (call : GetClient) (interval : Duration) (c : CacheName) :
    Leads (.inLastCleanup call interval c) (call.afterClear interval c)
  | cleared (call : GetClient) (interval : Duration) (c : CacheName) :
    Leads (.inClear call interval c) (call.afterClear interval c)
  | clearPanics (call : GetClient) (interval : Duration) (c : CacheName) : Leads (.inClear call interval c) .idle
  | found (call : GetClient) (token : String) (since : Nat) (result : Outcome ParquetError KmsClient) :
    Leads (.inGetOrCreate call token since) (.returning call token since result)
  | missing (call : GetClient) (token : String) (since started : Nat) :
    Leads (.inGetOrCreate call token since) (.atFactory call token since started)
  | created (call : GetClient) (token : String) (since started : Nat) (result : Outcome ParquetError KmsClient) :
    Leads (.inFactory call token since started) (.created call token since result)
  | stored (call : GetClient) (token : String) (since : Nat) (result result' : Outcome ParquetError KmsClient) :
    Leads (.created call token since result) (.returning call token since result')
  | returned (call : GetClient) (token : String) (since : Nat) (result : Outcome ParquetError KmsClient) :
    Leads (.returning call token since result) .idle
  | refreshed (config : KmsConnectionConfig) (token : String) : Leads (.inRefresh config token) .idle

/-- A section takes no guard. -/
theorem Pc.Leads.guards {p q : Pc} (h : p.Leads q) : ∀ g ∈ q.guards, g ∈ p.guards := by
  cases h with
  | cleanupNotDue call interval c => cases c <;> exact List.forall_mem_nil _
  | cleared call interval c => cases c <;> exact List.forall_mem_nil _
  | missing call token since started => exact fun g hg => hg
  | cleanupDue call interval c => exact List.forall_mem_nil _
  | clearPanics call interval c => exact List.forall_mem_nil _
  | found call token since result => exact fun g hg => List.mem_cons_of_mem _ hg
  | created call token since started result => exact fun g hg => List.mem_cons_of_mem _ hg
  | stored call token since result result' => exact fun g hg => List.mem_cons_of_mem _ hg
  | returned call token since result => exact List.forall_mem_nil _
  | refreshed config token => exact List.forall_mem_nil _

/-- A thread that has its lock holds that guard besides those it had. -/
theorem Machine.guards_acquired {τ : Type} {s : Machine τ} {p : Pc} {l : LockName} {mode : Mode}
    (h : p.wants = some (l, mode)) :
    (s.acquired p).guards = (l, mode) :: p.guards := by
  cases p with
  | atLastCleanup call interval c => cases h; rfl
  | atClear call interval c => cases h; rfl
  | atReadToken call => cases h; rfl
  | atGetOrCreate call token since => cases h; rfl
  | atFactory call token since started => cases h; rfl
  | atRefresh config token => cases h; rfl
  | _ => cases h

/-- Only a search for a client leads to the factory. -/
theorem Pc.Leads.of_atFactory {p : Pc} {call : GetClient} {token : String} {since started : Nat}
    (h : p.Leads (.atFactory call token since started)) : p = .inGetOrCreate call token since := by
  generalize hq : Pc.atFactory call token since started = q at h
  cases h with
  | missing call token since started => cases hq; rfl
  | cleanupNotDue call interval c => cases c <;> cases hq
  | cleared call interval c => cases c <;> cases hq
  | _ => cases hq

/-- No section leads to a refresh. -/
theorem Pc.Leads.not_atRefresh {p : Pc} {config : KmsConnectionConfig} {token : String} :
    ¬ p.Leads (.atRefresh config token) := by
  intro h
  generalize hq : Pc.atRefresh config token = q at h
  cases h with
  | cleanupNotDue call interval c => cases c <;> cases hq
  | cleared call interval c => cases c <;> cases hq
  | _ => cases hq

namespace Machine

variable {env} {τ : Type} [DecidableEq τ] {m : ManagerId} {s s' : Machine τ} {t : τ}

variable (env m) in
theorem advance_leads (hidle : s.pc t ≠ .idle) (hwants : (s.pc t).wants = none) :
    ∃ p, (s.pc t).Leads p ∧ (s.advance env m t).pc = Function.update s.pc t p ∧ (s.advance env m t).todo = s.todo := by
  unfold advance
  cases hpc : s.pc t with
  | idle => exact absurd hpc hidle
  | inLastCleanup call interval c =>
    refine ⟨_, ?_, rfl, rfl⟩
    split
    · exact .cleanupDue call interval c
    · exact .cleanupNotDue call interval c
  | inClear call interval c =>
    refine ⟨_, ?_, rfl, rfl⟩
    split
    · exact .cleared call interval c
    · exact .clearPanics call interval c
  | inGetOrCreate call token since =>
    simp only [getOrCreate]
    split
    · exact ⟨_, .found call token since .panic, rfl, rfl⟩
    · refine ⟨_, ?_, rfl, rfl⟩
      split
      · exact .found call token since _
      · exact .missing call token since s.moment
  | inFactory call token since started => exact ⟨_, .created call token since started _, rfl, rfl⟩
  | created call token since result => exact ⟨_, .stored call token since result _, rfl, rfl⟩
  | returning call token since result => exact ⟨_, .returned call token since result, rfl, rfl⟩
  | inRefresh config token => exact ⟨_, .refreshed config token, rfl, rfl⟩
  | _ => rw [hpc] at hwants; cases hwants

theorem guards_start (op : ThreadCall) : op.start.guards = [] := by
  cases op with
  | getClient call =>
    obtain ⟨config, _ | cleanupInterval⟩ := call
    · rfl
    · rfl
  | refreshKeyAccessToken config token => rfl

/-- A step moves one thread, which takes no guard that is not admitted. -/
theorem Step.pc_eq (h : s.Step env m t s') :
    ∃ p, s'.pc = Function.update s.pc t p ∧
      ∀ l mode, (l, mode) ∈ p.guards → (l, mode) ∈ (s.pc t).guards ∨ Admits discipline s.pc l mode := by
  cases h with
  | start op todo hidle htodo =>
    refine ⟨op.start, rfl, fun l mode hg => ?_⟩
    rw [guards_start] at hg
    cases hg
  | acquire l mode hwants hadmits =>
    refine ⟨_, rfl, fun l' mode' hg => ?_⟩
    rw [guards_acquired hwants] at hg
    rcases List.mem_cons.mp hg with hg | hg
    · cases hg
      exact Or.inr hadmits
    · exact Or.inl hg
  | advance hidle hwants =>
    obtain ⟨p, hleads, hpc, _⟩ := advance_leads env m hidle hwants
    exact ⟨p, hpc, fun l mode hg => Or.inl (hleads.guards _ hg)⟩

theorem Step.pc_of_ne (h : s.Step env m t s') {t' : τ} (hne : t' ≠ t) : s'.pc t' = s.pc t' := by
  obtain ⟨p, hpc, _⟩ := h.pc_eq
  rw [hpc, Function.update_of_ne hne]

theorem exclusion {P : Machine τ → τ → Prop} (h : Reach env m P s) : Exclusion discipline s.pc := by
  induction h with
  | init w todo _ => intro t t' l mode h; cases h
  | step t _ hstep _ ih =>
    obtain ⟨p, hpc, hguards⟩ := hstep.pc_eq
    rw [hpc]
    exact ih.update hguards

theorem Reach.mono {P Q : Machine τ → τ → Prop} (h : Reach env m P s) (hPQ : ∀ s t, P s t → Q s t) :
    Reach env m Q s := by
  induction h with
  | init w todo hw => exact .init w todo hw
  | step t _ hstep hP ih => exact .step t ih hstep (hPQ _ _ hP)

/-- A thread that is neither finished nor blocked can take a step. -/
theorem step_of_not_blocked (hdone : ¬ s.Finished t) (hblocked : ¬ Blocked discipline s.pc t) :
    ∃ s', s.Step env m t s' := by
  by_cases hidle : s.pc t = .idle
  · cases htodo : s.todo t with
    | nil => exact absurd ⟨hidle, htodo⟩ hdone
    | cons op todo => exact ⟨_, .start op todo hidle htodo⟩
  · cases hwants : (s.pc t).wants with
    | none => exact ⟨_, .advance hidle hwants⟩
    | some r =>
      obtain ⟨l, mode⟩ := r
      by_cases hadmits : Admits discipline s.pc l mode
      · exact ⟨_, .acquire l mode hwants hadmits⟩
      · exact absurd ⟨l, mode, hwants, Or.inl hadmits⟩ hblocked

/-! ## Two threads -/

def sampleCall : GetClient := ⟨sampleConfig, none⟩

/-- One thread is to get a client, the other to refresh its token. -/
def sampleThreads : Machine Bool :=
  .init (World.init (fun _ => "DEFAULT") 0) fun t =>
    if t then [.refreshKeyAccessToken sampleConfig "NEW"] else [.getClient sampleCall]

end Machine

end ParquetKeyManagement
