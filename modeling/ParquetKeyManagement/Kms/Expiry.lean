/-
  ParquetKeyManagement.Kms.Expiry — when computing an expiration time overflows.

  An entry is stored with the expiration time `now + lifetime`, computed under the cache's
  mutex, and nothing bounds the lifetime: a sum that is no instant panics and poisons the
  mutex for every later call.
  - `getOrCreate_panic_iff`: a call panics exactly when it has to store an entry, creating
    the value succeeds, and the sum is past the last instant.
  - `lifetime_safe_iff`: in a run of calls none of which does so no mutex of the manager is
    ever poisoned, and the next call panics exactly when it does so.
  - `lifetime_overflow`: a lifetime of `u64::MAX` seconds poisons the client cache.
-/

import ParquetKeyManagement.Kms.Registry

namespace ParquetKeyManagement

open Effect

variable (env : Env) {κ ν : Type}

/-! ## One cache -/

/-- The next reading of the clock, plus the lifetime, is past the last instant. -/
def NextPastLimit (lifetime : Option Duration) (w : World) : Prop :=
  ∃ d, lifetime = some d ∧ instantLimit ≤ w.clock + env.elapsed w.calls + d.nanos

theorem new_panic_iff (value : ν) (lifetime : Option Duration) (w : World) :
    (ExpiringCacheValue.new env value lifetime w).1 = .panic ↔ NextPastLimit env lifetime w := by
  unfold ExpiringCacheValue.new NextPastLimit
  cases lifetime with
  | none => simp
  | some d =>
    by_cases hlim : w.clock + env.elapsed w.calls + d.nanos < instantLimit
    · simp [expirationAfter, now, bind_run, Instant.checkedAdd, World.tick, hlim]
    · simp [expirationAfter, now, bind_run, Instant.checkedAdd, World.tick, hlim, not_lt.mp hlim]

/-- The move leaves every manager's mutexes unpoisoned that were. -/
def KeepsLocks (w w' : World) : Prop := ∀ m, w'.ManagerPoisoned m → w.ManagerPoisoned m

theorem KeepsLocks.of_path {w w' : World} (path : Relation.ReflTransGen KeepsLocks w w') : KeepsLocks w w' :=
  fun m => path_keeps (I := fun v => v.ManagerPoisoned m → w.ManagerPoisoned m) (fun _ _ h hm hp => h (hm m hp)) path id

namespace ExpiringCache

variable [DecidableEq κ] (place : Place World (ExpiringCache κ ν)) (key : κ) (lifetime : Option Duration)
  (creator : Call ν)

/-- No valid entry is found under `key`, and looking leaves `w'`. -/
def Misses (w w' : World) : Prop :=
  (((entries place).get w).lookup key = none ∧ w' = w) ∨
    ∃ v, ((entries place).get w).lookup key = some v ∧ v.isValid env w = (.ok false, w')

/-- An entry has to be stored, creating its value succeeds, and it would expire past the last
    instant. -/
def StoresPastLimit (w : World) : Prop :=
  ∃ w1 value w2, Misses env place key w w1 ∧ creator w1 = (.ok value, w2) ∧ NextPastLimit env lifetime w2

variable {place key lifetime creator}

theorem isValid_ok (e : ExpiringCacheValue ν) (w : World) : ∃ valid w1, e.isValid env w = (.ok valid, w1) := by
  unfold ExpiringCacheValue.isValid
  cases e.expirationTime with
  | none => exact ⟨_, _, rfl⟩
  | some e => exact ⟨_, _, rfl⟩

theorem findValid_ok (w : World) : ∃ found w1, findValid env place key w = (.ok found, w1) := by
  unfold findValid
  rw [bind_ok (read_run _ _)]
  cases ((entries place).get w).lookup key with
  | none => exact ⟨none, w, rfl⟩
  | some entry =>
    obtain ⟨valid, w1, hv⟩ := isValid_ok env entry w
    exact ⟨_, w1, bind_ok hv⟩

theorem findValid_eq_none_iff {w w1 : World} : findValid env place key w = (.ok none, w1) ↔
    Misses env place key w w1 := by
  unfold findValid Misses
  rw [bind_ok (read_run _ _)]
  cases hl : ((entries place).get w).lookup key with
  | none => simp [pure_run, eq_comm]
  | some entry =>
    obtain ⟨valid, w2, hv⟩ := isValid_ok env entry w
    simp only
    rw [bind_ok hv]
    cases valid with
    | true => simp [pure_run, hv]
    | false => simp [pure_run, hv]

section

variable (hcreator : ∀ w w', creator w ≠ (.panic, w'))
include hcreator

theorem create_panic_iff (w : World) :
    (create env place key lifetime creator w).1 = .panic ↔
      ∃ value w2, creator w = (.ok value, w2) ∧ NextPastLimit env lifetime w2 := by
  unfold create
  rw [bind_panic_iff]
  constructor
  · intro hcases
    rcases hcases with h | ⟨value, w2, hc, h⟩
    · exact absurd (Prod.ext h rfl : creator w = (.panic, (creator w).2)) (hcreator w _)
    · rcases bind_panic_iff.mp h with hnew | ⟨_, _, _, hstore⟩
      · exact ⟨value, w2, hc, (new_panic_iff env value lifetime w2).mp hnew⟩
      · cases hstore
  · intro hexists
    obtain ⟨value, w2, hc, hp⟩ := hexists
    exact Or.inr ⟨value, w2, hc, bind_panic_iff.mpr (Or.inl ((new_panic_iff env value lifetime w2).mpr hp))⟩

theorem lookupOrCreate_panic_iff (w : World) :
    (lookupOrCreate env place key lifetime creator w).1 = .panic ↔
      StoresPastLimit env place key lifetime creator w := by
  rw [lookupOrCreate_eq, bind_panic_iff]
  constructor
  · intro hcases
    rcases hcases with h | ⟨found, w1, hfind, h⟩
    · obtain ⟨found, w1, hfind⟩ := @findValid_ok env κ ν _ place key w
      rw [hfind] at h
      cases h
    · cases found with
      | some v => cases h
      | none =>
        obtain ⟨value, w2, hc, hp⟩ := (create_panic_iff env hcreator w1).mp h
        exact ⟨w1, value, w2, (findValid_eq_none_iff env).mp hfind, hc, hp⟩
  · intro hexists
    obtain ⟨w1, value, w2, hmiss, hc, hp⟩ := hexists
    exact Or.inr ⟨none, w1, (findValid_eq_none_iff env).mpr hmiss, (create_panic_iff env hcreator w1).mpr
      ⟨value, w2, hc, hp⟩⟩

theorem getOrCreate_panic_iff {w : World} (hlock : ((cacheLock place).get w).poisoned = false) :
    (getOrCreate env place key lifetime creator w).1 = .panic ↔
      StoresPastLimit env place key lifetime creator w := by
  exact (lock_panic_iff hlock).trans (lookupOrCreate_panic_iff env hcreator w)

end

end ExpiringCache

/-! ## Mutexes -/

/-- Nothing but a panic poisons a mutex of a manager. -/
theorem keepsLocks_write {m : ManagerId} {w w' : World}
    (h : (w'.managers m).kmsClientCache.cache.poisoned = (w.managers m).kmsClientCache.cache.poisoned ∧
      (w'.managers m).kekReadCaches.cache.poisoned = (w.managers m).kekReadCaches.cache.poisoned ∧
      (w'.managers m).kekWriteCaches.cache.poisoned = (w.managers m).kekWriteCaches.cache.poisoned)
    (hne : ∀ m' ≠ m, w'.managers m' = w.managers m') : KeepsLocks w w' := by
  intro m' hp
  unfold World.ManagerPoisoned at hp ⊢
  by_cases hm : m' = m
  · subst hm; rwa [h.1, h.2.1, h.2.2] at hp
  · rwa [hne m' hm] at hp

namespace KmsManager

variable (m : ManagerId) (lifetime : Option Duration)

theorem clientLocks : ExpiringCache.Moves (clientCachePlace m) lifetime (fun _ _ _ => True) KeepsLocks where
  write a b h := by
    have hp := h.poisoned
    obtain ⟨c, rfl⟩ := h.eq_set
    refine keepsLocks_write (m := m) ⟨hp, ?_, ?_⟩ fun m' hm => Function.update_of_ne hm ..
    · rw [clientCachePlace_set]
    · rw [clientCachePlace_set]
  tick _ _ _ h := h
  get_tick _ _ := rfl
  fresh_tick _ _ _ _ h := h
  fresh_set _ _ _ _ h := h

theorem readLocks : ExpiringCache.Moves (readCachesPlace m) lifetime (fun _ _ _ => True) KeepsLocks where
  write a b h := by
    have hp := h.poisoned
    obtain ⟨c, rfl⟩ := h.eq_set
    refine keepsLocks_write (m := m) ⟨?_, hp, ?_⟩ fun m' hm => Function.update_of_ne hm ..
    · rw [readCachesPlace_set]
    · rw [readCachesPlace_set]
  tick _ _ _ h := h
  get_tick _ _ := rfl
  fresh_tick _ _ _ _ h := h
  fresh_set _ _ _ _ h := h

theorem writeLocks : ExpiringCache.Moves (writeCachesPlace m) lifetime (fun _ _ _ => True) KeepsLocks where
  write a b h := by
    have hp := h.poisoned
    obtain ⟨c, rfl⟩ := h.eq_set
    refine keepsLocks_write (m := m) ⟨?_, ?_, hp⟩ fun m' hm => Function.update_of_ne hm ..
    · rw [writeCachesPlace_set]
    · rw [writeCachesPlace_set]
  tick _ _ _ h := h
  get_tick _ _ := rfl
  fresh_tick _ _ _ _ h := h
  fresh_set _ _ _ _ h := h

/-- Without a lifetime there is no sum to overflow. -/
theorem keepsLocks_of_move {config : KmsConnectionConfig} {w w' : World} (h : ManagerMove m config none w w') :
    KeepsLocks w w' := by
  intro m' hp
  rcases h.managerPoisoned hp with h1 | ⟨d, hd, _⟩
  · exact h1
  · cases hd

/-- Clearing expired entries from a manager whose mutexes are fine succeeds and leaves them so. -/
theorem clearExpiredEntries_ok (cleanupInterval : Option Duration) {w : World} (hw : ¬ w.ManagerPoisoned m) :
    ∃ w1, clearExpiredEntries env m cleanupInterval w = (.ok (), w1) ∧ ¬ w1.ManagerPoisoned m := by
  have h := clearExpiredEntries_along env m ⟨"", "", 0, ∅⟩ none cleanupInterval w
  have hkeep : ¬ (clearExpiredEntries env m cleanupInterval w).2.ManagerPoisoned m :=
    fun hp => hw (KeepsLocks.of_path (h.lift fun _ _ hm => keepsLocks_of_move m hm).path m hp)
  rcases hr : clearExpiredEntries env m cleanupInterval w with ⟨_ | e | _, w1⟩
  · rw [hr] at hkeep; exact ⟨w1, rfl, hkeep⟩
  · exact (h.run_err hr).elim
  · rw [hr] at hkeep; exact absurd (h.run_panic hr) hkeep

end KmsManager

/-- A call of a cache whose mutex is fine panics exactly when it stores past the limit, and
    poisons a mutex of the manager only by panicking. -/
theorem getOrCreate_locks [DecidableEq κ] {place : Place World (ExpiringCache κ ν)} (key : κ)
    {lifetime : Option Duration} {creator : Call ν}
    (M : ExpiringCache.Moves place lifetime (fun _ _ _ => True) KeepsLocks)
    (hcreator : ∀ w, Along KeepsLocks creator w (fun _ _ => True) (fun _ _ => True) fun _ => False) {w : World}
    (hlock : ((cacheLock place).get w).poisoned = false) :
    ((ExpiringCache.getOrCreate env place key lifetime creator w).1 = .panic ↔
        ExpiringCache.StoresPastLimit env place key lifetime creator w) ∧
      ((ExpiringCache.getOrCreate env place key lifetime creator w).1 ≠ .panic →
        KeepsLocks w (ExpiringCache.getOrCreate env place key lifetime creator w).2) := by
  have hnever : ∀ w w', creator w ≠ (.panic, w') := fun w w' h => (hcreator w).run_panic h
  refine ⟨ExpiringCache.getOrCreate_panic_iff env hnever hlock, fun hne => ?_⟩
  have hbody : (ExpiringCache.lookupOrCreate env place key lifetime creator w).1 ≠ .panic := by
    rw [Ne, ExpiringCache.lookupOrCreate_panic_iff env hnever, ← ExpiringCache.getOrCreate_panic_iff env hnever hlock]
    exact hne
  rw [ExpiringCache.getOrCreate, lock_not_panic hlock hbody]
  exact KeepsLocks.of_path (ExpiringCache.lookupOrCreate_along env M fun w' _ => hcreator w').path

/-! ## Runs of a manager's calls -/

inductive ManagerCall where
  | getClient (config : KmsConnectionConfig) (cacheLifetime : Option Duration)
  | getKekReadCache (config : KmsConnectionConfig) (cacheLifetime : Option Duration)
  | getKekWriteCache (config : KmsConnectionConfig) (cacheLifetime : Option Duration)

namespace ManagerCall

variable (m : ManagerId)

def run : ManagerCall → Call Unit
  | .getClient config cacheLifetime => do
    let _ ← KmsManager.getClient env m config cacheLifetime
    pure ()
  | .getKekReadCache config cacheLifetime => do
    let _ ← KmsManager.getKekReadCache env m config cacheLifetime
    pure ()
  | .getKekWriteCache config cacheLifetime => do
    let _ ← KmsManager.getKekWriteCache env m config cacheLifetime
    pure ()

def cacheLifetime : ManagerCall → Option Duration
  | .getClient _ cacheLifetime | .getKekReadCache _ cacheLifetime | .getKekWriteCache _ cacheLifetime => cacheLifetime

/-- With expired entries cleared, the call has to store an entry that would expire past the
    last instant. -/
def StoresPastLimitAt (w : World) : ManagerCall → Prop
  | .getClient config cacheLifetime =>
    ExpiringCache.StoresPastLimit env (clientCachePlace m) ⟨w.tokens config.keyAccessToken, config.kmsInstanceId⟩
      cacheLifetime (createClient env config) w
  | .getKekReadCache config cacheLifetime =>
    ExpiringCache.StoresPastLimit env (readCachesPlace m) ⟨w.tokens config.keyAccessToken⟩ cacheLifetime
      (KmsManager.newReadCache m (w.tokens config.keyAccessToken)) w
  | .getKekWriteCache config cacheLifetime =>
    ExpiringCache.StoresPastLimit env (writeCachesPlace m) ⟨w.tokens config.keyAccessToken⟩ cacheLifetime
      (KmsManager.newWriteCache m (w.tokens config.keyAccessToken)) w

def StoresPastLimit (c : ManagerCall) (w : World) : Prop :=
  c.StoresPastLimitAt env m (KmsManager.clearExpiredEntries env m c.cacheLifetime w).2

end ManagerCall

/-- Runs of a manager: its calls, in any order and with any lifetimes, and between them
    anything that does not touch the manager, such as time passing or a token refresh. -/
inductive ManagerRun (m : ManagerId) (P : World → ManagerCall → Prop) : World → Prop
  | start (w : World) : ¬ w.ManagerPoisoned m → ManagerRun m P w
  | call {w : World} (c : ManagerCall) : ManagerRun m P w → P w c → ManagerRun m P (c.run env m w).2
  | between {w w' : World} : ManagerRun m P w → w'.managers m = w.managers m → ManagerRun m P w'

theorem discard_panic_iff {α : Type} (x : Call α) (w : World) :
    (((do let _ ← x; pure ()) : Call Unit) w).1 = .panic ↔ (x w).1 = .panic := by
  rcases hx : x w with ⟨a | e | _, w'⟩ <;> simp [bind_run, hx]

theorem discard_world {α : Type} (x : Call α) (w : World) : (((do let _ ← x; pure ()) : Call Unit) w).2 = (x w).2 := by
  rcases hx : x w with ⟨a | e | _, w'⟩ <;> simp [bind_run, hx]

theorem unpoisoned_of_not {m : ManagerId} {w : World} (hw : ¬ w.ManagerPoisoned m) :
    (w.managers m).kmsClientCache.cache.poisoned = false ∧ (w.managers m).kekReadCaches.cache.poisoned = false ∧
      (w.managers m).kekWriteCaches.cache.poisoned = false := by
  unfold World.ManagerPoisoned at hw
  simp only [not_or, Bool.not_eq_true] at hw
  exact hw

/-- One of the three calls: a use of a cache in the state `w1` that clearing leaves. -/
theorem call_step [DecidableEq κ] {m : ManagerId} {place : Place World (ExpiringCache κ ν)} {key : κ}
    {lifetime : Option Duration} {creator : Call ν} {x : Call ν} {w w1 : World}
    (M : ExpiringCache.Moves place lifetime (fun _ _ _ => True) KeepsLocks)
    (hcreator : ∀ w, Along KeepsLocks creator w (fun _ _ => True) (fun _ _ => True) fun _ => False)
    (hw1 : ¬ w1.ManagerPoisoned m) (hlock : ((cacheLock place).get w1).poisoned = false)
    (hrun : x w = ExpiringCache.getOrCreate env place key lifetime creator w1)
    (hpoison : (x w).1 = .panic → (x w).2.ManagerPoisoned m) :
    ((x w).1 = .panic ↔ ExpiringCache.StoresPastLimit env place key lifetime creator w1) ∧
      ((x w).2.ManagerPoisoned m ↔ ExpiringCache.StoresPastLimit env place key lifetime creator w1) := by
  obtain ⟨hpanic, hquiet⟩ := getOrCreate_locks env key M hcreator hlock
  rw [← hrun] at hpanic hquiet
  refine ⟨hpanic, fun hpoisoned => ?_, fun h => hpoison (hpanic.mpr h)⟩
  by_contra hS
  exact hw1 (hquiet (fun h => hS (hpanic.mp h)) m hpoisoned)

/-- The step: from a manager whose mutexes are fine, a call panics exactly when it stores past
    the limit, and poisons exactly then. -/
theorem managerCall_step (m : ManagerId) (c : ManagerCall) {w : World} (hw : ¬ w.ManagerPoisoned m) :
    ((c.run env m w).1 = .panic ↔ c.StoresPastLimit env m w) ∧
      ((c.run env m w).2.ManagerPoisoned m ↔ c.StoresPastLimit env m w) := by
  obtain ⟨w1, hclear, hw1⟩ := KmsManager.clearExpiredEntries_ok env m c.cacheLifetime hw
  obtain ⟨hl1, hl2, hl3⟩ := unpoisoned_of_not hw1
  have hmoves : ∀ {α : Type} {x : Call α} {config : KmsConnectionConfig} {w' : World} {p : α → World → Prop}
      {q : ParquetError → World → Prop}, Along (ManagerMove m config none) x w' p q (fun _ => False) →
      Along KeepsLocks x w' (fun _ _ => True) (fun _ _ => True) fun _ => False := fun h =>
    (h.lift fun _ _ hm => KmsManager.keepsLocks_of_move m hm).mono (fun _ _ _ => trivial) (fun _ _ _ => trivial)
      fun _ h => h
  unfold ManagerCall.StoresPastLimit
  rw [hclear]
  cases c with
  | getClient config lifetime =>
    unfold ManagerCall.run ManagerCall.StoresPastLimitAt
    rw [discard_panic_iff, discard_world]
    refine call_step env (KmsManager.clientLocks m lifetime)
      (fun w' => hmoves (KmsManager.createClient_along env m config none (Nat.zero_le _))) hw1 hl1 ?_ fun hp =>
        (KmsManager.getClient_along env m config lifetime (Nat.zero_le _)).panic hp
    exact (bind_ok hclear).trans rfl
  | getKekReadCache config lifetime =>
    unfold ManagerCall.run ManagerCall.StoresPastLimitAt
    rw [discard_panic_iff, discard_world]
    refine call_step env (KmsManager.readLocks m lifetime)
      (fun w' => hmoves (KmsManager.newReadCache_along m config none (w1.tokens config.keyAccessToken) w')) hw1 hl2 ?_
        fun hp => (KmsManager.getKekReadCache_along env m config lifetime w).panic hp
    exact (bind_ok hclear).trans (KmsManager.readCache_along env m config lifetime _ w1).unwrap_eq
  | getKekWriteCache config lifetime =>
    unfold ManagerCall.run ManagerCall.StoresPastLimitAt
    rw [discard_panic_iff, discard_world]
    refine call_step env (KmsManager.writeLocks m lifetime)
      (fun w' => hmoves (KmsManager.newWriteCache_along m config none (w1.tokens config.keyAccessToken) w')) hw1 hl3 ?_
        fun hp => (KmsManager.getKekWriteCache_along env m config lifetime w).panic hp
    exact (bind_ok hclear).trans (KmsManager.writeCache_along env m config lifetime _ w1).unwrap_eq

/-- Any run whose calls do not store past the limit leaves the manager's mutexes fine. -/
theorem managerRun_locks {m : ManagerId} {w : World}
    (h : ManagerRun env m (fun w c => ¬ c.StoresPastLimit env m w) w) : ¬ w.ManagerPoisoned m := by
  induction h with
  | start w hw => exact hw
  | call c _ hc ih => exact fun hp => hc ((managerCall_step env m c ih).2.mp hp)
  | between _ hm ih => unfold World.ManagerPoisoned at ih ⊢; rwa [hm]

/-- Lifetimes are safe exactly as long as no entry has to be stored that would expire past the
    last instant: the mutexes are never poisoned, and the next call panics, and poisons,
    exactly when it stores such an entry. -/
theorem lifetime_safe_iff {m : ManagerId} {w : World}
    (h : ManagerRun env m (fun w c => ¬ c.StoresPastLimit env m w) w) :
    ¬ w.ManagerPoisoned m ∧ ∀ c : ManagerCall, ((c.run env m w).1 = .panic ↔ c.StoresPastLimit env m w) ∧
      ((c.run env m w).2.ManagerPoisoned m ↔ c.StoresPastLimit env m w) :=
  ⟨managerRun_locks env h, fun c => managerCall_step env m c (managerRun_locks env h)⟩

/-- A client is cached for ten minutes. -/
def afterFirstClient : World :=
  ((ManagerCall.getClient sampleConfig (some (Duration.fromSecs 600))).run Env.sample 0
    (World.init (fun _ => "DEFAULT") 0)).2

theorem lifetime_safe_sample :
    (afterFirstClient.clients 0).keys = [⟨"DEFAULT", "instance"⟩] ∧ ¬ afterFirstClient.ManagerPoisoned 0 ∧
      ∀ c : ManagerCall, ((c.run Env.sample 0 afterFirstClient).1 = .panic ↔
        c.StoresPastLimit Env.sample 0 afterFirstClient) ∧
        ((c.run Env.sample 0 afterFirstClient).2.ManagerPoisoned 0 ↔
          c.StoresPastLimit Env.sample 0 afterFirstClient) := by
  have hsafe : ¬ (ManagerCall.getClient sampleConfig (some (Duration.fromSecs 600))).StoresPastLimit Env.sample 0
      (World.init (fun _ => "DEFAULT") 0) := by
    rw [← (managerCall_step Env.sample 0 _ (by decide)).1]
    decide +kernel
  exact ⟨by decide +kernel, lifetime_safe_iff Env.sample (.call _ (.start _ (by decide)) hsafe)⟩

/-- The longest lifetime that can be given in seconds. -/
def longestLifetime : Option Duration := some (Duration.fromSecs 18446744073709551615)

/-- At the clock's first reading, with the longest lifetime, the first `getClient` panics, and
    after it one without a lifetime does too. -/
theorem lifetime_overflow :
    let w := World.init (fun _ => "DEFAULT") 0
    let w' := (KmsManager.getClient Env.sample 0 sampleConfig longestLifetime w).2
    (KmsManager.getClient Env.sample 0 sampleConfig longestLifetime w).1 = .panic ∧ w'.ManagerPoisoned 0 ∧
      (KmsManager.getClient Env.sample 0 sampleConfig none w').1 = .panic := by
  decide +kernel

end ParquetKeyManagement
