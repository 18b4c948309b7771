/-
  ParquetKeyManagement.Kms.Moves — every write the registry makes to the shared state.

  `CacheMove` lists the writes of an expiring cache, each with what is known when it happens:
  an evicted entry has expired, a stored one is `Fresh` and expires a lifetime from the
  clock, and the mutex is poisoned only when that sum is no instant (`PastLimit`).
  `ManagerMove` lists the writes of a `KmsManager` called with one configuration and
  lifetime. For every part of the shared state one statement says what a move does to it;
  everything later is derived from these.
-/

import ParquetKeyManagement.Kms.Manager

namespace ParquetKeyManagement

open Effect

variable {κ ν : Type} {w w' : World}

/-! ## What never shrinks -/

namespace World

/-- From `w` to `w'` nothing of the past is lost. -/
structure Grows (w w' : World) : Prop where
  clock : w.clock ≤ w'.clock
  calls : w.calls ≤ w'.calls
  log : w.log <+: w'.log
  nextManager : w.nextManager ≤ w'.nextManager
  nextReadCache : w.nextReadCache ≤ w'.nextReadCache
  nextWriteCache : w.nextWriteCache ≤ w'.nextWriteCache
  nextConfig : w.nextConfig ≤ w'.nextConfig
  readCacheOwner : ∀ a < w.nextReadCache, w'.readCacheOwner a = w.readCacheOwner a
  writeCacheOwner : ∀ a < w.nextWriteCache, w'.writeCacheOwner a = w.writeCacheOwner a

namespace Grows

theorem refl (w : World) : w.Grows w :=
  ⟨le_refl _, le_refl _, List.prefix_refl _, le_refl _, le_refl _, le_refl _, le_refl _, fun _ _ => rfl, fun _ _ => rfl⟩

theorem trans {w'' : World} (h : w.Grows w') (h' : w'.Grows w'') : w.Grows w'' where
  clock := h.clock.trans h'.clock
  calls := h.calls.trans h'.calls
  log := h.log.trans h'.log
  nextManager := h.nextManager.trans h'.nextManager
  nextReadCache := h.nextReadCache.trans h'.nextReadCache
  nextWriteCache := h.nextWriteCache.trans h'.nextWriteCache
  nextConfig := h.nextConfig.trans h'.nextConfig
  readCacheOwner a ha := (h'.readCacheOwner a (lt_of_lt_of_le ha h.nextReadCache)).trans (h.readCacheOwner a ha)
  writeCacheOwner a ha := (h'.writeCacheOwner a (lt_of_lt_of_le ha h.nextWriteCache)).trans (h.writeCacheOwner a ha)

theorem mem_log (h : w.Grows w') {e : KmsEvent} (he : e ∈ w.log) : e ∈ w'.log := h.log.subset he

/-- What grows at every move grows along a path. -/
theorem of_path {move : World → World → Prop} (hm : ∀ a b, move a b → a.Grows b)
    (path : Relation.ReflTransGen move w w') : w.Grows w' :=
  path_keeps (I := fun v => w.Grows v) (fun _ _ h h' => h.trans (hm _ _ h')) path (refl w)

end Grows

theorem grows_tick (w : World) (n : Nat) : w.Grows (w.tick n) :=
  { Grows.refl w with clock := Nat.le_add_right _ _, calls := Nat.le_succ _ }

theorem grows_record (w : World) (e : KmsEvent) : w.Grows (w.record e) :=
  { Grows.refl w with calls := Nat.le_succ _, log := List.prefix_append _ _ }

/-- A call of user code after the first `n` failed. -/
def FailedSince (w : World) (n : Nat) : Prop := ∃ e ∈ w.log.drop n, e.failed = true

theorem failedSince_record (w : World) {n : Nat} (hn : n ≤ w.log.length) {e : KmsEvent} (he : e.failed = true) :
    (w.record e).FailedSince n := by
  refine ⟨e, ?_, he⟩
  show e ∈ (w.log ++ [e]).drop n
  rw [List.drop_append_of_le_length hn]
  exact List.mem_append_right _ (List.mem_singleton.mpr rfl)

end World

/-! ## Writes of an expiring cache -/

/-- A lifetime that, from the current clock, ends past the last instant. -/
def PastLimit (lifetime : Option Duration) (w : World) : Prop :=
  ∃ d, lifetime = some d ∧ instantLimit ≤ w.clock + d.nanos

def ExpiringCacheValue.ExpiredAt (v : ExpiringCacheValue ν) (t : Instant) : Prop :=
  ∃ e, v.expirationTime = some e ∧ e ≤ t

theorem ExpiringCacheValue.ExpiredAt.mono {v : ExpiringCacheValue ν} {t t' : Instant} (h : v.ExpiredAt t)
    (ht : t ≤ t') : v.ExpiredAt t' := by
  obtain ⟨e, he, hle⟩ := h
  exact ⟨e, he, hle.trans ht⟩

section

variable [DecidableEq κ] (place : Place World (ExpiringCache κ ν)) (lifetime : Option Duration)
  (Fresh : κ → ν → World → Prop)

inductive CacheWrite : World → World → Prop
  | stamp (w : World) (t : Instant) : CacheWrite w (place.modify (fun c => { c with lastCleanup := t }) w)
  | evict (w : World) (ks : List κ) :
    (∀ k ∈ ks, ∀ v, ((ExpiringCache.entries place).get w).lookup k = some v → v.ExpiredAt w.clock) →
    CacheWrite w ((ExpiringCache.entries place).modify (HashMap.eraseAll ks) w)
  | store (w : World) (k : κ) (v : ν) : Fresh k v w →
    CacheWrite w ((ExpiringCache.entries place).modify
      (fun c => c.insert k ⟨v, lifetime.map fun d => w.clock + d.nanos⟩) w)

inductive CacheMove : World → World → Prop
  | write {w w' : World} : CacheWrite place lifetime Fresh w w' → CacheMove w w'
  | poison (w : World) : PastLimit lifetime w → CacheMove w (poison (cacheLock place) w)

end

section

variable [DecidableEq κ] {place : Place World (ExpiringCache κ ν)} {lifetime : Option Duration}
  {Fresh : κ → ν → World → Prop}

theorem CacheWrite.eq_set (h : CacheWrite place lifetime Fresh w w') : ∃ c, w' = place.set c w := by
  cases h with
  | stamp t => exact ⟨_, rfl⟩
  | evict ks _ => exact ⟨_, rfl⟩
  | store k v _ => exact ⟨_, rfl⟩

/-- A move of a cache writes the cache and nothing else. -/
theorem CacheMove.eq_set (h : CacheMove place lifetime Fresh w w') : ∃ c, w' = place.set c w := by
  cases h with
  | write h => exact h.eq_set
  | poison _ => exact ⟨_, rfl⟩

/-- What is in a cache after a move was there before, or has just been created. -/
theorem CacheMove.lookup (h : CacheMove place lifetime Fresh w w') {k : κ} {v : ExpiringCacheValue ν}
    (hl : ((ExpiringCache.entries place).get w').lookup k = some v) :
    ((ExpiringCache.entries place).get w).lookup k = some v ∨ Fresh k v.value w := by
  cases h with
  | write h =>
    cases h with
    | stamp t =>
      refine Or.inl ?_
      simpa [ExpiringCache.entries, cacheLock, mutexData, Place.comp, Place.modify] using hl
    | evict ks _ =>
      rw [Place.get_modify, HashMap.lookup_eraseAll] at hl
      by_cases hk : k ∈ ks
      · rw [if_pos hk] at hl; cases hl
      · rw [if_neg hk] at hl; exact Or.inl hl
    | store k0 v0 hf =>
      rw [Place.get_modify] at hl
      by_cases hk : k = k0
      · subst hk
        rw [AList.lookup_insert] at hl
        cases hl
        exact Or.inr hf
      · rw [AList.lookup_insert_ne hk] at hl; exact Or.inl hl
  | poison _ =>
    refine Or.inl ?_
    simpa [ExpiringCache.entries, cacheLock, mutexData, Place.comp, Place.modify, Effect.poison] using hl

theorem CacheWrite.poisoned (h : CacheWrite place lifetime Fresh w w') :
    ((cacheLock place).get w').poisoned = ((cacheLock place).get w).poisoned := by
  cases h with
  | stamp t => simp [cacheLock, Place.comp, Place.modify]
  | evict ks _ => simp [ExpiringCache.entries, cacheLock, mutexData, Place.comp, Place.modify]
  | store k0 v0 hf => simp [ExpiringCache.entries, cacheLock, mutexData, Place.comp, Place.modify]

theorem CacheMove.poisoned (h : CacheMove place lifetime Fresh w w')
    (hp : ((cacheLock place).get w').poisoned = true) :
    ((cacheLock place).get w).poisoned = true ∨ PastLimit lifetime w := by
  cases h with
  | write h => exact Or.inl (h.poisoned ▸ hp)
  | poison hlim => exact Or.inr hlim

end

/-! ## Writes of a manager -/

namespace World

def clients (w : World) (m : ManagerId) : HashMap ClientKey (ExpiringCacheValue KmsClient) :=
  (w.managers m).kmsClientCache.cache.data

/-- The KEK caches for reading that are registered, by access token. -/
def readRegistry (w : World) (m : ManagerId) : HashMap KekCacheKey (ExpiringCacheValue KekReadCache) :=
  (w.managers m).kekReadCaches.cache.data

def writeRegistry (w : World) (m : ManagerId) : HashMap KekCacheKey (ExpiringCacheValue KekWriteCache) :=
  (w.managers m).kekWriteCaches.cache.data

/-- Some mutex of the manager is poisoned. -/
def ManagerPoisoned (w : World) (m : ManagerId) : Prop :=
  (w.managers m).kmsClientCache.cache.poisoned = true ∨ (w.managers m).kekReadCaches.cache.poisoned = true ∨
    (w.managers m).kekWriteCaches.cache.poisoned = true

instance (w : World) (m : ManagerId) : Decidable (w.ManagerPoisoned m) := inferInstanceAs (Decidable (_ ∨ _ ∨ _))

end World

/-- The client was just created from the configuration whose token and id are its key. -/
def FreshClient (config : KmsConnectionConfig) (key : ClientKey) (client : KmsClient) (w : World) : Prop :=
  key = ⟨w.tokens config.keyAccessToken, config.kmsInstanceId⟩ ∧ client.config = config.details w ∧
    .createClient client.config (.ok client) ∈ w.log

/-- The KEK cache was made for the manager and the token. -/
def OwnedReadCache (m : ManagerId) (key : KekCacheKey) (a : KekReadCache) (w : World) : Prop :=
  w.readCacheOwner a = (m, key.keyAccessToken) ∧ a < w.nextReadCache

def OwnedWriteCache (m : ManagerId) (key : KekCacheKey) (a : KekWriteCache) (w : World) : Prop :=
  w.writeCacheOwner a = (m, key.keyAccessToken) ∧ a < w.nextWriteCache

/-- The KEK cache was just made, and is empty. -/
def FreshReadCache (m : ManagerId) (key : KekCacheKey) (a : KekReadCache) (w : World) : Prop :=
  OwnedReadCache m key a w ∧ (w.readCaches a).data = ∅

def FreshWriteCache (m : ManagerId) (key : KekCacheKey) (a : KekWriteCache) (w : World) : Prop :=
  OwnedWriteCache m key a w ∧ (w.writeCaches a).data = ∅

namespace World

def allocReadCache (w : World) (owner : ManagerId × String) : World :=
  { w with readCaches := Function.update w.readCaches w.nextReadCache (Mutex.new ∅),
           readCacheOwner := Function.update w.readCacheOwner w.nextReadCache owner,
           nextReadCache := w.nextReadCache + 1 }

def allocWriteCache (w : World) (owner : ManagerId × String) : World :=
  { w with writeCaches := Function.update w.writeCaches w.nextWriteCache (Mutex.new ∅),
           writeCacheOwner := Function.update w.writeCacheOwner w.nextWriteCache owner,
           nextWriteCache := w.nextWriteCache + 1 }

end World

inductive ManagerMove (m : ManagerId) (config : KmsConnectionConfig) (lifetime : Option Duration) : World → World → Prop
  | tick (w : World) (n : Nat) : ManagerMove m config lifetime w (w.tick n)
  | create (w : World) (result : Except ParquetError KmsClient) :
    (∀ client, result = .ok client → client.config = config.details w) →
    ManagerMove m config lifetime w (w.record (.createClient (config.details w) result))
  | allocReadCache (w : World) (token : String) : ManagerMove m config lifetime w (w.allocReadCache (m, token))
  | allocWriteCache (w : World) (token : String) : ManagerMove m config lifetime w (w.allocWriteCache (m, token))
  | clients {w w' : World} : CacheMove (clientCachePlace m) lifetime (FreshClient config) w w' →
    ManagerMove m config lifetime w w'
  | readCaches {w w' : World} : CacheMove (readCachesPlace m) lifetime (FreshReadCache m) w w' →
    ManagerMove m config lifetime w w'
  | writeCaches {w w' : World} : CacheMove (writeCachesPlace m) lifetime (FreshWriteCache m) w w' →
    ManagerMove m config lifetime w w'

section

variable {m m' : ManagerId} {config : KmsConnectionConfig} {lifetime : Option Duration}

theorem clientCachePlace_set (c : ExpiringCache ClientKey KmsClient) :
    ((clientCachePlace m).set c w).managers m = { w.managers m with kmsClientCache := c } :=
  Function.update_self ..

theorem readCachesPlace_set (c : ExpiringCache KekCacheKey KekReadCache) :
    ((readCachesPlace m).set c w).managers m = { w.managers m with kekReadCaches := c } :=
  Function.update_self ..

theorem writeCachesPlace_set (c : ExpiringCache KekCacheKey KekWriteCache) :
    ((writeCachesPlace m).set c w).managers m = { w.managers m with kekWriteCaches := c } :=
  Function.update_self ..

namespace ManagerMove

/-- The forms a move of a manager can have. -/
theorem shape (h : ManagerMove m config lifetime w w') :
    (∃ n, w' = w.tick n) ∨ (∃ e, w' = w.record e) ∨ (∃ t, w' = w.allocReadCache (m, t)) ∨
      (∃ t, w' = w.allocWriteCache (m, t)) ∨ ∃ k, w' = w.setManager m k := by
  cases h with
  | tick n => exact Or.inl ⟨n, rfl⟩
  | create result _ => exact Or.inr (Or.inl ⟨_, rfl⟩)
  | allocReadCache t => exact Or.inr (Or.inr (Or.inl ⟨t, rfl⟩))
  | allocWriteCache t => exact Or.inr (Or.inr (Or.inr (Or.inl ⟨t, rfl⟩)))
  | clients hc => obtain ⟨c, rfl⟩ := hc.eq_set; exact Or.inr (Or.inr (Or.inr (Or.inr ⟨_, rfl⟩)))
  | readCaches hc => obtain ⟨c, rfl⟩ := hc.eq_set; exact Or.inr (Or.inr (Or.inr (Or.inr ⟨_, rfl⟩)))
  | writeCaches hc => obtain ⟨c, rfl⟩ := hc.eq_set; exact Or.inr (Or.inr (Or.inr (Or.inr ⟨_, rfl⟩)))

theorem grows (h : ManagerMove m config lifetime w w') : w.Grows w' := by
  rcases h.shape with ⟨n, rfl⟩ | ⟨e, rfl⟩ | ⟨t, rfl⟩ | ⟨t, rfl⟩ | ⟨k, rfl⟩
  · exact w.grows_tick n
  · exact w.grows_record e
  · exact { World.Grows.refl w with
      nextReadCache := Nat.le_succ _, readCacheOwner := fun a ha => Function.update_of_ne (Nat.ne_of_lt ha) .. }
  · exact { World.Grows.refl w with
      nextWriteCache := Nat.le_succ _, writeCacheOwner := fun a ha => Function.update_of_ne (Nat.ne_of_lt ha) .. }
  · exact { World.Grows.refl w with }

/-- Neither tokens nor the configurations of readers are written. -/
theorem kept (h : ManagerMove m config lifetime w w') :
    w'.tokens = w.tokens ∧ w'.configs = w.configs ∧ w'.nextConfig = w.nextConfig := by
  rcases h.shape with ⟨n, rfl⟩ | ⟨e, rfl⟩ | ⟨t, rfl⟩ | ⟨t, rfl⟩ | ⟨k, rfl⟩ <;> exact ⟨rfl, rfl, rfl⟩

theorem managers_ne (h : ManagerMove m config lifetime w w') (hm : m' ≠ m) : w'.managers m' = w.managers m' := by
  rcases h.shape with ⟨n, rfl⟩ | ⟨e, rfl⟩ | ⟨t, rfl⟩ | ⟨t, rfl⟩ | ⟨k, rfl⟩
  · rfl
  · rfl
  · rfl
  · rfl
  · exact Function.update_of_ne hm ..

/-- The KEK caches stay as they are, but for a new, empty one. -/
theorem readCaches_eq (h : ManagerMove m config lifetime w w') (a : KekReadCache) :
    w'.readCaches a = w.readCaches a ∨ w'.readCaches a = Mutex.new ∅ := by
  rcases h.shape with ⟨n, rfl⟩ | ⟨e, rfl⟩ | ⟨t, rfl⟩ | ⟨t, rfl⟩ | ⟨k, rfl⟩
  · exact Or.inl rfl
  · exact Or.inl rfl
  · by_cases ha : a = w.nextReadCache
    · subst ha; exact Or.inr (Function.update_self ..)
    · exact Or.inl (Function.update_of_ne ha ..)
  · exact Or.inl rfl
  · exact Or.inl rfl

theorem writeCaches_eq (h : ManagerMove m config lifetime w w') (a : KekWriteCache) :
    w'.writeCaches a = w.writeCaches a ∨ w'.writeCaches a = Mutex.new ∅ := by
  rcases h.shape with ⟨n, rfl⟩ | ⟨e, rfl⟩ | ⟨t, rfl⟩ | ⟨t, rfl⟩ | ⟨k, rfl⟩
  · exact Or.inl rfl
  · exact Or.inl rfl
  · exact Or.inl rfl
  · by_cases ha : a = w.nextWriteCache
    · subst ha; exact Or.inr (Function.update_self ..)
    · exact Or.inl (Function.update_of_ne ha ..)
  · exact Or.inl rfl

/-- What is found in a KEK cache was there before. -/
theorem readKeks_lookup (h : ManagerMove m config lifetime w w') {a : KekReadCache} {kekId : String} {kek : Bytes}
    (hl : (w'.readCaches a).data.lookup kekId = some kek) : (w.readCaches a).data.lookup kekId = some kek := by
  rcases h.readCaches_eq a with he | he
  · rwa [he] at hl
  · rw [he] at hl; cases hl

theorem writeKeks_lookup (h : ManagerMove m config lifetime w w') {a : KekWriteCache} {masterKeyId : String}
    {kek : KeyEncryptionKey} (hl : (w'.writeCaches a).data.lookup masterKeyId = some kek) :
    (w.writeCaches a).data.lookup masterKeyId = some kek := by
  rcases h.writeCaches_eq a with he | he
  · rwa [he] at hl
  · rw [he] at hl; cases hl

/-- A write cache that exists is left as it is. -/
theorem writeKeks_kept (h : ManagerMove m config lifetime w w') {a : KekWriteCache} (ha : a < w.nextWriteCache) :
    w'.writeCaches a = w.writeCaches a := by
  rcases h.shape with ⟨n, rfl⟩ | ⟨e, rfl⟩ | ⟨t, rfl⟩ | ⟨t, rfl⟩ | ⟨k, rfl⟩
  · rfl
  · rfl
  · rfl
  · exact Function.update_of_ne (Nat.ne_of_lt ha) ..
  · rfl

/-! What is found in one of the manager's caches was there before, or is fresh. -/

theorem clients_lookup (h : ManagerMove m config lifetime w w') {key : ClientKey} {v : ExpiringCacheValue KmsClient}
    (hl : (w'.clients m').lookup key = some v) :
    (w.clients m').lookup key = some v ∨ (m' = m ∧ FreshClient config key v.value w) := by
  unfold World.clients at hl ⊢
  by_cases hm : m' = m
  · subst hm
    cases h with
    | clients hc =>
      rcases hc.lookup hl with h1 | h1
      · exact Or.inl h1
      · exact Or.inr ⟨rfl, h1⟩
    | readCaches hc => obtain ⟨c, rfl⟩ := hc.eq_set; rw [readCachesPlace_set] at hl; exact Or.inl hl
    | writeCaches hc => obtain ⟨c, rfl⟩ := hc.eq_set; rw [writeCachesPlace_set] at hl; exact Or.inl hl
    | _ => exact Or.inl hl
  · rw [h.managers_ne hm] at hl; exact Or.inl hl

theorem readRegistry_lookup (h : ManagerMove m config lifetime w w') {key : KekCacheKey}
    {v : ExpiringCacheValue KekReadCache} (hl : (w'.readRegistry m').lookup key = some v) :
    (w.readRegistry m').lookup key = some v ∨ (m' = m ∧ FreshReadCache m key v.value w) := by
  unfold World.readRegistry at hl ⊢
  by_cases hm : m' = m
  · subst hm
    cases h with
    | clients hc => obtain ⟨c, rfl⟩ := hc.eq_set; rw [clientCachePlace_set] at hl; exact Or.inl hl
    | readCaches hc =>
      rcases hc.lookup hl with h1 | h1
      · exact Or.inl h1
      · exact Or.inr ⟨rfl, h1⟩
    | writeCaches hc => obtain ⟨c, rfl⟩ := hc.eq_set; rw [writeCachesPlace_set] at hl; exact Or.inl hl
    | _ => exact Or.inl hl
  · rw [h.managers_ne hm] at hl; exact Or.inl hl

theorem writeRegistry_lookup (h : ManagerMove m config lifetime w w') {key : KekCacheKey}
    {v : ExpiringCacheValue KekWriteCache} (hl : (w'.writeRegistry m').lookup key = some v) :
    (w.writeRegistry m').lookup key = some v ∨ (m' = m ∧ FreshWriteCache m key v.value w) := by
  unfold World.writeRegistry at hl ⊢
  by_cases hm : m' = m
  · subst hm
    cases h with
    | clients hc => obtain ⟨c, rfl⟩ := hc.eq_set; rw [clientCachePlace_set] at hl; exact Or.inl hl
    | readCaches hc => obtain ⟨c, rfl⟩ := hc.eq_set; rw [readCachesPlace_set] at hl; exact Or.inl hl
    | writeCaches hc =>
      rcases hc.lookup hl with h1 | h1
      · exact Or.inl h1
      · exact Or.inr ⟨rfl, h1⟩
    | _ => exact Or.inl hl
  · rw [h.managers_ne hm] at hl; exact Or.inl hl

/-- A manager's mutex is poisoned only by a lifetime that ends past the last instant. -/
theorem managerPoisoned (h : ManagerMove m config lifetime w w') (hp : w'.ManagerPoisoned m') :
    w.ManagerPoisoned m' ∨ PastLimit lifetime w := by
  unfold World.ManagerPoisoned at hp ⊢
  by_cases hm : m' = m
  · subst hm
    cases h with
    | clients hc =>
      rcases hp with hp | hp | hp
      · rcases hc.poisoned hp with h1 | h1
        · exact Or.inl (Or.inl h1)
        · exact Or.inr h1
      · obtain ⟨c, rfl⟩ := hc.eq_set; rw [clientCachePlace_set] at hp; exact Or.inl (Or.inr (Or.inl hp))
      · obtain ⟨c, rfl⟩ := hc.eq_set; rw [clientCachePlace_set] at hp; exact Or.inl (Or.inr (Or.inr hp))
    | readCaches hc =>
      rcases hp with hp | hp | hp
      · obtain ⟨c, rfl⟩ := hc.eq_set; rw [readCachesPlace_set] at hp; exact Or.inl (Or.inl hp)
      · rcases hc.poisoned hp with h1 | h1
        · exact Or.inl (Or.inr (Or.inl h1))
        · exact Or.inr h1
      · obtain ⟨c, rfl⟩ := hc.eq_set; rw [readCachesPlace_set] at hp; exact Or.inl (Or.inr (Or.inr hp))
    | writeCaches hc =>
      rcases hp with hp | hp | hp
      · obtain ⟨c, rfl⟩ := hc.eq_set; rw [writeCachesPlace_set] at hp; exact Or.inl (Or.inl hp)
      · obtain ⟨c, rfl⟩ := hc.eq_set; rw [writeCachesPlace_set] at hp; exact Or.inl (Or.inr (Or.inl hp))
      · rcases hc.poisoned hp with h1 | h1
        · exact Or.inl (Or.inr (Or.inr h1))
        · exact Or.inr h1
    | _ => exact Or.inl hp
  · rw [h.managers_ne hm] at hp; exact Or.inl hp

end ManagerMove

end

end ParquetKeyManagement
