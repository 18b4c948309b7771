/-
  ParquetKeyManagement.Factory.SharedKeys — what requests that run side by side agree on.

  Between any two steps of a request others may run. What it can count on then, and what it
  must not break itself, is one contract (`sharing`): an invariant (`LedgerInv`), which says
  where the KEKs in the caches come from and what every key issued and every key retrieved so
  far is; an order in which the state evolves (`Ledger.Evolves`), in which no KEK is ever lost;
  and what each mutex protects.
  The invariant has a part about reading that only holds if nothing but issued metadata is
  read and lifetimes end, from any moment up to a limit, at an instant. It is `strict` then.
  - `Calm`: most sections write neither a KEK nor a mutex's flag, and keep the contract.
-/

import ParquetKeyManagement.Factory.Completion

namespace ParquetKeyManagement

open Effect Locks

/-! ## Keys and where they come from -/

section

variable (env : Env) (drawn : List DrawnKek)

/-- A KEK as the library makes them. -/
structure MadeKek (masterKeyId : String) (kek : KeyEncryptionKey) : Prop where
  encoded : kek.encodedKeyId = Base64.encode kek.keyId
  drawn : ∃ use, ⟨kek.key, kek.keyId, use⟩ ∈ drawn
  wrapped : WrappedByKms env kek.key masterKeyId kek.wrappedKey

/-- The KEK was drawn with this id. -/
def IsDrawn (kekId : String) (kek : Bytes) : Prop :=
  ∃ keyId use, kekId = Base64.encode keyId ∧ ⟨kek, keyId, use⟩ ∈ drawn

/-- How a key is in its material. -/
inductive Carries (key : Bytes) (m : KeyMaterial) : Prop
  | single : m.doubleWrapping = false → WrappedByKms env key m.masterKeyId m.wrappedDek → Carries key m
  | double (kek : KeyEncryptionKey) : m.doubleWrapping = true → MadeKek env drawn m.masterKeyId kek →
    m.keyEncryptionKeyId = some kek.encodedKeyId → m.wrappedKek = some kek.wrappedKey →
    decryptEncryptionKey env m.wrappedDek kek.keyId kek.key = .ok key → Carries key m

/-- The material was made for the key. -/
structure MaterialOf (key : Bytes) (m : KeyMaterial) : Prop where
  keyMaterialType : m.keyMaterialType = "PKMT1"
  internalStorage : m.internalStorage = true
  kmsInstanceId : ∀ id, m.kmsInstanceId = some id → id ≠ ""
  kmsInstanceUrl : ∀ url, m.kmsInstanceUrl = some url → url ≠ ""
  carries : Carries env drawn key m

/-- What the metadata of a key reads as when it is handed out. -/
structure IssuedFrom (key : EncryptionKey) (m : KeyMaterial) : Prop extends MaterialOf env drawn key.key m where
  read : KeyUnwrapper.readMaterial env key.metadata = .ok m

/-- How a key was had from a material. -/
inductive Gave (m : KeyMaterial) (key : Bytes) : Prop
  | single (j : Nat) (client : KmsClient) : m.doubleWrapping = false →
    env.unwrapKey j client m.wrappedDek m.masterKeyId = .ok key → Gave m key
  | double (kek keyId : Bytes) (use : Nat) : m.doubleWrapping = true →
    m.keyEncryptionKeyId = some (Base64.encode keyId) → ⟨kek, keyId, use⟩ ∈ drawn →
    decryptEncryptionKey env m.wrappedDek keyId kek = .ok key → Gave m key

end

section

variable {env : Env} {drawn drawn' : List DrawnKek}

theorem MadeKek.mono {masterKeyId : String} {kek : KeyEncryptionKey} (h : MadeKek env drawn masterKeyId kek)
    (hsub : drawn ⊆ drawn') : MadeKek env drawn' masterKeyId kek := by
  obtain ⟨use, hmem⟩ := h.drawn
  exact { h with drawn := ⟨use, hsub hmem⟩ }

theorem MadeKek.isDrawn {masterKeyId : String} {kek : KeyEncryptionKey} (h : MadeKek env drawn masterKeyId kek) :
    IsDrawn drawn kek.encodedKeyId kek.key := by
  obtain ⟨use, hmem⟩ := h.drawn
  exact ⟨kek.keyId, use, h.encoded, hmem⟩

theorem IsDrawn.mono {kekId : String} {kek : Bytes} (h : IsDrawn drawn kekId kek) (hsub : drawn ⊆ drawn') :
    IsDrawn drawn' kekId kek := by
  obtain ⟨keyId, use, he, hmem⟩ := h
  exact ⟨keyId, use, he, hsub hmem⟩

theorem MaterialOf.mono {key : Bytes} {m : KeyMaterial} (h : MaterialOf env drawn key m) (hsub : drawn ⊆ drawn') :
    MaterialOf env drawn' key m := by
  refine { h with carries := ?_ }
  cases h.carries with
  | single hd hw => exact .single hd hw
  | double kek hd hk h1 h2 h3 => exact .double kek hd (hk.mono hsub) h1 h2 h3

theorem IssuedFrom.mono {key : EncryptionKey} {m : KeyMaterial} (h : IssuedFrom env drawn key m)
    (hsub : drawn ⊆ drawn') : IssuedFrom env drawn' key m := ⟨h.toMaterialOf.mono hsub, h.read⟩

theorem Gave.mono {m : KeyMaterial} {key : Bytes} (h : Gave env drawn m key) (hsub : drawn ⊆ drawn') :
    Gave env drawn' m key := by
  cases h with
  | single j client hd hu => exact .single j client hd hu
  | double kek keyId use hd hk hmem hdec => exact .double kek keyId use hd hk (hsub hmem) hdec

end

/-- The error that a call of user code returned. -/
def KmsEvent.error : KmsEvent → Option ParquetError
  | .createClient _ (.error e) | .wrapKey _ _ _ (.error e) | .unwrapKey _ _ _ (.error e) => some e
  | _ => none

/-- A call of user code after the first `n` returned the error. -/
def World.FailedWith (w : World) (n : Nat) (e : ParquetError) : Prop := ∃ x ∈ w.log.drop n, x.error = some e

/-- From any moment up to the limit, the lifetime ends at an instant. -/
def Fits (limit : Instant) (lifetime : Option Duration) : Prop :=
  ∀ d, lifetime = some d → limit + d.nanos < instantLimit

/-! ## The invariant -/

/-- A KEK cache that is registered exists; one that does not exist yet is empty. -/
structure CachesInv (w : World) : Prop where
  readRegistry : ∀ m key v, (w.readRegistry m).lookup key = some v → v.value < w.nextReadCache
  writeRegistry : ∀ m key v, (w.writeRegistry m).lookup key = some v → v.value < w.nextWriteCache
  readFresh : ∀ a, w.nextReadCache ≤ a → w.readCaches a = Mutex.new ∅
  writeFresh : ∀ a, w.nextWriteCache ≤ a → w.writeCaches a = Mutex.new ∅

section

variable (env : Env) (strict : Prop) (limit : Instant)

/-- The calls of user code that were made from the beginning of the retrieval to its end. -/
def Retrieval.events (r : Retrieval) (s : Ledger) : List KmsEvent := (s.world.log.take r.ended).drop r.since

/-- A retrieval ended as it should: a key comes from the material, an error from a call of user code, and there is no
    panic up to the limit. -/
structure Retrieval.Sound (r : Retrieval) (s : Ledger) : Prop where
  ended : r.ended ≤ s.world.log.length
  result : Ends (fun key s => ∀ m, KeyUnwrapper.readMaterial env r.keyMetadata = .ok m → Gave env s.drawn m key)
    (fun e s => (∃ x ∈ r.events s, x.error = some e) ∨ ¬ env.DrawsDistinct s.world.calls)
    (fun s => limit < s.world.clock) r.result s

structure LedgerInv (s : Ledger) : Prop where
  caches : CachesInv s.world
  uses : ∀ d ∈ s.drawn, d.use < s.world.calls ∧ env.Drew d.use d.keyId
  once : ∀ d ∈ s.drawn, ∀ d' ∈ s.drawn, d.use = d'.use → d = d'
  readers : ∀ u ∈ s.readers, u.kekCache < s.world.nextReadCache ∧
    (strict → Fits limit u.decryptionConfiguration.cacheLifetime)
  writeKeks : ∀ a masterKeyId kek, (s.world.writeCaches a).data.lookup masterKeyId = some kek →
    MadeKek env s.drawn masterKeyId kek
  issued : ∀ key ∈ s.issued, ∃ m, IssuedFrom env s.drawn key m
  readKeks : strict → ∀ a kekId kek, (s.world.readCaches a).data.lookup kekId = some kek → IsDrawn s.drawn kekId kek
  retrieved : strict → ∀ r ∈ s.retrieved, r.Sound env limit s
  intact : strict → s.world.clock ≤ limit → Intact s.world

/-- The clock has passed the limit, where there is one. -/
def Late (s : Ledger) : Prop := strict → limit < s.world.clock

end

/-! ## How the state evolves -/

/-- Nothing of the past is lost, and no KEK is. -/
structure Ledger.Evolves (s s' : Ledger) : Prop where
  world : s.world.Grows s'.world
  drawn : s.drawn ⊆ s'.drawn
  files : s.files ⊆ s'.files
  readers : s.readers ⊆ s'.readers
  retrieved : s.retrieved ⊆ s'.retrieved
  readKeks : ∀ a kekId kek, (s.world.readCaches a).data.lookup kekId = some kek →
    (s'.world.readCaches a).data.lookup kekId = some kek
  writeKeks : ∀ a masterKeyId kek, (s.world.writeCaches a).data.lookup masterKeyId = some kek →
    (s'.world.writeCaches a).data.lookup masterKeyId = some kek

namespace Ledger

variable {s s' s'' : Ledger}

theorem Evolves.refl (s : Ledger) : s.Evolves s :=
  ⟨.refl _, fun _ h => h, fun _ h => h, fun _ h => h, fun _ h => h, fun _ _ _ h => h, fun _ _ _ h => h⟩

theorem Evolves.trans (h : s.Evolves s') (h' : s'.Evolves s'') : s.Evolves s'' where
  world := h.world.trans h'.world
  drawn := List.Subset.trans h.drawn h'.drawn
  files := List.Subset.trans h.files h'.files
  readers := List.Subset.trans h.readers h'.readers
  retrieved := List.Subset.trans h.retrieved h'.retrieved
  readKeks a kekId kek hl := h'.readKeks a kekId kek (h.readKeks a kekId kek hl)
  writeKeks a masterKeyId kek hl := h'.writeKeks a masterKeyId kek (h.writeKeks a masterKeyId kek hl)

theorem mem_issued {key : EncryptionKey} : key ∈ s.issued ↔ ∃ f ∈ s.files, key ∈ f.properties.keys := List.mem_flatMap

theorem Evolves.issued (h : s.Evolves s') : s.issued ⊆ s'.issued := by
  intro key hkey
  obtain ⟨f, hf, hkey⟩ := mem_issued.mp hkey
  exact mem_issued.mpr ⟨f, h.files hf, hkey⟩

end Ledger

theorem World.failedWith_record (w : World) {n : Nat} (hn : n ≤ w.log.length) {x : KmsEvent} {e : ParquetError}
    (he : x.error = some e) : (w.record x).FailedWith n e := by
  refine ⟨x, ?_, he⟩
  show x ∈ (w.log ++ [x]).drop n
  rw [List.drop_append_of_le_length hn]
  exact List.mem_append_right _ (List.mem_singleton.mpr rfl)

theorem World.FailedWith.grows {w w' : World} {n : Nat} {e : ParquetError} (h : w.FailedWith n e) (hg : w.Grows w') :
    w'.FailedWith n e := by
  obtain ⟨x, hx, he⟩ := h
  exact ⟨x, (hg.log.drop n).subset hx, he⟩

theorem Env.DrawsDistinct.mono {env : Env} {n n' : Nat} (h : env.DrawsDistinct n') (hn : n ≤ n') :
    env.DrawsDistinct n :=
  fun i j bytes hi hj => h i j bytes (lt_of_lt_of_le hi hn) (lt_of_lt_of_le hj hn)

section

variable {env : Env} {strict : Prop} {limit : Instant} {s s' : Ledger}

theorem Late.evolves (h : Late strict limit s) (he : s.Evolves s') : Late strict limit s' :=
  fun hstrict => lt_of_lt_of_le (h hstrict) he.world.clock

/-- What happened while a key was retrieved stays what it was. -/
theorem Retrieval.events_evolves {r : Retrieval} (hr : r.ended ≤ s.world.log.length) (he : s.Evolves s') :
    r.events s' = r.events s := by
  obtain ⟨later, hlog⟩ := he.world.log
  unfold Retrieval.events
  rw [← hlog, List.take_append_of_le_length hr]

theorem Retrieval.Sound.evolves {r : Retrieval} (h : r.Sound env limit s) (he : s.Evolves s') :
    r.Sound env limit s' := by
  obtain ⟨hended, hresult⟩ := h
  refine ⟨hended.trans he.world.log.length_le, ?_⟩
  cases hr : r.result with
  | ok key =>
    rw [hr] at hresult
    exact fun m hm => (hresult m hm).mono he.drawn
  | err e =>
    rw [hr] at hresult
    refine Or.imp (fun hf => ?_) (fun hd hd' => hd (hd'.mono he.world.calls)) hresult
    rw [Retrieval.events_evolves hended he]
    exact hf
  | panic =>
    rw [hr] at hresult
    exact lt_of_lt_of_le hresult he.world.clock

/-- Distinct draws make a KEK's id determine the KEK. -/
theorem LedgerInv.drawn_eq (h : LedgerInv env strict limit s) (hdistinct : env.DrawsDistinct s.world.calls)
    {kek kek' keyId : Bytes} {use use' : Nat} (hk : ⟨kek, keyId, use⟩ ∈ s.drawn) (hk' : ⟨kek', keyId, use'⟩ ∈ s.drawn) :
    kek = kek' := by
  obtain ⟨hlt, hdrew⟩ := h.uses _ hk
  obtain ⟨hlt', hdrew'⟩ := h.uses _ hk'
  have huse : use = use' := hdistinct _ _ _ hlt hlt' hdrew hdrew'
  cases h.once _ hk _ hk' huse
  rfl

end

/-! ## Writes beside the KEKs -/

/-- A write that leaves the KEK caches as they are. -/
structure Beside (w w' : World) : Prop where
  grows : w.Grows w'
  readCaches : w'.readCaches = w.readCaches
  writeCaches : w'.writeCaches = w.writeCaches
  caches : CachesInv w → CachesInv w'

/-- It poisons nothing either. -/
structure Calm (w w' : World) : Prop extends Beside w w' where
  intact : Intact w → Intact w'

section

variable {w w' w'' : World}

theorem Beside.trans (h : Beside w w') (h' : Beside w' w'') : Beside w w'' :=
  ⟨h.grows.trans h'.grows, h'.readCaches.trans h.readCaches, h'.writeCaches.trans h.writeCaches,
    fun hc => h'.caches (h.caches hc)⟩

theorem Calm.refl (w : World) : Calm w w := ⟨⟨.refl w, rfl, rfl, fun h => h⟩, fun h => h⟩

theorem Calm.trans (h : Calm w w') (h' : Calm w' w'') : Calm w w'' :=
  ⟨h.toBeside.trans h'.toBeside, fun hi => h'.intact (h.intact hi)⟩

theorem Calm.of_path (path : Relation.ReflTransGen Calm w w') : Calm w w' :=
  path_keeps (I := fun v => Calm w v) (fun _ _ h h' => h.trans h') path (.refl w)

/-- The registries hold nothing new. -/
theorem CachesInv.of_registries (h : CachesInv w) (hg : w.Grows w') (hr : w'.readCaches = w.readCaches)
    (hw : w'.writeCaches = w.writeCaches)
    (hreads : ∀ m key v, (w'.readRegistry m).lookup key = some v →
      (w.readRegistry m).lookup key = some v ∨ v.value < w'.nextReadCache)
    (hwrites : ∀ m key v, (w'.writeRegistry m).lookup key = some v →
      (w.writeRegistry m).lookup key = some v ∨ v.value < w'.nextWriteCache) : CachesInv w' where
  readRegistry m key v hl := by
    rcases hreads m key v hl with h1 | h1
    · exact lt_of_lt_of_le (h.readRegistry m key v h1) hg.nextReadCache
    · exact h1
  writeRegistry m key v hl := by
    rcases hwrites m key v hl with h1 | h1
    · exact lt_of_lt_of_le (h.writeRegistry m key v h1) hg.nextWriteCache
    · exact h1
  readFresh a ha := by rw [hr]; exact h.readFresh a (hg.nextReadCache.trans ha)
  writeFresh a ha := by rw [hw]; exact h.writeFresh a (hg.nextWriteCache.trans ha)

theorem Calm.of_managers (hg : w.Grows w') (hm : w'.managers = w.managers) (hr : w'.readCaches = w.readCaches)
    (hw : w'.writeCaches = w.writeCaches) : Calm w w' := by
  refine ⟨⟨hg, hr, hw, fun h => h.of_registries hg hr hw (fun m key v hl => Or.inl ?_) fun m key v hl => Or.inl ?_⟩,
    intact_of_eq hm hr hw⟩
  · unfold World.readRegistry at hl ⊢
    rwa [hm] at hl
  · unfold World.writeRegistry at hl ⊢
    rwa [hm] at hl

theorem calm_tick (w : World) (n : Nat) : Calm w (w.tick n) := .of_managers (w.grows_tick n) rfl rfl rfl

theorem calm_record (w : World) (e : KmsEvent) : Calm w (w.record e) := .of_managers (w.grows_record e) rfl rfl rfl

/-- The address that a new cache takes held an empty one. -/
theorem calm_allocReadCache (h : CachesInv w) (owner : ManagerId × String) : Calm w (w.allocReadCache owner) := by
  have hsame : (w.allocReadCache owner).readCaches = w.readCaches := by
    show Function.update w.readCaches w.nextReadCache (Mutex.new ∅) = _
    rw [← h.readFresh _ (le_refl _)]
    exact Function.update_eq_self ..
  refine .of_managers ?_ rfl hsame rfl
  exact { World.Grows.refl w with
    nextReadCache := Nat.le_succ _, readCacheOwner := fun a ha => Function.update_of_ne (Nat.ne_of_lt ha) .. }

theorem calm_allocWriteCache (h : CachesInv w) (owner : ManagerId × String) : Calm w (w.allocWriteCache owner) := by
  have hsame : (w.allocWriteCache owner).writeCaches = w.writeCaches := by
    show Function.update w.writeCaches w.nextWriteCache (Mutex.new ∅) = _
    rw [← h.writeFresh _ (le_refl _)]
    exact Function.update_eq_self ..
  refine .of_managers ?_ rfl rfl hsame
  exact { World.Grows.refl w with
    nextWriteCache := Nat.le_succ _, writeCacheOwner := fun a ha => Function.update_of_ne (Nat.ne_of_lt ha) .. }

/-- A manager's registries get no cache that does not exist. -/
theorem beside_setManager {m : ManagerId} {k : KmsManager}
    (hreads : ∀ key v, k.kekReadCaches.cache.data.lookup key = some v →
      (w.readRegistry m).lookup key = some v ∨ v.value < w.nextReadCache)
    (hwrites : ∀ key v, k.kekWriteCaches.cache.data.lookup key = some v →
      (w.writeRegistry m).lookup key = some v ∨ v.value < w.nextWriteCache) : Beside w (w.setManager m k) := by
  have hg : w.Grows (w.setManager m k) := { World.Grows.refl w with }
  refine ⟨hg, rfl, rfl, fun h => h.of_registries hg rfl rfl (fun m' key v hl => ?_) fun m' key v hl => ?_⟩
  · change ((w.setManager m k).managers m').kekReadCaches.cache.data.lookup key = some v at hl
    by_cases hm : m' = m
    · subst hm
      rw [setManager_eq] at hl
      exact hreads key v hl
    · rw [setManager_ne w k hm] at hl
      exact Or.inl hl
  · change ((w.setManager m k).managers m').kekWriteCaches.cache.data.lookup key = some v at hl
    by_cases hm : m' = m
    · subst hm
      rw [setManager_eq] at hl
      exact hwrites key v hl
    · rw [setManager_ne w k hm] at hl
      exact Or.inl hl

/-- A new manager's caches are empty. -/
theorem calm_newManager (w : World) {k : KmsManager} (h1 : k.kmsClientCache.Empty) (h2 : k.kekReadCaches.Empty)
    (h3 : k.kekWriteCaches.Empty) : Calm w { w.setManager w.nextManager k with nextManager := w.nextManager + 1 } := by
  have hset : Calm w (w.setManager w.nextManager k) := by
    refine ⟨beside_setManager (fun key v hl => ?_) fun key v hl => ?_, fun h => ?_⟩
    · rw [h2.data] at hl; cases hl
    · rw [h3.data] at hl; cases hl
    · refine intact_of_flags (w := w) (fun m hp => ?_) (fun _ => rfl) (fun _ => rfl) h
      unfold World.ManagerPoisoned at hp ⊢
      by_cases hm : m = w.nextManager
      · subst hm
        rw [setManager_eq, h1, h2, h3] at hp
        simp [Mutex.new] at hp
      · rwa [setManager_ne w k hm] at hp
  refine hset.trans (.of_managers ?_ rfl rfl rfl)
  exact { World.Grows.refl (w.setManager w.nextManager k) with nextManager := Nat.le_succ _ }

/-! ## Expiring caches -/

theorem CacheWrite.mono {κ ν : Type} [DecidableEq κ] {place : Place World (ExpiringCache κ ν)}
    {lifetime : Option Duration} {Fresh Fresh' : κ → ν → World → Prop} (h : CacheWrite place lifetime Fresh w w')
    (hf : ∀ k v w, Fresh k v w → Fresh' k v w) : CacheWrite place lifetime Fresh' w w' := by
  cases h with
  | stamp t => exact .stamp _ t
  | evict ks hexp => exact .evict _ ks hexp
  | store k v hfresh => exact .store _ k v (hf _ _ _ hfresh)

variable {m : ManagerId} {lifetime : Option Duration}

theorem beside_clients (c : ExpiringCache ClientKey KmsClient) : Beside w ((clientCachePlace m).set c w) :=
  beside_setManager (fun _ _ hl => Or.inl hl) fun _ _ hl => Or.inl hl

theorem beside_readCaches (h : CacheMove (readCachesPlace m) lifetime (fun _ a w => a < w.nextReadCache) w w') :
    Beside w w' := by
  obtain ⟨c, rfl⟩ := h.eq_set
  refine beside_setManager (fun key v hl => ?_) fun _ _ hl => Or.inl hl
  refine h.lookup (k := key) (v := v) ?_
  show ((((readCachesPlace m).set c w).managers m).kekReadCaches.cache.data).lookup key = some v
  rw [readCachesPlace_set]
  exact hl

theorem beside_writeCaches (h : CacheMove (writeCachesPlace m) lifetime (fun _ a w => a < w.nextWriteCache) w w') :
    Beside w w' := by
  obtain ⟨c, rfl⟩ := h.eq_set
  refine beside_setManager (fun _ _ hl => Or.inl hl) fun key v hl => ?_
  refine h.lookup (k := key) (v := v) ?_
  show ((((writeCachesPlace m).set c w).managers m).kekWriteCaches.cache.data).lookup key = some v
  rw [writeCachesPlace_set]
  exact hl

/-- One of the caches of a registry, and what its values are known to be. -/
structure RegistryCache {κ ν : Type} [DecidableEq κ] (place : Place World (ExpiringCache κ ν))
    (Known : κ → ν → World → Prop) : Prop where
  moves : ∀ lifetime, ExpiringCache.Moves place lifetime Known Calm
  poison : ∀ w, Beside w (poison (cacheLock place) w)
  poisoned : ∀ w, ((cacheLock place).get w).poisoned = true → w.Poisoned
  entries : ∀ w key e, CachesInv w → ((ExpiringCache.entries place).get w).lookup key = some e → Known key e.value w
  grows : ∀ key v w w', w.Grows w' → Known key v w → Known key v w'

theorem clientsRegistered (m : ManagerId) : RegistryCache (clientCachePlace m) fun _ _ _ => True where
  moves lifetime := {
    write := fun a b h => by
      have hi := (KmsManager.clientsIntact m lifetime).write a b h
      obtain ⟨c, rfl⟩ := h.eq_set
      exact ⟨beside_clients c, hi⟩
    tick := calm_tick
    get_tick := fun _ _ => rfl
    fresh_tick := fun _ _ _ _ h => h
    fresh_set := fun _ _ _ _ h => h }
  poison _ := beside_clients _
  poisoned _ hp := Or.inl ⟨m, Or.inl hp⟩
  entries _ _ _ _ _ := trivial
  grows _ _ _ _ _ h := h

theorem readsRegistered (m : ManagerId) : RegistryCache (readCachesPlace m) fun _ a w => a < w.nextReadCache where
  moves lifetime := {
    write := fun a b h => ⟨beside_readCaches (.write h),
      (KmsManager.readCachesIntact m lifetime).write a b (h.mono fun _ _ _ _ => trivial)⟩
    tick := calm_tick
    get_tick := fun _ _ => rfl
    fresh_tick := fun _ _ _ _ h => h
    fresh_set := fun _ _ _ _ h => h }
  poison _ := beside_setManager (fun _ _ hl => Or.inl hl) fun _ _ hl => Or.inl hl
  poisoned _ hp := Or.inl ⟨m, Or.inr (Or.inl hp)⟩
  entries _ key e h hl := h.readRegistry m key e hl
  grows _ _ _ _ hg h := lt_of_lt_of_le h hg.nextReadCache

theorem writesRegistered (m : ManagerId) : RegistryCache (writeCachesPlace m) fun _ a w => a < w.nextWriteCache where
  moves lifetime := {
    write := fun a b h => ⟨beside_writeCaches (.write h),
      (KmsManager.writeCachesIntact m lifetime).write a b (h.mono fun _ _ _ _ => trivial)⟩
    tick := calm_tick
    get_tick := fun _ _ => rfl
    fresh_tick := fun _ _ _ _ h => h
    fresh_set := fun _ _ _ _ h => h }
  poison _ := beside_setManager (fun _ _ hl => Or.inl hl) fun _ _ hl => Or.inl hl
  poisoned _ hp := Or.inl ⟨m, Or.inr (Or.inr hp)⟩
  entries _ key e h hl := h.writeRegistry m key e hl
  grows _ _ _ _ hg h := lt_of_lt_of_le h hg.nextWriteCache

end

/-! ## What threads agree on -/

/-- What the mutex of a KEK cache protects; the other locks protect nothing that matters here. -/
def LibraryLock.Same : LibraryLock → Ledger → Ledger → Prop
  | .kekReads a, s, s' => s'.world.readCaches a = s.world.readCaches a
  | .kekWrites a, s, s' => s'.world.writeCaches a = s.world.writeCaches a
  | _, _, _ => True

def sharing (env : Env) (strict : Prop) (limit : Instant) : Contract LibraryLock Ledger where
  Inv := LedgerInv env strict limit
  Evolves := Ledger.Evolves
  Same := LibraryLock.Same
  evolves_refl := .refl
  evolves_trans := .trans
  same_refl l s := by cases l <;> first | rfl | trivial
  same_trans {l s s' s''} h h' := by
    cases l with
    | kekReads a => exact Eq.trans h' h
    | kekWrites a => exact Eq.trans h' h
    | _ => trivial

section

variable {env : Env} {strict : Prop} {limit : Instant} {s s' : Ledger} {w : World} {held : List (LibraryLock × Mode)}

theorem Beside.evolves (h : Beside s.world w) : s.Evolves { s with world := w } :=
  ⟨h.grows, fun _ h => h, fun _ h => h, fun _ h => h, fun _ h => h, fun a _ _ hl => by rwa [h.readCaches],
    fun a _ _ hl => by rwa [h.writeCaches]⟩

theorem Beside.ledgerInv (h : Beside s.world w) (hs : LedgerInv env strict limit s)
    (hi : strict → w.clock ≤ limit → Intact w) : LedgerInv env strict limit { s with world := w } where
  caches := h.caches hs.caches
  uses d hd := ⟨lt_of_lt_of_le (hs.uses d hd).1 h.grows.calls, (hs.uses d hd).2⟩
  once := hs.once
  readers u hu := ⟨lt_of_lt_of_le (hs.readers u hu).1 h.grows.nextReadCache, (hs.readers u hu).2⟩
  writeKeks a masterKeyId kek hl := hs.writeKeks a masterKeyId kek (by rwa [← h.writeCaches])
  issued := hs.issued
  readKeks hstrict a kekId kek hl := hs.readKeks hstrict a kekId kek (by rwa [← h.readCaches])
  retrieved hstrict r hr := (hs.retrieved hstrict r hr).evolves h.evolves
  intact := hi

theorem Beside.guar (h : Beside s.world w) (hs : LedgerInv env strict limit s)
    (hi : strict → w.clock ≤ limit → Intact w) : (sharing env strict limit).Guar held s { s with world := w } := by
  refine .of_same (h.ledgerInv hs hi) h.evolves fun l => ?_
  cases l with
  | kekReads a => exact congrFun h.readCaches a
  | kekWrites a => exact congrFun h.writeCaches a
  | _ => trivial

theorem Calm.ledgerInv (h : Calm s.world w) (hs : LedgerInv env strict limit s) :
    LedgerInv env strict limit { s with world := w } :=
  h.toBeside.ledgerInv hs fun hstrict hlimit => h.intact (hs.intact hstrict (h.grows.clock.trans hlimit))

theorem Calm.guar (h : Calm s.world w) (hs : LedgerInv env strict limit s) :
    (sharing env strict limit).Guar held s { s with world := w } := h.toBeside.guar hs (h.ledgerInv hs).intact

/-- Past the limit a mutex may be poisoned. -/
theorem Beside.guar_late (h : Beside s.world w) (hs : LedgerInv env strict limit s) (hlate : Late strict limit s) :
    (sharing env strict limit).Guar held s { s with world := w } :=
  h.guar hs fun hstrict hlimit => absurd (lt_of_lt_of_le (hlate hstrict) h.grows.clock) (not_lt.mpr hlimit)

/-- A section of calm writes. -/
theorem call_safe {α : Type} {x : Call α} {p : α → Ledger → Prop} {q : ParquetError → Ledger → Prop} {d : Ledger → Prop}
    (hx : ∀ s', (sharing env strict limit).Rely held s s' →
      Along Calm x s'.world (fun a w => p a { s' with world := w })
      (fun e w => q e { s' with world := w }) fun w => d { s' with world := w })
    (hkeep : ∀ r s' s'', (sharing env strict limit).Rely held s' s'' → Ends p q d r s' → Ends p q d r s'') :
    (call x).Safe (sharing env strict limit) held s p q d := by
  refine .ofCall fun s' hr => ?_
  have h := hx s' hr
  refine ⟨(Calm.of_path h.path).guar hr.inv, fun s'' hr' => hkeep _ _ _ hr' ?_⟩
  show Ends p q d (x s'.world).1 { s' with world := (x s'.world).2 }
  cases hres : (x s'.world).1 with
  | ok a => exact h.ok a hres
  | err e => exact h.err e hres
  | panic => exact h.panic hres

end

end ParquetKeyManagement
