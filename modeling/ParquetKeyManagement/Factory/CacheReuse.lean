/-
  ParquetKeyManagement.Factory.CacheReuse — a factory shares its clients and KEK caches.

  A request uses the registry of its factory only through `get_client`, `get_kek_read_cache` and
  `get_kek_write_cache`, with one lifetime (`RegistryCall`), however far it gets.
  - `caches_reused`: in any part of a run that takes less than `d`, in which no request on a
    factory asks for a lifetime shorter than `d`, the factory creates at most one client for a
    token and a KMS instance, and makes at most one KEK cache of each kind for a token.
-/

import ParquetKeyManagement.Kms.Reuse
import ParquetKeyManagement.Factory.System

namespace ParquetKeyManagement

open Effect

variable (env : Env)

/-! ## How a request uses the registry -/

/-- The registry is left alone, and no client is created. -/
structure Outside (w w' : World) : Prop where
  clock : w.clock ≤ w'.clock
  managers : w'.managers = w.managers
  clients : ∀ key, w'.clientsCreated key = w.clientsCreated key
  nextReadCache : w'.nextReadCache = w.nextReadCache
  readCacheOwner : w'.readCacheOwner = w.readCacheOwner
  nextWriteCache : w'.nextWriteCache = w.nextWriteCache
  writeCacheOwner : w'.writeCacheOwner = w.writeCacheOwner

/-- A call of `get_client` with this lifetime, or something else. -/
inductive ClientCall (m : ManagerId) (lifetime : Option Duration) : World → World → Prop
  | client (config : KmsConnectionConfig) (w : World) :
    ClientCall m lifetime w (KmsManager.getClient env m config lifetime w).2
  | outside {w w' : World} : Outside w w' → ClientCall m lifetime w w'

/-- One of these, or a call for a KEK cache. -/
inductive RegistryCall (m : ManagerId) (lifetime : Option Duration) : World → World → Prop
  | inside {w w' : World} : ClientCall env m lifetime w w' → RegistryCall m lifetime w w'
  | readCache (config : KmsConnectionConfig) (w : World) :
    RegistryCall m lifetime w (KmsManager.getKekReadCache env m config lifetime w).2
  | writeCache (config : KmsConnectionConfig) (w : World) :
    RegistryCall m lifetime w (KmsManager.getKekWriteCache env m config lifetime w).2

section

variable {m : ManagerId} {lifetime : Option Duration}

theorem getClient_calls (config : KmsConnectionConfig) :
    Takes (ClientCall env m lifetime) (KmsManager.getClient env m config lifetime) := .of_step fun w => .client config w

theorem fill_calls (len : Nat) : Takes (ClientCall env m lifetime) (fill env len) := by
  refine .of_step fun w => .outside ?_
  unfold fill
  cases env.fill w.calls len <;> exact ⟨le_refl _, rfl, fun _ => rfl, rfl, rfl, rfl, rfl⟩

/-- A call of user code that creates no client. -/
theorem outside_record (w : World) {e : KmsEvent} (he : ∀ key, e.creates key = false) : Outside w (w.record e) := by
  refine ⟨le_refl _, rfl, fun key => ?_, rfl, rfl, rfl, rfl⟩
  simp [World.clientsCreated, World.record, List.countP_append, he key]

theorem wrapKey_calls (client : KmsClient) (keyBytes : Bytes) (masterKeyId : String) :
    Takes (ClientCall env m lifetime) (wrapKey env client keyBytes masterKeyId) := by
  refine .of_step fun w => .outside ?_
  unfold wrapKey
  dsimp only
  cases env.wrapKey w.calls client keyBytes masterKeyId <;> exact outside_record w fun _ => rfl

theorem unwrapKey_calls (client : KmsClient) (wrappedKey masterKeyId : String) :
    Takes (ClientCall env m lifetime) (unwrapKey env client wrappedKey masterKeyId) := by
  refine .of_step fun w => .outside ?_
  unfold unwrapKey
  dsimp only
  cases env.unwrapKey w.calls client wrappedKey masterKeyId <;> exact outside_record w fun _ => rfl

theorem encryptEncryptionKey_calls (dek kekId kekBytes : Bytes) :
    Takes (ClientCall env m lifetime) (encryptEncryptionKey env dek kekId kekBytes) := by
  unfold encryptEncryptionKey
  refine (Takes.ofExcept _).bind fun kek => (fill_calls env nonceLen).bind fun nonce => ?_
  cases env.aes128Gcm.sealDetached kek nonce kekId dek with
  | none => exact .fail _
  | some sealed => exact .pure _

end

/-! Writing a file -/

namespace KeyWrapper

variable (k : KeyWrapper)

theorem getKek_calls (masterKeyId : String) :
    Takes (ClientCall env k.kmsManager k.encryptionConfiguration.cacheLifetime) (k.getKek env masterKeyId) := by
  unfold getKek generateKeyEncryptionKey
  refine Takes.bind (.of_state fun _ => rfl) fun cache => ?_
  cases cache.lookup masterKeyId with
  | some kek => exact .pure kek
  | none =>
    refine Takes.bind ?_ fun kek =>
      Takes.bind (.of_step fun w => .outside ⟨le_refl _, rfl, fun _ => rfl, rfl, rfl, rfl, rfl⟩) fun _ => .pure kek
    refine (fill_calls env kekLen).bind fun key => (fill_calls env kekLen).bind fun keyId => ?_
    exact (getClient_calls env k.kmsConnectionConfig).bind fun client =>
      (wrapKey_calls env client key masterKeyId).bind fun wrapped => .pure _

theorem wrap_calls (key : Bytes) (masterKeyId : String) (b : KeyMaterialBuilder) :
    Takes (ClientCall env k.kmsManager k.encryptionConfiguration.cacheLifetime) (k.wrap env key masterKeyId b) := by
  unfold wrap
  split
  · refine Takes.lock ?_ fun w => .outside ⟨le_refl _, rfl, fun _ => rfl, rfl, rfl, rfl, rfl⟩
    exact (k.getKek_calls env masterKeyId).bind fun kek =>
      (encryptEncryptionKey_calls env key kek.keyId kek.key).bind fun wrappedDek => .ofExcept _
  · exact (getClient_calls env k.kmsConnectionConfig).bind fun client =>
      (wrapKey_calls env client key masterKeyId).bind fun wrapped => .ofExcept _

theorem getKeyMetadata_calls (key : Bytes) (masterKeyId : String) (isFooterKey : Bool) :
    Takes (ClientCall env k.kmsManager k.encryptionConfiguration.cacheLifetime)
      (k.getKeyMetadata env key masterKeyId isFooterKey) :=
  (k.wrap_calls env key masterKeyId _).bind fun _ => (Takes.ofExcept _).bind fun _ => .pure _

end KeyWrapper

namespace CryptoFactory

variable (k : KeyWrapper)

theorem generateKey_calls (masterKeyId : String) (isFooterKey : Bool) :
    Takes (ClientCall env k.kmsManager k.encryptionConfiguration.cacheLifetime)
      (generateKey env masterKeyId isFooterKey k) :=
  (fill_calls env dekLen).bind fun key => (k.getKeyMetadata_calls env key masterKeyId isFooterKey).bind fun _ => .pure _

theorem addColumns_calls (masterKeyId : String) (columnPaths : List String) (b : FileEncryptionProperties) :
    Takes (ClientCall env k.kmsManager k.encryptionConfiguration.cacheLifetime)
      (addColumns env k masterKeyId columnPaths b) := by
  induction columnPaths generalizing b with
  | nil => exact .pure b
  | cons c columnPaths ih => exact (generateKey_calls env k masterKeyId false).bind fun key => ih _

theorem addColumnKeys_calls (es : List (Sigma fun _ : String => List String)) (b : FileEncryptionProperties) :
    Takes (ClientCall env k.kmsManager k.encryptionConfiguration.cacheLifetime) (addColumnKeys env k es b) := by
  induction es generalizing b with
  | nil => exact .pure b
  | cons e es ih => exact (addColumns_calls env k e.1 e.2 b).bind fun b' => ih b'

/-- What follows once the wrapper is there. -/
theorem withWrapper_calls : Takes (ClientCall env k.kmsManager k.encryptionConfiguration.cacheLifetime)
    (do
      let footerKey ← generateKey env k.encryptionConfiguration.footerKeyId true k
      let order ← iterationOrder env
      addColumnKeys env k (HashMap.inOrder order k.encryptionConfiguration.columnKeyIds)
        ⟨footerKey, k.encryptionConfiguration.plaintextFooter, ∅⟩) := by
  refine (generateKey_calls env k k.encryptionConfiguration.footerKeyId true).bind fun footerKey => ?_
  refine Takes.bind (.of_step fun w => .outside ⟨le_refl _, rfl, fun _ => rfl, rfl, rfl, rfl, rfl⟩) fun order => ?_
  exact addColumnKeys_calls env k _ _

theorem fileEncryptionProperties_calls (m : ManagerId) (config : KmsConnectionConfig) (enc : EncryptionConfiguration) :
    Takes (RegistryCall env m enc.cacheLifetime) (fileEncryptionProperties env m config enc) := by
  unfold fileEncryptionProperties KeyWrapper.new
  split
  · exact .fail _
  split
  · exact .fail _
  rw [bind_assoc]
  refine Takes.bind (.of_step fun w => .writeCache config w) fun a => ?_
  exact (withWrapper_calls env ⟨m, config, enc, a⟩).lift fun _ _ h => .inside h

end CryptoFactory

/-! Reading one -/

namespace KeyUnwrapper

theorem new_calls (m : ManagerId) (config : KmsConnectionConfig) (dec : DecryptionConfiguration) :
    Takes (RegistryCall env m dec.cacheLifetime) (KeyUnwrapper.new env m config dec) := by
  unfold KeyUnwrapper.new
  refine Takes.bind (.of_step fun w => .readCache config w) fun a => ?_
  refine Takes.bind (.of_step fun w => .inside (.outside ⟨le_refl _, rfl, fun _ => rfl, rfl, rfl, rfl, rfl⟩))
    fun slot => ?_
  exact .pure _

variable (u : KeyUnwrapper)

theorem unwrapWithKms_calls (wrapped masterKeyId : String) :
    Takes (ClientCall env u.kmsManager u.decryptionConfiguration.cacheLifetime)
      (u.unwrapWithKms env wrapped masterKeyId) := by
  unfold unwrapWithKms
  refine Takes.bind (.of_state fun _ => rfl) fun config => ?_
  exact (getClient_calls env config).bind fun client => unwrapKey_calls env client wrapped masterKeyId

theorem getKek_calls (masterKeyId kekId wrappedKek : String) :
    Takes (ClientCall env u.kmsManager u.decryptionConfiguration.cacheLifetime)
      (u.getKek env masterKeyId kekId wrappedKek) := by
  unfold getKek
  refine Takes.bind (.of_state fun _ => rfl) fun cache => ?_
  cases cache.lookup kekId with
  | some kek => exact .pure kek
  | none =>
    exact (u.unwrapWithKms_calls env wrappedKek masterKeyId).bind fun kek =>
      Takes.bind (.of_step fun w => .outside ⟨le_refl _, rfl, fun _ => rfl, rfl, rfl, rfl, rfl⟩) fun _ => .pure kek

theorem unwrapDek_calls (m : KeyMaterial) :
    Takes (ClientCall env u.kmsManager u.decryptionConfiguration.cacheLifetime) (u.unwrapDek env m) := by
  unfold unwrapDek
  split
  · split
    · rename_i kekId wrappedKek _ _
      refine Takes.lock ?_ fun w => .outside ⟨le_refl _, rfl, fun _ => rfl, rfl, rfl, rfl, rfl⟩
      refine (u.getKek_calls env m.masterKeyId kekId wrappedKek).bind fun kek => ?_
      exact (Takes.ofExcept _).bind fun decodedKekId => .of_state fun _ => rfl
    · exact .fail _
  · exact u.unwrapWithKms_calls env m.wrappedDek m.masterKeyId

theorem updateKmsConfig_calls (m : KeyMaterial) (manager : ManagerId) (lifetime : Option Duration) :
    Takes (ClientCall env manager lifetime) (u.updateKmsConfig m) := by
  have hset : ∀ c, Takes (ClientCall env manager lifetime)
      (Eff.modify ((configPlace u.kmsConnectionConfig).set c) : Call Unit) :=
    fun c => .of_step fun w => .outside ⟨le_refl _, rfl, fun _ => rfl, rfl, rfl, rfl, rfl⟩
  unfold updateKmsConfig
  split
  · unfold updateKmsConfigFromFooterMetadata
    refine Takes.bind (.of_state fun _ => rfl) fun config => ?_
    split
    · exact .pure ()
    · exact (Takes.ofExcept _).bind fun withId => (hset withId).bind fun _ =>
        (Takes.ofExcept _).bind fun withUrl => hset withUrl
  · exact .pure ()

theorem retrieveKey_calls (keyMetadata : Bytes) :
    Takes (ClientCall env u.kmsManager u.decryptionConfiguration.cacheLifetime) (u.retrieveKey env keyMetadata) := by
  unfold retrieveKey
  refine (Takes.ofExcept _).bind fun m => ?_
  split
  · exact .fail _
  · exact (u.updateKmsConfig_calls env m _ _).bind fun _ => u.unwrapDek_calls env m

end KeyUnwrapper

/-! ## Requests -/

namespace Request

/-- The factory whose registry a request uses. -/
def factory : Request → Option ManagerId
  | .encrypt m _ _ | .decrypt m _ _ => some m
  | .retrieve u _ => some u.kmsManager
  | .newFactory | .refresh _ _ | .wait _ => none

/-- The requests on a factory. -/
def on (m : ManagerId) (_w : World) (r : Request) : Bool := decide (r.factory = some m)

theorem on_iff {m : ManagerId} {w : World} {r : Request} : on m w r = true ↔ r.factory = some m := decide_eq_true_iff

/-- The lifetime it asks for. -/
def cacheLifetime : Request → Option Duration
  | .encrypt _ _ enc => enc.cacheLifetime
  | .decrypt _ _ dec => dec.cacheLifetime
  | .retrieve u _ => u.decryptionConfiguration.cacheLifetime
  | .newFactory | .refresh _ _ | .wait _ => none

end Request

namespace System

variable {env} {m : ManagerId} {s : System} {r : Request}

/-- A request on a factory calls its registry. -/
theorem exec_calls (h : r.factory = some m) :
    Relation.ReflTransGen (RegistryCall env m r.cacheLifetime) s.world (s.exec env r).world := by
  cases r with
  | encrypt m' config enc =>
    cases h
    exact CryptoFactory.fileEncryptionProperties_calls env m config enc s.world
  | decrypt m' config dec =>
    cases h
    exact KeyUnwrapper.new_calls env m config dec s.world
  | retrieve u keyMetadata =>
    cases h
    exact (u.retrieveKey_calls env keyMetadata).lift (fun _ _ h => .inside h) s.world
  | newFactory => cases h
  | refresh config keyAccessToken => cases h
  | wait elapsed => cases h

end System

theorem WriterMove.managers_kept {env : Env} {k : KeyWrapper} {w w' : World} {m : ManagerId} (h : WriterMove env k w w')
    (hm : m ≠ k.kmsManager) : w'.managers m = w.managers m := by
  cases h with
  | manager h => exact h.managers_ne hm
  | wrap client keyBytes masterKeyId _ => rfl
  | storeKek masterKeyId kek _ _ => rfl
  | poison _ => rfl

theorem ReaderMove.managers_kept {env : Env} {u : KeyUnwrapper} {mat : KeyMaterial} {w0 w w' : World} {m : ManagerId}
    (h : ReaderMove env u mat w0 w w') (hm : m ≠ u.kmsManager) : w'.managers m = w.managers m := by
  cases h with
  | manager _ h => exact h.managers_ne hm
  | unwrap client wrapped masterKeyId _ => rfl
  | storeKek kekId wrappedKek kek _ _ _ _ _ => rfl
  | fillId kmsInstanceId c _ _ => rfl
  | fillUrl kmsInstanceUrl c _ _ => rfl
  | poison => rfl

/-- A write of a request on another factory leaves the factory's registry alone. -/
theorem RequestMove.managers_kept {env : Env} {ws w w' : World} {r : Request} {m : ManagerId}
    (h : RequestMove env ws r w w') (hm : m < w.nextManager) (hr : r.factory ≠ some m) :
    w'.managers m = w.managers m := by
  have hne : ∀ {m'}, r.factory = some m' → m ≠ m' := fun h heq => hr (heq ▸ h)
  cases h with
  | clock n => rfl
  | newManager _ k _ _ _ => exact setManager_ne w k (Nat.ne_of_lt hm)
  | refresh config keyAccessToken => rfl
  | wait elapsed => rfl
  | encrypt h =>
    cases h with
    | registry h => exact h.managers_ne (hne rfl)
    | writer k hk _ h => exact h.managers_kept (hk.kmsManager ▸ hne rfl)
  | registry h => exact h.managers_ne (hne rfl)
  | newConfig m' config dec => rfl
  | retrieve _ _ h => exact h.managers_kept (hne rfl)

namespace System

variable {env} {m : ManagerId} {s : System} {r : Request}

/-- A request on another factory leaves the factory's registry alone. -/
theorem exec_managers_kept (hm : m < s.world.nextManager) (hr : r.factory ≠ some m) :
    (s.exec env r).world.managers m = s.world.managers m := by
  have hkept : s.world.nextManager ≤ (s.exec env r).world.nextManager ∧
      (s.exec env r).world.managers m = s.world.managers m :=
    path_keeps (I := fun w => s.world.nextManager ≤ w.nextManager ∧ w.managers m = s.world.managers m)
      (fun _ _ hi hmove => ⟨hi.1.trans hmove.grows.nextManager,
        (hmove.managers_kept (lt_of_lt_of_le hm hi.1) hr).trans hi.2⟩) (exec_path env s r) ⟨le_refl _, rfl⟩
  exact hkept.2

/-- One request after the other. -/
def run (env : Env) (s : System) (rs : List Request) : System := rs.foldl (System.exec env) s

/-- How far some of the requests take a count. -/
def counted (env : Env) (which : World → Request → Bool) (count : World → Nat) : System → List Request → Nat
  | _, [] => 0
  | s, r :: rs =>
    (if which s.world r then count (s.exec env r).world - count s.world else 0) +
      counted env which count (s.exec env r) rs

end System

section

open ExpiringCache

variable {env} {κ ν : Type} [DecidableEq κ] {m : ManagerId} {place : Place World (ExpiringCache κ ν)}
  {count : World → Nat}
  {key : κ} {d : Duration}

/-- A cache of the factory, with a count of what is made for a key. -/
structure FactoryCache (env : Env) (m : ManagerId) (place : Place World (ExpiringCache κ ν))
    (count : World → Nat) (key : κ) (d : Duration) : Prop where
  watched : KmsManager.Watched env m place count key d
  within : ∀ w w' : World, w'.managers m = w.managers m → place.get w' = place.get w
  outside : ∀ w w', Outside w w' → count w' = count w

variable (F : FactoryCache env m place count key d)
include F

theorem FactoryCache.call {lifetime : Option Duration} (hl : AtLeast d lifetime) {w w' : World}
    (h : RegistryCall env m lifetime w w') : Spares place count key d w w' := by
  cases h with
  | inside h =>
    cases h with
    | client config => exact F.watched.getClient config hl w
    | outside h => exact .of_makes (.of_same (F.within w w' (congrFun h.managers m)) h.clock) (F.outside w w' h)
  | readCache config => exact F.watched.getKekReadCache config hl w
  | writeCache config => exact F.watched.getKekWriteCache config hl w

/-- The requests on a factory make at most one value for a key in a time shorter than the lifetimes they ask for. -/
theorem FactoryCache.run (rs : List Request) {s : System} (hm : m < s.world.nextManager)
    (hlong : ∀ r ∈ rs, r.factory = some m → AtLeast d r.cacheLifetime) :
    Makes place key d (s.counted env (Request.on m) count rs) s.world (s.run env rs).world := by
  induction rs generalizing s with
  | nil => exact .of_same rfl (le_refl _)
  | cons r rs ih =>
    have hgrows := System.exec_grows env s r
    have hrest := ih (s := s.exec env r) (lt_of_lt_of_le hm hgrows.nextManager)
      fun r' hr' => hlong r' (List.mem_cons_of_mem _ hr')
    refine Makes.trans ?_ hrest
    by_cases hr : r.factory = some m
    · rw [if_pos (Request.on_iff.mpr hr)]
      have hl := hlong r (List.mem_cons_self ..) hr
      obtain ⟨n, hmakes, hcount⟩ : Spares place count key d s.world (s.exec env r).world :=
        path_keeps (I := Spares place count key d s.world) (fun _ _ hi hcall => hi.trans (F.call hl hcall))
          (System.exec_calls hr) (.refl _)
      have hn : count (s.exec env r).world - count s.world = n := by omega
      rw [hn]
      exact hmakes
    · rw [if_neg (mt Request.on_iff.mp hr)]
      exact .of_same (F.within _ _ (System.exec_managers_kept hm hr)) hgrows.clock

theorem FactoryCache.counted_le_one (rs : List Request) {s : System} (hm : m < s.world.nextManager)
    (hlong : ∀ r ∈ rs, r.factory = some m → AtLeast d r.cacheLifetime)
    (hclock : (s.run env rs).world.clock < s.world.clock + d.nanos) : s.counted env (Request.on m) count rs ≤ 1 :=
  ((F.run rs hm hlong).once _ (le_refl _) hclock).1

end

section

variable {env : Env} {m : ManagerId} {d : Duration}

theorem clients_factoryCache (key : ClientKey) :
    FactoryCache env m (clientCachePlace m) (World.clientsCreated key) key d where
  watched := KmsManager.clients_watched env m key d
  within _ _ h := congrArg KmsManager.kmsClientCache h
  outside _ _ h := h.clients key

theorem readCaches_factoryCache (key : KekCacheKey) :
    FactoryCache env m (readCachesPlace m) (World.readCachesMade m key) key d where
  watched := KmsManager.readCaches_watched env m key d
  within _ _ h := congrArg KmsManager.kekReadCaches h
  outside _ _ h := by
    unfold World.readCachesMade
    rw [h.nextReadCache, h.readCacheOwner]

theorem writeCaches_factoryCache (key : KekCacheKey) :
    FactoryCache env m (writeCachesPlace m) (World.writeCachesMade m key) key d where
  watched := KmsManager.writeCaches_watched env m key d
  within _ _ h := congrArg KmsManager.kekWriteCaches h
  outside _ _ h := by
    unfold World.writeCachesMade
    rw [h.nextWriteCache, h.writeCacheOwner]

/-- A factory shares its clients and KEK caches: in a time shorter than the lifetimes that are asked for, it creates at
    most one client for a token and instance, and makes at most one KEK cache of each kind for a token. -/
theorem caches_reused {s : System} {rs : List Request} (hm : m < s.world.nextManager)
    (hlong : ∀ r ∈ rs, r.factory = some m → AtLeast d r.cacheLifetime)
    (hclock : (s.run env rs).world.clock < s.world.clock + d.nanos) :
    (∀ key, s.counted env (Request.on m) (World.clientsCreated key) rs ≤ 1) ∧
      (∀ key, s.counted env (Request.on m) (World.readCachesMade m key) rs ≤ 1) ∧
      ∀ key, s.counted env (Request.on m) (World.writeCachesMade m key) rs ≤ 1 := by
  refine ⟨fun key => ?_, fun key => ?_, fun key => ?_⟩
  · exact (clients_factoryCache key).counted_le_one rs hm hlong hclock
  · exact (readCaches_factoryCache key).counted_le_one rs hm hlong hclock
  · exact (writeCaches_factoryCache key).counted_le_one rs hm hlong hclock

end

def sampleReuse : System := (System.init (fun _ => "DEFAULT") 0).exec Env.sample .newFactory

/-- Two files, a second less than ten minutes apart. -/
def sampleWrites : List Request :=
  [.encrypt 0 sampleConfig sampleConfiguration, .wait (Duration.fromSecs 599).nanos,
    .encrypt 0 sampleConfig sampleConfiguration]

theorem sampleWrites_atLeast :
    ∀ r ∈ sampleWrites, r.factory = some 0 → AtLeast (Duration.fromSecs 600) r.cacheLifetime := by
  intro r hr hfactory l hl
  simp only [sampleWrites, List.mem_cons, List.not_mem_nil, or_false] at hr
  rcases hr with rfl | rfl | rfl
  · cases hl
    exact le_refl _
  · cases hfactory
  · cases hl
    exact le_refl _

theorem caches_reused_sample :
    sampleReuse.counted Env.sample (Request.on 0) (World.clientsCreated ⟨"DEFAULT", "instance"⟩) sampleWrites = 1 ∧
      ∀ key, sampleReuse.counted Env.sample (Request.on 0) (World.writeCachesMade 0 key) sampleWrites ≤ 1 := by
  refine ⟨by decide +kernel, ?_⟩
  exact (caches_reused (by decide +kernel) sampleWrites_atLeast (by decide +kernel)).2.2

end ParquetKeyManagement
