/-
  ParquetKeyManagement.Factory.System — whole runs of the library.

  A system is the shared state together with the properties handed out so far. A run is any
  sequence of requests: creating factories, refreshing tokens, letting time pass, creating
  encryption and decryption properties, and retrieving keys. A request may fail or panic;
  what it wrote stays. `Reach env P` are the systems reached by runs each of whose requests
  satisfies `P` in the system it is made in.
  - `RequestMove`: every write a request makes; `exec_path`: a request makes no others.
  - `exec_keeps`: what every write keeps, a request keeps.
  - `registryInv`: the registry's invariant holds in every reachable system.
-/

import ParquetKeyManagement.Factory.Properties
import ParquetKeyManagement.Keys.ReaderMoves

namespace ParquetKeyManagement

open Effect

/-- Properties for decryption, with what they were created from. -/
structure Reader where
  unwrapper : KeyUnwrapper
  kmsConnectionConfig : KmsConnectionConfig
  /-- The access token of the configuration at the time. -/
  token : String

/-- Properties for encryption, with what they were created from. -/
structure Written where
  kmsManager : ManagerId
  kmsConnectionConfig : KmsConnectionConfig
  encryptionConfiguration : EncryptionConfiguration
  properties : FileEncryptionProperties

structure System where
  world : World
  readers : List Reader
  files : List Written

inductive Request where
  | newFactory
  | refresh (config : KmsConnectionConfig) (keyAccessToken : String)
  | wait (elapsed : Nat)
  | encrypt (kmsManager : ManagerId) (config : KmsConnectionConfig) (enc : EncryptionConfiguration)
  | decrypt (kmsManager : ManagerId) (config : KmsConnectionConfig) (dec : DecryptionConfiguration)
  | retrieve (unwrapper : KeyUnwrapper) (keyMetadata : Bytes)

def World.wait (w : World) (elapsed : Nat) : World := { w with clock := w.clock + elapsed }

namespace System

def init (tokens : TokenCell → String) (clock : Instant) : System := ⟨World.init tokens clock, [], []⟩

/-- The key and metadata pairs of all files. -/
def issued (s : System) : List EncryptionKey := s.files.flatMap fun f => f.properties.keys

variable (env : Env)

/-- The state after a request. -/
def after (w : World) : Request → World
  | .newFactory => (CryptoFactory.new env w).2
  | .refresh config keyAccessToken => (refreshKeyAccessToken config keyAccessToken w).2
  | .wait elapsed => w.wait elapsed
  | .encrypt kmsManager config enc => (CryptoFactory.fileEncryptionProperties env kmsManager config enc w).2
  | .decrypt kmsManager config dec => (CryptoFactory.fileDecryptionProperties env kmsManager config dec w).2
  | .retrieve u keyMetadata => (u.retrieveKey env keyMetadata w).2

/-- The properties a request returns for encryption, if it does. -/
def written (w : World) : Request → List Written
  | .encrypt kmsManager config enc =>
    match (CryptoFactory.fileEncryptionProperties env kmsManager config enc w).1 with
    | .ok p => [⟨kmsManager, config, enc, p⟩]
    | _ => []
  | _ => []

/-- The properties a request returns for decryption, if it does. -/
def opened (w : World) : Request → List Reader
  | .decrypt kmsManager config dec =>
    match (CryptoFactory.fileDecryptionProperties env kmsManager config dec w).1 with
    | .ok u => [⟨u, config, w.tokens config.keyAccessToken⟩]
    | _ => []
  | _ => []

def exec (s : System) (r : Request) : System where
  world := after env s.world r
  readers := s.readers ++ opened env s.world r
  files := s.files ++ written env s.world r

/-- A request names only factories and readers that exist. -/
def Enabled (s : System) : Request → Prop
  | .encrypt m _ _ | .decrypt m _ _ => m < s.world.nextManager
  | .retrieve u _ => ∃ r ∈ s.readers, r.unwrapper = u
  | _ => True

inductive Reach (P : System → Request → Prop) : System → Prop
  | init (tokens : TokenCell → String) (clock : Instant) : Reach P (System.init tokens clock)
  | step {s : System} (r : Request) : Reach P s → s.Enabled r → P s r → Reach P (s.exec env r)

theorem Reach.mono {P Q : System → Request → Prop} {s : System} (h : Reach env P s) (hPQ : ∀ s r, P s r → Q s r) :
    Reach env Q s := by
  induction h with
  | init tokens clock => exact .init tokens clock
  | step r _ he hP ih => exact .step r ih he (hPQ _ _ hP)

end System

/-! ## Every write of a request -/

/-- An empty cache. -/
def ExpiringCache.Empty {κ ν : Type} (c : ExpiringCache κ ν) : Prop := c.cache = Mutex.new ∅

inductive RequestMove (env : Env) (ws : World) : Request → World → World → Prop
  | clock (w : World) (n : Nat) : RequestMove env ws .newFactory w (w.tick n)
  | newManager (w : World) (k : KmsManager) : k.kmsClientCache.Empty → k.kekReadCaches.Empty → k.kekWriteCaches.Empty →
    RequestMove env ws .newFactory w { w.setManager w.nextManager k with nextManager := w.nextManager + 1 }
  | refresh (w : World) (config : KmsConnectionConfig) (keyAccessToken : String) :
    RequestMove env ws (.refresh config keyAccessToken) w
      { w with tokens := Function.update w.tokens config.keyAccessToken keyAccessToken }
  | wait (w : World) (elapsed : Nat) : RequestMove env ws (.wait elapsed) w (w.wait elapsed)
  | encrypt {m : ManagerId} {config : KmsConnectionConfig} {enc : EncryptionConfiguration} {w w' : World} :
    EncryptMove env m config enc ws w w' → RequestMove env ws (.encrypt m config enc) w w'
  | registry {m : ManagerId} {config : KmsConnectionConfig} {dec : DecryptionConfiguration} {w w' : World} :
    ManagerMove m config dec.cacheLifetime w w' → RequestMove env ws (.decrypt m config dec) w w'
  | newConfig (w : World) (m : ManagerId) (config : KmsConnectionConfig) (dec : DecryptionConfiguration) :
    RequestMove env ws (.decrypt m config dec) w
      { w with configs := Function.update w.configs w.nextConfig config, nextConfig := w.nextConfig + 1 }
  | retrieve {u : KeyUnwrapper} {keyMetadata : Bytes} {m : KeyMaterial} {w w' : World} :
    KeyUnwrapper.readMaterial env keyMetadata = .ok m → m.internalStorage = true → ReaderMove env u m ws w w' →
    RequestMove env ws (.retrieve u keyMetadata) w w'

theorem RequestMove.grows {env : Env} {ws w w' : World} {r : Request} (h : RequestMove env ws r w w') : w.Grows w' := by
  cases h with
  | clock _ n => exact w.grows_tick n
  | newManager _ k _ _ _ => exact { World.Grows.refl w with nextManager := Nat.le_succ _ }
  | refresh config keyAccessToken => exact { World.Grows.refl w with }
  | wait elapsed => exact { World.Grows.refl w with clock := Nat.le_add_right _ _ }
  | encrypt h => exact h.grows
  | registry h => exact h.grows
  | newConfig m config dec => exact { World.Grows.refl w with nextConfig := Nat.le_succ _ }
  | retrieve _ _ h => exact h.grows

theorem EncryptMove.readKeks_lookup {env : Env} {m : ManagerId} {config : KmsConnectionConfig}
    {enc : EncryptionConfiguration}
    {ws w w' : World} (hm : EncryptMove env m config enc ws w w') {a : KekReadCache} {kekId : String} {kek : Bytes}
    (hl : (w'.readCaches a).data.lookup kekId = some kek) : (w.readCaches a).data.lookup kekId = some kek := by
  cases hm with
  | registry hm => exact hm.readKeks_lookup hl
  | writer k _ _ hm => exact hm.readKeks_lookup hl

/-- What is in a read cache after a write of a request was there before, or was released for it. -/
theorem RequestMove.readKeks_lookup {env : Env} {ws w w' : World} {r : Request} (hm : RequestMove env ws r w w')
    {a : KekReadCache} {kekId : String} {kek : Bytes} (hl : (w'.readCaches a).data.lookup kekId = some kek) :
    (w.readCaches a).data.lookup kekId = some kek ∨ ∃ u keyMetadata m, r = .retrieve u keyMetadata ∧
      KeyUnwrapper.readMaterial env keyMetadata = .ok m ∧ a = u.kekCache ∧ StoredKek env u m kekId kek ws w := by
  cases hm with
  | encrypt hm => exact Or.inl (hm.readKeks_lookup hl)
  | registry hm => exact Or.inl (hm.readKeks_lookup hl)
  | retrieve hread _ hm => exact (hm.readKeks_lookup hl).imp id fun h => ⟨_, _, _, rfl, hread, h⟩
  | _ => exact Or.inl hl

namespace CryptoFactory

variable (env : Env)

theorem newManager_along (ws w : World) :
    Along (RequestMove env ws .newFactory) (CryptoFactory.new env) w (fun _ _ => True) (fun _ _ => False)
      (fun _ => False) := by
  have hcache : ∀ (κ ν : Type) (w : World), Along (RequestMove env ws .newFactory)
      (ExpiringCache.new env : Call (ExpiringCache κ ν)) w (fun c _ => c.Empty) (fun _ _ => False)
        (fun _ => False) := by
    intro κ ν w
    refine Along.bind (p := fun _ _ => True) (Along.of_ok rfl (.single (.clock w _)) trivial) fun t w1 _ _ => ?_
    exact Along.pure rfl
  unfold CryptoFactory.new KmsManager.new
  refine Along.bind (p := fun k _ => k.kmsClientCache.Empty ∧ k.kekReadCaches.Empty ∧ k.kekWriteCaches.Empty) ?_
    fun k w1 _ h1 => Along.of_ok rfl (.single (.newManager w1 k h1.1 h1.2.1 h1.2.2)) trivial
  refine (hcache _ _ w).bind fun c1 w1 _ h1 => ?_
  refine (hcache _ _ w1).bind fun c2 w2 _ h2 => ?_
  exact (hcache _ _ w2).bind fun c3 w3 _ h3 => Along.pure ⟨h1, h2, h3⟩

/-- What a new reader is. -/
structure NewReader (m : ManagerId) (config : KmsConnectionConfig) (dec : DecryptionConfiguration) (u : KeyUnwrapper)
    (w : World) : Prop where
  kmsManager : u.kmsManager = m
  decryptionConfiguration : u.decryptionConfiguration = dec
  stored : w.configs u.kmsConnectionConfig = config
  slot : u.kmsConnectionConfig < w.nextConfig
  registered : HeldReadCache m (w.tokens config.keyAccessToken) u.kekCache w

theorem fileDecryptionProperties_along (m : ManagerId) (config : KmsConnectionConfig) (dec : DecryptionConfiguration)
    (ws w : World) :
    Along (RequestMove env ws (.decrypt m config dec)) (fileDecryptionProperties env m config dec) w
      (fun u w' => NewReader m config dec u w' ∧ w'.tokens = w.tokens) (fun _ _ => False) World.Poisoned := by
  unfold fileDecryptionProperties KeyUnwrapper.new
  have h := (KmsManager.getKekReadCache_along env m config dec.cacheLifetime w).with_path
  refine ((h.lift fun _ _ hm => RequestMove.registry hm).mono (fun _ _ h => h) (fun _ _ h => h)
    fun _ h => Or.inl ⟨m, h⟩).bind fun a w1 _ h1 => ?_
  have ht := KmsManager.tokens_kept m config dec.cacheLifetime h1.2
  refine Along.bind (p := fun slot w' => slot = w1.nextConfig ∧
      w' = { w1 with configs := Function.update w1.configs w1.nextConfig config, nextConfig := w1.nextConfig + 1 })
    (Along.of_ok rfl (.single (.newConfig w1 m config dec)) ⟨rfl, rfl⟩) fun slot w2 _ h2 => ?_
  obtain ⟨rfl, rfl⟩ := h2
  exact Along.pure ⟨⟨rfl, rfl, Function.update_self .., Nat.lt_succ_self _, h1.1⟩, ht⟩

end CryptoFactory

namespace System

variable (env : Env)

theorem mem_written {w : World} {r : Request} {f : Written} (h : f ∈ written env w r) :
    r = .encrypt f.kmsManager f.kmsConnectionConfig f.encryptionConfiguration ∧
      CryptoFactory.fileEncryptionProperties env f.kmsManager f.kmsConnectionConfig f.encryptionConfiguration w =
        (.ok f.properties, after env w r) := by
  unfold written at h
  split at h
  · split at h
    · rename_i m config enc _ p hp
      cases List.mem_singleton.mp h
      exact ⟨rfl, Prod.ext hp rfl⟩
    · cases h
  · cases h

theorem mem_opened {w : World} {r : Request} {x : Reader} (h : x ∈ opened env w r) :
    ∃ m dec, r = .decrypt m x.kmsConnectionConfig dec ∧ x.token = w.tokens x.kmsConnectionConfig.keyAccessToken ∧
      CryptoFactory.fileDecryptionProperties env m x.kmsConnectionConfig dec w = (.ok x.unwrapper, after env w r) := by
  unfold opened at h
  split at h
  · split at h
    · rename_i m config dec _ u hu
      cases List.mem_singleton.mp h
      exact ⟨m, dec, rfl, rfl, Prod.ext hu rfl⟩
    · cases h
  · cases h

/-- A request makes no other writes. -/
theorem exec_path (s : System) (r : Request) :
    Relation.ReflTransGen (RequestMove env s.world r) s.world (s.exec env r).world := by
  cases r with
  | newFactory => exact (CryptoFactory.newManager_along env s.world s.world).path
  | refresh config keyAccessToken => exact .single (.refresh s.world config keyAccessToken)
  | wait elapsed => exact .single (.wait s.world elapsed)
  | encrypt m config enc =>
    exact ((CryptoFactory.fileEncryptionProperties_along env m config enc s.world).lift
      fun _ _ h => RequestMove.encrypt h).path
  | decrypt m config dec => exact (CryptoFactory.fileDecryptionProperties_along env m config dec s.world s.world).path
  | retrieve u keyMetadata =>
    show Relation.ReflTransGen _ s.world (u.retrieveKey env keyMetadata s.world).2
    by_cases hm : ∃ m, KeyUnwrapper.readMaterial env keyMetadata = .ok m ∧ m.internalStorage = true
    · obtain ⟨m, hm, hi⟩ := hm
      exact ((KeyUnwrapper.retrieveKey_along env u m hm hi s.world).lift fun _ _ h => RequestMove.retrieve hm hi h).path
    · have hrefused : ∀ m, KeyUnwrapper.readMaterial env keyMetadata = .ok m → m.internalStorage = false := by
        intro m h
        cases hi : m.internalStorage with
        | false => rfl
        | true => exact absurd ⟨m, h, hi⟩ hm
      obtain ⟨e, he⟩ := KeyUnwrapper.retrieveKey_refused env u s.world hrefused
      rw [he]

/-- Retrieving a key from metadata that reads as `m`. -/
theorem exec_retrieve (s : System) {u : KeyUnwrapper} {keyMetadata : Bytes} {m : KeyMaterial}
    (hread : KeyUnwrapper.readMaterial env keyMetadata = .ok m) (hi : m.internalStorage = true) :
    (s.exec env (.retrieve u keyMetadata)).world =
      ((do u.updateKmsConfig m; u.unwrapDek env m : Call Bytes) s.world).2 := by
  rw [← u.retrieveKey_eq env m hread hi]
  rfl

/-- What every write of a request keeps, the request keeps. -/
theorem exec_keeps {I : World → Prop} {s : System} {r : Request}
    (hI : ∀ w w', I w → RequestMove env s.world r w w' → I w') (h : I s.world) : I (s.exec env r).world :=
  path_keeps hI (exec_path env s r) h

theorem exec_grows (s : System) (r : Request) : s.world.Grows (s.exec env r).world :=
  World.Grows.of_path (fun _ _ h => RequestMove.grows h) (exec_path env s r)

end System

/-! ## The invariant of every run -/

theorem setManager_eq (w : World) (m : ManagerId) (k : KmsManager) : (w.setManager m k).managers m = k :=
  Function.update_self ..

theorem setManager_ne (w : World) {m m' : ManagerId} (k : KmsManager) (h : m' ≠ m) :
    (w.setManager m k).managers m' = w.managers m' := Function.update_of_ne h ..

theorem ExpiringCache.Empty.data {κ ν : Type} {c : ExpiringCache κ ν} (h : c.Empty) : c.cache.data = ∅ := by
  rw [h]; rfl

/-- A new manager's caches are empty. -/
theorem registryInv_newManager {w : World} (h : RegistryInv w) {k : KmsManager} (h1 : k.kmsClientCache.Empty)
    (h2 : k.kekReadCaches.Empty) (h3 : k.kekWriteCaches.Empty) :
    RegistryInv { w.setManager w.nextManager k with nextManager := w.nextManager + 1 } := by
  have hg : w.Grows { w.setManager w.nextManager k with nextManager := w.nextManager + 1 } :=
    { World.Grows.refl w with nextManager := Nat.le_succ _ }
  constructor
  · intro m key v hl
    change ((w.setManager w.nextManager k).managers m).kmsClientCache.cache.data.lookup key = some v at hl
    by_cases hm : m = w.nextManager
    · subst hm; rw [setManager_eq, h1.data] at hl; cases hl
    · rw [setManager_ne w k hm] at hl
      obtain ⟨a, b, c⟩ := h.clients m key v hl
      exact ⟨a, b, hg.mem_log c⟩
  · intro m key v hl
    change ((w.setManager w.nextManager k).managers m).kekReadCaches.cache.data.lookup key = some v at hl
    by_cases hm : m = w.nextManager
    · subst hm; rw [setManager_eq, h2.data] at hl; cases hl
    · rw [setManager_ne w k hm] at hl
      exact (h.readCaches m key v hl).grows hg
  · intro m key v hl
    change ((w.setManager w.nextManager k).managers m).kekWriteCaches.cache.data.lookup key = some v at hl
    by_cases hm : m = w.nextManager
    · subst hm; rw [setManager_eq, h3.data] at hl; cases hl
    · rw [setManager_ne w k hm] at hl
      exact (h.writeCaches m key v hl).grows hg

theorem WriterMove.registryInv {env : Env} {k : KeyWrapper} {w w' : World} (hm : WriterMove env k w w')
    (h : RegistryInv w) : RegistryInv w' := by
  have hg := hm.grows
  cases hm with
  | manager hm => exact hm.registryInv h
  | wrap client keyBytes masterKeyId _ => exact h.of_managers rfl hg
  | storeKek masterKeyId kek _ _ => exact h.of_managers rfl hg
  | poison _ => exact h.of_managers rfl hg

theorem ReaderMove.registryInv {env : Env} {u : KeyUnwrapper} {m : KeyMaterial} {ws w w' : World}
    (hm : ReaderMove env u m ws w w') (h : RegistryInv w) : RegistryInv w' := by
  have hg := hm.grows
  cases hm with
  | manager _ hm => exact hm.registryInv h
  | unwrap client wrapped masterKeyId _ => exact h.of_managers rfl hg
  | storeKek kekId wrappedKek kek _ _ _ _ _ => exact h.of_managers rfl hg
  | fillId kmsInstanceId c _ _ => exact h.of_managers rfl hg
  | fillUrl kmsInstanceUrl c _ _ => exact h.of_managers rfl hg
  | poison => exact h.of_managers rfl hg

theorem EncryptMove.registryInv {env : Env} {m : ManagerId} {config : KmsConnectionConfig}
    {enc : EncryptionConfiguration} {ws w w' : World} (hm : EncryptMove env m config enc ws w w') (h : RegistryInv w) :
    RegistryInv w' := by
  cases hm with
  | registry hm => exact hm.registryInv h
  | writer k _ _ hm => exact hm.registryInv h

theorem RequestMove.registryInv {env : Env} {ws w w' : World} {r : Request} (hm : RequestMove env ws r w w')
    (h : RegistryInv w) : RegistryInv w' := by
  have hg := hm.grows
  cases hm with
  | clock n => exact h.of_managers rfl hg
  | newManager _ k h1 h2 h3 => exact registryInv_newManager h h1 h2 h3
  | refresh config keyAccessToken => exact h.of_managers rfl hg
  | wait elapsed => exact h.of_managers rfl hg
  | encrypt hm => exact hm.registryInv h
  | registry hm => exact hm.registryInv h
  | newConfig m config dec => exact h.of_managers rfl hg
  | retrieve _ _ hm => exact hm.registryInv h

theorem registryInv_init (tokens : TokenCell → String) (clock : Instant) : RegistryInv (World.init tokens clock) := by
  constructor <;> (intro m key v hl; cases hl)

/-- The registry's invariant holds in every run. -/
theorem registryInv {env : Env} {P : System → Request → Prop} {s : System} (h : System.Reach env P s) :
    RegistryInv s.world := by
  induction h with
  | init tokens clock => exact registryInv_init tokens clock
  | step r _ _ _ ih => exact System.exec_keeps env (fun _ _ hi hm => hm.registryInv hi) ih

/-! ## Clients are created before they are used -/

/-- The client that a call of user code is made on. -/
def KmsEvent.usedClient : KmsEvent → Option KmsClient
  | .createClient _ _ => none
  | .wrapKey client _ _ _ => some client
  | .unwrapKey client _ _ _ => some client

/-- Every client that a call was made on had been created before. -/
def CreatedFirst (log : List KmsEvent) : Prop :=
  ∀ before x after, log = before ++ x :: after → ∀ client, x.usedClient = some client →
    .createClient client.config (.ok client) ∈ before

theorem CreatedFirst.of_append {log rest : List KmsEvent} (h : CreatedFirst (log ++ rest)) : CreatedFirst log :=
  fun before x after heq => h before x (after ++ rest) (by rw [heq]; simp)

theorem CreatedFirst.snoc {log : List KmsEvent} {x : KmsEvent} (h : CreatedFirst log)
    (hx : ∀ client, x.usedClient = some client → .createClient client.config (.ok client) ∈ log) :
    CreatedFirst (log ++ [x]) := by
  intro before y after heq client hclient
  rcases after.eq_nil_or_concat with rfl | ⟨after, z, rfl⟩
  · obtain ⟨rfl, hlast⟩ := List.append_inj' heq rfl
    cases hlast
    exact hx client hclient
  · have hsplit : log ++ [x] = (before ++ y :: after) ++ [z] := by rw [heq]; simp
    obtain ⟨hlog, _⟩ := List.append_inj' hsplit rfl
    exact h before y after hlog client hclient

section

variable {env : Env} {m : ManagerId} {config : KmsConnectionConfig} {w w' : World}

theorem HeldClient.created {client : KmsClient} (h : HeldClient m config client w) (hinv : RegistryInv w) :
    .createClient client.config (.ok client) ∈ w.log := by
  obtain ⟨v, hl, rfl, _⟩ := h
  exact (hinv.clients m _ v hl).2.2

theorem ManagerMove.createdFirst {lifetime : Option Duration} (hm : ManagerMove m config lifetime w w')
    (h : CreatedFirst w.log) : CreatedFirst w'.log := by
  cases hm with
  | create result _ => exact h.snoc fun client hclient => by cases hclient
  | clients hc => obtain ⟨c, rfl⟩ := hc.eq_set; exact h
  | readCaches hc => obtain ⟨c, rfl⟩ := hc.eq_set; exact h
  | writeCaches hc => obtain ⟨c, rfl⟩ := hc.eq_set; exact h
  | _ => exact h

theorem WriterMove.createdFirst {k : KeyWrapper} (hm : WriterMove env k w w') (hinv : RegistryInv w)
    (h : CreatedFirst w.log) : CreatedFirst w'.log := by
  cases hm with
  | manager hm => exact hm.createdFirst h
  | wrap client keyBytes masterKeyId hheld =>
    refine h.snoc fun client' hclient => ?_
    cases hclient
    exact hheld.created hinv
  | _ => exact h

theorem ReaderMove.createdFirst {u : KeyUnwrapper} {material : KeyMaterial} {ws : World}
    (hm : ReaderMove env u material ws w w') (hinv : RegistryInv w) (h : CreatedFirst w.log) : CreatedFirst w'.log := by
  cases hm with
  | manager _ hm => exact hm.createdFirst h
  | unwrap client wrapped masterKeyId hheld =>
    refine h.snoc fun client' hclient => ?_
    cases hclient
    exact hheld.created hinv
  | _ => exact h

theorem RequestMove.createdFirst {ws : World} {r : Request} (hm : RequestMove env ws r w w') (hinv : RegistryInv w)
    (h : CreatedFirst w.log) : CreatedFirst w'.log := by
  cases hm with
  | encrypt hm =>
    cases hm with
    | registry hm => exact hm.createdFirst h
    | writer k _ _ hm => exact hm.createdFirst hinv h
  | registry hm => exact hm.createdFirst h
  | retrieve _ _ hm => exact hm.createdFirst hinv h
  | _ => exact h

end

/-- In every run a client is created before it is used. -/
theorem createdFirst {env : Env} {P : System → Request → Prop} {s : System} (h : System.Reach env P s) :
    CreatedFirst s.world.log := by
  induction h with
  | init tokens clock => exact fun before x after heq => absurd heq.symm (by simp [System.init, World.init])
  | @step s r hs _ _ ih =>
    have hkeep := System.exec_keeps env (s := s) (r := r) (I := fun w => RegistryInv w ∧ CreatedFirst w.log)
      (fun _ _ hi hm => ⟨hm.registryInv hi.1, hm.createdFirst hi.1 hi.2⟩) ⟨registryInv hs, ih⟩
    exact hkeep.2

end ParquetKeyManagement
