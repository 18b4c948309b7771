/-
  ParquetKeyManagement.Factory.Instances — the KMS instance a file records is the one that
  wrapped its keys.

  Clients are cached by access token and instance id, KEKs by access token alone, and the
  footer records the instance of the configuration. So the record is right as long as what a
  call works with from the caches belongs to the configuration's instance (`OwnInstance`): where
  the call needs a client, an unexpired one for its token and id has its URL, and under double
  wrapping the unexpired write cache for its token holds no KEK, for a master key of the file,
  that another instance wrapped.
  - `instance_recorded`: in a run whose encryptions all meet this, every file records the
    instance that wrapped its keys.
  - `instance_not_recorded`: two configurations that share a token and nothing else.
-/

import ParquetKeyManagement.Factory.WriterIsolation

namespace ParquetKeyManagement

open Effect

/-! ## Which instance wrapped a key -/

/-- The client was created for the configuration's instance. -/
def SameInstance (config : KmsConnectionConfig) (client : KmsClient) : Prop :=
  client.config.kmsInstanceId = config.kmsInstanceId ∧ client.config.kmsInstanceUrl = config.kmsInstanceUrl

/-- A client that the client factory created for the configuration's instance wrapped the key. -/
def WrappedAt (config : KmsConnectionConfig) (keyBytes : Bytes) (masterKeyId wrapped : String) (w : World) : Prop :=
  ∃ client, SameInstance config client ∧ .createClient client.config (.ok client) ∈ w.log ∧
    .wrapKey client keyBytes masterKeyId (.ok wrapped) ∈ w.log

theorem WrappedAt.grows {config : KmsConnectionConfig} {keyBytes : Bytes} {masterKeyId wrapped : String} {w w' : World}
    (h : WrappedAt config keyBytes masterKeyId wrapped w) (hg : w.Grows w') :
    WrappedAt config keyBytes masterKeyId wrapped w' := by
  obtain ⟨client, hsame, hcreated, hwrapped⟩ := h
  exact ⟨client, hsame, hg.mem_log hcreated, hg.mem_log hwrapped⟩

/-- What the KMS wrapped for the key was wrapped at the configuration's instance. -/
def KeyWrappedAt (config : KmsConnectionConfig) (key : Bytes) (m : KeyMaterial) (w : World) : Prop :=
  (m.doubleWrapping = false ∧ WrappedAt config key m.masterKeyId m.wrappedDek w) ∨
    (m.doubleWrapping = true ∧ ∃ kek wrapped, m.wrappedKek = some wrapped ∧
      WrappedAt config kek m.masterKeyId wrapped w)

variable (env : Env)

/-- Every key of the file was wrapped at the instance of its configuration, and that is the
    instance the footer records and a reader without one of its own resolves to. -/
structure InstanceRecorded (f : Written) (w : World) : Prop where
  wrapped : ∀ key ∈ f.properties.keys, ∃ m, KeyUnwrapper.readMaterial env key.metadata = .ok m ∧
    KeyWrappedAt f.kmsConnectionConfig key.key m w
  footer : ∃ m, KeyUnwrapper.readMaterial env f.properties.footerKey.metadata = .ok m ∧
    m.kmsInstanceId = some (orDefault f.kmsConnectionConfig.kmsInstanceId) ∧
    m.kmsInstanceUrl = some (orDefault f.kmsConnectionConfig.kmsInstanceUrl) ∧
    ∀ c : KmsConnectionConfig, c.kmsInstanceId = "" → c.kmsInstanceUrl = "" →
      (m.resolve c).kmsInstanceId = orDefault f.kmsConnectionConfig.kmsInstanceId ∧
        (m.resolve c).kmsInstanceUrl = orDefault f.kmsConnectionConfig.kmsInstanceUrl

/-! ## What the caches must hold -/

section

variable (m : ManagerId) (config : KmsConnectionConfig) (enc : EncryptionConfiguration)

/-- The unexpired clients for the configuration's token and id, as of `t`, have its URL. -/
def OwnClients (token : String) (t : Instant) (w : World) : Prop :=
  ∀ v, (w.clients m).lookup ⟨token, config.kmsInstanceId⟩ = some v → ¬ v.ExpiredAt t →
    v.value.config.kmsInstanceUrl = config.kmsInstanceUrl

/-- The KEKs the cache holds for master keys of the configuration were wrapped at its instance. -/
def OwnKeks (a : KekWriteCache) (w : World) : Prop :=
  ∀ masterKeyId kek, enc.Uses masterKeyId → (w.writeCaches a).data.lookup masterKeyId = some kek →
    WrappedAt config kek.key masterKeyId kek.wrappedKey w

/-- The KEKs in the unexpired cache for the token, as of `t`. -/
def OwnRegistered (token : String) (t : Instant) (w : World) : Prop :=
  ∀ v, (w.writeRegistry m).lookup ⟨token⟩ = some v → ¬ v.ExpiredAt t → OwnKeks config enc v.value w

/-- The call passes the guards of `file_encryption_properties`. -/
def EncryptionConfiguration.Implemented : Prop := enc.internalKeyMaterial = true ∧ enc.dataKeyLengthBits = 128

/-- The call works with a client: unless some key of the file has no KEK in the cache that it
    gets, it needs none under double wrapping. -/
def UsesClient (w : World) : Prop :=
  ∃ k w', KeyWrapper.new env m config enc w = (.ok k, w') ∧
    (enc.doubleWrapping = true → ∃ masterKeyId, enc.Uses masterKeyId ∧ (k.keks.get w').lookup masterKeyId = none)

/-- Whatever a call of `file_encryption_properties` works with from the caches belongs to the
    instance of its configuration. -/
structure OwnInstance (w : World) : Prop where
  clients : enc.Implemented → UsesClient env m config enc w →
    OwnClients m config (w.tokens config.keyAccessToken) w.clock w
  keks : enc.Implemented → enc.doubleWrapping = true →
    OwnRegistered m config enc (w.tokens config.keyAccessToken) w.clock w

/-- What holds throughout a call that started in `ws`. -/
structure CallInv (ws w : World) : Prop where
  registry : RegistryInv w
  grows : ws.Grows w
  tokens : w.tokens = ws.tokens
  clients : OwnClients m config (ws.tokens config.keyAccessToken) ws.clock w

end

section

variable {env} {m : ManagerId} {config : KmsConnectionConfig} {enc : EncryptionConfiguration} {ws w w' : World}

/-- The client a call works with is the configuration's own. -/
theorem CallInv.heldClient (h : CallInv m config ws w) {client : KmsClient} (hc : HeldClient m config client w) :
    SameInstance config client ∧ .createClient client.config (.ok client) ∈ w.log := by
  obtain ⟨v, hl, rfl, hcurrent⟩ := hc
  obtain ⟨_, hid, hcreated⟩ := h.registry.clients m _ v hl
  refine ⟨⟨hid, ?_⟩, hcreated⟩
  rcases hcurrent with hvalid | hfresh
  · rw [h.tokens] at hl
    exact h.clients v hl fun he => hvalid (he.mono h.grows.clock)
  · rw [hfresh.2.1]
    rfl

theorem ManagerMove.callInv {lifetime : Option Duration} (hm : ManagerMove m config lifetime w w')
    (h : CallInv m config ws w) : CallInv m config ws w' where
  registry := hm.registryInv h.registry
  grows := h.grows.trans hm.grows
  tokens := hm.kept.1.trans h.tokens
  clients := by
    intro v hl hv
    rcases hm.clients_lookup hl with h1 | ⟨_, hfresh⟩
    · exact h.clients v h1 hv
    · rw [hfresh.2.1]
      rfl

/-- The registry puts no KEK into a cache, and registers only empty ones. -/
theorem ManagerMove.ownKeks {lifetime : Option Duration} (hm : ManagerMove m config lifetime w w') {a : KekWriteCache}
    (h : OwnKeks config enc a w) : OwnKeks config enc a w' :=
  fun masterKeyId kek hu hl => (h masterKeyId kek hu (hm.writeKeks_lookup hl)).grows hm.grows

theorem ownKeks_of_empty {a : KekWriteCache} (h : (w.writeCaches a).data = ∅) : OwnKeks config enc a w := by
  intro masterKeyId kek _ hl
  rw [h] at hl
  cases hl

theorem ManagerMove.ownRegistered {lifetime : Option Duration}
    (hm : ManagerMove m config lifetime w w') {token : String}
    {t : Instant} (h : OwnRegistered m config enc token t w) : OwnRegistered m config enc token t w' := by
  intro v hl hv
  rcases hm.writeRegistry_lookup hl with h1 | ⟨_, hfresh⟩
  · exact hm.ownKeks (h v h1 hv)
  · exact hm.ownKeks (ownKeks_of_empty hfresh.2)

/-- The write cache a call works with holds only its own KEKs to begin with. -/
theorem WrapperFor.ownKeks {k : KeyWrapper} (hk : WrapperFor m config enc ws k w)
    (h : OwnRegistered m config enc (ws.tokens config.keyAccessToken) ws.clock ws) :
    OwnKeks config enc k.masterKeyToKek w := by
  have hreg := path_keeps (I := OwnRegistered m config enc (ws.tokens config.keyAccessToken) ws.clock)
    (fun _ _ hi hm => hm.ownRegistered hi) hk.path h
  have hg := World.Grows.of_path (fun _ _ h => ManagerMove.grows h) hk.path
  have ht := KmsManager.tokens_kept m config enc.cacheLifetime hk.path
  obtain ⟨v, hl, hv, hcurrent⟩ := hk.held
  rw [← hv]
  rcases hcurrent with hvalid | hfresh
  · rw [ht] at hl
    exact hreg v hl fun he => hvalid (he.mono hg.clock)
  · rw [hv]
    exact ownKeks_of_empty hfresh.2

/-! ## The writes of a wrapper -/

/-- What holds while a wrapper works. -/
structure WrapperInv (k : KeyWrapper) (ws w : World) : Prop
    extends CallInv k.kmsManager k.kmsConnectionConfig ws w where
  keks : k.encryptionConfiguration.doubleWrapping = true →
    OwnKeks k.kmsConnectionConfig k.encryptionConfiguration k.masterKeyToKek w

theorem Wrapped.wrappedAt (h : CallInv m config ws w) {keyBytes : Bytes} {masterKeyId wrapped : String}
    (hw : Wrapped env m config keyBytes masterKeyId wrapped w) : WrappedAt config keyBytes masterKeyId wrapped w := by
  obtain ⟨client, hheld, hlog, _⟩ := hw
  obtain ⟨hsame, hcreated⟩ := h.heldClient hheld
  exact ⟨client, hsame, hcreated, hlog⟩

theorem CallInv.of_managers (h : CallInv m config ws w) (hm : w'.managers = w.managers) (ht : w'.tokens = w.tokens)
    (hg : w.Grows w') : CallInv m config ws w' where
  registry := h.registry.of_managers hm hg
  grows := h.grows.trans hg
  tokens := ht.trans h.tokens
  clients := by
    have hc := h.clients
    unfold OwnClients World.clients at hc ⊢
    rwa [hm]

theorem WriterMove.wrapperInv {k : KeyWrapper} (hm : WriterMove env k w w') (h : WrapperInv k ws w) :
    WrapperInv k ws w' := by
  have hg := hm.grows
  have hkeks : k.encryptionConfiguration.doubleWrapping = true →
      OwnKeks k.kmsConnectionConfig k.encryptionConfiguration k.masterKeyToKek w' := by
    intro hd masterKeyId kek hu hl
    rcases hm.writeKeks_lookup hl with h1 | ⟨_, hnew⟩
    · exact (h.keks hd masterKeyId kek hu h1).grows hg
    · exact (hnew.wrapped.wrappedAt h.toCallInv).grows hg
  refine ⟨?_, hkeks⟩
  cases hm with
  | manager hm => exact hm.callInv h.toCallInv
  | wrap client keyBytes masterKeyId _ => exact h.toCallInv.of_managers rfl rfl hg
  | storeKek masterKeyId kek _ => exact h.toCallInv.of_managers rfl rfl hg
  | poison _ => exact h.toCallInv.of_managers rfl rfl hg

/-- What holds while a wrapper finds all its KEKs in the cache. -/
structure CachedInv (k : KeyWrapper) (w : World) : Prop where
  allocated : k.masterKeyToKek < w.nextWriteCache
  cached : ∀ masterKeyId, k.encryptionConfiguration.Uses masterKeyId →
    ∃ kek, (w.writeCaches k.masterKeyToKek).data.lookup masterKeyId = some kek
  keks : OwnKeks k.kmsConnectionConfig k.encryptionConfiguration k.masterKeyToKek w

theorem WriterMove.cachedInv {k : KeyWrapper} (hm : WriterMove env k w w') (h : CachedInv k w) : CachedInv k w' where
  allocated := lt_of_lt_of_le h.allocated hm.grows.nextWriteCache
  cached masterKeyId hu := by
    obtain ⟨kek, hl⟩ := h.cached masterKeyId hu
    exact ⟨kek, hm.writeKeks_kept h.allocated hl⟩
  keks masterKeyId kek hu hl := by
    obtain ⟨kek', hl'⟩ := h.cached masterKeyId hu
    rw [hm.writeKeks_kept h.allocated hl'] at hl
    cases hl
    exact (h.keks masterKeyId kek hu hl').grows hm.grows

/-- What was made for a key in such a state names what the instance wrapped. -/
theorem KeyWrapper.Describes.wrappedAt {k : KeyWrapper} {key : Bytes} {masterKeyId : String} {b : KeyMaterialBuilder}
    {mat : KeyMaterial} (hd : KeyWrapper.Describes env k key masterKeyId b mat w)
    (h : WrapperInv k ws w ∨ k.encryptionConfiguration.doubleWrapping = true ∧ CachedInv k w)
    (hu : k.encryptionConfiguration.Uses masterKeyId) : KeyWrappedAt k.kmsConnectionConfig key mat w := by
  cases hd with
  | single wrapped hsw hw hb =>
    have hm := KeyMaterialBuilder.build_ok hb
    have hcall : CallInv k.kmsManager k.kmsConnectionConfig ws w := by
      rcases h with h | ⟨hdw, _⟩
      · exact h.toCallInv
      · rw [hsw] at hdw
        cases hdw
    have hat := hw.wrappedAt hcall
    rw [← Option.some.inj hm.masterKeyId, ← Option.some.inj hm.wrappedDek] at hat
    exact Or.inl ⟨hm.doubleWrapping, hat⟩
  | double kek wrappedDek hdw hk _ hb =>
    have hm := KeyMaterialBuilder.build_ok hb
    have hkeks : OwnKeks k.kmsConnectionConfig k.encryptionConfiguration k.masterKeyToKek w :=
      h.elim (fun h => h.keks hdw) fun h => h.2.keks
    have hat := hkeks masterKeyId kek hu hk
    rw [← Option.some.inj hm.masterKeyId] at hat
    exact Or.inr ⟨hm.doubleWrapping, kek.key, kek.wrappedKey, hm.wrappedKek, hat⟩

theorem KeyWrappedAt.grows {key : Bytes} {mat : KeyMaterial} (h : KeyWrappedAt config key mat w) (hg : w.Grows w') :
    KeyWrappedAt config key mat w' := by
  rcases h with ⟨hd, hw⟩ | ⟨hd, kek, wrapped, hk, hw⟩
  · exact Or.inl ⟨hd, hw.grows hg⟩
  · exact Or.inr ⟨hd, kek, wrapped, hk, hw.grows hg⟩

/-! ## One file, and every run -/

theorem FooterMaterial.resolve {masterKeyId : String} {mat : KeyMaterial}
    (h : FooterMaterial enc config masterKeyId mat)
    {c : KmsConnectionConfig} (hid : c.kmsInstanceId = "") (hurl : c.kmsInstanceUrl = "") :
    (mat.resolve c).kmsInstanceId = orDefault config.kmsInstanceId ∧
      (mat.resolve c).kmsInstanceUrl = orDefault config.kmsInstanceUrl := by
  unfold KeyMaterial.resolve
  rw [h.kmsInstanceId, h.kmsInstanceUrl, hid, hurl]
  exact ⟨rfl, rfl⟩

/-- A file that is written passed the guards, and one wrapper made its keys. -/
theorem fileEncryptionProperties_made {p : FileEncryptionProperties}
    (h : CryptoFactory.fileEncryptionProperties env m config enc ws = (.ok p, w)) :
    enc.Implemented ∧ ∃ k w0, KeyWrapper.new env m config enc ws = (.ok k, w0) ∧
    Encrypted env m config enc ws p k w0 w := by
  unfold CryptoFactory.fileEncryptionProperties at h
  split at h
  · cases h
  split at h
  · cases h
  rename_i hinternal hlength
  obtain ⟨k, w0, hnew, hrest⟩ := bind_eq_ok h
  have hk := (CryptoFactory.newWrapper_along env m config enc ws).run_ok hnew
  exact ⟨⟨not_not.mp hinternal, not_not.mp hlength⟩, k, w0, hnew,
    (CryptoFactory.withWrapper_along env m config enc hk).run_ok hrest⟩

/-- A wrapper that finds all its KEKs in the cache works with no client. -/
theorem WrapperFor.cachedInv {k : KeyWrapper} (hk : WrapperFor m config enc ws k w)
    (hnew : KeyWrapper.new env m config enc ws = (.ok k, w)) (hinv : RegistryInv w)
    (hkeks : enc.doubleWrapping = true → OwnKeks config enc k.masterKeyToKek w)
    (hno : ¬ UsesClient env m config enc ws) :
    k.encryptionConfiguration.doubleWrapping = true ∧ CachedInv k w := by
  obtain rfl := hk.kmsConnectionConfig
  obtain rfl := hk.encryptionConfiguration
  have hdw : k.encryptionConfiguration.doubleWrapping = true := by
    by_contra hd
    exact hno ⟨k, w, hnew, fun h => absurd h hd⟩
  obtain ⟨v, hl, hv, _⟩ := hk.held
  refine ⟨hdw, hv ▸ (hinv.writeCaches m _ v hl).2, fun masterKeyId hu => ?_, hkeks hdw⟩
  rw [← Option.ne_none_iff_exists']
  exact fun hnone => hno ⟨k, w, hnew, fun _ => ⟨masterKeyId, hu, hnone⟩⟩

theorem fileEncryptionProperties_recorded {p : FileEncryptionProperties} (hinv : RegistryInv ws)
    (hown : OwnInstance env m config enc ws)
    (h : CryptoFactory.fileEncryptionProperties env m config enc ws = (.ok p, w)) :
    InstanceRecorded env ⟨m, config, enc, p⟩ w := by
  obtain ⟨himplemented, k, w0, hnew, he⟩ := fileEncryptionProperties_made h
  have hinv0 : RegistryInv w0 := path_keeps (I := RegistryInv) (fun _ _ hi hm => hm.registryInv hi) he.wrapper.path hinv
  have hkeks := fun hd => he.wrapper.ownKeks (hown.keks himplemented hd)
  obtain ⟨mat, hread, hfooter⟩ := he.footer.footerMaterial he.wrapper
  refine ⟨fun key hkey => ?_, mat, hread, hfooter.kmsInstanceId, hfooter.kmsInstanceUrl, fun c => hfooter.resolve⟩
  obtain ⟨masterKeyId, _, hu, mat, w1, hread, path, hg, hd⟩ := he.keys_made hkey
  obtain rfl := he.wrapper.kmsManager
  obtain rfl := he.wrapper.kmsConnectionConfig
  obtain rfl := he.wrapper.encryptionConfiguration
  have hwrapper : WrapperInv k ws w1 ∨ k.encryptionConfiguration.doubleWrapping = true ∧ CachedInv k w1 := by
    by_cases huses : UsesClient env k.kmsManager k.kmsConnectionConfig k.encryptionConfiguration ws
    · have hcall := path_keeps (I := CallInv k.kmsManager k.kmsConnectionConfig ws) (fun _ _ hi hm => hm.callInv hi)
        he.wrapper.path ⟨hinv, World.Grows.refl ws, rfl, hown.clients himplemented huses⟩
      exact .inl
        (path_keeps (I := WrapperInv k ws) (fun _ _ hi hm => hm.wrapperInv hi) path { hcall with keks := hkeks })
    · obtain ⟨hdw, hcached⟩ := he.wrapper.cachedInv hnew hinv0 hkeks huses
      exact .inr ⟨hdw, path_keeps (I := CachedInv k) (fun _ _ hi hm => hm.cachedInv hi) path hcached⟩
  exact ⟨mat, hread, (hd.wrappedAt hwrapper hu).grows hg⟩

theorem InstanceRecorded.grows {f : Written} (h : InstanceRecorded env f w) (hg : w.Grows w') :
    InstanceRecorded env f w' := by
  refine { h with wrapped := fun key hkey => ?_ }
  obtain ⟨mat, hread, hw⟩ := h.wrapped key hkey
  exact ⟨mat, hread, hw.grows hg⟩

end

/-- An encryption finds nothing in the caches that belongs to another instance. -/
def Request.OwnInstance (s : System) : Request → Prop
  | .encrypt m config enc => ParquetKeyManagement.OwnInstance env m config enc s.world
  | _ => True

/-- In a run whose encryptions find nothing of another instance in the caches, every file records
    the instance that wrapped its keys. -/
theorem instance_recorded {s : System} (h : System.Reach env (Request.OwnInstance env) s) :
    ∀ f ∈ s.files, InstanceRecorded env f s.world := by
  induction h with
  | init tokens clock => exact fun f hf => absurd hf List.not_mem_nil
  | step r hs _ hr ih =>
    intro f hf
    rcases List.mem_append.mp hf with hf | hf
    · exact (ih f hf).grows (System.exec_grows env _ r)
    · obtain ⟨he, hcall⟩ := System.mem_written env hf
      rw [he] at hr
      exact fileEncryptionProperties_recorded (registryInv hs) hr hcall

/-- Another instance, with the same access token. -/
def otherConfig : KmsConnectionConfig := ⟨"https://other", "other", 0, ∅⟩

/-- The instance a call of the KMS went to. -/
def KmsEvent.wrapInstance : KmsEvent → Option (String × String)
  | .wrapKey client _ _ _ => some (client.config.kmsInstanceId, client.config.kmsInstanceUrl)
  | _ => none

/-- Another configuration for the same instance. -/
def twinConfig : KmsConnectionConfig := { sampleConfig with customKmsConf := AList.insert "region" "eu" ∅ }

/-- A file with the same footer key, and a column under another key. -/
def twinConfiguration : EncryptionConfiguration :=
  { sampleConfiguration with columnKeyIds := AList.insert "kc3" ["e"] ∅, columnsUnique := by decide }

/-- A factory has written a file. -/
def sampleFirst : System :=
  ((System.init (fun _ => "DEFAULT") 0).exec Env.sample .newFactory).exec Env.sample
    (.encrypt 0 sampleConfig sampleConfiguration)

/-- Another configuration then writes with the client and the KEK that are cached, and time passes until they
    have expired. -/
def sampleExpired : System :=
  (sampleFirst.exec Env.sample (.encrypt 0 twinConfig twinConfiguration)).exec Env.sample
    (.wait (Duration.fromSecs 601).nanos)

/-- A third configuration then writes, for another instance. -/
def sampleTurns : System := sampleExpired.exec Env.sample (.encrypt 0 otherConfig sampleConfiguration)

theorem sampleFirst_reach : System.Reach Env.sample (Request.OwnInstance Env.sample) sampleFirst := by
  refine ((System.Reach.init _ 0).step .newFactory trivial trivial).step (.encrypt 0 sampleConfig sampleConfiguration)
    (by decide +kernel : 0 < _) ⟨fun _ _ => ?_, fun _ _ => ?_⟩
  · intro v hl
    cases hl
  · intro v hl
    cases hl

/-- Where the KMS has wrapped at one instance only, its KEKs are what a configuration for it finds. -/
theorem ownKeks_of_wraps {w : World} (hinv : WriterInv w) {config : KmsConnectionConfig} {enc : EncryptionConfiguration}
    (hwraps : ∀ i ∈ w.log.filterMap KmsEvent.wrapInstance, i = (config.kmsInstanceId, config.kmsInstanceUrl))
    (a : KekWriteCache) : OwnKeks config enc a w := by
  intro masterKeyId kek _ hk
  obtain ⟨_, client, _, hcreated, hwrapped⟩ := hinv a masterKeyId kek hk
  obtain ⟨hid, hurl⟩ := Prod.mk.inj (hwraps _ (List.mem_filterMap.mpr ⟨_, hwrapped, rfl⟩))
  exact ⟨client, ⟨hid, hurl⟩, hcreated, hwrapped⟩

theorem expiredAt_of_le {ν : Type} {v : ExpiringCacheValue ν} {t : Instant}
    (h : v.expirationTime.any (fun e => decide (e ≤ t)) = true) : v.ExpiredAt t := by
  obtain ⟨e, he, hle⟩ := (Option.any_eq_true _ _).mp h
  exact ⟨e, he, of_decide_eq_true hle⟩

/-- The client that is cached for the second file has its URL, and the KEK for its footer was
wrapped at its instance. -/
theorem sampleFirst_own : OwnInstance Env.sample 0 twinConfig twinConfiguration sampleFirst.world where
  clients _ _ v hl _ := by
    have hurl : ((sampleFirst.world.clients 0).lookup ⟨sampleFirst.world.tokens twinConfig.keyAccessToken,
        twinConfig.kmsInstanceId⟩).all (fun v => v.value.config.kmsInstanceUrl == twinConfig.kmsInstanceUrl) =
          true := by
      decide +kernel
    rw [hl] at hurl
    exact beq_iff_eq.mp hurl
  keks _ _ v _ _ := ownKeks_of_wraps (writerInv sampleFirst_reach) (by decide +kernel) v.value

/-- What the other configuration would find has expired. -/
theorem sampleExpired_own : OwnInstance Env.sample 0 otherConfig sampleConfiguration sampleExpired.world where
  clients _ _ v hl _ := by
    have hnone : ((sampleExpired.world.clients 0).lookup ⟨sampleExpired.world.tokens otherConfig.keyAccessToken,
        otherConfig.kmsInstanceId⟩).isNone = true := by decide +kernel
    rw [hl] at hnone
    cases hnone
  keks _ _ v hl hv := by
    have hexpired :
      ((sampleExpired.world.writeRegistry 0).lookup ⟨sampleExpired.world.tokens otherConfig.keyAccessToken⟩).all
        (fun v => v.expirationTime.any fun e => decide (e ≤ sampleExpired.world.clock)) = true := by decide +kernel
    rw [hl] at hexpired
    exact absurd (expiredAt_of_le hexpired) hv

theorem sampleTurns_reach : System.Reach Env.sample (Request.OwnInstance Env.sample) sampleTurns :=
  ((sampleFirst_reach.step (.encrypt 0 twinConfig twinConfiguration) (by decide +kernel : 0 < _)
    sampleFirst_own).step (.wait _) trivial trivial).step (.encrypt 0 otherConfig sampleConfiguration)
    (by decide +kernel : 0 < _) sampleExpired_own

theorem instance_recorded_sample :
    sampleTurns.files.map (fun f => f.kmsConnectionConfig.kmsInstanceId) = ["instance", "instance", "other"] ∧
      ∀ f ∈ sampleTurns.files, InstanceRecorded Env.sample f sampleTurns.world :=
  ⟨by decide +kernel, instance_recorded Env.sample sampleTurns_reach⟩

/-- Files are written for both instances, in turn. -/
def sampleInstances : System := sampleFirst.exec Env.sample (.encrypt 0 otherConfig sampleConfiguration)

/-- All keys of the second file were wrapped at the first one's instance. -/
theorem instance_not_recorded : ∃ f ∈ sampleInstances.files, ¬ InstanceRecorded Env.sample f sampleInstances.world := by
  have hids : sampleInstances.files.map (fun f => f.kmsConnectionConfig.kmsInstanceId) = ["instance", "other"] := by
    decide +kernel
  have hwraps : ∀ i ∈ sampleInstances.world.log.filterMap KmsEvent.wrapInstance, i.1 = "instance" := by decide +kernel
  obtain ⟨f, hf, hid⟩ : ∃ f ∈ sampleInstances.files, f.kmsConnectionConfig.kmsInstanceId = "other" :=
    List.mem_map.mp (by rw [hids]; decide)
  refine ⟨f, hf, fun h => ?_⟩
  have hnone : ∀ keyBytes masterKeyId wrapped,
      ¬ WrappedAt f.kmsConnectionConfig keyBytes masterKeyId wrapped sampleInstances.world := by
    rintro keyBytes masterKeyId wrapped ⟨client, ⟨hclient, _⟩, _, hw⟩
    have hfirst : client.config.kmsInstanceId = "instance" := hwraps _ (List.mem_filterMap.mpr ⟨_, hw, rfl⟩)
    rw [hclient, hid] at hfirst
    exact absurd hfirst (by decide)
  obtain ⟨mat, _, ⟨_, hw⟩ | ⟨_, kek, wrapped, _, hw⟩⟩ := h.wrapped f.properties.footerKey (List.mem_cons_self ..)
  · exact hnone _ _ _ hw
  · exact hnone _ _ _ hw

end ParquetKeyManagement
