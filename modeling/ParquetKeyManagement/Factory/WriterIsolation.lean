/-
  ParquetKeyManagement.Factory.WriterIsolation — which token the KEKs in a write cache were
  wrapped with.

  A wrapper chooses its KEK cache and its clients by the access token of one configuration, and
  no call of the library changes a token. So unlike a reader, which keeps its cache when its
  token is refreshed, a writer never mixes the keys of two tokens, whatever is refreshed between
  the requests, and whether or not a request fails half way.
  - `writer_isolation`: the KEKs registered for writing under a token, and all the keys a file
    is written with, were wrapped by clients that were created with that token.
-/

import ParquetKeyManagement.Factory.RoundTrip

namespace ParquetKeyManagement

open Effect

/-- A client that was created with the token wrapped the key. -/
def WrappedUnder (token : String) (keyBytes : Bytes) (masterKeyId wrapped : String) (w : World) : Prop :=
  ∃ client, client.config.keyAccessToken = token ∧ .createClient client.config (.ok client) ∈ w.log ∧
    .wrapKey client keyBytes masterKeyId (.ok wrapped) ∈ w.log

/-- What the KMS wrapped for a key of the material was wrapped under the token. -/
def KeyWrappedUnder (token : String) (key : Bytes) (m : KeyMaterial) (w : World) : Prop :=
  (m.doubleWrapping = false ∧ WrappedUnder token key m.masterKeyId m.wrappedDek w) ∨
    (m.doubleWrapping = true ∧ ∃ kek wrapped, m.wrappedKek = some wrapped ∧
      WrappedUnder token kek m.masterKeyId wrapped w)

/-- Every KEK in a write cache was wrapped under the token the cache was made for. -/
def WriterInv (w : World) : Prop :=
  ∀ a masterKeyId kek, (w.writeCaches a).data.lookup masterKeyId = some kek →
    a < w.nextWriteCache ∧ WrappedUnder (w.writeCacheOwner a).2 kek.key masterKeyId kek.wrappedKey w

section

variable {env : Env} {m : ManagerId} {config : KmsConnectionConfig} {enc : EncryptionConfiguration} {ws w w' : World}
  {token : String} {key : Bytes} {mat : KeyMaterial}

theorem WrappedUnder.grows {masterKeyId wrapped : String} (h : WrappedUnder token key masterKeyId wrapped w)
    (hg : w.Grows w') : WrappedUnder token key masterKeyId wrapped w' := by
  obtain ⟨client, ht, hcreated, hwrapped⟩ := h
  exact ⟨client, ht, hg.mem_log hcreated, hg.mem_log hwrapped⟩

theorem KeyWrappedUnder.grows (h : KeyWrappedUnder token key mat w) (hg : w.Grows w') :
    KeyWrappedUnder token key mat w' := by
  rcases h with ⟨hd, hw⟩ | ⟨hd, kek, wrapped, hk, hw⟩
  · exact Or.inl ⟨hd, hw.grows hg⟩
  · exact Or.inr ⟨hd, kek, wrapped, hk, hw.grows hg⟩

theorem WriterInv.of_lookup (h : WriterInv w) (hg : w.Grows w')
    (hr : ∀ a masterKeyId kek, (w'.writeCaches a).data.lookup masterKeyId = some kek →
      (w.writeCaches a).data.lookup masterKeyId = some kek ∨
        (a < w'.nextWriteCache ∧ WrappedUnder (w'.writeCacheOwner a).2 kek.key masterKeyId kek.wrappedKey w')) :
    WriterInv w' := by
  intro a masterKeyId kek hl
  rcases hr a masterKeyId kek hl with hold | hnew
  · obtain ⟨ha, hw⟩ := h a masterKeyId kek hold
    rw [hg.writeCacheOwner a ha]
    exact ⟨lt_of_lt_of_le ha hg.nextWriteCache, hw.grows hg⟩
  · exact hnew

/-! ## One call -/

/-- What is wrapped for a configuration is wrapped under its token. -/
theorem Wrapped.under (hinv : RegistryInv w) {masterKeyId wrapped : String}
    (hw : Wrapped env m config key masterKeyId wrapped w) :
    WrappedUnder (w.tokens config.keyAccessToken) key masterKeyId wrapped w := by
  obtain ⟨client, ⟨v, hl, hv, _⟩, hlog, _⟩ := hw
  obtain ⟨htoken, _, hcreated⟩ := hinv.clients m _ v hl
  rw [hv] at htoken hcreated
  exact ⟨client, htoken, hcreated, hlog⟩

/-- What holds while a wrapper works that a call started in `ws` made. -/
structure WritingInv (k : KeyWrapper) (ws w : World) : Prop where
  registry : RegistryInv w
  tokens : w.tokens = ws.tokens
  owned : OwnedWriteCache k.kmsManager ⟨ws.tokens k.kmsConnectionConfig.keyAccessToken⟩ k.masterKeyToKek w

theorem WrapperFor.writingInv {k : KeyWrapper} (hk : WrapperFor m config enc ws k w) (h : RegistryInv ws) :
    WritingInv k ws w := by
  have hinv := path_keeps (I := RegistryInv) (fun _ _ hi hm => hm.registryInv hi) hk.path h
  have ht := KmsManager.tokens_kept m config enc.cacheLifetime hk.path
  refine ⟨hinv, ht, ?_⟩
  obtain ⟨v, hl, hv, _⟩ := hk.held
  rw [hk.kmsManager, hk.kmsConnectionConfig, ← ht, ← hv]
  exact hinv.writeCaches m _ v hl

theorem WriterMove.writingInv {k : KeyWrapper} (hm : WriterMove env k w w') (h : WritingInv k ws w) :
    WritingInv k ws w' where
  registry := hm.registryInv h.registry
  tokens := hm.tokens.trans h.tokens
  owned := h.owned.grows hm.grows

/-- A wrapper stores what it has just had wrapped, in the cache for its token. -/
theorem WriterMove.writerInv {k : KeyWrapper} (hm : WriterMove env k w w') (h : WritingInv k ws w)
    (hinv : WriterInv w) : WriterInv w' := by
  have hg := hm.grows
  refine hinv.of_lookup hg fun a masterKeyId kek hl => ?_
  rcases hm.writeKeks_lookup hl with hold | ⟨rfl, hnew⟩
  · exact Or.inl hold
  · have hw := hnew.wrapped.under h.registry
    have howned := h.owned.grows hg
    rw [h.tokens] at hw
    rw [howned.1]
    exact Or.inr ⟨howned.2, hw.grows hg⟩

theorem ManagerMove.writerInv {lifetime : Option Duration} (hm : ManagerMove m config lifetime w w')
    (h : WriterInv w) : WriterInv w' :=
  h.of_lookup hm.grows fun _ _ _ hl => Or.inl (hm.writeKeks_lookup hl)

theorem EncryptMove.writerInv (hreg : RegistryInv ws) (hm : EncryptMove env m config enc ws w w') (h : WriterInv w) :
    WriterInv w' := by
  cases hm with
  | registry hm => exact hm.writerInv h
  | writer k hk path hm =>
    have hwriting := path_keeps (I := WritingInv k ws) (fun _ _ hi hm => hm.writingInv hi) path (hk.writingInv hreg)
    exact hm.writerInv hwriting h

/-- A request that writes no file stores no KEK for writing. -/
theorem RequestMove.writerInv {r : Request} (hreg : RegistryInv ws) (hm : RequestMove env ws r w w') (h : WriterInv w) :
    WriterInv w' := by
  have hg := hm.grows
  cases hm with
  | clock n => exact h.of_lookup hg fun _ _ _ hl => Or.inl hl
  | newManager k _ _ _ => exact h.of_lookup hg fun _ _ _ hl => Or.inl hl
  | refresh config keyAccessToken => exact h.of_lookup hg fun _ _ _ hl => Or.inl hl
  | wait elapsed => exact h.of_lookup hg fun _ _ _ hl => Or.inl hl
  | encrypt hm => exact hm.writerInv hreg h
  | registry hm => exact hm.writerInv h
  | newConfig m config dec => exact h.of_lookup hg fun _ _ _ hl => Or.inl hl
  | retrieve _ _ hm => exact h.of_lookup hg fun _ _ _ hl => Or.inl (hm.writeKeks_lookup hl)

/-! ## Every run -/

theorem writerInv {R : System → Request → Prop} {s : System} (h : System.Reach env R s) : WriterInv s.world := by
  induction h with
  | init tokens clock => intro a masterKeyId kek hl; cases hl
  | @step s r hs _ _ ih =>
    exact path_keeps (I := WriterInv) (fun _ _ hi hm => hm.writerInv (registryInv hs) hi) (System.exec_path env s r) ih

/-- What a wrapper made for a key names what was wrapped under its token. -/
theorem KeyWrapper.Describes.wrappedUnder {k : KeyWrapper} {masterKeyId : String} {b : KeyMaterialBuilder}
    (hd : KeyWrapper.Describes env k key masterKeyId b mat w) (h : WritingInv k ws w) (hinv : WriterInv w) :
    KeyWrappedUnder (ws.tokens k.kmsConnectionConfig.keyAccessToken) key mat w := by
  cases hd with
  | single wrapped _ hw hb =>
    have hm := KeyMaterialBuilder.build_ok hb
    have hunder := hw.under h.registry
    rw [h.tokens, ← Option.some.inj hm.masterKeyId, ← Option.some.inj hm.wrappedDek] at hunder
    exact Or.inl ⟨hm.doubleWrapping, hunder⟩
  | double kek wrappedDek _ hk _ hb =>
    have hm := KeyMaterialBuilder.build_ok hb
    obtain ⟨_, hunder⟩ := hinv k.masterKeyToKek masterKeyId kek hk
    rw [h.owned.1, ← Option.some.inj hm.masterKeyId] at hunder
    exact Or.inr ⟨hm.doubleWrapping, kek.key, kek.wrappedKey, hm.wrappedKek, hunder⟩

variable {R : System → Request → Prop} {s : System}

/-- In every run, the KEKs registered for writing under a token, and what the KMS wrapped for a
    file that is then written with the token, were wrapped for clients created with it. -/
theorem writer_isolation (h : System.Reach env R s) :
    (∀ m token v, (s.world.writeRegistry m).lookup ⟨token⟩ = some v →
      ∀ masterKeyId kek, (s.world.writeCaches v.value).data.lookup masterKeyId = some kek →
        WrappedUnder token kek.key masterKeyId kek.wrappedKey s.world) ∧
    ∀ r, ∀ f ∈ System.written env s.world r, ∀ key ∈ f.properties.keys,
      ∃ mat, KeyUnwrapper.readMaterial env key.metadata = .ok mat ∧
        KeyWrappedUnder (s.world.tokens f.kmsConnectionConfig.keyAccessToken) key.key mat (s.exec env r).world := by
  have hreg := registryInv h
  have hinv := writerInv h
  constructor
  · intro m token v hl masterKeyId kek hkek
    obtain ⟨_, hw⟩ := hinv v.value masterKeyId kek hkek
    rwa [(hreg.writeCaches m _ v hl).1] at hw
  · intro r f hf key hkey
    obtain ⟨rfl, hcall⟩ := System.mem_written env hf
    obtain ⟨k, w0, he⟩ := (CryptoFactory.fileEncryptionProperties_along env _ _ _ s.world).run_ok hcall
    obtain ⟨masterKeyId, _, _, mat, w1, hread, path, hg, hd⟩ := he.keys_made hkey
    have hinv0 := path_keeps (I := WriterInv) (fun _ _ hi hm => hm.writerInv hi) he.wrapper.path hinv
    -- both invariants hold when the key's material is made
    obtain ⟨hwriting, hinv1⟩ := path_keeps (I := fun w => WritingInv k s.world w ∧ WriterInv w)
      (fun _ _ hi hm => ⟨hm.writingInv hi.1, hm.writerInv hi.1 hi.2⟩) path ⟨he.wrapper.writingInv hreg, hinv0⟩
    have hunder := hd.wrappedUnder hwriting hinv1
    rw [he.wrapper.kmsConnectionConfig] at hunder
    exact ⟨mat, hread, hunder.grows hg⟩

end

/-- A file was written, and then the token was refreshed. -/
def sampleTokens : System :=
  (((System.init (fun _ => "DEFAULT") 0).exec Env.sample .newFactory).exec Env.sample
    (.encrypt 0 sampleConfig sampleConfiguration)).exec Env.sample (.refresh sampleConfig "NEW")

/-- The next file is written with the new token only. -/
theorem writer_isolation_sample :
    ∃ f ∈ System.written Env.sample sampleTokens.world (.encrypt 0 sampleConfig sampleConfiguration),
      ∀ key ∈ f.properties.keys, ∃ mat, KeyUnwrapper.readMaterial Env.sample key.metadata = .ok mat ∧
        KeyWrappedUnder "NEW" key.key mat
          (sampleTokens.exec Env.sample (.encrypt 0 sampleConfig sampleConfiguration)).world := by
  have hreach : System.Reach Env.sample (fun _ _ => True) sampleTokens :=
    (((System.Reach.init _ 0).step .newFactory trivial trivial).step (.encrypt 0 sampleConfig sampleConfiguration)
      (by decide +kernel : 0 < _) trivial).step (.refresh sampleConfig "NEW") trivial trivial
  have hlen : (System.written Env.sample sampleTokens.world (.encrypt 0 sampleConfig sampleConfiguration)).length =
      1 := by
    decide +kernel
  have htoken : sampleTokens.world.tokens sampleConfig.keyAccessToken = "NEW" := by decide +kernel
  obtain ⟨f, hf⟩ := List.exists_mem_of_length_pos (hlen ▸ Nat.one_pos)
  obtain ⟨he, _⟩ := System.mem_written Env.sample hf
  refine ⟨f, hf, fun key hkey => ?_⟩
  obtain ⟨mat, hread, hunder⟩ := (writer_isolation hreach).2 _ f hf key hkey
  injection he with _ hconfig _
  rw [← hconfig, htoken] at hunder
  exact ⟨mat, hread, hunder⟩

end ParquetKeyManagement
