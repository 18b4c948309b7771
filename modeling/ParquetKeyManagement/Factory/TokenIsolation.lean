/-
  ParquetKeyManagement.Factory.TokenIsolation — which token released the KEKs in a read cache.

  A reader's KEK cache is chosen by the access token its configuration held when it was
  created, and its client by the token held when a key is retrieved. The two are the same
  unless the token was refreshed in between, so the KEKs registered under a token were all
  released for it as long as no retrieval has a new KEK released after a refresh (`OwnToken`).
  - `kek_isolation`: so it is in every run of such retrievals.
  - `kek_not_isolated`: a refresh between creating a reader and retrieving a key.
-/

import ParquetKeyManagement.Factory.Panics

namespace ParquetKeyManagement

open Effect

variable (env : Env)

/-- The KMS released the KEK to a client that was created with the token. -/
def ReleasedTo (token : String) (kek : Bytes) (w : World) : Prop :=
  ∃ client wrapped masterKeyId, client.config.keyAccessToken = token ∧
    .createClient client.config (.ok client) ∈ w.log ∧ .unwrapKey client wrapped masterKeyId (.ok kek) ∈ w.log

/-- Every KEK in a read cache was released to the token the cache was made for. -/
def IsolationInv (w : World) : Prop :=
  ∀ a kekId kek, (w.readCaches a).data.lookup kekId = some kek →
    a < w.nextReadCache ∧ ReleasedTo (w.readCacheOwner a).2 kek w

/-- Existing readers keep their token cells. -/
structure KeepsCells (w w' : World) : Prop where
  nextConfig : w.nextConfig ≤ w'.nextConfig
  cells : ∀ i < w.nextConfig, (w'.configs i).keyAccessToken = (w.configs i).keyAccessToken

/-- The access token the reader's configuration holds now. -/
def KeyUnwrapper.currentToken (u : KeyUnwrapper) (w : World) : String :=
  w.tokens (w.configs u.kmsConnectionConfig).keyAccessToken

section

variable {env} {w w' : World}

theorem ReleasedTo.grows {token : String} {kek : Bytes} (h : ReleasedTo token kek w) (hg : w.Grows w') :
    ReleasedTo token kek w' := by
  obtain ⟨client, wrapped, masterKeyId, ht, hcreated, hlog⟩ := h
  exact ⟨client, wrapped, masterKeyId, ht, hg.mem_log hcreated, hg.mem_log hlog⟩

theorem IsolationInv.of_lookup (h : IsolationInv w) (hg : w.Grows w')
    (hr : ∀ a kekId kek, (w'.readCaches a).data.lookup kekId = some kek →
      (w.readCaches a).data.lookup kekId = some kek ∨
        (a < w'.nextReadCache ∧ ReleasedTo (w'.readCacheOwner a).2 kek w')) : IsolationInv w' := by
  intro a kekId kek hl
  rcases hr a kekId kek hl with h1 | h1
  · obtain ⟨ha, hrel⟩ := h a kekId kek h1
    rw [hg.readCacheOwner a ha]
    exact ⟨lt_of_lt_of_le ha hg.nextReadCache, hrel.grows hg⟩
  · exact h1

/-! ## Token cells -/

namespace KeepsCells

theorem refl (w : World) : KeepsCells w w := ⟨le_refl _, fun _ _ => rfl⟩

theorem trans {w'' : World} (h : KeepsCells w w') (h' : KeepsCells w' w'') : KeepsCells w w'' :=
  ⟨h.nextConfig.trans h'.nextConfig, fun i hi =>
    (h'.cells i (lt_of_lt_of_le hi h.nextConfig)).trans (h.cells i hi)⟩

theorem of_eq (hc : w'.configs = w.configs) (hn : w'.nextConfig = w.nextConfig) : KeepsCells w w' :=
  ⟨hn ▸ le_refl _, fun i _ => by rw [hc]⟩

end KeepsCells

theorem WriterMove.keepsCells {k : KeyWrapper} (hm : WriterMove env k w w') : KeepsCells w w' := by
  cases hm with
  | manager hm => exact .of_eq hm.kept.2.1 hm.kept.2.2
  | wrap client keyBytes masterKeyId _ => exact .of_eq rfl rfl
  | storeKek masterKeyId kek _ _ => exact .of_eq rfl rfl
  | poison _ => exact .of_eq rfl rfl

/-- Filling in an instance leaves the cell alone. -/
theorem keepsCells_fill {i : ConfigSlot} {c : KmsConnectionConfig}
    (hc : c.keyAccessToken = (w.configs i).keyAccessToken) : KeepsCells w ((configPlace i).set c w) := by
  refine ⟨le_refl _, fun j _ => ?_⟩
  show (Function.update w.configs i c j).keyAccessToken = _
  by_cases hj : j = i
  · subst hj; rw [Function.update_self]; exact hc
  · rw [Function.update_of_ne hj]

theorem ReaderMove.keepsCells {u : KeyUnwrapper} {m : KeyMaterial} {ws : World} (hm : ReaderMove env u m ws w w') :
    KeepsCells w w' := by
  cases hm with
  | manager _ hm => exact .of_eq hm.kept.2.1 hm.kept.2.2
  | unwrap client wrapped masterKeyId _ => exact .of_eq rfl rfl
  | storeKek kekId wrappedKek kek _ _ _ _ _ _ => exact .of_eq rfl rfl
  | fillId kmsInstanceId c _ hc => exact keepsCells_fill (by rw [KeyUnwrapper.withInstanceId_ok hc])
  | fillUrl kmsInstanceUrl c _ hc => exact keepsCells_fill (by rw [KeyUnwrapper.withInstanceUrl_ok hc])
  | poison => exact .of_eq rfl rfl

theorem ReaderMove.tokens {u : KeyUnwrapper} {m : KeyMaterial} {ws : World} (hm : ReaderMove env u m ws w w') :
    w'.tokens = w.tokens := by
  cases hm with
  | manager _ hm => exact hm.kept.1
  | unwrap client wrapped masterKeyId _ => rfl
  | storeKek kekId wrappedKek kek _ _ _ _ _ _ => rfl
  | fillId kmsInstanceId c _ _ => rfl
  | fillUrl kmsInstanceUrl c _ _ => rfl
  | poison => rfl

theorem RequestMove.keepsCells {ws : World} {r : Request} (hm : RequestMove env ws r w w') : KeepsCells w w' := by
  cases hm with
  | clock n => exact .of_eq rfl rfl
  | newManager _ k _ _ _ => exact .of_eq rfl rfl
  | refresh config keyAccessToken => exact .of_eq rfl rfl
  | wait elapsed => exact .of_eq rfl rfl
  | encrypt hm =>
    cases hm with
    | registry hm => exact .of_eq hm.kept.2.1 hm.kept.2.2
    | writer k _ _ hm => exact hm.keepsCells
  | registry hm => exact .of_eq hm.kept.2.1 hm.kept.2.2
  | newConfig _ _ config _ =>
    refine ⟨Nat.le_succ _, fun i hi => ?_⟩
    show (Function.update w.configs w.nextConfig config i).keyAccessToken = _
    rw [Function.update_of_ne (Nat.ne_of_lt hi)]
  | retrieve _ _ hm => exact hm.keepsCells

theorem System.exec_keepsCells (s : System) (r : Request) : KeepsCells s.world (s.exec env r).world :=
  path_keeps (I := KeepsCells s.world) (fun _ _ h hm => h.trans hm.keepsCells) (System.exec_path env s r)
    (KeepsCells.refl _)

end

/-! ## Readers -/

/-- What a reader's addresses say. -/
structure ReaderInv (r : Reader) (w : World) : Prop where
  owned : OwnedReadCache r.unwrapper.kmsManager ⟨r.token⟩ r.unwrapper.kekCache w
  slot : r.unwrapper.kmsConnectionConfig < w.nextConfig
  cell : (w.configs r.unwrapper.kmsConnectionConfig).keyAccessToken = r.kmsConnectionConfig.keyAccessToken

theorem ReaderInv.mono {r : Reader} {w w' : World} (h : ReaderInv r w) (hg : w.Grows w') (hc : KeepsCells w w') :
    ReaderInv r w' where
  owned := h.owned.grows hg
  slot := lt_of_lt_of_le h.slot hc.nextConfig
  cell := (hc.cells _ h.slot).trans h.cell

theorem readerInv {env : Env} {P : System → Request → Prop} {s : System} (h : System.Reach env P s) :
    ∀ r ∈ s.readers, ReaderInv r s.world := by
  induction h with
  | init tokens clock => exact fun r hr => absurd hr List.not_mem_nil
  | @step s req hs _ _ ih =>
    intro r hr
    rcases List.mem_append.mp hr with hr | hr
    · exact (ih r hr).mono (System.exec_grows env s req) (System.exec_keepsCells s req)
    · obtain ⟨m, dec, rfl, htoken, hcall⟩ := System.mem_opened env hr
      have halong := CryptoFactory.fileDecryptionProperties_along env m r.kmsConnectionConfig dec s.world s.world
      obtain ⟨hnew, htokens⟩ := halong.run_ok hcall
      have hinv : RegistryInv (s.exec env (.decrypt m r.kmsConnectionConfig dec)).world :=
        System.exec_keeps env (fun _ _ hi hm => hm.registryInv hi) (registryInv hs)
      refine ⟨?_, hnew.slot, congrArg KmsConnectionConfig.keyAccessToken hnew.stored⟩
      obtain ⟨v, hl, hv, _⟩ := hnew.registered
      rw [hnew.kmsManager, ← hv, htoken, ← htokens]
      exact hinv.readCaches m _ v hl

/-! ## Retrievals -/

/-- The KEK of this material is not cached, and the KMS releases it to the client that a retrieval gets. -/
structure KeyUnwrapper.NeedsRelease (u : KeyUnwrapper) (m : KeyMaterial) (kekId wrapped : String) (kek : Bytes)
    (w : World) : Prop where
  doubleWrapping : m.doubleWrapping = true
  keyEncryptionKeyId : m.keyEncryptionKeyId = some kekId
  wrappedKek : m.wrappedKek = some wrapped
  intact : (w.readCaches u.kekCache).poisoned = false
  absent : (u.keks.get w).lookup kekId = none
  releases : u.Releases env m wrapped kek w

/-- A KEK that has to be released for a reader is released to the token it was created with. -/
def Request.OwnToken (s : System) : Request → Prop
  | .retrieve u keyMetadata => ∀ m, KeyUnwrapper.readMaterial env keyMetadata = .ok m → m.internalStorage = true →
    (∃ kekId wrapped kek, u.NeedsRelease env m kekId wrapped kek s.world) →
      ∀ r ∈ s.readers, r.unwrapper = u → u.currentToken s.world = r.token
  | _ => True

section

variable {env} {w w' : World}

/-- What holds throughout a retrieval that started in `ws`. -/
structure RetrieveInv (ws w : World) : Prop where
  isolation : IsolationInv w
  registry : RegistryInv w
  grows : ws.Grows w
  tokens : w.tokens = ws.tokens
  cells : KeepsCells ws w

/-- The KEK stored in a retrieval was released to the reader's current token. -/
theorem StoredKek.released {u : KeyUnwrapper} {m : KeyMaterial} {kekId : String} {kek : Bytes} {ws : World}
    (h : StoredKek env u m kekId kek ws w) (hinv : RetrieveInv ws w) (hslot : u.kmsConnectionConfig < ws.nextConfig) :
    ReleasedTo (u.currentToken ws) kek w ∧ ∃ kekId wrapped kek, u.NeedsRelease env m kekId wrapped kek ws := by
  obtain ⟨wrappedKek, hw, client, ⟨v, hl, hv, _⟩, hlog, _⟩ := h.unwrapped
  obtain ⟨htoken, _, hcreated⟩ := hinv.registry.clients u.kmsManager _ v hl
  have ht : client.config.keyAccessToken = u.currentToken ws := by
    rw [← hv, htoken, hinv.tokens, hinv.cells.cells _ hslot]
    rfl
  rw [hv] at hcreated
  obtain ⟨wrapped, hwrapped, hreleases⟩ := h.releases
  exact ⟨⟨client, wrappedKek, m.masterKeyId, ht, hcreated, hlog⟩, kekId, wrapped, kek,
    { h with wrappedKek := hwrapped, absent := h.absentAtStart, releases := hreleases }⟩

theorem ReaderMove.retrieveInv {r : Reader} {m : KeyMaterial} {ws : World} (hreader : ReaderInv r ws)
    (hown : (∃ kekId wrapped kek, r.unwrapper.NeedsRelease env m kekId wrapped kek ws) →
      r.unwrapper.currentToken ws = r.token)
    (hm : ReaderMove env r.unwrapper m ws w w') (h : RetrieveInv ws w) : RetrieveInv ws w' where
  isolation := by
    refine h.isolation.of_lookup hm.grows fun a kekId kek hl => ?_
    rcases hm.readKeks_lookup hl with h1 | ⟨rfl, hstored⟩
    · exact Or.inl h1
    · obtain ⟨hrel, hneeds⟩ := hstored.released h hreader.slot
      have howned := hreader.owned.grows (h.grows.trans hm.grows)
      rw [hown hneeds] at hrel
      refine Or.inr ⟨howned.2, ?_⟩
      rw [howned.1]
      exact hrel.grows hm.grows
  registry := hm.registryInv h.registry
  grows := h.grows.trans hm.grows
  tokens := hm.tokens.trans h.tokens
  cells := h.cells.trans hm.keepsCells

end

/-! ## Every run -/

theorem isolationInv_step {s : System} {r : Request} {P : System → Request → Prop} (hs : System.Reach env P s)
    (he : s.Enabled r) (hr : r.OwnToken env s) (h : IsolationInv s.world) : IsolationInv (s.exec env r).world := by
  have hpath := System.exec_path env s r
  cases r with
  | retrieve u keyMetadata =>
    obtain ⟨r, hmem, rfl⟩ := he
    refine (path_keeps (I := RetrieveInv s.world) (fun a b hi hm => ?_) hpath
      ⟨h, registryInv hs, World.Grows.refl _, rfl, KeepsCells.refl _⟩).isolation
    cases hm with
    | retrieve hread hinternal hm =>
      exact hm.retrieveInv (readerInv hs r hmem) (fun hneeds => hr _ hread hinternal hneeds r hmem rfl) hi
  | _ =>
    refine path_keeps (I := IsolationInv) (fun a b hi hm => ?_) hpath h
    have hg := hm.grows
    refine hi.of_lookup hg fun c kekId kek hl => Or.inl ?_
    rcases hm.readKeks_lookup hl with h1 | ⟨u, keyMetadata, m, hr, _⟩
    · exact h1
    · cases hr

theorem isolationInv {s : System} (h : System.Reach env (fun s r => r.OwnToken env s) s) : IsolationInv s.world := by
  induction h with
  | init tokens clock => intro a kekId kek hl; cases hl
  | step r hs he hr ih => exact isolationInv_step env hs he hr ih

/-- The KEKs in the read cache that is registered under a token, and those a reader created with
    the token finds, were all released to a client with that token. -/
theorem kek_isolation {s : System} (h : System.Reach env (fun s r => r.OwnToken env s) s) :
    (∀ m token v, (s.world.readRegistry m).lookup ⟨token⟩ = some v →
      ∀ kekId kek, (s.world.readCaches v.value).data.lookup kekId = some kek → ReleasedTo token kek s.world) ∧
    ∀ r ∈ s.readers, ∀ kekId kek, (r.unwrapper.keks.get s.world).lookup kekId = some kek →
      ReleasedTo r.token kek s.world := by
  have hinv := isolationInv env h
  constructor
  · intro m token v hl kekId kek hkek
    obtain ⟨_, hrel⟩ := hinv v.value kekId kek hkek
    rwa [((registryInv h).readCaches m _ v hl).1] at hrel
  · intro r hr kekId kek hkek
    obtain ⟨_, hrel⟩ := hinv r.unwrapper.kekCache kekId kek hkek
    rwa [(readerInv h r hr).owned.1] at hrel

theorem sampleUnwrapper_mem : ∃ r ∈ sampleReading.readers, r.unwrapper = sampleUnwrapper ∧ r.token = "DEFAULT" := by
  obtain ⟨r, hr, he⟩ := List.mem_map.mp (show (sampleUnwrapper, "DEFAULT") ∈
    sampleReading.readers.map (fun r => (r.unwrapper, r.token)) by decide +kernel)
  exact ⟨r, hr, congrArg Prod.fst he, congrArg Prod.snd he⟩

/-- The reader retrieves a key, and so has a KEK released and cached. -/
theorem kek_isolation_sample :
    ∃ keyMetadata, ∃ r ∈ (sampleReading.exec Env.sample (.retrieve sampleUnwrapper keyMetadata)).readers,
      r.token = "DEFAULT" ∧ ReleasedTo r.token (counter 7 kekLen)
        (sampleReading.exec Env.sample (.retrieve sampleUnwrapper keyMetadata)).world := by
  obtain ⟨keyMetadata, hread⟩ :=
    KeyWrapper.exists_metadata Env.sample (m := sampleMaterial (Base64.encode (counter 0 28))) rfl
  obtain ⟨r, hr, hu, ht⟩ := sampleUnwrapper_mem
  have hcached : (sampleUnwrapper.keks.get
      (sampleReading.exec Env.sample (.retrieve sampleUnwrapper keyMetadata)).world).lookup "" =
        some (counter 7 kekLen) := by
    rw [System.exec_retrieve Env.sample _ hread rfl]
    decide +kernel
  have hown : ∀ x ∈ sampleReading.readers, sampleUnwrapper.currentToken sampleReading.world = x.token := by
    decide +kernel
  have hreach : System.Reach Env.sample (fun s r => r.OwnToken Env.sample s)
      (sampleReading.exec Env.sample (.retrieve sampleUnwrapper keyMetadata)) :=
    (((System.Reach.init _ 0).step .newFactory trivial trivial).step (.decrypt 0 sampleConfig ⟨none⟩)
      (by decide +kernel : 0 < _) trivial).step _ ⟨r, hr, hu⟩ fun _ _ _ _ x hx _ => hown x hx
  have hmem :=
    List.mem_append_left (System.opened Env.sample sampleReading.world (.retrieve sampleUnwrapper keyMetadata)) hr
  exact ⟨keyMetadata, r, hmem, ht, (kek_isolation Env.sample hreach).2 r hmem "" _ (by rw [hu]; exact hcached)⟩

/-- The same reader, after its token was refreshed. -/
def sampleRefreshed : System := sampleReading.exec Env.sample (.refresh sampleConfig "NEW")

/-- The token a client had that the KMS released a key to. -/
def KmsEvent.unwrapToken : KmsEvent → Option String
  | .unwrapKey client _ _ _ => some client.config.keyAccessToken
  | _ => none

/-- After a refresh, the reader has a KEK released to the new token, and finds it in the cache that
    is registered under the old one. -/
theorem kek_not_isolated :
    ∃ keyMetadata, ∃ r ∈ sampleRefreshed.readers, r.unwrapper = sampleUnwrapper ∧ r.token = "DEFAULT" ∧
      ∃ v kek, ((sampleRefreshed.exec Env.sample (.retrieve r.unwrapper keyMetadata)).world.readRegistry 0).lookup
          ⟨"DEFAULT"⟩ = some v ∧
        ((sampleRefreshed.exec Env.sample (.retrieve r.unwrapper keyMetadata)).world.readCaches v.value).data.lookup
          "" = some kek ∧
        ¬ ReleasedTo "DEFAULT" kek (sampleRefreshed.exec Env.sample (.retrieve r.unwrapper keyMetadata)).world := by
  obtain ⟨keyMetadata, hread⟩ :=
    KeyWrapper.exists_metadata Env.sample (m := sampleMaterial (Base64.encode (counter 0 28))) rfl
  obtain ⟨r, hr, hu, ht⟩ := sampleUnwrapper_mem
  refine ⟨keyMetadata, r, List.mem_append_left _ hr, hu, ht, ⟨0, none⟩, counter 7 kekLen, ?_⟩
  rw [hu, System.exec_retrieve Env.sample _ hread rfl]
  refine ⟨by decide +kernel, by decide +kernel, ?_⟩
  intro h
  obtain ⟨client, wrapped, masterKeyId, hclient, _, hlog⟩ := h
  have htokens : (((do
      sampleUnwrapper.updateKmsConfig (sampleMaterial (Base64.encode (counter 0 28)))
      sampleUnwrapper.unwrapDek Env.sample (sampleMaterial (Base64.encode (counter 0 28))) : Call Bytes)
        sampleRefreshed.world).2.log.filterMap KmsEvent.unwrapToken) = ["NEW"] := by decide +kernel
  have hmem := List.mem_filterMap.mpr ⟨_, hlog, (rfl : KmsEvent.unwrapToken _ = some client.config.keyAccessToken)⟩
  rw [htokens, hclient] at hmem
  exact absurd hmem (by decide)

end ParquetKeyManagement
