/-
  ParquetKeyManagement.Keys.ReaderMoves — every write a key unwrapper makes to the shared
  state.

  Besides the writes of the registry, an unwrapper asks the KMS to unwrap, stores KEKs in its
  read cache, and fills in its connection configuration (`ReaderMove`). When a read cache's
  mutex is poisoned is the subject of `Factory.Panics`.
  - `retrieveKey_along`: what a retrieved key is (`Retrieved`), and why retrieving fails
    (`Refused`).
-/

import ParquetKeyManagement.Keys.WriterMoves

namespace ParquetKeyManagement

open Effect

variable (env : Env)

/-- The KMS unwrapped `keyBytes` for a client of the configuration. -/
def Unwrapped (m : ManagerId) (config : KmsConnectionConfig) (wrapped masterKeyId : String) (keyBytes : Bytes)
    (w : World) : Prop :=
  ∃ client, HeldClient m config client w ∧ .unwrapKey client wrapped masterKeyId (.ok keyBytes) ∈ w.log ∧
    ∃ i, env.unwrapKey i client wrapped masterKeyId = .ok keyBytes

/-- The configuration a reader uses for `m`: its own values first, then those of a footer. -/
def KeyMaterial.resolve (m : KeyMaterial) (c : KmsConnectionConfig) : KmsConnectionConfig :=
  match m.kmsInstanceId, m.kmsInstanceUrl with
  | some kmsInstanceId, some kmsInstanceUrl =>
    { c with kmsInstanceId := if c.kmsInstanceId.isEmpty then kmsInstanceId else c.kmsInstanceId,
             kmsInstanceUrl := if c.kmsInstanceUrl.isEmpty then kmsInstanceUrl else c.kmsInstanceUrl }
  | _, _ => c

/-- The client that a retrieval from `m` gets, called in the state `w`, has the KMS release the key. -/
def KeyUnwrapper.Releases (u : KeyUnwrapper) (m : KeyMaterial) (wrapped : String) (keyBytes : Bytes) (w : World) :
    Prop :=
  ∃ w1 client w2, u.updateKmsConfig m w = (.ok (), w1) ∧
    KmsManager.getClient env u.kmsManager (w1.configs u.kmsConnectionConfig)
      u.decryptionConfiguration.cacheLifetime w1 = (.ok client, w2) ∧
    env.unwrapKey w2.calls client wrapped m.masterKeyId = .ok keyBytes

/-- The writes of `u` while it retrieves a key from `m`, called in the state `w0`. -/
inductive ReaderMove (u : KeyUnwrapper) (m : KeyMaterial) (w0 : World) : World → World → Prop
  | manager {w w' : World} : w.configs u.kmsConnectionConfig = m.resolve (w0.configs u.kmsConnectionConfig) →
    ManagerMove u.kmsManager (w.configs u.kmsConnectionConfig) u.decryptionConfiguration.cacheLifetime w w' →
    ReaderMove u m w0 w w'
  | unwrap (w : World) (client : KmsClient) (wrapped masterKeyId : String) :
    HeldClient u.kmsManager (w.configs u.kmsConnectionConfig) client w →
    ReaderMove u m w0 w
      (w.record (.unwrapKey client wrapped masterKeyId (env.unwrapKey w.calls client wrapped masterKeyId)))
  | storeKek (w : World) (kekId wrappedKek : String) (kek : Bytes) :
    m.keyEncryptionKeyId = some kekId → m.wrappedKek = some wrappedKek → m.doubleWrapping = true →
    (u.keks.get w0).lookup kekId = none → (u.keks.get w).lookup kekId = none →
    Unwrapped env u.kmsManager (w.configs u.kmsConnectionConfig) wrappedKek m.masterKeyId kek w →
    (w0.readCaches u.kekCache).poisoned = false → u.Releases env m wrappedKek kek w0 →
    ReaderMove u m w0 w (u.keks.modify (fun c => c.insert kekId kek) w)
  | fillId (w : World) (kmsInstanceId : String) (c : KmsConnectionConfig) :
    m.kmsInstanceId = some kmsInstanceId →
    KeyUnwrapper.withInstanceId (w.configs u.kmsConnectionConfig) kmsInstanceId = .ok c →
    ReaderMove u m w0 w ((configPlace u.kmsConnectionConfig).set c w)
  | fillUrl (w : World) (kmsInstanceUrl : String) (c : KmsConnectionConfig) :
    m.kmsInstanceUrl = some kmsInstanceUrl →
    KeyUnwrapper.withInstanceUrl (w.configs u.kmsConnectionConfig) kmsInstanceUrl = .ok c →
    ReaderMove u m w0 w ((configPlace u.kmsConnectionConfig).set c w)
  | poison (w : World) : ReaderMove u m w0 w (poison (readCachePlace u.kekCache) w)

theorem ReaderMove.grows {env : Env} {u : KeyUnwrapper} {m : KeyMaterial} {w0 w w' : World}
    (h : ReaderMove env u m w0 w w') : w.Grows w' := by
  cases h with
  | manager _ h => exact h.grows
  | unwrap client wrapped masterKeyId _ => exact w.grows_record _
  | storeKek kekId wrappedKek kek _ _ _ _ _ => exact { World.Grows.refl w with }
  | fillId kmsInstanceId c _ _ => exact { World.Grows.refl w with }
  | fillUrl kmsInstanceUrl c _ _ => exact { World.Grows.refl w with }
  | poison => exact { World.Grows.refl w with }

/-- The KEK the KMS returned for `m` in the state `w`, when none had been stored since the call
    started in `w0`. -/
structure StoredKek (u : KeyUnwrapper) (m : KeyMaterial) (kekId : String) (kek : Bytes) (w0 w : World) : Prop where
  doubleWrapping : m.doubleWrapping = true
  keyEncryptionKeyId : m.keyEncryptionKeyId = some kekId
  absentAtStart : (u.keks.get w0).lookup kekId = none
  intact : (w0.readCaches u.kekCache).poisoned = false
  releases : ∃ wrappedKek, m.wrappedKek = some wrappedKek ∧ u.Releases env m wrappedKek kek w0
  absent : (u.keks.get w).lookup kekId = none
  unwrapped : ∃ wrappedKek, m.wrappedKek = some wrappedKek ∧
    Unwrapped env u.kmsManager (w.configs u.kmsConnectionConfig) wrappedKek m.masterKeyId kek w

/-- What is in a read cache after a move was there before, or has just been unwrapped. -/
theorem ReaderMove.readKeks_lookup {env : Env} {u : KeyUnwrapper} {m : KeyMaterial} {w0 w w' : World}
    (h : ReaderMove env u m w0 w w') {a : KekReadCache} {kekId : String} {kek : Bytes}
    (hl : (w'.readCaches a).data.lookup kekId = some kek) :
    (w.readCaches a).data.lookup kekId = some kek ∨ (a = u.kekCache ∧ StoredKek env u m kekId kek w0 w) := by
  cases h with
  | manager _ h => exact Or.inl (h.readKeks_lookup hl)
  | unwrap client wrapped masterKeyId _ => exact Or.inl hl
  | storeKek kekId' wrappedKek kek' hk hw hd hstart hnone hun hintact hreleases =>
    change (Function.update w.readCaches u.kekCache _ a).data.lookup kekId = some kek at hl
    by_cases ha : a = u.kekCache
    · subst ha
      rw [Function.update_self] at hl
      change ((w.readCaches u.kekCache).data.insert kekId' kek').lookup kekId = some kek at hl
      by_cases he : kekId = kekId'
      · subst he
        rw [AList.lookup_insert] at hl
        cases hl
        exact Or.inr ⟨rfl, hd, hk, hstart, hintact, ⟨wrappedKek, hw, hreleases⟩, hnone, wrappedKek, hw, hun⟩
      · rw [AList.lookup_insert_ne he] at hl; exact Or.inl hl
    · rw [Function.update_of_ne ha] at hl; exact Or.inl hl
  | fillId kmsInstanceId c _ _ => exact Or.inl hl
  | fillUrl kmsInstanceUrl c _ _ => exact Or.inl hl
  | poison =>
    change (Function.update w.readCaches u.kekCache _ a).data.lookup kekId = some kek at hl
    by_cases ha : a = u.kekCache
    · subst ha; rw [Function.update_self] at hl; exact Or.inl hl
    · rw [Function.update_of_ne ha] at hl; exact Or.inl hl

theorem ReaderMove.writeKeks_lookup {env : Env} {u : KeyUnwrapper} {m : KeyMaterial} {w0 w w' : World}
    (h : ReaderMove env u m w0 w w') {a : KekWriteCache} {masterKeyId : String} {kek : KeyEncryptionKey}
    (hl : (w'.writeCaches a).data.lookup masterKeyId = some kek) :
    (w.writeCaches a).data.lookup masterKeyId = some kek := by
  cases h with
  | manager _ h => exact h.writeKeks_lookup hl
  | unwrap client wrapped _ _ => exact hl
  | storeKek kekId wrappedKek kek' _ _ _ _ _ _ => exact hl
  | fillId kmsInstanceId c _ _ => exact hl
  | fillUrl kmsInstanceUrl c _ _ => exact hl
  | poison => exact hl

namespace KeyUnwrapper

variable (u : KeyUnwrapper) (m : KeyMaterial) {w0 : World}

/-! ## The configuration -/

/-- The material names an instance, and leaves its ID or its URL empty. -/
def Unresolved : Prop :=
  ∃ kmsInstanceId kmsInstanceUrl, m.kmsInstanceId = some kmsInstanceId ∧ m.kmsInstanceUrl = some kmsInstanceUrl ∧
    (kmsInstanceId.isEmpty ∨ kmsInstanceUrl.isEmpty)

theorem withInstanceId_ok {c c' : KmsConnectionConfig} {kmsInstanceId : String}
    (h : withInstanceId c kmsInstanceId = .ok c') :
    c' = { c with kmsInstanceId := if c.kmsInstanceId.isEmpty then kmsInstanceId else c.kmsInstanceId } := by
  unfold withInstanceId at h
  by_cases hc : c.kmsInstanceId.isEmpty
  · by_cases hi : kmsInstanceId.isEmpty
    · rw [if_pos hc, if_pos hi] at h; cases h
    · rw [if_pos hc, if_neg hi] at h; cases h; rw [if_pos hc]; rfl
  · rw [if_neg hc] at h; cases h; rw [if_neg hc]

theorem withInstanceId_error {c : KmsConnectionConfig} {kmsInstanceId : String} {e : ParquetError}
    (h : withInstanceId c kmsInstanceId = .error e) : kmsInstanceId.isEmpty = true := by
  unfold withInstanceId at h
  by_cases hi : kmsInstanceId.isEmpty
  · exact hi
  · rw [if_neg hi] at h; split at h <;> cases h

theorem withInstanceUrl_ok {c c' : KmsConnectionConfig} {kmsInstanceUrl : String}
    (h : withInstanceUrl c kmsInstanceUrl = .ok c') :
    c' = { c with kmsInstanceUrl := if c.kmsInstanceUrl.isEmpty then kmsInstanceUrl else c.kmsInstanceUrl } := by
  unfold withInstanceUrl at h
  by_cases hc : c.kmsInstanceUrl.isEmpty
  · by_cases hi : kmsInstanceUrl.isEmpty
    · rw [if_pos hc, if_pos hi] at h; cases h
    · rw [if_pos hc, if_neg hi] at h; cases h; rw [if_pos hc]; rfl
  · rw [if_neg hc] at h; cases h; rw [if_neg hc]

theorem withInstanceUrl_error {c : KmsConnectionConfig} {kmsInstanceUrl : String} {e : ParquetError}
    (h : withInstanceUrl c kmsInstanceUrl = .error e) : kmsInstanceUrl.isEmpty = true := by
  unfold withInstanceUrl at h
  by_cases hi : kmsInstanceUrl.isEmpty
  · exact hi
  · rw [if_neg hi] at h; split at h <;> cases h

/-- A configuration that has an ID and a URL is left alone. -/
theorem updateKmsConfig_set {w : World} (hid : ¬ (w.configs u.kmsConnectionConfig).kmsInstanceId.isEmpty)
    (hurl : ¬ (w.configs u.kmsConnectionConfig).kmsInstanceUrl.isEmpty) : updateKmsConfig u m w = (.ok (), w) := by
  unfold updateKmsConfig
  cases hi : m.kmsInstanceId with
  | none => rfl
  | some kmsInstanceId =>
    cases hu : m.kmsInstanceUrl with
    | none => rfl
    | some kmsInstanceUrl =>
      show updateKmsConfigFromFooterMetadata u kmsInstanceId kmsInstanceUrl w = _
      unfold updateKmsConfigFromFooterMetadata
      rw [bind_ok (read_run _ _)]
      exact congrFun (if_pos ⟨hid, hurl⟩) w

theorem updateKmsConfig_along (w : World) :
    Along (ReaderMove env u m w0) (updateKmsConfig u m) w
      (fun _ w' => w'.configs u.kmsConnectionConfig = m.resolve (w.configs u.kmsConnectionConfig) ∧
        w'.readCaches = w.readCaches ∧ w'.log = w.log)
      (fun _ _ => Unresolved m) (fun _ => False) := by
  unfold updateKmsConfig KeyMaterial.resolve
  cases hi : m.kmsInstanceId with
  | none => exact Along.pure ⟨rfl, rfl, rfl⟩
  | some kmsInstanceId =>
    cases hu : m.kmsInstanceUrl with
    | none => exact Along.pure ⟨rfl, rfl, rfl⟩
    | some kmsInstanceUrl =>
      unfold updateKmsConfigFromFooterMetadata
      refine Along.bind (Along.read (p := fun c w' => c = w.configs u.kmsConnectionConfig ∧ w' = w) ⟨rfl, rfl⟩)
        fun c w1 _ h1 => ?_
      obtain ⟨rfl, rfl⟩ := h1
      by_cases hset : ¬ (w1.configs u.kmsConnectionConfig).kmsInstanceId.isEmpty ∧
          ¬ (w1.configs u.kmsConnectionConfig).kmsInstanceUrl.isEmpty
      · rw [if_pos hset]
        exact Along.pure ⟨by simp only [if_neg hset.1, if_neg hset.2], rfl, rfl⟩
      · rw [if_neg hset]
        refine Along.bind (Along.ofExcept (p := fun c w' =>
            withInstanceId (w1.configs u.kmsConnectionConfig) kmsInstanceId = .ok c ∧ w' = w1)
          (fun _ h => ⟨h, rfl⟩) fun _ h => ⟨_, _, hi, hu, Or.inl (withInstanceId_error h)⟩) fun c w2 _ h2 => ?_
        obtain ⟨hc, rfl⟩ := h2
        refine Along.bind (Along.modify (p := fun _ w' => w' = (configPlace u.kmsConnectionConfig).set c w2)
          (.fillId w2 kmsInstanceId c hi hc) rfl) fun _ w3 _ h3 => ?_
        subst h3
        have hslot : ((configPlace u.kmsConnectionConfig).set c w2).configs u.kmsConnectionConfig = c :=
          Function.update_self ..
        refine Along.bind (Along.ofExcept (p := fun c' w' => withInstanceUrl c kmsInstanceUrl = .ok c' ∧
            w' = (configPlace u.kmsConnectionConfig).set c w2) (fun _ h => ⟨h, rfl⟩)
          fun _ h => ⟨_, _, hi, hu, Or.inr (withInstanceUrl_error h)⟩) fun c' w4 _ h4 => ?_
        obtain ⟨hc', rfl⟩ := h4
        refine Along.modify (.fillUrl _ kmsInstanceUrl c' hu (by rw [hslot]; exact hc')) ⟨?_, rfl, rfl⟩
        have hslot' :
          ((configPlace u.kmsConnectionConfig).set c' ((configPlace u.kmsConnectionConfig).set c w2)).configs
            u.kmsConnectionConfig = c' := Function.update_self ..
        rw [hslot', withInstanceUrl_ok hc', withInstanceId_ok hc]

/-- An updated configuration is the resolved one. -/
theorem updateKmsConfig_resolved (env : Env) {w : World} (h : updateKmsConfig u m w0 = (.ok (), w)) :
    w.configs u.kmsConnectionConfig = m.resolve (w0.configs u.kmsConnectionConfig) ∧
      w.readCaches = w0.readCaches ∧ w.log = w0.log := by
  have halong : Along (ReaderMove env u m w0) (updateKmsConfig u m) w0 _ _ _ := updateKmsConfig_along env u m w0
  exact halong.run_ok h

/-! ## Asking the KMS -/

/-- The registry's moves put no KEK into a cache. -/
theorem keks_none {config : KmsConnectionConfig} {lifetime : Option Duration} {w w' : World}
    (path : Relation.ReflTransGen (ManagerMove u.kmsManager config lifetime) w w') {kekId : String}
    (h : (u.keks.get w).lookup kekId = none) : (u.keks.get w').lookup kekId = none := by
  refine path_keeps (I := fun v => (u.keks.get v).lookup kekId = none) (fun a b ha hm => ?_) path h
  show (b.readCaches u.kekCache).data.lookup kekId = none
  rcases hm.readCaches_eq u.kekCache with he | he
  · rw [he]; exact ha
  · rw [he]; exact AList.lookup_empty _

/-- The client factory failed, or the KMS did when it was asked for this key, in a call of user
    code after the first `n`. -/
def KmsFailed (wrapped masterKeyId : String) (n : Nat) (w : World) : Prop :=
  w.FailedSince n ∧ ((∃ i details e, env.createClient i details = .error e) ∨
    ∃ i client e, env.unwrapKey i client wrapped masterKeyId = .error e)

/-- A key asked for while no KEK is stored under `kekId`. -/
theorem unwrapWithKms_along {n : Nat} {w : World} (hn : n ≤ w.log.length)
    (hc : w.configs u.kmsConnectionConfig = m.resolve (w0.configs u.kmsConnectionConfig))
    (wrapped masterKeyId : String) :
    Along (ReaderMove env u m w0) (unwrapWithKms env u wrapped masterKeyId) w
      (fun key w' => Unwrapped env u.kmsManager (w'.configs u.kmsConnectionConfig) wrapped masterKeyId key w' ∧
        (∀ kekId, (u.keks.get w).lookup kekId = none → (u.keks.get w').lookup kekId = none) ∧
        ∃ client w2, KmsManager.getClient env u.kmsManager (w.configs u.kmsConnectionConfig)
            u.decryptionConfiguration.cacheLifetime w = (.ok client, w2) ∧
          env.unwrapKey w2.calls client wrapped masterKeyId = .ok key)
      (fun _ w' => KmsFailed env wrapped masterKeyId n w') (World.ManagerPoisoned · u.kmsManager) := by
  unfold unwrapWithKms
  refine Along.bind (Along.read (p := fun c w' => c = w'.configs u.kmsConnectionConfig ∧ w' = w) ⟨rfl, rfl⟩)
    fun config w1 _ h1 => ?_
  obtain ⟨rfl, rfl⟩ := h1
  have hget := (KmsManager.getClient_along env u.kmsManager (w1.configs u.kmsConnectionConfig)
    u.decryptionConfiguration.cacheLifetime hn).with_path.with_run
  -- the configuration stays in its slot while the registry is asked
  have hkeep : ∀ a b : World, a.configs = w1.configs →
      ManagerMove u.kmsManager (w1.configs u.kmsConnectionConfig) u.decryptionConfiguration.cacheLifetime a b →
      b.configs = w1.configs := fun a b ha hm => hm.kept.2.1.trans ha
  refine ((hget.lift_keeps (I := fun v => v.configs = w1.configs) rfl hkeep fun a b ha hm =>
    .manager (by rw [ha]; exact hc) (by rw [ha]; exact hm)).mono (fun _ _ h => h) (fun _ _ h => ⟨h.1, Or.inl h.2⟩)
      fun _ h => h).bind fun client w2 _ h2 => ?_
  have hconf : w2.configs = w1.configs :=
    path_keeps (I := fun v => v.configs = w1.configs) (fun a b ha hm => hkeep a b ha hm) h2.1.2 rfl
  have hheld : HeldClient u.kmsManager (w2.configs u.kmsConnectionConfig) client w2 := by rw [hconf]; exact h2.1.1
  have hn2 : n ≤ w2.log.length := hn.trans (World.Grows.of_path (fun _ _ h => ManagerMove.grows h) h2.1.2).log.length_le
  have path := Relation.ReflTransGen.single
    (ReaderMove.unwrap w2 client wrapped masterKeyId hheld : ReaderMove env u m w0 w2 _)
  cases hr : env.unwrapKey w2.calls client wrapped masterKeyId with
  | ok key =>
    rw [hr] at path
    refine Along.of_ok (a := key) ?_ path
      ⟨⟨client, hheld.record _, List.mem_append_right _ (List.mem_singleton.mpr rfl), _, hr⟩,
        fun kekId h => keks_none u h2.1.2 h, client, w2, h2.2, hr⟩
    simp only [unwrapKey, hr]
  | error e =>
    rw [hr] at path
    refine Along.of_err (e := e) ?_ path ⟨w2.failedSince_record hn2 rfl, Or.inr ⟨_, _, e, hr⟩⟩
    simp only [unwrapKey, hr]

/-! ## Key encryption keys -/

/-- The KEK is in the read cache under its id. -/
def HoldsKek (kekId : String) (kek : Bytes) (w : World) : Prop := (u.keks.get w).lookup kekId = some kek

theorem getKek_along {n : Nat} {w : World} (hn : n ≤ w.log.length) (hupdate : updateKmsConfig u m w0 = (.ok (), w))
    (hintact : (w.readCaches u.kekCache).poisoned = false) {kekId wrappedKek : String}
    (hd : m.doubleWrapping = true) (hk : m.keyEncryptionKeyId = some kekId) (hw : m.wrappedKek = some wrappedKek) :
    Along (ReaderMove env u m w0) (getKek env u m.masterKeyId kekId wrappedKek) w
      (HoldsKek u kekId) (fun _ w' => KmsFailed env wrappedKek m.masterKeyId n w')
      (World.ManagerPoisoned · u.kmsManager) := by
  obtain ⟨hc, h0, _⟩ := updateKmsConfig_resolved u m env hupdate
  unfold getKek
  refine Along.bind (Along.read (p := fun c w' => c = u.keks.get w' ∧ w' = w) ⟨rfl, rfl⟩) fun cache w1 _ h1 => ?_
  obtain ⟨rfl, rfl⟩ := h1
  cases hl : (u.keks.get w1).lookup kekId with
  | some kek => exact Along.pure hl
  | none =>
    have hstart : (u.keks.get w0).lookup kekId = none := by
      show (w0.readCaches u.kekCache).data.lookup kekId = none
      rw [← h0]
      exact hl
    refine (unwrapWithKms_along env u m hn hc wrappedKek m.masterKeyId).bind fun kek w2 _ h2 => ?_
    obtain ⟨hun, hnone, client, w3, hget, hkms⟩ := h2
    refine Along.bind (p := fun _ => HoldsKek u kekId kek)
      (Along.modify (.storeKek w2 kekId wrappedKek kek hk hw hd hstart (hnone kekId hl) hun (h0 ▸ hintact)
        ⟨w1, client, w3, hupdate, hget, hkms⟩) ?_)
      fun _ w3 _ h3 => Along.pure h3
    rw [HoldsKek, Place.get_modify, AList.lookup_insert]

/-! ## Retrieving -/

/-- What a key retrieved from `m` is. -/
inductive Retrieved (dek : Bytes) (w : World) : Prop
  | single : m.doubleWrapping = false →
    Unwrapped env u.kmsManager (w.configs u.kmsConnectionConfig) m.wrappedDek m.masterKeyId dek w → Retrieved dek w
  | double (kekId : String) (kek decoded : Bytes) : m.doubleWrapping = true → m.keyEncryptionKeyId = some kekId →
    HoldsKek u kekId kek w → Base64.decode kekId = some decoded →
    decryptEncryptionKey env m.wrappedDek decoded kek = .ok dek → Retrieved dek w

/-- What the KMS is asked to unwrap. -/
def kmsWrapped : Option String := if m.doubleWrapping then m.wrappedKek else some m.wrappedDek

/-- Why no DEK is unwrapped from `m`: the KMS or the client factory failed, or the material does
    not do. -/
inductive Refused (n : Nat) (w : World) : Prop
  | kms (wrapped : String) : kmsWrapped m = some wrapped → KmsFailed env wrapped m.masterKeyId n w → Refused n w
  | noKek : m.doubleWrapping = true → m.keyEncryptionKeyId = none ∨ m.wrappedKek = none → Refused n w
  | kekId (kekId : String) : m.doubleWrapping = true → m.keyEncryptionKeyId = some kekId →
    Base64.decode kekId = none → Refused n w
  | dek (kekId : String) (kek decoded : Bytes) (e : ParquetError) : m.doubleWrapping = true →
    m.keyEncryptionKeyId = some kekId → HoldsKek u kekId kek w → Base64.decode kekId = some decoded →
    decryptEncryptionKey env m.wrappedDek decoded kek = .err e → Refused n w

theorem decodeKekId_ok {kekId : String} {decoded : Bytes} (h : decodeKekId env kekId = .ok decoded) :
    Base64.decode kekId = some decoded := by
  unfold decodeKekId at h
  split at h
  · cases h; assumption
  · cases h

theorem unwrapDouble_along {n : Nat} {w : World} (hn : n ≤ w.log.length)
    (hupdate : updateKmsConfig u m w0 = (.ok (), w)) {kekId wrappedKek : String}
    (hd : m.doubleWrapping = true) (hk : m.keyEncryptionKeyId = some kekId) (hw : m.wrappedKek = some wrappedKek) :
    Along (ReaderMove env u m w0) (unwrapDoubleWrappedKey env u m.wrappedDek m.masterKeyId kekId wrappedKek) w
      (Retrieved env u m) (fun _ w' => Refused env u m n w') World.Poisoned := by
  refine Along.lock (fun _ => True) (fun h => Or.inr (Or.inl ⟨_, h⟩)) (fun hintact => ?_)
    fun w' _ _ => ⟨.poison w', Or.inr (Or.inl ⟨_, poisoned_poison (readCachePlace u.kekCache) w'⟩)⟩
  have hasked : kmsWrapped m = some wrappedKek := by rw [kmsWrapped, if_pos hd, hw]
  refine ((getKek_along env u m hn hupdate hintact hd hk hw).mono (fun _ _ h => h) (fun _ _ h => Refused.kms _ hasked h)
    fun _ _ => trivial).bind fun kek w1 _ h1 => ?_
  refine Along.bind (Along.ofExcept (p := fun d w' => Base64.decode kekId = some d ∧ w' = w1)
    (fun d hdec => ⟨?_, rfl⟩) fun e he => .kekId kekId hd hk ?_) fun decoded w2 _ h2 => ?_
  · exact decodeKekId_ok env hdec
  · unfold decodeKekId at he
    split at he
    · cases he
    · assumption
  · obtain ⟨hdec, rfl⟩ := h2
    cases hr : decryptEncryptionKey env m.wrappedDek decoded kek with
    | ok dek => exact Along.of_ok (by rw [ofOutcome_run]) .refl (.double kekId kek decoded hd hk h1 hdec hr)
    | err e => exact Along.of_err (by rw [ofOutcome_run]) .refl (.dek kekId kek decoded e hd hk h1 hdec hr)
    | panic => exact Along.of_panic (by rw [ofOutcome_run]) .refl trivial

theorem unwrapDek_along {n : Nat} {w : World} (hn : n ≤ w.log.length)
    (hupdate : updateKmsConfig u m w0 = (.ok (), w)) :
    Along (ReaderMove env u m w0) (unwrapDek env u m) w (Retrieved env u m) (fun _ w' => Refused env u m n w')
      World.Poisoned := by
  unfold unwrapDek
  cases hd : m.doubleWrapping with
  | false =>
    have hasked : kmsWrapped m = some m.wrappedDek := by rw [kmsWrapped, if_neg (by simp [hd])]
    obtain ⟨hc, _⟩ := updateKmsConfig_resolved u m env hupdate
    exact (unwrapWithKms_along env u m hn hc m.wrappedDek m.masterKeyId).mono (fun dek w' h => .single hd h.1)
      (fun _ _ h => .kms _ hasked h) fun _ h => Or.inl ⟨_, h⟩
  | true =>
    cases hk : m.keyEncryptionKeyId with
    | none => exact Along.fail (.noKek hd (Or.inl hk))
    | some kekId =>
      cases hw : m.wrappedKek with
      | none => exact Along.fail (.noKek hd (Or.inr hw))
      | some wrappedKek => exact unwrapDouble_along env u m hn hupdate hd hk hw

theorem retrieveKey_eq {keyMetadata : Bytes} (hm : readMaterial env keyMetadata = .ok m)
    (hi : m.internalStorage = true) :
    retrieveKey env u keyMetadata = (do updateKmsConfig u m; unwrapDek env u m) := by
  funext w
  unfold retrieveKey
  rw [hm, bind_ok (ofExcept_ok _ _), if_neg (not_not.mpr hi)]

/-- Retrieving a key from metadata that reads as `m`, kept inside the file. -/
theorem retrieveKey_along {keyMetadata : Bytes} (hm : readMaterial env keyMetadata = .ok m)
    (hi : m.internalStorage = true) (w : World) :
    Along (ReaderMove env u m w) (retrieveKey env u keyMetadata) w (Retrieved env u m)
      (fun _ w' => Unresolved m ∨ Refused env u m w.log.length w') World.Poisoned := by
  rw [retrieveKey_eq env u m hm hi]
  refine ((updateKmsConfig_along env u m w).with_run.mono (fun _ _ h => h) (fun _ _ h => Or.inl h)
    fun _ h => h.elim).bind fun _ w1 _ h1 => ?_
  obtain ⟨⟨_, _, hlog⟩, hupdate⟩ := h1
  exact (unwrapDek_along env u m (by rw [hlog]) hupdate).mono (fun _ _ h => h) (fun _ _ h => Or.inr h)
    fun _ h => h

/-- Other metadata is refused outright. -/
theorem retrieveKey_refused {keyMetadata : Bytes} (w : World)
    (h : ∀ m, readMaterial env keyMetadata = .ok m → m.internalStorage = false) :
    ∃ e, retrieveKey env u keyMetadata w = (.err e, w) := by
  unfold retrieveKey
  cases hm : readMaterial env keyMetadata with
  | error e => exact ⟨e, rfl⟩
  | ok m =>
    refine ⟨.nyi "Decryption using external key material is not yet implemented", ?_⟩
    show (if ¬ m.internalStorage = true then _ else _ : Call Bytes) w = _
    rw [if_pos (by simp [h m hm])]
    rfl

end KeyUnwrapper

end ParquetKeyManagement
