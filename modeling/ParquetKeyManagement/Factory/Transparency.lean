/-
  ParquetKeyManagement.Factory.Transparency — when a shared KEK read cache cannot be noticed.

  A hit in the read cache looks at nothing but the KEK id: the metadata's own wrapped KEK is
  not unwrapped. Ids are meant to be globally unique, and as long as metadata with the same id
  stands for the same KEK (`Consistent`), a reader retrieves from a cache that earlier metadata
  filled what it would retrieve from an empty one (`read_cache_transparent`). Metadata that
  breaks this is read with another file's KEK, although the KMS rejects its own
  (`read_cache_not_transparent`).
-/

import ParquetKeyManagement.Factory.Panics

namespace ParquetKeyManagement

open Effect

variable (env : Env) (unwrap : String → String → Except ParquetError Bytes)

/-- Every client implements one pure function, and creating one succeeds. -/
structure Env.Implements (env : Env) (unwrap : String → String → Except ParquetError Bytes) : Prop where
  creates : ∀ i details, env.createClient i details = .ok ()
  unwraps : ∀ i client wrapped masterKeyId, env.unwrapKey i client wrapped masterKeyId = unwrap wrapped masterKeyId

/-- The material claims that the KEK with this id is `kek`: its own wrapped KEK unwraps to it. -/
def KeyMaterial.Claims (m : KeyMaterial) (kekId : String) (kek : Bytes) : Prop :=
  m.doubleWrapping = true ∧ m.keyEncryptionKeyId = some kekId ∧
    ∃ wrappedKek, m.wrappedKek = some wrappedKek ∧ unwrap wrappedKek m.masterKeyId = .ok kek

/-- `m` claims the KEK that `m'` does, if it has the same KEK id. -/
def Consistent (m' m : KeyMaterial) : Prop :=
  ∀ kekId kek, m'.Claims unwrap kekId kek → m.doubleWrapping = true → m.keyEncryptionKeyId = some kekId →
    m.Claims unwrap kekId kek

/-- The DEK that `m` stands for, no cache considered. -/
inductive DekOf (m : KeyMaterial) (dek : Bytes) : Prop
  | single : m.doubleWrapping = false → unwrap m.wrappedDek m.masterKeyId = .ok dek → DekOf m dek
  | double (kekId : String) (kek decoded : Bytes) : m.Claims unwrap kekId kek → Base64.decode kekId = some decoded →
    decryptEncryptionKey env m.wrappedDek decoded kek = .ok dek → DekOf m dek

/-- What is cached under the id of `m` is the KEK that `m` claims. -/
def CacheAgrees (u : KeyUnwrapper) (m : KeyMaterial) (w : World) : Prop :=
  ∀ kekId kek, (u.keks.get w).lookup kekId = some kek → m.doubleWrapping = true → m.keyEncryptionKeyId = some kekId →
    m.Claims unwrap kekId kek

section

variable {env unwrap} {m : KeyMaterial} {u : KeyUnwrapper} {w w' : World}

theorem KeyMaterial.Claims.eq {kekId kekId' : String} {kek kek' : Bytes} (h : m.Claims unwrap kekId kek)
    (h' : m.Claims unwrap kekId' kek') : kekId = kekId' ∧ kek = kek' := by
  obtain ⟨_, hk, wrapped, hw, hu⟩ := h
  obtain ⟨_, hk', wrapped', hw', hu'⟩ := h'
  rw [hk] at hk'
  rw [hw] at hw'
  cases hk'
  cases hw'
  rw [hu] at hu'
  cases hu'
  exact ⟨rfl, rfl⟩

theorem DekOf.of_doubleWrapping {dek : Bytes} (h : DekOf env unwrap m dek) (hd : m.doubleWrapping = true) :
    ∃ kekId kek decoded, m.Claims unwrap kekId kek ∧ Base64.decode kekId = some decoded ∧
      decryptEncryptionKey env m.wrappedDek decoded kek = .ok dek := by
  cases h with
  | single hd' _ => rw [hd] at hd'; cases hd'
  | double kekId kek decoded hc hdec hdek => exact ⟨kekId, kek, decoded, hc, hdec, hdek⟩

theorem DekOf.eq {dek dek' : Bytes} (h : DekOf env unwrap m dek) (h' : DekOf env unwrap m dek') : dek = dek' := by
  cases h with
  | single hd hu =>
    cases h' with
    | single _ hu' => rw [hu] at hu'; cases hu'; rfl
    | double kekId kek decoded hc _ _ => rw [hc.1] at hd; cases hd
  | double kekId kek decoded hc hdec hdek =>
    obtain ⟨kekId', kek', decoded', hc', hdec', hdek'⟩ := h'.of_doubleWrapping hc.1
    obtain ⟨rfl, rfl⟩ := hc.eq hc'
    rw [hdec] at hdec'
    cases hdec'
    rw [hdek] at hdek'
    cases hdek'
    rfl

/-! ## One retrieval -/

theorem StoredKek.claims (himpl : env.Implements unwrap) {kekId : String} {kek : Bytes} {ws : World}
    (h : StoredKek env u m kekId kek ws w) : m.Claims unwrap kekId kek := by
  obtain ⟨wrappedKek, hw, _, _, _, i, hi⟩ := h.unwrapped
  rw [himpl.unwraps] at hi
  exact ⟨h.doubleWrapping, h.keyEncryptionKeyId, wrappedKek, hw, hi⟩

theorem ReaderMove.cacheAgrees (himpl : env.Implements unwrap) {ws : World} (hm : ReaderMove env u m ws w w')
    (h : CacheAgrees unwrap u m w) : CacheAgrees unwrap u m w' := by
  intro kekId kek hl hd hk
  rcases hm.readKeks_lookup hl with h1 | ⟨_, hstored⟩
  · exact h kekId kek h1 hd hk
  · exact hstored.claims himpl

theorem KeyUnwrapper.Retrieved.dekOf (himpl : env.Implements unwrap) (h : CacheAgrees unwrap u m w) {dek : Bytes}
    (hr : u.Retrieved env m dek w) : DekOf env unwrap m dek := by
  cases hr with
  | single hd hun =>
    obtain ⟨_, _, _, i, hi⟩ := hun
    rw [himpl.unwraps] at hi
    exact .single hd hi
  | double kekId kek decoded hd hk hholds hdec hdek =>
    exact .double kekId kek decoded (h kekId kek hholds hd hk) hdec hdek

/-- Material that stands for a DEK is not refused. -/
theorem DekOf.not_refused (himpl : env.Implements unwrap) (h : CacheAgrees unwrap u m w) {dek : Bytes}
    (hdek : DekOf env unwrap m dek) {n : Nat} : ¬ u.Refused env m n w := by
  intro hr
  cases hr with
  | kms wrapped hw hfailed =>
    rcases hfailed.2 with ⟨i, details, e, he⟩ | ⟨i, client, e, he⟩
    · rw [himpl.creates] at he; cases he
    · rw [himpl.unwraps] at he
      unfold KeyUnwrapper.kmsWrapped at hw
      cases hdek with
      | single hd hu =>
        rw [if_neg (by simp [hd])] at hw
        cases hw
        rw [hu] at he
        cases he
      | double kekId kek decoded hc _ _ =>
        obtain ⟨hd, _, wrapped', hw', hu⟩ := hc
        rw [if_pos hd, hw'] at hw
        cases hw
        rw [hu] at he
        cases he
  | noKek hd hnone =>
    obtain ⟨kekId, kek, decoded, hc, _, _⟩ := hdek.of_doubleWrapping hd
    obtain ⟨_, hk, wrapped, hw, _⟩ := hc
    rcases hnone with hn | hn
    · rw [hk] at hn; cases hn
    · rw [hw] at hn; cases hn
  | kekId kekId hd hk hdec =>
    obtain ⟨kekId', kek, decoded, hc, hdec', _⟩ := hdek.of_doubleWrapping hd
    obtain rfl : kekId' = kekId := Option.some.inj (hc.2.1.symm.trans hk)
    rw [hdec] at hdec'
    cases hdec'
  | dek kekId kek decoded e hd hk hholds hdec hdek' =>
    obtain ⟨kekId', kek', decoded', hc, hdec', hdek''⟩ := hdek.of_doubleWrapping hd
    obtain ⟨rfl, rfl⟩ := hc.eq (h kekId kek hholds hd hk)
    rw [hdec] at hdec'
    cases hdec'
    rw [hdek'] at hdek''
    cases hdek''

/-- Filling in the connection configuration looks at the configuration only. -/
theorem updateKmsConfig_congr (h : w'.configs u.kmsConnectionConfig = w.configs u.kmsConnectionConfig) :
    (u.updateKmsConfig m w').1 = (u.updateKmsConfig m w).1 := by
  unfold KeyUnwrapper.updateKmsConfig
  cases m.kmsInstanceId with
  | none => rfl
  | some kmsInstanceId =>
    cases m.kmsInstanceUrl with
    | none => rfl
    | some kmsInstanceUrl =>
      simp only
      unfold KeyUnwrapper.updateKmsConfigFromFooterMetadata
      have hc : (configPlace u.kmsConnectionConfig).get w' = (configPlace u.kmsConnectionConfig).get w := h
      rw [bind_ok (read_run _ _), bind_ok (read_run _ _), hc]
      by_cases hset : ¬ ((configPlace u.kmsConnectionConfig).get w).kmsInstanceId.isEmpty ∧
          ¬ ((configPlace u.kmsConnectionConfig).get w).kmsInstanceUrl.isEmpty
      · rw [if_pos hset]
        rfl
      · rw [if_neg hset]
        cases KeyUnwrapper.withInstanceId ((configPlace u.kmsConnectionConfig).get w) kmsInstanceId with
        | error e => rfl
        | ok withId =>
          rw [bind_ok (ofExcept_ok _ _), bind_ok (ofExcept_ok _ _), bind_ok (modify_run _ _), bind_ok (modify_run _ _)]
          cases KeyUnwrapper.withInstanceUrl withId kmsInstanceUrl with
          | error e => rfl
          | ok withUrl => rfl

/-- What a retrieval answers, if it does not panic: the DEK the material stands for. -/
theorem retrieveKey_ok_iff (himpl : env.Implements unwrap) (h : CacheAgrees unwrap u m w) {keyMetadata : Bytes}
    (hread : KeyUnwrapper.readMaterial env keyMetadata = .ok m) (hi : m.internalStorage = true)
    (hp : (u.retrieveKey env keyMetadata w).1 ≠ .panic) (dek : Bytes) :
    (u.retrieveKey env keyMetadata w).1 = .ok dek ↔
      (u.updateKmsConfig m w).1 = .ok () ∧ DekOf env unwrap m dek := by
  have halong := KeyUnwrapper.retrieveKey_along env u m hread hi w
  have hagrees : ∀ v, Relation.ReflTransGen (ReaderMove env u m w) w v → CacheAgrees unwrap u m v :=
    fun v hv => path_keeps (fun _ _ ha hm => hm.cacheAgrees himpl ha) hv h
  constructor
  · intro hok
    refine ⟨?_, (halong.ok dek hok).dekOf himpl (hagrees _ halong.path)⟩
    rw [KeyUnwrapper.retrieveKey_eq env u m hread hi] at hok
    obtain ⟨a, w1, hupdate, _⟩ := bind_eq_ok (Prod.ext hok rfl : _ = (Outcome.ok dek, _))
    rw [hupdate]
  · intro hboth
    obtain ⟨hupdate, hdek⟩ := hboth
    rcases hr : (u.retrieveKey env keyMetadata w).1 with dek' | e | _
    · have hdek' := (halong.ok dek' hr).dekOf himpl (hagrees _ halong.path)
      rw [hdek.eq hdek']
    · exfalso
      rw [KeyUnwrapper.retrieveKey_eq env u m hread hi] at hr halong
      have hu : Along (ReaderMove env u m w) _ w _ _ _ := KeyUnwrapper.updateKmsConfig_along env u m w
      rcases bind_inv (Prod.ext hr rfl : _ = (Outcome.err e, _)) with ⟨a, w1, h1, h2⟩ | ⟨e', h1, _⟩ | ⟨_, h1⟩
      · have hpost := hu.run_ok h1
        have hrefused := (KeyUnwrapper.unwrapDek_along env u m (by rw [hpost.2.2]) h1).run_err h2
        exact hdek.not_refused himpl (hagrees _ halong.path) hrefused
      · rw [h1] at hupdate; cases hupdate
      · cases h1
    · exact absurd hr hp

end

/-! ## A shared cache -/

/-- What the metadata is read as, if it is. -/
def materials (keyMetadata : Bytes) : List KeyMaterial :=
  match KeyUnwrapper.readMaterial env keyMetadata with
  | .ok m => [m]
  | .error _ => []

/-- The read cache `a` since it was empty, and the material of the keys that were retrieved
    through it. Nothing but retrieving writes to a read cache. -/
inductive SharedRun (a : KekReadCache) : List KeyMaterial → World → Prop
  | start (w : World) : (w.readCaches a).data = ∅ → SharedRun a [] w
  | other {ms : List KeyMaterial} {w : World} (w' : World) : SharedRun a ms w → w'.readCaches a = w.readCaches a →
    SharedRun a ms w'
  | retrieve {ms : List KeyMaterial} {w : World} (u : KeyUnwrapper) (keyMetadata : Bytes) : SharedRun a ms w →
    u.kekCache = a → SharedRun a (ms ++ materials env keyMetadata) (u.retrieveKey env keyMetadata w).2

/-- The same state with the read cache `a` empty. -/
def World.emptied (w : World) (a : KekReadCache) : World := (readCachePlace a).set (.new ∅) w

section

variable {env unwrap} {a : KekReadCache} {ms : List KeyMaterial} {w w' : World} {u : KeyUnwrapper}

theorem ReaderMove.claimed (himpl : env.Implements unwrap) {m : KeyMaterial} {ws : World}
    (hm : ReaderMove env u m ws w w') {P : String → Bytes → Prop}
    (hP : ∀ kekId kek, m.Claims unwrap kekId kek → P kekId kek)
    (h : ∀ kekId kek, (w.readCaches a).data.lookup kekId = some kek → P kekId kek) :
    ∀ kekId kek, (w'.readCaches a).data.lookup kekId = some kek → P kekId kek := by
  intro kekId kek hl
  rcases hm.readKeks_lookup hl with h1 | ⟨_, hstored⟩
  · exact h kekId kek h1
  · exact hP kekId kek (hstored.claims himpl)

/-- Every cached KEK is what some material seen before claims. -/
theorem SharedRun.claimed (himpl : env.Implements unwrap) (h : SharedRun env a ms w) {kekId : String} {kek : Bytes}
    (hl : (w.readCaches a).data.lookup kekId = some kek) : ∃ m ∈ ms, m.Claims unwrap kekId kek := by
  induction h generalizing kekId kek with
  | start w hempty =>
    rw [hempty] at hl
    cases hl
  | other w' _ hsame ih =>
    rw [hsame] at hl
    exact ih hl
  | @retrieve ms w u keyMetadata hrun hu ih =>
    have hold : ∀ kekId kek, (w.readCaches a).data.lookup kekId = some kek →
        ∃ m ∈ ms ++ materials env keyMetadata, m.Claims unwrap kekId kek := fun kekId kek hl =>
      let ⟨m, hm, hc⟩ := ih hl
      ⟨m, List.mem_append_left _ hm, hc⟩
    by_cases hi : ∃ m, KeyUnwrapper.readMaterial env keyMetadata = .ok m ∧ m.internalStorage = true
    · obtain ⟨m, hread, hi⟩ := hi
      have hmem : m ∈ ms ++ materials env keyMetadata := by
        refine List.mem_append_right _ ?_
        unfold materials
        rw [hread]
        exact List.mem_singleton.mpr rfl
      exact path_keeps (I := fun v => ∀ kekId kek, (v.readCaches a).data.lookup kekId = some kek →
          ∃ m ∈ ms ++ materials env keyMetadata, m.Claims unwrap kekId kek)
        (fun _ _ hk hm => hm.claimed himpl (fun _ _ hc => ⟨m, hmem, hc⟩) hk)
        (KeyUnwrapper.retrieveKey_along env u m hread hi w).path hold kekId kek hl
    · have hrefused : ∀ m, KeyUnwrapper.readMaterial env keyMetadata = .ok m → m.internalStorage = false :=
        fun m hread => Bool.eq_false_iff.mpr fun hint => hi ⟨m, hread, hint⟩
      obtain ⟨e, he⟩ := u.retrieveKey_refused env w hrefused
      rw [he] at hl
      exact hold kekId kek hl

theorem SharedRun.cacheAgrees (himpl : env.Implements unwrap) (h : SharedRun env u.kekCache ms w) {m : KeyMaterial}
    (hcons : ∀ m' ∈ ms, Consistent unwrap m' m) : CacheAgrees unwrap u m w := by
  intro kekId kek hl hd hk
  obtain ⟨m', hm', hclaims⟩ := h.claimed himpl hl
  exact hcons m' hm' kekId kek hclaims hd hk

theorem cacheAgrees_emptied (m : KeyMaterial) : CacheAgrees unwrap u m (w.emptied u.kekCache) := by
  intro kekId kek hl
  change (Function.update w.readCaches u.kekCache (.new ∅) u.kekCache).data.lookup kekId = some kek at hl
  rw [Function.update_self] at hl
  cases hl

end

theorem intact_emptied {w : World} (h : Intact w) (a : KekReadCache) : Intact (w.emptied a) := by
  rintro (hm | ⟨b, hb⟩ | hw)
  · exact h (Or.inl hm)
  · change (Function.update w.readCaches a (.new ∅) b).poisoned = true at hb
    by_cases hab : b = a
    · rw [hab, Function.update_self] at hb
      cases hb
    · rw [Function.update_of_ne hab] at hb
      exact h (Or.inr (Or.inl ⟨b, hb⟩))
  · exact h (Or.inr (Or.inr hw))

/-- Retrieving a key through a shared cache, which held nothing but what consistent metadata put
    there, gives the DEK or the error that an empty cache gives: the KEK is the one the
    metadata's own wrapped KEK unwraps to. What is left out is a call, through either cache, whose
    lifetime overflows or whose wrapped DEK is too short for its nonce. -/
theorem read_cache_transparent (himpl : env.Implements unwrap) {ms : List KeyMaterial} {w : World} {u : KeyUnwrapper}
    (hrun : SharedRun env u.kekCache ms w) {keyMetadata : Bytes}
    (hcons : ∀ m ∈ materials env keyMetadata, ∀ m' ∈ ms, Consistent unwrap m' m) (hw : Intact w)
    (hshared : ¬ u.Overflows env keyMetadata w ∧ ¬ u.ShortDek env keyMetadata w)
    (hempty : ¬ u.Overflows env keyMetadata (w.emptied u.kekCache) ∧
      ¬ u.ShortDek env keyMetadata (w.emptied u.kekCache))
    (dek : Bytes) :
    ((u.retrieveKey env keyMetadata w).1 = .ok dek ↔
      (u.retrieveKey env keyMetadata (w.emptied u.kekCache)).1 = .ok dek) ∧
    ((u.retrieveKey env keyMetadata w).1 = .ok dek → ∃ m ∈ materials env keyMetadata, DekOf env unwrap m dek) := by
  have hp := mt (u.retrieveKey_panic_iff env keyMetadata hw).mp (not_or.mpr hshared)
  have hp' := mt (u.retrieveKey_panic_iff env keyMetadata (intact_emptied hw u.kekCache)).mp (not_or.mpr hempty)
  by_cases hi : ∃ m, KeyUnwrapper.readMaterial env keyMetadata = .ok m ∧ m.internalStorage = true
  · obtain ⟨m, hread, hi⟩ := hi
    have hmem : m ∈ materials env keyMetadata := by
      unfold materials
      rw [hread]
      exact List.mem_singleton.mpr rfl
    have hcached := retrieveKey_ok_iff himpl (hrun.cacheAgrees himpl (hcons m hmem)) hread hi hp dek
    have halone := retrieveKey_ok_iff himpl (cacheAgrees_emptied m) hread hi hp' dek
    have hupdate : (u.updateKmsConfig m (w.emptied u.kekCache)).1 = (u.updateKmsConfig m w).1 :=
      updateKmsConfig_congr rfl
    rw [hupdate] at halone
    exact ⟨hcached.trans halone.symm, fun hok => ⟨m, hmem, (hcached.mp hok).2⟩⟩
  · have hrefused : ∀ m, KeyUnwrapper.readMaterial env keyMetadata = .ok m → m.internalStorage = false :=
      fun m hread => Bool.eq_false_iff.mpr fun hint => hi ⟨m, hread, hint⟩
    obtain ⟨e, he⟩ := u.retrieveKey_refused env w hrefused
    obtain ⟨e', he'⟩ := u.retrieveKey_refused env (w.emptied u.kekCache) hrefused
    rw [he, he']
    refine ⟨iff_of_false ?_ ?_, ?_⟩
    · intro h; cases h
    · intro h; cases h
    · intro h; cases h

/-- A DEK under the KEK that `sampleMaterial` has. -/
def sampleSealed : String :=
  Base64.encode (counter 0 12 ++ counter 1 16 ++ checksumTag (counter 7 16) (counter 0 12) [] (counter 1 16))

/-- What the KMS of the sample surroundings unwraps. -/
def sampleUnwrap (wrappedKey _masterKeyId : String) : Except ParquetError Bytes :=
  match Base64.decode wrappedKey with
  | some keyBytes => .ok keyBytes
  | none => .error (.general "not a wrapped key")

theorem sample_implements : Env.sample.Implements sampleUnwrap := ⟨fun _ _ => rfl, fun _ _ _ _ => rfl⟩

theorem sampleReading_shared {keyMetadata : Bytes} {m : KeyMaterial}
    (hread : KeyUnwrapper.readMaterial Env.sample keyMetadata = .ok m) :
    SharedRun Env.sample 0 [m] (sampleUnwrapper.retrieveKey Env.sample keyMetadata sampleReading.world).2 := by
  have hrun : SharedRun Env.sample 0 ([] ++ materials Env.sample keyMetadata) _ :=
    (SharedRun.start sampleReading.world rfl).retrieve sampleUnwrapper keyMetadata rfl
  unfold materials at hrun
  rwa [hread] at hrun

/-- Retrieving the same key twice. -/
theorem read_cache_transparent_sample :
    ∃ keyMetadata, let w := (sampleUnwrapper.retrieveKey Env.sample keyMetadata sampleReading.world).2
      (w.readCaches 0).data.lookup "" = some (counter 7 kekLen) ∧
        (sampleUnwrapper.retrieveKey Env.sample keyMetadata w).1 = .ok (counter 1 16) ∧
        (sampleUnwrapper.retrieveKey Env.sample keyMetadata (w.emptied 0)).1 = .ok (counter 1 16) := by
  obtain ⟨keyMetadata, hread⟩ := KeyWrapper.exists_metadata Env.sample (m := sampleMaterial sampleSealed) rfl
  have hrun := KeyUnwrapper.retrieveKey_eq Env.sample sampleUnwrapper (sampleMaterial sampleSealed) hread rfl
  have hcons : ∀ m ∈ materials Env.sample keyMetadata, ∀ m' ∈ [sampleMaterial sampleSealed],
      Consistent sampleUnwrap m' m := by
    intro m hm m' hm' kekId kek hclaims _ _
    unfold materials at hm
    rw [hread] at hm
    rwa [List.mem_singleton.mp hm, ← List.mem_singleton.mp hm']
  have hcached : (sampleUnwrapper.retrieveKey Env.sample keyMetadata
      (sampleUnwrapper.retrieveKey Env.sample keyMetadata sampleReading.world).2).1 = .ok (counter 1 16) := by
    rw [hrun]
    decide +kernel
  have hintact := sampleUnwrapper.retrieveKey_quiet Env.sample keyMetadata sampleReading.world
    (reach_intact Env.sample sampleReading_reach) (Outcome.ne_panic (by rw [hrun]; decide +kernel))
  have hsound : ∀ w, Intact w → (sampleUnwrapper.retrieveKey Env.sample keyMetadata w).1.isOk = true →
      ¬ sampleUnwrapper.Overflows Env.sample keyMetadata w ∧ ¬ sampleUnwrapper.ShortDek Env.sample keyMetadata w :=
    fun w hw hok => not_or.mp (mt (sampleUnwrapper.retrieveKey_panic_iff Env.sample keyMetadata hw).mpr
      (Outcome.ne_panic hok))
  have halone := (read_cache_transparent Env.sample sampleUnwrap sample_implements (u := sampleUnwrapper)
    (sampleReading_shared hread) hcons hintact (hsound _ hintact (by rw [hcached]; rfl))
    (hsound _ (intact_emptied hintact 0) (by rw [hrun]; decide +kernel)) (counter 1 16)).1.mp hcached
  refine ⟨keyMetadata, ?_, hcached, halone⟩
  rw [hrun]
  decide +kernel

/-- The same material with a wrapped KEK that the KMS rejects. -/
def sampleRejected : KeyMaterial := { sampleMaterial sampleSealed with wrappedKek := some "?" }

/-- Once another file's KEK is cached under its ID, the rejected wrapped KEK is not noticed. -/
theorem read_cache_not_transparent :
    Env.sample.Implements sampleUnwrap ∧ ∃ earlier later, KeyUnwrapper.readMaterial Env.sample later =
      .ok sampleRejected ∧
      let w := (sampleUnwrapper.retrieveKey Env.sample earlier sampleReading.world).2
      SharedRun Env.sample sampleUnwrapper.kekCache (materials Env.sample earlier) w ∧
        (sampleUnwrapper.retrieveKey Env.sample later w).1 = .ok (counter 1 16) ∧
        (sampleUnwrapper.retrieveKey Env.sample later (w.emptied sampleUnwrapper.kekCache)).1 =
          .err (.general "not a wrapped key") := by
  obtain ⟨earlier, hearlier⟩ := KeyWrapper.exists_metadata Env.sample (m := sampleMaterial sampleSealed) rfl
  obtain ⟨later, hlater⟩ := KeyWrapper.exists_metadata Env.sample (m := sampleRejected) rfl
  refine ⟨sample_implements, earlier, later, hlater, (SharedRun.start _ rfl).retrieve sampleUnwrapper earlier rfl, ?_⟩
  simp only [KeyUnwrapper.retrieveKey_eq _ _ _ hearlier rfl, KeyUnwrapper.retrieveKey_eq _ _ _ hlater rfl]
  decide +kernel

end ParquetKeyManagement
