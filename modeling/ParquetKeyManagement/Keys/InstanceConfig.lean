/-
  ParquetKeyManagement.Keys.InstanceConfig — the KMS instance that a reader resolves to, over
  any sequence of retrievals.

  What a footer fills in goes into the field that holds the caller's configuration, so from
  then on it cannot be told from what the caller gave. And the ID is filled in before the URL
  is looked at.
  - `instance_all_or_nothing_iff`: a failed update leaves the configuration alone unless it
    holds neither an ID nor a URL and the footer names an ID only; in a run without such a
    footer all that is filled in comes from one footer.
  - `instance_resolution_iff`: the configuration a footer's key is asked for with has the ID and
    the URL that the caller's configuration and the footer give, exactly if no earlier footer
    has filled in another one.
-/

import ParquetKeyManagement.Keys.Retrieval

namespace ParquetKeyManagement

open Effect

variable (env : Env)

/-! ## What writes the held configuration -/

/-- The instance ID and URL of metadata that is kept inside the file and has both: a footer's. -/
def footerInstance (keyMetadata : Bytes) : Option (String × String) :=
  match KeyUnwrapper.readMaterial env keyMetadata with
  | .ok m => if m.internalStorage then m.kmsInstanceId.bind fun i => m.kmsInstanceUrl.map fun l => (i, l) else none
  | .error _ => none

/-- What is held after a footer with this instance, if `c` was before. -/
def KmsConnectionConfig.afterFooter (c : KmsConnectionConfig) (kmsInstanceId kmsInstanceUrl : String) :
    KmsConnectionConfig :=
  if c.kmsInstanceId = "" ∧ kmsInstanceId = "" then c else c.filled kmsInstanceId kmsInstanceUrl

/-- What is held after this metadata, if `c` was before. -/
def KmsConnectionConfig.after (c : KmsConnectionConfig) (keyMetadata : Bytes) : KmsConnectionConfig :=
  match footerInstance env keyMetadata with
  | some i => c.afterFooter i.1 i.2
  | none => c

theorem UpdateCase.eq_afterFooter {c c' : KmsConnectionConfig} {kmsInstanceId kmsInstanceUrl : String}
    {r : Outcome ParquetError Unit} (h : UpdateCase c kmsInstanceId kmsInstanceUrl r c') :
    c' = c.afterFooter kmsInstanceId kmsInstanceUrl := by
  unfold KmsConnectionConfig.afterFooter
  cases h with
  | ok hcomplete =>
    rw [if_neg]
    intro hempty
    exact hcomplete.1 ((if_pos hempty.1).trans hempty.2)
  | noId e hid hid' => rw [if_pos ⟨hid, hid'⟩]
  | noUrl e hid _ _ => rw [if_neg hid]

theorem footerInstance_of_read {keyMetadata : Bytes} {m : KeyMaterial}
    (hread : KeyUnwrapper.readMaterial env keyMetadata = .ok m) (hi : m.internalStorage = true) :
    footerInstance env keyMetadata = m.kmsInstanceId.bind fun i => m.kmsInstanceUrl.map fun l => (i, l) := by
  unfold footerInstance
  rw [hread]
  exact if_pos hi

theorem footerInstance_some {keyMetadata : Bytes} {kmsInstanceId kmsInstanceUrl : String}
    (h : footerInstance env keyMetadata = some (kmsInstanceId, kmsInstanceUrl)) :
    ∃ m, KeyUnwrapper.readMaterial env keyMetadata = .ok m ∧ m.internalStorage = true ∧
      m.kmsInstanceId = some kmsInstanceId ∧ m.kmsInstanceUrl = some kmsInstanceUrl := by
  unfold footerInstance at h
  split at h
  · rename_i m hread
    split at h
    · rename_i hi
      obtain ⟨i, hid, hrest⟩ := Option.bind_eq_some_iff.mp h
      obtain ⟨l, hurl, heq⟩ := Option.map_eq_some_iff.mp hrest
      cases heq
      exact ⟨m, hread, hi, hid, hurl⟩
    · cases h
  · cases h

namespace KeyUnwrapper

variable (u : KeyUnwrapper)

/-! Asking the KMS writes no configuration, with or without a cache. -/

theorem unwrapWithKms_configs (wrapped masterKeyId : String) (w : World) :
    (unwrapWithKms env u wrapped masterKeyId w).2.configs = w.configs := by
  have hcase := unwrapWithKms_cases env u wrapped masterKeyId w
  cases hrun : unwrapWithKms env u wrapped masterKeyId w with | mk r w1 =>
  rw [hrun] at hcase
  cases hcase with
  | served client key w1 hframe => exact hframe.configs
  | failed e w1 hframe => exact hframe.configs
  | panicked w1 hframe => exact hframe.configs

theorem getKek_configs (masterKeyId kekId wrappedKek : String) (w : World) :
    (getKek env u masterKeyId kekId wrappedKek w).2.configs = w.configs := by
  have hcase := getKek_cases env u masterKeyId kekId wrappedKek w
  cases hrun : getKek env u masterKeyId kekId wrappedKek w with | mk r w1 =>
  rw [hrun] at hcase
  cases hcase with
  | cached kek _ => rfl
  | stored client kek w1 _ hframe => exact hframe.configs
  | failed e w1 hframe => exact hframe.configs
  | panicked w1 hframe => exact hframe.configs

theorem unwrapDoubleWrappedKey_configs (wrappedDek masterKeyId kekId wrappedKek : String) (w : World) :
    (unwrapDoubleWrappedKey env u wrappedDek masterKeyId kekId wrappedKek w).2.configs = w.configs := by
  rw [unwrapDoubleWrappedKey_eq]
  have hbody : ((getKek env u masterKeyId kekId wrappedKek >>= fun kek =>
      Eff.ofOutcome (openDek env wrappedDek kekId kek)) w).2.configs = w.configs := by
    rw [← getKek_configs env u masterKeyId kekId wrappedKek w]
    rcases hrun : getKek env u masterKeyId kekId wrappedKek w with ⟨kek | e | _, w1⟩
    · rw [bind_ok hrun]; rfl
    · rw [bind_err hrun]
    · rw [bind_panic hrun]
  rcases lock_state (readCachePlace u.kekCache) (getKek env u masterKeyId kekId wrappedKek >>= fun kek =>
      Eff.ofOutcome (openDek env wrappedDek kekId kek)) w with h | h | h
  · rw [h]
  · rw [h, hbody]
  · rw [h]; exact hbody

theorem unwrapDek_configs (m : KeyMaterial) (w : World) : (unwrapDek env u m w).2.configs = w.configs := by
  unfold unwrapDek
  by_cases hd : m.doubleWrapping
  · rw [if_pos hd]
    cases hk : m.keyEncryptionKeyId with
    | none => rfl
    | some kekId =>
      cases hw : m.wrappedKek with
      | none => rfl
      | some wrappedKek => exact unwrapDoubleWrappedKey_configs env u m.wrappedDek m.masterKeyId kekId wrappedKek w
  · rw [if_neg hd]
    exact unwrapWithKms_configs env u m.wrappedDek m.masterKeyId w

/-- A retrieval does to the configurations what the update does. -/
theorem retrieveKey_configs {m : KeyMaterial} {keyMetadata : Bytes} (hread : readMaterial env keyMetadata = .ok m)
    (hi : m.internalStorage = true) (w : World) :
    (retrieveKey env u keyMetadata w).2.configs = (updateKmsConfig u m w).2.configs := by
  rw [retrieveKey_eq env u m hread hi]
  rcases hrun : updateKmsConfig u m w with ⟨_ | e | _, w1⟩
  · rw [bind_ok hrun, unwrapDek_configs]
  · rw [bind_err hrun]
  · rw [bind_panic hrun]

/-- The configurations after a retrieval, whatever it ends in. -/
theorem retrieveKey_after (keyMetadata : Bytes) (w : World) :
    (retrieveKey env u keyMetadata w).2.configs =
      Function.update w.configs u.kmsConnectionConfig ((u.heldConfig w).after env keyMetadata) := by
  have hsame : Function.update w.configs u.kmsConnectionConfig (u.heldConfig w) = w.configs :=
    Function.update_eq_self ..
  unfold KmsConnectionConfig.after
  by_cases hi : ∃ m, readMaterial env keyMetadata = .ok m ∧ m.internalStorage = true
  · obtain ⟨m, hread, hi⟩ := hi
    rw [u.retrieveKey_configs env hread hi, footerInstance_of_read env hread hi]
    unfold updateKmsConfig
    cases hid : m.kmsInstanceId with
    | none => exact hsame.symm
    | some kmsInstanceId =>
      cases hurl : m.kmsInstanceUrl with
      | none => exact hsame.symm
      | some kmsInstanceUrl =>
        obtain ⟨r, c, hrun, hcase⟩ := u.update_cases kmsInstanceId kmsInstanceUrl w
        show (updateKmsConfigFromFooterMetadata u kmsInstanceId kmsInstanceUrl w).2.configs = _
        rw [hrun, hcase.eq_afterFooter]
        rfl
  · have hrefused : ∀ m, readMaterial env keyMetadata = .ok m → m.internalStorage = false :=
      fun m hread => Bool.eq_false_iff.mpr fun hint => hi ⟨m, hread, hint⟩
    obtain ⟨e, he⟩ := u.retrieveKey_refused env w hrefused
    have hnone : footerInstance env keyMetadata = none := by
      unfold footerInstance
      cases hread : readMaterial env keyMetadata with
      | error e => rfl
      | ok m => exact if_neg (by simp [hrefused m hread])
    rw [he, hnone]
    exact hsame.symm

theorem heldConfig_retrieveKey (keyMetadata : Bytes) (w : World) :
    u.heldConfig (retrieveKey env u keyMetadata w).2 = (u.heldConfig w).after env keyMetadata := by
  unfold heldConfig
  rw [u.retrieveKey_after env, Function.update_self]
  rfl

end KeyUnwrapper

/-! ## Runs of one reader -/

section

variable (u : KeyUnwrapper) (c0 : KmsConnectionConfig) (P : World → Bytes → Prop)

/-- Runs of an unwrapper created with `c0`: its retrievals, each called as `P` says, and between
    them anything that does not write its configuration. The list is of the metadata it was
    given. -/
inductive ReaderRun : List Bytes → World → Prop
  | start (w : World) : u.heldConfig w = c0 → ReaderRun [] w
  | retrieve {given : List Bytes} {w : World} (keyMetadata : Bytes) : ReaderRun given w → P w keyMetadata →
    ReaderRun (given ++ [keyMetadata]) (u.retrieveKey env keyMetadata w).2
  | between {given : List Bytes} {w w' : World} : ReaderRun given w → u.heldConfig w' = u.heldConfig w →
    ReaderRun given w'

end

section

variable {env} {u : KeyUnwrapper} {c0 c : KmsConnectionConfig} {P : World → Bytes → Prop} {given : List Bytes}
  {w : World}

/-- The configuration has `c0`'s values where `c0` has any. -/
structure Extends (c0 c : KmsConnectionConfig) : Prop where
  kmsInstanceId : c0.kmsInstanceId ≠ "" → c.kmsInstanceId = c0.kmsInstanceId
  kmsInstanceUrl : c0.kmsInstanceUrl ≠ "" → c.kmsInstanceUrl = c0.kmsInstanceUrl
  keyAccessToken : c.keyAccessToken = c0.keyAccessToken
  customKmsConf : c.customKmsConf = c0.customKmsConf

theorem Extends.refl (c : KmsConnectionConfig) : Extends c c := ⟨fun _ => rfl, fun _ => rfl, rfl, rfl⟩

theorem Extends.trans {c' : KmsConnectionConfig} (h : Extends c0 c) (h' : Extends c c') : Extends c0 c' where
  kmsInstanceId hne := by
    have hc := h.kmsInstanceId hne
    rw [h'.kmsInstanceId (by rw [hc]; exact hne), hc]
  kmsInstanceUrl hne := by
    have hc := h.kmsInstanceUrl hne
    rw [h'.kmsInstanceUrl (by rw [hc]; exact hne), hc]
  keyAccessToken := h'.keyAccessToken.trans h.keyAccessToken
  customKmsConf := h'.customKmsConf.trans h.customKmsConf

theorem extends_filled (c : KmsConnectionConfig) (kmsInstanceId kmsInstanceUrl : String) :
    Extends c (c.filled kmsInstanceId kmsInstanceUrl) :=
  ⟨fun hne => if_neg hne, fun hne => if_neg hne, rfl, rfl⟩

theorem extends_afterFooter (c : KmsConnectionConfig) (kmsInstanceId kmsInstanceUrl : String) :
    Extends c (c.afterFooter kmsInstanceId kmsInstanceUrl) := by
  unfold KmsConnectionConfig.afterFooter
  by_cases hempty : c.kmsInstanceId = "" ∧ kmsInstanceId = ""
  · rw [if_pos hempty]; exact .refl c
  · rw [if_neg hempty]; exact extends_filled ..

theorem extends_after (c : KmsConnectionConfig) (keyMetadata : Bytes) : Extends c (c.after env keyMetadata) := by
  unfold KmsConnectionConfig.after
  cases footerInstance env keyMetadata with
  | none => exact .refl c
  | some i => exact extends_afterFooter c i.1 i.2

/-- Nothing is filled into a complete configuration. -/
theorem KmsConnectionConfig.Complete.after_eq (h : c.Complete) (keyMetadata : Bytes) : c.after env keyMetadata = c := by
  unfold KmsConnectionConfig.after
  cases footerInstance env keyMetadata with
  | none => rfl
  | some i =>
    show c.afterFooter i.1 i.2 = c
    unfold KmsConnectionConfig.afterFooter
    rw [if_neg fun hempty => h.1 hempty.1]
    exact h.filled_eq ..

theorem ReaderRun.extends (h : ReaderRun env u c0 P given w) : Extends c0 (u.heldConfig w) := by
  induction h with
  | start w hc => rw [hc]; exact .refl _
  | @retrieve given w keyMetadata _ _ ih => rw [u.heldConfig_retrieveKey]; exact ih.trans (extends_after _ keyMetadata)
  | between _ hsame ih => rw [hsame]; exact ih

/-- What is held is what the given metadata makes of the configuration. -/
theorem ReaderRun.heldConfig_eq (h : ReaderRun env u c0 P given w) :
    u.heldConfig w = given.foldl (KmsConnectionConfig.after env) c0 := by
  induction h with
  | start w hc => exact hc
  | @retrieve given w keyMetadata _ _ ih => rw [u.heldConfig_retrieveKey, ih, List.foldl_append]; rfl
  | between _ hsame ih => rw [hsame, ih]

end

/-! ## Updates that fail -/

/-- Neither an ID nor a URL is held, and the footer names an ID only. -/
def IdOnly (c : KmsConnectionConfig) (kmsInstanceId kmsInstanceUrl : String) : Prop :=
  c.kmsInstanceId = "" ∧ c.kmsInstanceUrl = "" ∧ kmsInstanceId ≠ "" ∧ kmsInstanceUrl = ""

/-- The call meets no footer that would be filled in by half. -/
def NoIdOnly (u : KeyUnwrapper) (w : World) (keyMetadata : Bytes) : Prop :=
  ∀ kmsInstanceId kmsInstanceUrl, footerInstance env keyMetadata = some (kmsInstanceId, kmsInstanceUrl) →
    ¬ IdOnly (u.heldConfig w) kmsInstanceId kmsInstanceUrl

/-- What was filled in came from one footer. -/
def FromOneFooter (c0 : KmsConnectionConfig) (given : List Bytes) (c : KmsConnectionConfig) : Prop :=
  c = c0 ∨ ∃ keyMetadata ∈ given, ∃ kmsInstanceId kmsInstanceUrl,
    footerInstance env keyMetadata = some (kmsInstanceId, kmsInstanceUrl) ∧
    (c0.filled kmsInstanceId kmsInstanceUrl).Complete ∧ c = c0.filled kmsInstanceId kmsInstanceUrl

section

variable {env} {u : KeyUnwrapper} {c0 c : KmsConnectionConfig} {given : List Bytes} {w : World}
  {kmsInstanceId kmsInstanceUrl : String}

/-- A configuration that a footer leaves incomplete is left as it was, but for an ID alone. -/
theorem filled_incomplete (hid : ¬ (c.kmsInstanceId = "" ∧ kmsInstanceId = ""))
    (h : ¬ (c.filled kmsInstanceId kmsInstanceUrl).Complete) (hhalf : ¬ IdOnly c kmsInstanceId kmsInstanceUrl) :
    c.filled kmsInstanceId kmsInstanceUrl = c := by
  have hurl : c.kmsInstanceUrl = "" ∧ kmsInstanceUrl = "" := by
    by_contra hurl
    exact h (KmsConnectionConfig.filled_complete hid hurl)
  have h0 : c.kmsInstanceId ≠ "" := fun h0 => hhalf ⟨h0, hurl.1, fun h' => hid ⟨h0, h'⟩, hurl.2⟩
  unfold KmsConnectionConfig.filled KmsConnectionConfig.filledId
  rw [if_neg h0, hurl.2]
  exact KmsConnectionConfig.filledUrl_empty hurl.1

/-- An update that fails leaves the configuration incomplete. -/
theorem UpdateCase.failed {e : ParquetError} (h : UpdateCase c0 kmsInstanceId kmsInstanceUrl (.err e) c)
    (hhalf : ¬ IdOnly c0 kmsInstanceId kmsInstanceUrl) : c = c0 := by
  cases h with
  | noId _ _ _ => rfl
  | noUrl _ hid hurl hurl' =>
    refine filled_incomplete hid (fun hcomplete => hcomplete.2 ?_) hhalf
    exact (if_pos hurl).trans hurl'

theorem FromOneFooter.append (h : FromOneFooter env c0 given c) (keyMetadata : Bytes) :
    FromOneFooter env c0 (given ++ [keyMetadata]) c := by
  rcases h with h | ⟨earlier, hmem, hrest⟩
  · exact Or.inl h
  · exact Or.inr ⟨earlier, List.mem_append_left _ hmem, hrest⟩

/-- Nothing can be filled into what a footer has completed. -/
theorem FromOneFooter.after {keyMetadata : Bytes} (h : FromOneFooter env c0 given c)
    (hno : ∀ kmsInstanceId kmsInstanceUrl, footerInstance env keyMetadata = some (kmsInstanceId, kmsInstanceUrl) →
      ¬ IdOnly c kmsInstanceId kmsInstanceUrl) :
    FromOneFooter env c0 (given ++ [keyMetadata]) (c.after env keyMetadata) := by
  unfold KmsConnectionConfig.after
  cases hfooter : footerInstance env keyMetadata with
  | none => exact h.append keyMetadata
  | some i =>
    show FromOneFooter env c0 _ (if c.kmsInstanceId = "" ∧ i.1 = "" then c else c.filled i.1 i.2)
    by_cases hempty : c.kmsInstanceId = "" ∧ i.1 = ""
    · rw [if_pos hempty]; exact h.append keyMetadata
    · rw [if_neg hempty]
      by_cases hcomplete : (c.filled i.1 i.2).Complete
      · rcases h with rfl | ⟨earlier, hmem, id, url, hearlier, hcomplete', rfl⟩
        · exact Or.inr ⟨keyMetadata, List.mem_append_right _ (List.mem_singleton.mpr rfl), _, _,
            hfooter, hcomplete, rfl⟩
        · exact Or.inr ⟨earlier, List.mem_append_left _ hmem, id, url, hearlier, hcomplete', hcomplete'.filled_eq ..⟩
      · rw [filled_incomplete hempty hcomplete (hno i.1 i.2 hfooter)]
        exact h.append keyMetadata

theorem ReaderRun.fromOneFooter (h : ReaderRun env u c0 (NoIdOnly env u) given w) :
    FromOneFooter env c0 given (u.heldConfig w) := by
  induction h with
  | start w hc => exact Or.inl hc
  | @retrieve given w keyMetadata _ hno ih => rw [u.heldConfig_retrieveKey]; exact ih.after hno
  | between _ hsame ih => rw [hsame]; exact ih

end

/-- A failed update leaves the held configuration as it was, exactly unless nothing is held and
    the footer names an ID only; without such footers an ID is never combined with the URL of
    another footer. -/
theorem instance_all_or_nothing_iff (u : KeyUnwrapper) :
    (∀ w kmsInstanceId kmsInstanceUrl,
      (∀ e w', u.updateKmsConfigFromFooterMetadata kmsInstanceId kmsInstanceUrl w = (.err e, w') →
        u.heldConfig w' = u.heldConfig w) ↔ ¬ IdOnly (u.heldConfig w) kmsInstanceId kmsInstanceUrl) ∧
    ∀ c0 given w, ReaderRun env u c0 (NoIdOnly env u) given w → FromOneFooter env c0 given (u.heldConfig w) := by
  refine ⟨fun w kmsInstanceId kmsInstanceUrl => ?_, fun c0 given w hrun => hrun.fromOneFooter⟩
  obtain ⟨r, c, hrun, hcase⟩ := u.update_cases kmsInstanceId kmsInstanceUrl w
  rw [hrun]
  constructor
  · intro h hhalf
    obtain ⟨hid, hurl, hid', hurl'⟩ := hhalf
    cases hcase with
    | ok hcomplete =>
      refine hcomplete.2 ?_
      show (if (u.heldConfig w).kmsInstanceUrl = "" then kmsInstanceUrl else _) = ""
      rw [if_pos hurl, hurl']
    | noId e _ hempty => exact hid' hempty
    | noUrl e _ _ _ =>
      have hsame := congrArg KmsConnectionConfig.kmsInstanceId (h e _ rfl)
      rw [KeyUnwrapper.heldConfig_set, hid] at hsame
      have hfilled : ((u.heldConfig w).filled kmsInstanceId kmsInstanceUrl).kmsInstanceId = kmsInstanceId := if_pos hid
      exact hid' (hfilled.symm.trans hsame)
  · intro hhalf e w' h
    cases h
    rw [KeyUnwrapper.heldConfig_set]
    exact hcase.failed hhalf

/-- A configuration without an instance. -/
def unconfigured : KmsConnectionConfig := ⟨"", "", 0, ∅⟩

def unconfiguredReader : KeyUnwrapper := ⟨0, 0, ⟨none⟩, 0⟩

/-- The state in which `unconfiguredReader` has just been created. -/
def unconfiguredWorld : World :=
  (KeyUnwrapper.new Env.sample 0 unconfigured ⟨none⟩ (World.init (fun _ => "DEFAULT") 0)).2

/-- A footer of this instance, with an empty key. -/
def sampleFooter (kmsInstanceId kmsInstanceUrl : String) : KeyMaterial where
  keyMaterialType := "PKMT1"
  internalStorage := true
  keyReference := none
  isFooterKey := true
  kmsInstanceId := some kmsInstanceId
  kmsInstanceUrl := some kmsInstanceUrl
  masterKeyId := "kf"
  wrappedDek := ""
  doubleWrapping := false
  keyEncryptionKeyId := none
  wrappedKek := none

theorem exists_footer (kmsInstanceId kmsInstanceUrl : String) :
    ∃ keyMetadata,
      KeyUnwrapper.readMaterial Env.sample keyMetadata = .ok (sampleFooter kmsInstanceId kmsInstanceUrl) ∧
      ∀ u : KeyUnwrapper, u.retrieveKey Env.sample keyMetadata = (do
        u.updateKmsConfig (sampleFooter kmsInstanceId kmsInstanceUrl)
        u.unwrapDek Env.sample (sampleFooter kmsInstanceId kmsInstanceUrl)) := by
  obtain ⟨keyMetadata, hread⟩ := KeyWrapper.exists_metadata Env.sample
    (m := sampleFooter kmsInstanceId kmsInstanceUrl) rfl
  exact ⟨keyMetadata, hread, fun u => u.retrieveKey_eq Env.sample _ hread rfl⟩

/-- A footer without an ID, and one with both. -/
theorem instance_all_or_nothing_sample :
    ∃ first second, let w1 := (unconfiguredReader.retrieveKey Env.sample first unconfiguredWorld).2
      let w2 := (unconfiguredReader.retrieveKey Env.sample second w1).2
      FromOneFooter Env.sample unconfigured [first, second] (unconfiguredReader.heldConfig w2) := by
  obtain ⟨first, hread, _⟩ := exists_footer "" "url1"
  obtain ⟨second, hread', _⟩ := exists_footer "id2" "url2"
  have hfirst := footerInstance_of_read Env.sample hread rfl
  have hsecond := footerInstance_of_read Env.sample hread' rfl
  refine ⟨first, second, (instance_all_or_nothing_iff Env.sample unconfiguredReader).2 unconfigured _ _ ?_⟩
  refine ((ReaderRun.start unconfiguredWorld rfl).retrieve first ?_).retrieve second ?_
  · intro id url hfooter hhalf
    rw [hfirst] at hfooter
    cases hfooter
    exact absurd hhalf.2.2.2 (by decide)
  · intro id url hfooter hhalf
    rw [hsecond] at hfooter
    cases hfooter
    exact absurd hhalf.2.2.2 (by decide)

/-- The ID of a footer that was refused is combined with the URL of the next. -/
theorem instance_half_filled :
    ∃ first second, KeyUnwrapper.readMaterial Env.sample first = .ok (sampleFooter "id1" "") ∧
      KeyUnwrapper.readMaterial Env.sample second = .ok (sampleFooter "id2" "url2") ∧
      let w1 := (unconfiguredReader.retrieveKey Env.sample first unconfiguredWorld).2
      let held := unconfiguredReader.heldConfig (unconfiguredReader.retrieveKey Env.sample second w1).2
      unconfiguredReader.heldConfig unconfiguredWorld = unconfigured ∧
      (unconfiguredReader.updateKmsConfigFromFooterMetadata "id1" "" unconfiguredWorld).1 =
        .err (.general "KMS instance URL not set in connection configuration or footer key metadata") ∧
      (unconfiguredReader.heldConfig
        (unconfiguredReader.updateKmsConfigFromFooterMetadata "id1" "" unconfiguredWorld).2).kmsInstanceId = "id1" ∧
      (unconfiguredReader.retrieveKey Env.sample first unconfiguredWorld).1.isOk = false ∧
      held.kmsInstanceId = "id1" ∧ held.kmsInstanceUrl = "url2" := by
  obtain ⟨first, hfirst, hrun⟩ := exists_footer "id1" ""
  obtain ⟨second, hsecond, hrun'⟩ := exists_footer "id2" "url2"
  refine ⟨first, second, hfirst, hsecond, rfl, ?_⟩
  simp only [hrun, hrun']
  decide +kernel

/-! ## The instance a footer's key is asked from -/

namespace KeyUnwrapper

section

variable (u : KeyUnwrapper) (getClient : KmsConnectionConfig → Call KmsClient)

/-! A retrieval with `get_client` as a parameter, which is given the configuration. -/

def unwrapWithKmsVia (wrapped masterKeyId : String) : Call Bytes := do
  let kmsConnectionConfig ← Eff.read (configPlace u.kmsConnectionConfig).get
  let client ← getClient kmsConnectionConfig
  unwrapKey env client wrapped masterKeyId

def getKekVia (masterKeyId kekId wrappedKek : String) : Call Bytes := do
  let kekCache ← Eff.read u.keks.get
  match kekCache.lookup kekId with
  | some kek => pure kek
  | none => do
    let kek ← unwrapWithKmsVia env u getClient wrappedKek masterKeyId
    Eff.modify (u.keks.modify fun m => m.insert kekId kek)
    pure kek

def unwrapDoubleWrappedKeyVia (wrappedDek masterKeyId kekId wrappedKek : String) : Call Bytes :=
  lock (readCachePlace u.kekCache) do
    let kek ← getKekVia env u getClient masterKeyId kekId wrappedKek
    let decodedKekId ← Eff.ofExcept (decodeKekId env kekId)
    Eff.ofOutcome (decryptEncryptionKey env wrappedDek decodedKekId kek)

def unwrapDekVia (m : KeyMaterial) : Call Bytes :=
  if m.doubleWrapping then
    match m.keyEncryptionKeyId, m.wrappedKek with
    | some kekId, some wrappedKek =>
      unwrapDoubleWrappedKeyVia env u getClient m.wrappedDek m.masterKeyId kekId wrappedKek
    | _, _ => Eff.fail (.general "Key uses double wrapping but key encryption key is not set")
  else unwrapWithKmsVia env u getClient m.wrappedDek m.masterKeyId

def retrieveKeyVia (keyMetadata : Bytes) : Call Bytes := do
  let keyMaterial ← Eff.ofExcept (readMaterial env keyMetadata)
  if ¬ keyMaterial.internalStorage then
    Eff.fail (.nyi "Decryption using external key material is not yet implemented")
  else do
    updateKmsConfig u keyMaterial
    unwrapDekVia env u getClient keyMaterial

/-- With the registry's `get_client` this is the retrieval. -/
theorem retrieveKeyVia_getClient (keyMetadata : Bytes) :
    retrieveKeyVia env u (fun c => KmsManager.getClient env u.kmsManager c u.decryptionConfiguration.cacheLifetime)
      keyMetadata = retrieveKey env u keyMetadata := rfl

/-- The retrieval passes no configuration but `c` to `get_client`. -/
def OnlyPasses (keyMetadata : Bytes) (w : World) (c : KmsConnectionConfig) : Prop :=
  ∀ getClient getClient' : KmsConnectionConfig → Call KmsClient, getClient c = getClient' c →
    retrieveKeyVia env u getClient keyMetadata w = retrieveKeyVia env u getClient' keyMetadata w

end

section

variable {env} {u : KeyUnwrapper} {getClient getClient' : KmsConnectionConfig → Call KmsClient} {w : World}
  (h : getClient (u.heldConfig w) = getClient' (u.heldConfig w))
include h

theorem unwrapWithKmsVia_congr (wrapped masterKeyId : String) :
    unwrapWithKmsVia env u getClient wrapped masterKeyId w = unwrapWithKmsVia env u getClient'
      wrapped masterKeyId w := by
  show (getClient (u.heldConfig w) >>= fun client => unwrapKey env client wrapped masterKeyId) w =
    (getClient' (u.heldConfig w) >>= fun client => unwrapKey env client wrapped masterKeyId) w
  rw [h]

theorem getKekVia_congr (masterKeyId kekId wrappedKek : String) :
    getKekVia env u getClient masterKeyId kekId wrappedKek w =
      getKekVia env u getClient' masterKeyId kekId wrappedKek w := by
  unfold getKekVia
  rw [bind_ok (read_run _ _), bind_ok (read_run _ _)]
  cases (u.keks.get w).lookup kekId with
  | some kek => rfl
  | none =>
    simp only
    rw [bind_run, unwrapWithKmsVia_congr h, ← bind_run]

theorem unwrapDekVia_congr (m : KeyMaterial) :
    unwrapDekVia env u getClient m w = unwrapDekVia env u getClient' m w := by
  unfold unwrapDekVia
  by_cases hd : m.doubleWrapping
  · rw [if_pos hd, if_pos hd]
    cases m.keyEncryptionKeyId with
    | none => rfl
    | some kekId =>
      cases m.wrappedKek with
      | none => rfl
      | some wrappedKek =>
        refine lock_congr ?_
        rw [bind_run, getKekVia_congr h, ← bind_run]
  · rw [if_neg hd, if_neg hd]
    exact unwrapWithKmsVia_congr h ..

end

end KeyUnwrapper

/-- What the caller left empty is still empty, or filled in with the same. -/
def SameFilled (given held footer : String) : Prop := given = "" → held = "" ∨ held = footer

section

variable {env} {u : KeyUnwrapper} {c0 : KmsConnectionConfig} {given : List Bytes} {w : World}
  {keyMetadata : Bytes} {kmsInstanceId kmsInstanceUrl : String}

/-- A footer with an ID and a URL is asked for with the held configuration, completed by it. -/
theorem footer_onlyPasses (h : footerInstance env keyMetadata = some (kmsInstanceId, kmsInstanceUrl))
    (hid : kmsInstanceId ≠ "") (hurl : kmsInstanceUrl ≠ "") (w : World) :
    u.OnlyPasses env keyMetadata w ((u.heldConfig w).filled kmsInstanceId kmsInstanceUrl) := by
  obtain ⟨m, hread, hi, hmid, hmurl⟩ := footerInstance_some env h
  intro getClient getClient' hsame
  have hrun : ∀ g, u.retrieveKeyVia env g keyMetadata w =
      (do u.updateKmsConfig m; u.unwrapDekVia env g m : Call Bytes) w := by
    intro g
    unfold KeyUnwrapper.retrieveKeyVia
    rw [hread, bind_ok (ofExcept_ok _ _), if_neg (not_not.mpr hi)]
  rw [hrun, hrun]
  obtain ⟨r, c, hupdate, hcase⟩ := u.update_cases kmsInstanceId kmsInstanceUrl w
  have hupdate' : u.updateKmsConfig m w = (r, (configPlace u.kmsConnectionConfig).set c w) := by
    unfold KeyUnwrapper.updateKmsConfig
    rw [hmid, hmurl]
    exact hupdate
  cases hcase with
  | ok _ =>
    rw [bind_ok hupdate', bind_ok hupdate']
    refine KeyUnwrapper.unwrapDekVia_congr ?_ m
    rw [KeyUnwrapper.heldConfig_set]
    exact hsame
  | noId e _ hempty => exact absurd hempty hid
  | noUrl e _ _ hempty => exact absurd hempty hurl

/-- Filling in over what is held gives what filling in over the caller's value gives, unless another
    value was filled in before. -/
theorem filled_eq_iff {given held footer : String} (hextends : given ≠ "" → held = given) :
    (if held = "" then footer else held) = (if given = "" then footer else given) ↔ SameFilled given held footer := by
  unfold SameFilled
  by_cases hg : given = ""
  · rw [if_pos hg]
    by_cases hh : held = ""
    · rw [if_pos hh]
      exact ⟨fun _ _ => Or.inl hh, fun _ => rfl⟩
    · rw [if_neg hh]
      exact ⟨fun h _ => Or.inr h, fun h => (h hg).resolve_left hh⟩
  · rw [if_neg hg, hextends hg, if_neg hg]
    exact ⟨fun _ h => absurd h hg, fun _ => rfl⟩

end

/-- Whatever was read before, a footer's key is asked for with one configuration; it has the ID
    and the URL that the caller's configuration and the footer give, exactly if what the earlier
    metadata filled in where the caller left them empty is the same. -/
theorem instance_resolution_iff {u : KeyUnwrapper} {c0 : KmsConnectionConfig} {given : List Bytes} {w : World}
    (hrun : ReaderRun env u c0 (fun _ _ => True) given w) {keyMetadata : Bytes} {kmsInstanceId kmsInstanceUrl : String}
    (hfooter : footerInstance env keyMetadata = some (kmsInstanceId, kmsInstanceUrl)) (hid : kmsInstanceId ≠ "")
    (hurl : kmsInstanceUrl ≠ "") :
    let passed := (u.heldConfig w).filled kmsInstanceId kmsInstanceUrl
    let earlier := given.foldl (KmsConnectionConfig.after env) c0
    u.OnlyPasses env keyMetadata w passed ∧
      ((passed.kmsInstanceId = (if c0.kmsInstanceId = "" then kmsInstanceId else c0.kmsInstanceId) ∧
          passed.kmsInstanceUrl = (if c0.kmsInstanceUrl = "" then kmsInstanceUrl else c0.kmsInstanceUrl)) ↔
        SameFilled c0.kmsInstanceId earlier.kmsInstanceId kmsInstanceId ∧
          SameFilled c0.kmsInstanceUrl earlier.kmsInstanceUrl kmsInstanceUrl) := by
  have hextends := hrun.extends
  simp only [← hrun.heldConfig_eq]
  exact ⟨footer_onlyPasses hfooter hid hurl w,
    and_congr (filled_eq_iff hextends.kmsInstanceId) (filled_eq_iff hextends.kmsInstanceUrl)⟩

/-- After a footer that was refused and one of the same instance, the instance is the footer's. -/
theorem instance_resolution_sample :
    ∃ refused first second, footerInstance Env.sample refused = some ("", "url1") ∧
      footerInstance Env.sample first = some ("id", "url") ∧ footerInstance Env.sample second = some ("id", "url") ∧
      let w1 := (unconfiguredReader.retrieveKey Env.sample refused unconfiguredWorld).2
      let w2 := (unconfiguredReader.retrieveKey Env.sample first w1).2
      let passed := (unconfiguredReader.heldConfig w2).filled "id" "url"
      unconfiguredReader.OnlyPasses Env.sample second w2 passed ∧ passed.kmsInstanceId = "id" ∧
        passed.kmsInstanceUrl = "url" := by
  obtain ⟨refused, hread, _⟩ := exists_footer "" "url1"
  obtain ⟨first, hread', _⟩ := exists_footer "id" "url"
  have hrefused : footerInstance Env.sample refused = some ("", "url1") := footerInstance_of_read Env.sample hread rfl
  have hfirst : footerInstance Env.sample first = some ("id", "url") := footerInstance_of_read Env.sample hread' rfl
  have hstart : ReaderRun Env.sample unconfiguredReader unconfigured (fun _ _ => True) [] unconfiguredWorld :=
    .start _ rfl
  have hrun := (hstart.retrieve refused trivial).retrieve first trivial
  obtain ⟨hpasses, hiff⟩ := instance_resolution_iff Env.sample hrun hfirst (by decide) (by decide)
  refine ⟨refused, first, first, hrefused, hfirst, hfirst, hpasses, hiff.mpr ?_⟩
  -- nothing was filled in from the first, and the second's values are the footer's
  have hearlier : [refused, first].foldl (KmsConnectionConfig.after Env.sample) unconfigured =
      unconfigured.filled "id" "url" := by
    simp only [List.foldl_cons, List.foldl_nil, KmsConnectionConfig.after, hrefused, hfirst]
    rfl
  rw [show [] ++ [refused] ++ [first] = [refused, first] from rfl, hearlier]
  exact ⟨fun _ => Or.inr rfl, fun _ => Or.inr rfl⟩

/-- Two footers of different instances: both keys are asked from the first. -/
theorem instance_taken_from_first :
    ∃ first second, KeyUnwrapper.readMaterial Env.sample first = .ok (sampleFooter "id1" "url1") ∧
      KeyUnwrapper.readMaterial Env.sample second = .ok (sampleFooter "id2" "url2") ∧
      let w1 := (unconfiguredReader.retrieveKey Env.sample first unconfiguredWorld).2
      let w2 := (unconfiguredReader.retrieveKey Env.sample second w1).2
      ReaderRun Env.sample unconfiguredReader unconfigured (fun _ _ => True) [first] w1 ∧
      ((unconfiguredReader.heldConfig w1).filled "id2" "url2").kmsInstanceId = "id1" ∧
      ((unconfiguredReader.heldConfig w1).filled "id2" "url2").kmsInstanceUrl = "url1" ∧
      (unconfiguredReader.retrieveKey Env.sample second w1).1 = .ok [] ∧
      (w2.clients 0).keys = [⟨"DEFAULT", "id1"⟩] := by
  obtain ⟨first, hfirst, hrun⟩ := exists_footer "id1" "url1"
  obtain ⟨second, hsecond, hrun'⟩ := exists_footer "id2" "url2"
  refine ⟨first, second, hfirst, hsecond, (ReaderRun.start unconfiguredWorld rfl).retrieve first trivial, ?_⟩
  simp only [hrun, hrun']
  decide +kernel

end ParquetKeyManagement
