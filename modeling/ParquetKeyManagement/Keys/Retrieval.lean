/-
  ParquetKeyManagement.Keys.Retrieval — how a retrieval can end, and what it leaves behind.

  A retrieval updates the held configuration, then asks the KMS for a key or takes a KEK from
  the shared cache. For each part one statement lists its outcomes with the state they leave:
  `UpdateCase` (`update_cases`), `Unwrapping` (`unwrapWithKms_cases`) and `KekCase`
  (`getKek_cases`). What follows once the KEK is there is `openDek`, and reads no state.
-/

import ParquetKeyManagement.Kms.Frame
import ParquetKeyManagement.Keys.ReaderMoves

namespace ParquetKeyManagement

open Effect

variable (env : Env)

/-! ## One update -/

namespace KmsConnectionConfig

def filledId (c : KmsConnectionConfig) (kmsInstanceId : String) : KmsConnectionConfig :=
  { c with kmsInstanceId := if c.kmsInstanceId = "" then kmsInstanceId else c.kmsInstanceId }

def filledUrl (c : KmsConnectionConfig) (kmsInstanceUrl : String) : KmsConnectionConfig :=
  { c with kmsInstanceUrl := if c.kmsInstanceUrl = "" then kmsInstanceUrl else c.kmsInstanceUrl }

/-- The configuration with the values of a footer where it has none. -/
def filled (c : KmsConnectionConfig) (kmsInstanceId kmsInstanceUrl : String) : KmsConnectionConfig :=
  (c.filledId kmsInstanceId).filledUrl kmsInstanceUrl

/-- It has an instance ID and an instance URL. -/
def Complete (c : KmsConnectionConfig) : Prop := c.kmsInstanceId ≠ "" ∧ c.kmsInstanceUrl ≠ ""

end KmsConnectionConfig

/-- How an update of the held configuration `c` ends, and what is held then. -/
inductive UpdateCase (c : KmsConnectionConfig) (kmsInstanceId kmsInstanceUrl : String) :
    Outcome ParquetError Unit → KmsConnectionConfig → Prop
  | ok : (c.filled kmsInstanceId kmsInstanceUrl).Complete →
    UpdateCase c kmsInstanceId kmsInstanceUrl (.ok ()) (c.filled kmsInstanceId kmsInstanceUrl)
  | noId (e : ParquetError) : c.kmsInstanceId = "" → kmsInstanceId = "" →
    UpdateCase c kmsInstanceId kmsInstanceUrl (.err e) c
  /-- The ID is filled in when the URL is found missing. -/
  | noUrl (e : ParquetError) : ¬ (c.kmsInstanceId = "" ∧ kmsInstanceId = "") → c.kmsInstanceUrl = "" →
    kmsInstanceUrl = "" → UpdateCase c kmsInstanceId kmsInstanceUrl (.err e) (c.filled kmsInstanceId kmsInstanceUrl)

namespace KmsConnectionConfig

variable {c : KmsConnectionConfig} {kmsInstanceId kmsInstanceUrl : String}

theorem Complete.filled_eq (h : c.Complete) (kmsInstanceId kmsInstanceUrl : String) :
    c.filled kmsInstanceId kmsInstanceUrl = c := by
  unfold filled filledId filledUrl
  rw [if_neg h.1, if_neg h.2]

theorem filled_complete (hid : ¬ (c.kmsInstanceId = "" ∧ kmsInstanceId = ""))
    (hurl : ¬ (c.kmsInstanceUrl = "" ∧ kmsInstanceUrl = "")) : (c.filled kmsInstanceId kmsInstanceUrl).Complete := by
  constructor
  · show (if c.kmsInstanceId = "" then kmsInstanceId else c.kmsInstanceId) ≠ ""
    by_cases h : c.kmsInstanceId = ""
    · rw [if_pos h]; exact fun h' => hid ⟨h, h'⟩
    · rw [if_neg h]; exact h
  · show (if c.kmsInstanceUrl = "" then kmsInstanceUrl else c.kmsInstanceUrl) ≠ ""
    by_cases h : c.kmsInstanceUrl = ""
    · rw [if_pos h]; exact fun h' => hurl ⟨h, h'⟩
    · rw [if_neg h]; exact h

/-- A footer without a URL fills in none. -/
theorem filledUrl_empty (h : c.kmsInstanceUrl = "") : c.filledUrl "" = c := by
  unfold filledUrl
  rw [if_pos h, ← h]

theorem withInstanceId_cases (c : KmsConnectionConfig) (kmsInstanceId : String) :
    (c.kmsInstanceId = "" ∧ kmsInstanceId = "" ∧ ∃ e, KeyUnwrapper.withInstanceId c kmsInstanceId = .error e) ∨
      (¬ (c.kmsInstanceId = "" ∧ kmsInstanceId = "") ∧
        KeyUnwrapper.withInstanceId c kmsInstanceId = .ok (c.filledId kmsInstanceId)) := by
  cases h : KeyUnwrapper.withInstanceId c kmsInstanceId with
  | error e =>
    refine Or.inl ⟨?_, String.isEmpty_iff.mp (KeyUnwrapper.withInstanceId_error h), e, rfl⟩
    unfold KeyUnwrapper.withInstanceId at h
    by_cases hc : c.kmsInstanceId.isEmpty
    · exact String.isEmpty_iff.mp hc
    · rw [if_neg hc] at h; cases h
  | ok c' =>
    have hc' := KeyUnwrapper.withInstanceId_ok h
    simp only [String.isEmpty_iff] at hc'
    refine Or.inr ⟨fun hempty => ?_, by rw [hc']; rfl⟩
    unfold KeyUnwrapper.withInstanceId at h
    rw [if_pos (String.isEmpty_iff.mpr hempty.1), if_pos (String.isEmpty_iff.mpr hempty.2)] at h
    cases h

theorem withInstanceUrl_cases (c : KmsConnectionConfig) (kmsInstanceUrl : String) :
    (c.kmsInstanceUrl = "" ∧ kmsInstanceUrl = "" ∧ ∃ e, KeyUnwrapper.withInstanceUrl c kmsInstanceUrl = .error e) ∨
      (¬ (c.kmsInstanceUrl = "" ∧ kmsInstanceUrl = "") ∧
        KeyUnwrapper.withInstanceUrl c kmsInstanceUrl = .ok (c.filledUrl kmsInstanceUrl)) := by
  cases h : KeyUnwrapper.withInstanceUrl c kmsInstanceUrl with
  | error e =>
    refine Or.inl ⟨?_, String.isEmpty_iff.mp (KeyUnwrapper.withInstanceUrl_error h), e, rfl⟩
    unfold KeyUnwrapper.withInstanceUrl at h
    by_cases hc : c.kmsInstanceUrl.isEmpty
    · exact String.isEmpty_iff.mp hc
    · rw [if_neg hc] at h; cases h
  | ok c' =>
    have hc' := KeyUnwrapper.withInstanceUrl_ok h
    simp only [String.isEmpty_iff] at hc'
    refine Or.inr ⟨fun hempty => ?_, by rw [hc']; rfl⟩
    unfold KeyUnwrapper.withInstanceUrl at h
    rw [if_pos (String.isEmpty_iff.mpr hempty.1), if_pos (String.isEmpty_iff.mpr hempty.2)] at h
    cases h

end KmsConnectionConfig

namespace KeyUnwrapper

variable (u : KeyUnwrapper)

/-- The configuration the unwrapper holds. -/
def heldConfig (w : World) : KmsConnectionConfig := w.configs u.kmsConnectionConfig

@[simp] theorem heldConfig_set (c : KmsConnectionConfig) (w : World) :
    u.heldConfig ((configPlace u.kmsConnectionConfig).set c w) = c := Function.update_self ..

theorem set_heldConfig (w : World) : (configPlace u.kmsConnectionConfig).set (u.heldConfig w) w = w := by
  show { w with configs := Function.update w.configs u.kmsConnectionConfig (w.configs u.kmsConnectionConfig) } = w
  rw [Function.update_eq_self]

theorem set_set (c c' : KmsConnectionConfig) (w : World) :
    (configPlace u.kmsConnectionConfig).set c' ((configPlace u.kmsConnectionConfig).set c w) =
      (configPlace u.kmsConnectionConfig).set c' w := by
  show { w with
    configs := Function.update (Function.update w.configs u.kmsConnectionConfig c) u.kmsConnectionConfig c' } = _
  rw [Function.update_idem]
  rfl

/-- An update writes the held configuration and nothing else. -/
theorem update_cases (kmsInstanceId kmsInstanceUrl : String) (w : World) :
    ∃ r c, updateKmsConfigFromFooterMetadata u kmsInstanceId kmsInstanceUrl w =
        (r, (configPlace u.kmsConnectionConfig).set c w) ∧
      UpdateCase (u.heldConfig w) kmsInstanceId kmsInstanceUrl r c := by
  unfold updateKmsConfigFromFooterMetadata
  rw [bind_ok (read_run _ _)]
  show ∃ r c, (if ¬ (u.heldConfig w).kmsInstanceId.isEmpty ∧ ¬ (u.heldConfig w).kmsInstanceUrl.isEmpty then _ else _ :
    Call Unit) w = _ ∧ _
  by_cases hset : ¬ (u.heldConfig w).kmsInstanceId.isEmpty ∧ ¬ (u.heldConfig w).kmsInstanceUrl.isEmpty
  · have hcomplete : (u.heldConfig w).Complete :=
      ⟨fun h => hset.1 (String.isEmpty_iff.mpr h), fun h => hset.2 (String.isEmpty_iff.mpr h)⟩
    have hfilled := hcomplete.filled_eq kmsInstanceId kmsInstanceUrl
    refine ⟨.ok (), (u.heldConfig w).filled kmsInstanceId kmsInstanceUrl, ?_, .ok ?_⟩
    · rw [if_pos hset, hfilled, set_heldConfig]
      rfl
    · rw [hfilled]
      exact hcomplete
  · rw [if_neg hset]
    rcases KmsConnectionConfig.withInstanceId_cases (u.heldConfig w) kmsInstanceId with
      ⟨hid, hid', e, he⟩ | ⟨hid, hok⟩
    · refine ⟨.err e, u.heldConfig w, ?_, .noId e hid hid'⟩
      rw [set_heldConfig]
      exact bind_err (by rw [show (configPlace u.kmsConnectionConfig).get w = u.heldConfig w from rfl, he]; rfl)
    · rw [show (configPlace u.kmsConnectionConfig).get w = u.heldConfig w from rfl, hok, bind_ok (ofExcept_ok _ _),
        bind_ok (modify_run _ _)]
      -- the ID is in the held configuration, whatever becomes of the URL
      rcases KmsConnectionConfig.withInstanceUrl_cases ((u.heldConfig w).filledId kmsInstanceId) kmsInstanceUrl with
        ⟨hurl, hurl', e, he⟩ | ⟨hurl, hok'⟩
      · refine ⟨.err e, (u.heldConfig w).filled kmsInstanceId kmsInstanceUrl, ?_, .noUrl e hid hurl hurl'⟩
        rw [KmsConnectionConfig.filled, hurl', KmsConnectionConfig.filledUrl_empty hurl, ← hurl']
        exact bind_err (by rw [he]; rfl)
      · refine ⟨.ok (), (u.heldConfig w).filled kmsInstanceId kmsInstanceUrl, ?_,
          .ok (KmsConnectionConfig.filled_complete hid hurl)⟩
        rw [hok', bind_ok (ofExcept_ok _ _), modify_run, set_set]
        rfl

/-- A footer's update, or none. -/
theorem updateKmsConfig_cases (m : KeyMaterial) (w : World) :
    updateKmsConfig u m w = (.ok (), w) ∨ ∃ kmsInstanceId kmsInstanceUrl r c, m.kmsInstanceId = some kmsInstanceId ∧
      m.kmsInstanceUrl = some kmsInstanceUrl ∧
      updateKmsConfig u m w = (r, (configPlace u.kmsConnectionConfig).set c w) ∧
      UpdateCase (u.heldConfig w) kmsInstanceId kmsInstanceUrl r c := by
  unfold updateKmsConfig
  cases hid : m.kmsInstanceId with
  | none => exact Or.inl rfl
  | some kmsInstanceId =>
    cases hurl : m.kmsInstanceUrl with
    | none => exact Or.inl rfl
    | some kmsInstanceUrl =>
      obtain ⟨r, c, hrun, hcase⟩ := u.update_cases kmsInstanceId kmsInstanceUrl w
      exact Or.inr ⟨kmsInstanceId, kmsInstanceUrl, r, c, rfl, rfl, hrun, hcase⟩

/-- An update leaves all but the held configuration alone. -/
theorem updateKmsConfig_set_config (m : KeyMaterial) (w : World) :
    ∃ c, (updateKmsConfig u m w).2 = (configPlace u.kmsConnectionConfig).set c w := by
  rcases u.updateKmsConfig_cases m w with h | ⟨_, _, r, c, _, _, h, _⟩
  · exact ⟨u.heldConfig w, by rw [h, set_heldConfig]⟩
  · exact ⟨c, by rw [h]⟩

/-! ## Asking for a key -/

/-- How asking the KMS for a key can end. -/
inductive Unwrapping (wrapped masterKeyId : String) (w : World) : Outcome ParquetError Bytes × World → Prop
  | served (client : KmsClient) (key : Bytes) (w1 : World) : RegistryOnly w w1 →
    Unwrapping wrapped masterKeyId w (.ok key, w1.record (.unwrapKey client wrapped masterKeyId (.ok key)))
  | failed (e : ParquetError) (w1 : World) : RegistryOnly w w1 → Unwrapping wrapped masterKeyId w (.err e, w1)
  | panicked (w1 : World) : RegistryOnly w w1 → Unwrapping wrapped masterKeyId w (.panic, w1)

theorem unwrapWithKms_cases (wrapped masterKeyId : String) (w : World) :
    Unwrapping wrapped masterKeyId w (unwrapWithKms env u wrapped masterKeyId w) := by
  unfold unwrapWithKms
  rw [bind_ok (read_run _ _)]
  have hframe := RegistryOnly.of_along (KmsManager.getClient_frame env u.kmsManager
    ((configPlace u.kmsConnectionConfig).get w) u.decryptionConfiguration.cacheLifetime w)
  rcases hget : KmsManager.getClient env u.kmsManager ((configPlace u.kmsConnectionConfig).get w)
    u.decryptionConfiguration.cacheLifetime w with ⟨client | e | _, w1⟩
  · rw [hget] at hframe
    rw [bind_ok hget]
    rcases unwrapKey_cases env client wrapped masterKeyId w1 with ⟨key, hkey⟩ | ⟨e, he, hfail⟩
    · rw [hkey]
      exact .served client key w1 hframe
    · rw [show unwrapKey env client wrapped masterKeyId w1 = (.err e, _) from Prod.ext he rfl]
      exact .failed e _ (hframe.trans hfail)
  · rw [hget] at hframe
    rw [bind_err hget]
    exact .failed e w1 hframe
  · rw [hget] at hframe
    rw [bind_panic hget]
    exact .panicked w1 hframe

/-- How looking for the KEK of a material can end. -/
inductive KekCase (masterKeyId kekId wrappedKek : String) (w : World) : Outcome ParquetError Bytes × World → Prop
  | cached (kek : Bytes) : (u.keks.get w).lookup kekId = some kek → KekCase masterKeyId kekId wrappedKek w (.ok kek, w)
  | stored (client : KmsClient) (kek : Bytes) (w1 : World) : (u.keks.get w).lookup kekId = none → RegistryOnly w w1 →
    KekCase masterKeyId kekId wrappedKek w (.ok kek, u.keks.modify (fun c => c.insert kekId kek)
      (w1.record (.unwrapKey client wrappedKek masterKeyId (.ok kek))))
  | failed (e : ParquetError) (w1 : World) : RegistryOnly w w1 → KekCase masterKeyId kekId wrappedKek w (.err e, w1)
  | panicked (w1 : World) : RegistryOnly w w1 → KekCase masterKeyId kekId wrappedKek w (.panic, w1)

theorem getKek_cases (masterKeyId kekId wrappedKek : String) (w : World) :
    KekCase u masterKeyId kekId wrappedKek w (getKek env u masterKeyId kekId wrappedKek w) := by
  unfold getKek
  rw [bind_ok (read_run _ _)]
  cases hl : (u.keks.get w).lookup kekId with
  | some kek => exact .cached kek hl
  | none =>
    show KekCase u masterKeyId kekId wrappedKek w ((do
      let kek ← unwrapWithKms env u wrappedKek masterKeyId
      Eff.modify (u.keks.modify fun m => m.insert kekId kek)
      pure kek : Call Bytes) w)
    have hcase := unwrapWithKms_cases env u wrappedKek masterKeyId w
    cases hrun : unwrapWithKms env u wrappedKek masterKeyId w with | mk r w1 =>
    rw [hrun] at hcase
    cases hcase with
    | served client key w1 hframe =>
      rw [bind_ok hrun, bind_ok (modify_run _ _)]
      exact .stored client key w1 hl hframe
    | failed e w1 hframe =>
      rw [bind_err hrun]
      exact .failed e w1 hframe
    | panicked w1 hframe =>
      rw [bind_panic hrun]
      exact .panicked w1 hframe

/-! ## Opening a wrapped DEK -/

/-- What follows once the KEK is there: its ID is decoded, and the DEK decrypted. -/
def openDek (wrappedDek kekId : String) (kek : Bytes) : Outcome ParquetError Bytes :=
  match decodeKekId env kekId with
  | .error e => .err e
  | .ok decodedKekId => decryptEncryptionKey env wrappedDek decodedKekId kek

theorem unwrapDoubleWrappedKey_eq (wrappedDek masterKeyId kekId wrappedKek : String) :
    unwrapDoubleWrappedKey env u wrappedDek masterKeyId kekId wrappedKek =
      lock (readCachePlace u.kekCache) (getKek env u masterKeyId kekId wrappedKek >>= fun kek =>
        Eff.ofOutcome (openDek env wrappedDek kekId kek)) := by
  unfold unwrapDoubleWrappedKey openDek
  refine congrArg _ (congrArg _ (funext fun kek => ?_))
  cases decodeKekId env kekId with
  | error e => rfl
  | ok decodedKekId => rfl

end KeyUnwrapper

end ParquetKeyManagement
