/-
  ParquetKeyManagement.Factory.FailedRetrieval — what a retrieval that fails leaves in the
  shared KEK caches.

  A KEK is stored as soon as the KMS has unwrapped it, before its ID is decoded and before the
  wrapped DEK is decrypted with it, so that no other reader asks the KMS for it again.
  - `failed_retrieval`: a failed retrieval leaves the KEK caches as they were, but for a KEK
    that the KMS unwrapped during the call (`LeavesKek`); the failure is then that of opening
    the wrapped DEK.
  - `failed_retrieval_leaves_kek`: a wrapped DEK that does not authenticate.
-/

import ParquetKeyManagement.Factory.Panics
import ParquetKeyManagement.Keys.Retrieval

namespace ParquetKeyManagement

open Effect

variable (env : Env)

/-- The call put a KEK into the cache that the KMS had just unwrapped for the material, and
    failed on what the KEK was for. -/
structure LeavesKek (u : KeyUnwrapper) (m : KeyMaterial) (kekId : String) (kek : Bytes) (e : ParquetError)
    (w w' : World) : Prop where
  internalStorage : m.internalStorage = true
  doubleWrapping : m.doubleWrapping = true
  keyEncryptionKeyId : m.keyEncryptionKeyId = some kekId
  absent : (u.keks.get w).lookup kekId = none
  unwrapped : ∃ client wrappedKek, m.wrappedKek = some wrappedKek ∧
    .unwrapKey client wrappedKek m.masterKeyId (.ok kek) ∈ w'.log.drop w.log.length
  stored : w'.readCaches = (u.keks.modify (fun c => c.insert kekId kek) w).readCaches
  refused : KeyUnwrapper.openDek env m.wrappedDek kekId kek = .err e

namespace KeyUnwrapper

variable {env} {u : KeyUnwrapper} {m : KeyMaterial} {e : ParquetError} {w w' : World}

theorem single_failed {wrapped masterKeyId : String} (h : unwrapWithKms env u wrapped masterKeyId w = (.err e, w')) :
    w'.readCaches = w.readCaches := by
  have hcase := unwrapWithKms_cases env u wrapped masterKeyId w
  rw [h] at hcase
  cases hcase with
  | failed e w1 hframe => exact hframe.readCaches

theorem keks_modify_readCaches {w1 : World} (f : HashMap String Bytes → HashMap String Bytes)
    (h : w1.readCaches = w.readCaches) : (u.keks.modify f w1).readCaches = (u.keks.modify f w).readCaches := by
  show Function.update w1.readCaches u.kekCache
    { w1.readCaches u.kekCache with data := f (w1.readCaches u.kekCache).data } =
    Function.update w.readCaches u.kekCache { w.readCaches u.kekCache with data := f (w.readCaches u.kekCache).data }
  rw [h]

/-- Under double wrapping: only a failure after the KMS leaves a KEK behind. -/
theorem double_failed {masterKeyId kekId wrappedDek wrappedKek : String}
    (h : unwrapDoubleWrappedKey env u wrappedDek masterKeyId kekId wrappedKek w = (.err e, w')) :
    w'.readCaches = w.readCaches ∨ ∃ kek client, (u.keks.get w).lookup kekId = none ∧
      .unwrapKey client wrappedKek masterKeyId (.ok kek) ∈ w'.log.drop w.log.length ∧
      w'.readCaches = (u.keks.modify (fun c => c.insert kekId kek) w).readCaches ∧
      openDek env wrappedDek kekId kek = .err e := by
  rw [unwrapDoubleWrappedKey_eq] at h
  have hcase := getKek_cases env u masterKeyId kekId wrappedKek w
  rcases bind_inv (lock_err h) with ⟨kek, w1, hkek, hopen⟩ | ⟨e', hkek, _⟩ | ⟨_, hpanic⟩
  · rw [ofOutcome_run] at hopen
    obtain ⟨hrefused, rfl⟩ := Prod.mk.inj hopen
    rw [hkek] at hcase
    cases hcase with
    | cached kek hl => exact Or.inl rfl
    | stored client kek w2 hl hframe =>
      obtain ⟨es, hlog, _⟩ := hframe.log
      refine Or.inr ⟨kek, client, hl, ?_, keks_modify_readCaches _ hframe.readCaches, hrefused⟩
      show _ ∈ (w2.log ++ [_]).drop w.log.length
      rw [hlog, List.append_assoc, List.drop_left]
      exact List.mem_append_right _ (List.mem_singleton.mpr rfl)
  · rw [hkek] at hcase
    cases hcase with
    | failed e w1 hframe => exact Or.inl hframe.readCaches
  · cases hpanic

end KeyUnwrapper

/-- A failed retrieval leaves the KEK caches as they were, but for a KEK that the KMS unwrapped
    for it. -/
theorem failed_retrieval {u : KeyUnwrapper} {keyMetadata : Bytes} {e : ParquetError} {w w' : World}
    (h : u.retrieveKey env keyMetadata w = (.err e, w')) :
    w'.readCaches = w.readCaches ∨ ∃ m kekId kek, KeyUnwrapper.readMaterial env keyMetadata = .ok m ∧
      LeavesKek env u m kekId kek e w w' := by
  by_cases hi : ∃ m, KeyUnwrapper.readMaterial env keyMetadata = .ok m ∧ m.internalStorage = true
  · obtain ⟨m, hread, hi⟩ := hi
    rw [KeyUnwrapper.retrieveKey_eq env u m hread hi] at h
    obtain ⟨c, hset⟩ := u.updateKmsConfig_set_config m w
    rcases bind_inv h with ⟨_, w1, hupdate, hrest⟩ | ⟨e', hupdate, _⟩ | ⟨_, hpanic⟩
    · rw [hupdate] at hset
      subst hset
      unfold KeyUnwrapper.unwrapDek at hrest
      cases hd : m.doubleWrapping with
      | false =>
        rw [if_neg (by simp [hd])] at hrest
        have hsame := KeyUnwrapper.single_failed hrest
        exact Or.inl hsame
      | true =>
        rw [if_pos hd] at hrest
        cases hk : m.keyEncryptionKeyId with
        | none => rw [hk] at hrest; cases hrest; exact Or.inl rfl
        | some kekId =>
          cases hw : m.wrappedKek with
          | none => rw [hk, hw] at hrest; cases hrest; exact Or.inl rfl
          | some wrappedKek =>
            rw [hk, hw] at hrest
            rcases KeyUnwrapper.double_failed hrest with hsame | ⟨kek, client, hl, hlog, hstored, hopen⟩
            · exact Or.inl hsame
            · exact Or.inr ⟨m, kekId, kek, hread, hi, hd, hk, hl, ⟨client, wrappedKek, hw, hlog⟩, hstored, hopen⟩
    · rw [hupdate] at hset
      subst hset
      exact Or.inl rfl
    · cases hpanic
  · have hrefused : ∀ m, KeyUnwrapper.readMaterial env keyMetadata = .ok m → m.internalStorage = false :=
      fun m hread => Bool.eq_false_iff.mpr fun hint => hi ⟨m, hread, hint⟩
    obtain ⟨e', he⟩ := u.retrieveKey_refused env w hrefused
    rw [he] at h
    cases h
    exact Or.inl rfl

/-- A wrapped DEK of the right length that no KEK sealed. -/
def sampleForged : KeyMaterial := sampleMaterial (Base64.encode (counter 0 28))

theorem sampleForged_refused {keyMetadata : Bytes}
    (hread : KeyUnwrapper.readMaterial Env.sample keyMetadata = .ok sampleForged) :
    (sampleUnwrapper.retrieveKey Env.sample keyMetadata sampleReading.world).1 =
      .err (.external "ring::error::Unspecified") := by
  rw [KeyUnwrapper.retrieveKey_eq _ _ _ hread rfl]
  decide +kernel

theorem failed_retrieval_sample :
    ∃ keyMetadata e w', sampleUnwrapper.retrieveKey Env.sample keyMetadata sampleReading.world = (.err e, w') ∧
      (w'.readCaches = sampleReading.world.readCaches ∨
        ∃ m kekId kek, KeyUnwrapper.readMaterial Env.sample keyMetadata = .ok m ∧
          LeavesKek Env.sample sampleUnwrapper m kekId kek e sampleReading.world w') := by
  obtain ⟨keyMetadata, hread⟩ := KeyWrapper.exists_metadata Env.sample (m := sampleForged) rfl
  have hrun : sampleUnwrapper.retrieveKey Env.sample keyMetadata sampleReading.world =
      (.err (.external "ring::error::Unspecified"), _) := Prod.ext (sampleForged_refused hread) rfl
  exact ⟨keyMetadata, _, _, hrun, failed_retrieval Env.sample hrun⟩

/-- The DEK does not authenticate, and the KEK stays. -/
theorem failed_retrieval_leaves_kek :
    ∃ keyMetadata, KeyUnwrapper.readMaterial Env.sample keyMetadata = .ok sampleForged ∧
      sampleReading.readers.map Reader.unwrapper = [sampleUnwrapper] ∧
      (sampleUnwrapper.retrieveKey Env.sample keyMetadata sampleReading.world).1 =
        .err (.external "ring::error::Unspecified") ∧
      (sampleUnwrapper.keks.get sampleReading.world).lookup "" = none ∧
      (sampleUnwrapper.keks.get (sampleUnwrapper.retrieveKey Env.sample keyMetadata sampleReading.world).2).lookup "" =
        some (counter 7 kekLen) := by
  obtain ⟨keyMetadata, hread⟩ := KeyWrapper.exists_metadata Env.sample (m := sampleForged) rfl
  refine ⟨keyMetadata, hread, by decide +kernel, sampleForged_refused hread, by decide +kernel, ?_⟩
  rw [KeyUnwrapper.retrieveKey_eq _ _ _ hread rfl]
  decide +kernel

end ParquetKeyManagement
