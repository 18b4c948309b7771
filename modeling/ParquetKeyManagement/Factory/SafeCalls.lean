/-
  ParquetKeyManagement.Factory.SafeCalls — wrapping and unwrapping keep to the contract.

  Both directions look a KEK up and, if it is missing, have it made or unwrapped and store
  it, under the mutex of the KEK cache; in between the thread takes other locks and calls
  user code. What was missing is still missing when it is stored, since programs that keep
  to the order of locks leave a mutex alone that is held over them (`Routine.Safe.frame`).
  - `fileEncryptionProperties_safe`: every key that is handed out reads as a material made
    for it.
  - `retrieveKey_safe`: from issued metadata comes a key of its material, or an error that a
    call of user code returned.
-/

import ParquetKeyManagement.Factory.SafeRegistry

namespace ParquetKeyManagement

open Effect Locks

/-! ## Writing -/

section

variable {env : Env} {strict : Prop} {limit : Instant} {drawn : List DrawnKek} {k : KeyWrapper} {isFooterKey : Bool}
  {key : Bytes} {masterKeyId : String} {m : KeyMaterial}

theorem materialBuilder_instance (k : KeyWrapper) (isFooterKey : Bool) :
    (∀ id, (k.materialBuilder isFooterKey).kmsInstanceId = some id → id ≠ "") ∧
      ∀ url, (k.materialBuilder isFooterKey).kmsInstanceUrl = some url → url ≠ "" := by
  cases isFooterKey with
  | true => exact ⟨fun id he => Option.some.inj he ▸ orDefault_ne _, fun url he => Option.some.inj he ▸ orDefault_ne _⟩
  | false => exact ⟨fun id he => (by cases he), fun url he => (by cases he)⟩

theorem MaterialOf.single {wrapped : String} (hw : WrappedByKms env key masterKeyId wrapped)
    (hb : ((k.materialBuilder isFooterKey).withSingleWrappedKey masterKeyId wrapped).build = .ok m) :
    MaterialOf env drawn key m := by
  have hm := KeyMaterialBuilder.build_ok hb
  obtain ⟨hid, hurl⟩ := materialBuilder_instance k isFooterKey
  obtain rfl : m.masterKeyId = masterKeyId := Option.some.inj hm.masterKeyId
  obtain rfl : m.wrappedDek = wrapped := Option.some.inj hm.wrappedDek
  exact ⟨hm.keyMaterialType, hm.internalStorage, fun id he => hid id (hm.kmsInstanceId ▸ he),
    fun url he => hurl url (hm.kmsInstanceUrl ▸ he), .single hm.doubleWrapping hw⟩

theorem MaterialOf.double {kek : KeyEncryptionKey} {wrappedDek : String} (hk : MadeKek env drawn masterKeyId kek)
    (hdec : decryptEncryptionKey env wrappedDek kek.keyId kek.key = .ok key)
    (hb : ((k.materialBuilder isFooterKey).withDoubleWrappedKey masterKeyId kek.encodedKeyId kek.wrappedKey
      wrappedDek).build = .ok m) : MaterialOf env drawn key m := by
  have hm := KeyMaterialBuilder.build_ok hb
  obtain ⟨hid, hurl⟩ := materialBuilder_instance k isFooterKey
  obtain rfl : m.masterKeyId = masterKeyId := Option.some.inj hm.masterKeyId
  obtain rfl : m.wrappedDek = wrappedDek := Option.some.inj hm.wrappedDek
  exact ⟨hm.keyMaterialType, hm.internalStorage, fun id he => hid id (hm.kmsInstanceId ▸ he),
    fun url he => hurl url (hm.kmsInstanceUrl ▸ he),
    .double kek hm.doubleWrapping hk hm.keyEncryptionKeyId hm.wrappedKek hdec⟩

end

/-- What a thread holds while the KMS unwraps a KEK for it. -/
def KeyUnwrapper.guardsOverKms (u : KeyUnwrapper) : List (LibraryLock × Mode) :=
  [(.config u.kmsConnectionConfig, .shared), (.kekReads u.kekCache, .exclusive)]

namespace Interleaved

section

variable {env : Env} {kms : UserKms} {strict : Prop} {limit : Instant} {held : List (LibraryLock × Mode)} {s : Ledger}
  {m : ManagerId} {config : KmsConnectionConfig} {lifetime : Option Duration} {masterKeyId : String}

theorem fill_safe (len : Nat) : (call (fill env len)).Safe (sharing env strict limit) held s (fun _ _ => True)
    (fun _ _ => True) (Late strict limit) := by
  refine call_safe (fun s' _ => ?_) fun r s' s'' hr h =>
    ends_evolves (fun _ _ _ _ h => h) (fun _ _ _ _ h => h) (fun _ _ he h => h.evolves he) h hr.evolves
  cases hr : env.fill s'.world.calls len with
  | some bytes =>
    refine Along.of_ok (t := s'.world.tick 0) (a := bytes.1) ?_ (.single (calm_tick _ 0)) trivial
    simp only [fill, hr]
  | none =>
    refine Along.of_err (t := s'.world.tick 0) (e := .external "ring::error::Unspecified") ?_
      (.single (calm_tick _ 0)) trivial
    simp only [fill, hr]

theorem drawKeyId_safe (key : Bytes) : (Routine.ofCall (drawKeyId env key)).Safe (sharing env strict limit) held s
    (fun keyId s' => ∃ use, ⟨key, keyId, use⟩ ∈ s'.drawn) (fun _ _ => True) (Late strict limit) := by
  refine .ofCall fun s' hr => ?_
  unfold drawKeyId fill
  cases hf : env.fill s'.world.calls kekLen with
  | some keyId =>
    refine ⟨hr.inv.draw ⟨keyId.2, hf⟩, fun s'' hr' => ⟨s'.world.calls, hr'.evolves.drawn ?_⟩⟩
    exact List.mem_append_right _ (List.mem_singleton.mpr rfl)
  | none => exact ⟨(calm_tick s'.world 0).guar hr.inv, fun _ _ => trivial⟩

theorem generateKeyEncryptionKey_safe (h : kms.Serves env) (hs : LedgerInv env strict limit s)
    (hfits : strict → Fits limit lifetime) (m : ManagerId) (config : KmsConnectionConfig) (masterKeyId : String) :
    (generateKeyEncryptionKey env kms m config lifetime masterKeyId).Safe (sharing env strict limit) held s
      (fun kek s' => MadeKek env s'.drawn masterKeyId kek) (fun _ _ => True) (Late strict limit) := by
  refine .bind hs (fill_safe kekLen) fun key s1 hs1 _ _ => ?_
  refine .bind hs1 (drawKeyId_safe key) fun keyId s2 hs2 _ hdrawn => ?_
  refine .bind hs2 ((getClient_safe h hs2 hfits (Nat.zero_le _)).mono (fun _ _ h => h)
    (fun _ _ _ => trivial) fun _ h => h) fun client s3 hs3 he3 _ => ?_
  refine .bind hs3 (wrapKey_safe h client key masterKeyId) fun wrappedKey s4 hs4 he4 hwrapped => .pure fun s5 hr5 => ?_
  obtain ⟨use, hmem⟩ := hdrawn
  exact ⟨rfl, ⟨use, hr5.evolves.drawn (he4.drawn (he3.drawn hmem))⟩, hwrapped⟩

/-- The KEK of a master key. What was missing when the cache was looked up is missing when the new KEK is stored. -/
theorem getWriteKek_safe {k : KeyWrapper} (h : kms.Serves env) (hs : LedgerInv env strict limit s)
    (hfits : strict → Fits limit k.encryptionConfiguration.cacheLifetime)
    (hk : k.masterKeyToKek < s.world.nextWriteCache) :
    (getWriteKek env kms k masterKeyId).Safe (sharing env strict limit) [(.kekWrites k.masterKeyToKek, .exclusive)] s
      (fun kek s' => MadeKek env s'.drawn masterKeyId kek) (fun _ _ => True) (Late strict limit) := by
  have hheld : (LibraryLock.kekWrites k.masterKeyToKek, Mode.exclusive) ∈
      [(LibraryLock.kekWrites k.masterKeyToKek, Mode.exclusive)] :=
    List.mem_singleton.mpr rfl
  refine .bind (p := fun keks s' => keks = (s'.world.writeCaches k.masterKeyToKek).data) hs ?_
    fun keks s1 hs1 he1 hkeks => ?_
  · refine call_safe (fun s' _ => .read rfl) fun r s' s'' hr h => ?_
    cases r with
    | ok keks => exact Eq.trans h (congrArg Mutex.data (hr.same _ hheld)).symm
    | err e => trivial
    | panic => exact h.evolves hr.evolves
  subst hkeks
  cases hl : (s1.world.writeCaches k.masterKeyToKek).data.lookup masterKeyId with
  | some kek => exact .pure fun s' hr => (hs1.writeKeks _ _ _ hl).mono hr.evolves.drawn
  | none =>
    have hmake : (generateKeyEncryptionKey env kms k.kmsManager k.kmsConnectionConfig
        k.encryptionConfiguration.cacheLifetime masterKeyId).Safe (sharing env strict limit) [] s1
        (fun kek s' => MadeKek env s'.drawn masterKeyId kek) (fun _ _ => True) (Late strict limit) :=
      generateKeyEncryptionKey_safe h hs1 hfits _ _ _
    have hordered := @generateKeyEncryptionKey_ordered env kms true
      [(.kekWrites k.masterKeyToKek, .exclusive)] h.ordered
      (fun g hg _ => by cases List.mem_singleton.mp hg; exact Nat.zero_lt_two) k.kmsManager k.kmsConnectionConfig
      k.encryptionConfiguration.cacheLifetime masterKeyId
    have hframe := hmake.frame (O := libraryOrder true) hordered fun g _ hg => by cases hg
    refine .bind hs1 (hframe.mono (fun _ _ h => h) (fun _ _ h => h.1) fun _ h => h.1) fun kek s2 hs2 he2 hkek => ?_
    have hmissing : (s2.world.writeCaches k.masterKeyToKek).data.lookup masterKeyId = none := by
      rw [hkek.2 _ hheld]
      exact hl
    refine .bind (p := fun _ _ => True) hs2 (.ofCall fun s3 hr3 => ⟨?_, fun _ _ => trivial⟩) fun _ s3 _ he3 _ =>
      .pure fun s4 hr4 => hkek.1.mono (List.Subset.trans he3.drawn hr4.evolves.drawn)
    have hk3 : k.masterKeyToKek < s3.world.nextWriteCache :=
      lt_of_lt_of_le hk (((he1.trans he2).trans hr3.evolves).world.nextWriteCache)
    have hsame : s3.world.writeCaches k.masterKeyToKek = s2.world.writeCaches k.masterKeyToKek := hr3.same _ hheld
    refine hr3.inv.setWriteCache hheld hk3 (fun masterKeyId' kek' hl' => ?_) (fun masterKeyId' kek' hl' => ?_)
      fun hstrict hlimit => ?_
    · show ((s3.world.writeCaches k.masterKeyToKek).data.insert masterKeyId kek).lookup masterKeyId' = some kek'
      by_cases hne : masterKeyId' = masterKeyId
      · rw [hne, hsame, hmissing] at hl'
        cases hl'
      · rwa [AList.lookup_insert_ne hne]
    · change ((s3.world.writeCaches k.masterKeyToKek).data.insert masterKeyId kek).lookup
        masterKeyId' = some kek' at hl'
      by_cases hne : masterKeyId' = masterKeyId
      · subst hne
        rw [AList.lookup_insert] at hl'
        cases hl'
        exact Or.inr (hkek.1.mono hr3.evolves.drawn)
      · rw [AList.lookup_insert_ne hne] at hl'
        exact Or.inl hl'
    · exact Bool.eq_false_iff.mpr fun hp => hr3.inv.intact hstrict hlimit (Or.inr (Or.inr ⟨_, hp⟩))

/-- Encrypting a data key changes no cache, and what it gives decrypts to the key. -/
theorem encrypt_safe (key kekId kekBytes : Bytes) :
    (call (encryptEncryptionKey env key kekId kekBytes)).Safe (sharing env strict limit) held s
      (fun wrappedDek _ => decryptEncryptionKey env wrappedDek kekId kekBytes = .ok key) (fun _ _ => True)
      (Late strict limit) := by
  refine call_safe (fun s' _ => ?_) fun r s' s'' hr h =>
    ends_evolves (fun _ _ _ _ h => h) (fun _ _ _ _ h => h) (fun _ _ he h => h.evolves he) h hr.evolves
  unfold encryptEncryptionKey
  refine Along.bind (Along.ofExcept (p := fun a _ => aesKey kekBytes = .ok a) (fun _ h => h) fun _ _ => trivial)
    fun kek w1 _ haes => ?_
  obtain ⟨hlen, rfl⟩ := aesKey_ok haes
  refine Along.bind (p := fun nonce _ => nonce.length = nonceLen) ?_ fun nonce w2 _ hn => ?_
  · cases hr : env.fill w1.calls nonceLen with
    | some bytes =>
      refine Along.of_ok (t := w1.tick 0) (a := bytes.1) ?_ (.single (calm_tick _ 0)) bytes.2
      simp only [fill, hr]
    | none =>
      refine Along.of_err (t := w1.tick 0) (e := .external "ring::error::Unspecified") ?_
        (.single (calm_tick _ 0)) trivial
      simp only [fill, hr]
  · cases hseal : env.aes128Gcm.sealDetached kek nonce kekId key with
    | none => exact Along.fail trivial
    | some r => exact Along.pure (decrypt_of_seal env hlen hn hseal)

theorem build_safe {b : KeyMaterialBuilder} {p : KeyMaterial → Ledger → Prop}
    (hp : ∀ m s', s.Evolves s' → b.build = .ok m → p m s') (hkeep : ∀ m s s', s.Evolves s' → p m s → p m s') :
    (call (Eff.ofExcept b.build)).Safe (sharing env strict limit) held s p (fun _ _ => True) (Late strict limit) := by
  refine call_safe (fun s' hr => Along.ofExcept (fun m hm => hp m s' hr.evolves hm) fun _ _ => trivial)
    fun r s' s'' hr h => ?_
  exact ends_evolves hkeep (fun _ _ _ _ h => h) (fun _ _ he h => h.evolves he) h hr.evolves

variable {k : KeyWrapper}

/-- What a wrapper has to be for its calls to be safe. -/
structure WrapperInv (strict : Prop) (limit : Instant) (k : KeyWrapper) (s : Ledger) : Prop where
  exists_cache : k.masterKeyToKek < s.world.nextWriteCache
  fits : strict → Fits limit k.encryptionConfiguration.cacheLifetime

theorem WrapperInv.evolves {s' : Ledger} (h : WrapperInv strict limit k s) (he : s.Evolves s') :
    WrapperInv strict limit k s' :=
  { h with exists_cache := lt_of_lt_of_le h.exists_cache he.world.nextWriteCache }

theorem doubleWrap_safe (h : kms.Serves env) (hk : WrapperInv strict limit k s) (key : Bytes) (masterKeyId : String)
    (isFooterKey : Bool) :
    (doubleWrap env kms k key masterKeyId (k.materialBuilder isFooterKey)).Safe (sharing env strict limit) [] s
      (fun m s' => MaterialOf env s'.drawn key m) (fun _ _ => True) (Late strict limit) := by
  have hkeep : ∀ (m : KeyMaterial) (s s' : Ledger), s.Evolves s' → MaterialOf env s.drawn key m →
      MaterialOf env s'.drawn key m :=
    fun m s s' he h => h.mono he.drawn
  refine .mutex (p := fun m s' => MaterialOf env s'.drawn key m) (q := fun _ _ => True)
    (d := fun s' => Late strict limit s' ∧ WrapperInv strict limit k s')
    (fun s' hs' hp => hs'.late (Or.inr (Or.inr ⟨_, hp⟩))) (fun s' hr _ => ?_) (fun s' hs' hd => ⟨?_, hd.1⟩)
    (fun s' s'' h hr => h.evolves hr.evolves) fun r s' s'' hr h he => ?_
  · have hk' := hk.evolves hr.evolves
    refine (Routine.Safe.evolves (p := fun m s' => MaterialOf env s'.drawn key m) (q := fun _ _ => True)
      (d := Late strict limit) ?_).mono (fun _ _ h => h.1) (fun _ _ h => h.1) fun _ h => ⟨h.1, hk'.evolves h.2⟩
    refine .bind hr.inv (getWriteKek_safe h hr.inv hk'.fits hk'.exists_cache) fun kek s1 hs1 _ hkek => ?_
    refine .bind hs1 (encrypt_safe key kek.keyId kek.key) fun wrappedDek s2 hs2 he2 hdec => ?_
    exact build_safe (fun m s3 he3 hb => .double (hkek.mono (he2.trans he3).drawn) hdec hb) hkeep
  · refine hs'.setWriteCache (List.mem_cons_self ..) hd.2.exists_cache (fun _ _ hl => hl) (fun _ _ hl => Or.inl hl)
      fun hstrict hlimit => absurd (hd.1 hstrict) (not_lt.mpr hlimit)
  · cases r with
    | ok m => exact hkeep m _ _ he.evolves h
    | err e => trivial
    | panic => exact absurd rfl hr

theorem singleWrap_safe (h : kms.Serves env) (hs : LedgerInv env strict limit s) (hk : WrapperInv strict limit k s)
    (key : Bytes) (masterKeyId : String) (isFooterKey : Bool) :
    (singleWrap env kms k key masterKeyId (k.materialBuilder isFooterKey)).Safe (sharing env strict limit) [] s
      (fun m s' => MaterialOf env s'.drawn key m) (fun _ _ => True) (Late strict limit) := by
  refine .bind hs ((getClient_safe h hs hk.fits (Nat.zero_le _)).mono (fun _ _ h => h)
    (fun _ _ _ => trivial) fun _ h => h) fun client s1 hs1 _ _ => ?_
  refine .bind hs1 (wrapKey_safe h client key masterKeyId) fun wrapped s2 hs2 _ hwrapped => ?_
  exact build_safe (fun m s3 _ hb => .single hwrapped hb) fun m s s' he h => h.mono he.drawn

theorem getKeyMetadata_safe (h : kms.Serves env) (hs : LedgerInv env strict limit s) (hk : WrapperInv strict limit k s)
    (key : Bytes) (masterKeyId : String) (isFooterKey : Bool) :
    (getKeyMetadata env kms k key masterKeyId isFooterKey).Safe (sharing env strict limit) [] s
      (fun metadata s' => ∃ m, IssuedFrom env s'.drawn ⟨key, metadata⟩ m) (fun _ _ => True) (Late strict limit) := by
  refine .bind (p := fun m s' => MaterialOf env s'.drawn key m) hs ?_ fun m s1 hs1 _ hm => ?_
  · unfold wrap
    split
    · exact doubleWrap_safe h hk key masterKeyId isFooterKey
    · exact singleWrap_safe h hs hk key masterKeyId isFooterKey
  · obtain ⟨text, htext⟩ := m.serialize_ok env
    rw [htext]
    refine .bind (p := fun a _ => a = text) hs1 ?_ fun a s2 hs2 he2 ha => .pure fun s3 hr3 => ⟨m, ?_, ?_⟩
    · exact call_safe (fun _ _ => .of_ok rfl .refl rfl) fun r s' s'' hr h =>
        ends_evolves (fun _ _ _ _ h => h) (fun _ _ _ _ h => h) (fun _ _ he h => h.evolves he) h hr.evolves
    · exact hm.mono (List.Subset.trans he2.drawn hr3.evolves.drawn)
    · subst ha
      exact (KeyWrapper.readMaterial_intoBytes env a).trans
        (KeyMaterial.deserialize_serialize env hm.keyMaterialType htext)

/-- The key reads as a material that was made for it. -/
def Issuable (env : Env) (key : EncryptionKey) (s : Ledger) : Prop := ∃ m, IssuedFrom env s.drawn key m

theorem Issuable.evolves {key : EncryptionKey} {s s' : Ledger} (h : Issuable env key s) (he : s.Evolves s') :
    Issuable env key s' := by
  obtain ⟨m, hm⟩ := h
  exact ⟨m, hm.mono he.drawn⟩

theorem generateKey_safe (h : kms.Serves env) (hs : LedgerInv env strict limit s) (hk : WrapperInv strict limit k s)
    (masterKeyId : String) (isFooterKey : Bool) :
    (generateKey env kms k masterKeyId isFooterKey).Safe (sharing env strict limit) [] s (Issuable env)
      (fun _ _ => True) (Late strict limit) := by
  refine .bind hs (fill_safe _) fun key s1 hs1 he1 _ => ?_
  refine .bind hs1 (getKeyMetadata_safe h hs1 (hk.evolves he1) key masterKeyId isFooterKey) fun metadata s2 _ _ hm => ?_
  exact .pure fun s3 hr3 => Issuable.evolves hm hr3.evolves

theorem mem_keys_withColumn {b : FileEncryptionProperties} {c : String} {key x : EncryptionKey}
    (hx : x ∈ (b.withColumnKeyAndMetadata c key.key key.metadata).keys) : x ∈ b.keys ∨ x = key := by
  rcases List.mem_cons.mp hx with rfl | hx
  · exact Or.inl (List.mem_cons_self ..)
  · obtain ⟨⟨c', x⟩, he, rfl⟩ := List.mem_map.mp hx
    have hl : (b.columnKeys.insert c key).lookup c' = some x := HashMap.mem_entries_iff.mp he
    by_cases hc : c' = c
    · subst hc
      rw [AList.lookup_insert] at hl
      exact Or.inr (Option.some.inj hl).symm
    · rw [AList.lookup_insert_ne hc] at hl
      exact Or.inl (List.mem_cons_of_mem _ (List.mem_map.mpr ⟨⟨c', x⟩, HashMap.mem_entries_iff.mpr hl, rfl⟩))

/-- Every key of the properties reads as a material that was made for it. -/
def AllIssuable (env : Env) (b : FileEncryptionProperties) (s : Ledger) : Prop := ∀ key ∈ b.keys, Issuable env key s

theorem AllIssuable.evolves {b : FileEncryptionProperties} {s s' : Ledger} (h : AllIssuable env b s)
    (he : s.Evolves s') :
    AllIssuable env b s' := fun key hkey => (h key hkey).evolves he

theorem addColumns_safe (h : kms.Serves env) (hs : LedgerInv env strict limit s) (hk : WrapperInv strict limit k s)
    (masterKeyId : String) (columnPaths : List String) {b : FileEncryptionProperties} (hb : AllIssuable env b s) :
    (addColumns env kms k masterKeyId columnPaths b).Safe (sharing env strict limit) [] s (AllIssuable env)
      (fun _ _ => True) (Late strict limit) := by
  induction columnPaths generalizing b s with
  | nil => exact .pure fun s' hr => hb.evolves hr.evolves
  | cons c columnPaths ih =>
    refine .bind hs (generateKey_safe h hs hk masterKeyId false) fun key s1 hs1 he1 hkey => ?_
    refine ih hs1 (hk.evolves he1) fun x hx => ?_
    rcases mem_keys_withColumn hx with hx | rfl
    · exact (hb x hx).evolves he1
    · exact hkey

theorem addColumnKeys_safe (h : kms.Serves env) (hs : LedgerInv env strict limit s) (hk : WrapperInv strict limit k s)
    (es : List (Sigma fun _ : String => List String)) {b : FileEncryptionProperties} (hb : AllIssuable env b s) :
    (addColumnKeys env kms k es b).Safe (sharing env strict limit) [] s (AllIssuable env) (fun _ _ => True)
      (Late strict limit) := by
  induction es generalizing b s with
  | nil => exact .pure fun s' hr => hb.evolves hr.evolves
  | cons e es ih =>
    refine .bind hs (addColumns_safe h hs hk e.1 e.2 hb) fun b' s1 hs1 he1 hb' => ?_
    exact ih hs1 (hk.evolves he1) hb'

theorem fileEncryptionProperties_safe (h : kms.Serves env) (hs : LedgerInv env strict limit s) (m : ManagerId)
    (config : KmsConnectionConfig) {enc : EncryptionConfiguration} (hfits : strict → Fits limit enc.cacheLifetime) :
    (fileEncryptionProperties env kms m config enc).Safe (sharing env strict limit) [] s (AllIssuable env)
      (fun _ _ => True) (Late strict limit) := by
  unfold fileEncryptionProperties
  split
  · exact .finish fun _ _ => trivial
  · split
    · exact .finish fun _ _ => trivial
    · have hnew : (newKeyWrapper env m config enc).Safe (sharing env strict limit) [] s (WrapperInv strict limit)
          (fun _ _ => True) (Late strict limit) := by
        refine .bind hs ((getKekWriteCache_safe hs hfits).mono (fun _ _ h => h) (fun _ _ h => h.elim) fun _ h => h)
          fun a s1 hs1 _ ha => .pure fun s2 hr2 => ⟨lt_of_lt_of_le ha hr2.evolves.world.nextWriteCache, hfits⟩
      refine .bind hs hnew fun k s1 hs1 _ hk => ?_
      refine .bind hs1 (generateKey_safe h hs1 hk _ true) fun footerKey s2 hs2 he2 hfooter => ?_
      have horder : (call (iterationOrder env)).Safe (sharing env strict limit) [] s2
          (fun _ _ => True) (fun _ _ => True) (Late strict limit) :=
        (section_safe (p := fun _ _ => True) (fun _ _ _ _ h => h) fun w _ _ => .of_ok rfl
          (.single (calm_tick w 0)) trivial).mono (fun _ _ h => h) (fun _ _ h => h.elim) fun _ h => h
      refine .bind hs2 horder fun order s3 hs3 he3 _ => ?_
      refine addColumnKeys_safe h hs3 (hk.evolves (he2.trans he3)) _ fun x hx => ?_
      -- the footer's key is the only one yet
      obtain rfl : x = footerKey := by simpa [FileEncryptionProperties.keys] using hx
      exact hfooter.evolves he3

/-! ## Reading -/

theorem fileDecryptionProperties_safe (hs : LedgerInv env strict limit s) (m : ManagerId) (config : KmsConnectionConfig)
    {dec : DecryptionConfiguration} (hfits : strict → Fits limit dec.cacheLifetime) :
    (fileDecryptionProperties env m config dec).Safe (sharing env strict limit) held s
      (fun u s' => u.kekCache < s'.world.nextReadCache ∧ u.decryptionConfiguration = dec) (fun _ _ => False)
      (Late strict limit) := by
  refine .bind hs (getKekReadCache_safe hs hfits) fun a s1 hs1 _ ha => ?_
  refine .bind (p := fun _ _ => True) hs1 (section_safe (p := fun _ _ => True) (fun _ _ _ _ h => h) fun w _ _ =>
    .of_ok rfl (.single (.of_managers ?_ rfl rfl rfl)) trivial) fun slot s2 hs2 he2 _ => .pure fun s3 hr3 => ⟨?_, rfl⟩
  · exact { World.Grows.refl w with nextConfig := Nat.le_succ _ }
  · exact lt_of_lt_of_le ha (he2.trans hr3.evolves).world.nextReadCache

variable {u : KeyUnwrapper}

theorem unwrapWithKms_safe (h : kms.Serves env) (hs : LedgerInv env strict limit s)
    (hfits : strict → Fits limit u.decryptionConfiguration.cacheLifetime) (wrapped masterKeyId : String) {n : Nat}
    (hn : n ≤ s.world.log.length) :
    (unwrapWithKms env kms u wrapped masterKeyId).Safe (sharing env strict limit) held s
      (fun key _ => UnwrappedByKms env wrapped masterKeyId key) (fun e s' => s'.world.FailedWith n e)
        (Late strict limit) := by
  refine .bind hs
    ((section_safe (p := fun _ _ => True) (fun _ _ _ _ h => h) fun w _ _ => .read trivial).mono (fun _ _ h => h)
    (fun _ _ h => h.elim) fun _ h => h) fun config s1 hs1 he1 _ => ?_
  have hn1 := hn.trans he1.world.log.length_le
  refine .bind hs1 (getClient_safe h hs1 hfits hn1) fun client s2 hs2 he2 _ => ?_
  exact unwrapKey_safe h client wrapped masterKeyId (hn1.trans he2.world.log.length_le)

/-- The id and the wrapped text are those of a KEK that was made. -/
def OfMadeKek (env : Env) (drawn : List DrawnKek) (masterKeyId kekId wrappedKek : String) : Prop :=
  ∃ kek, MadeKek env drawn masterKeyId kek ∧ kekId = kek.encodedKeyId ∧ wrappedKek = kek.wrappedKey

/-- The KEK of an id. What the KMS unwraps for the id of a KEK that was made is that KEK, and it is stored only if the
    id is still missing. -/
theorem getReadKek_safe (h : kms.Serves env) (law : strict → env.KmsLaw) (hs : LedgerInv env strict limit s)
    (hfits : strict → Fits limit u.decryptionConfiguration.cacheLifetime) (hu : u.kekCache < s.world.nextReadCache)
    {masterKeyId kekId wrappedKek : String} (hmade : strict → OfMadeKek env s.drawn masterKeyId kekId wrappedKek)
    {n : Nat} (hn : n ≤ s.world.log.length) :
    (getReadKek env kms u masterKeyId kekId wrappedKek).Safe
    (sharing env strict limit) [(.kekReads u.kekCache, .exclusive)] s
      (fun kek s' => strict → IsDrawn s'.drawn kekId kek) (fun e s' => s'.world.FailedWith n e)
        (Late strict limit) := by
  have hheld : (LibraryLock.kekReads u.kekCache, Mode.exclusive) ∈
      [(LibraryLock.kekReads u.kekCache, Mode.exclusive)] :=
    List.mem_singleton.mpr rfl
  refine .bind (p := fun keks s' => keks = (s'.world.readCaches u.kekCache).data) hs ?_ fun keks s1 hs1 he1 hkeks => ?_
  · refine call_safe (fun s' _ => .read rfl) fun r s' s'' hr h => ?_
    cases r with
    | ok keks => exact Eq.trans h (congrArg Mutex.data (hr.same _ hheld)).symm
    | err e => exact World.FailedWith.grows h hr.evolves.world
    | panic => exact h.evolves hr.evolves
  subst hkeks
  cases hl : (s1.world.readCaches u.kekCache).data.lookup kekId with
  | some kek => exact .pure fun s' hr hstrict => (hs1.readKeks hstrict _ _ _ hl).mono hr.evolves.drawn
  | none =>
    have hin : (LibraryLock.kekReads u.kekCache, Mode.exclusive) ∈ u.guardsOverKms :=
      List.mem_cons_of_mem _ (List.mem_singleton.mpr rfl)
    refine .holding (p := fun kek s' => strict → IsDrawn s'.drawn kekId kek) (q := fun e s' => s'.world.FailedWith n e)
      (d := Late strict limit) (fun s2 hr2 => ?_) fun r s' s'' h hr =>
        ends_evolves (fun _ _ _ he h hstrict => (h hstrict).mono he.drawn)
        (fun _ _ _ he h => h.grows he.world) (fun _ _ he h => h.evolves he) h hr.evolves
    have hn2 := hn.trans (he1.trans hr2.evolves).world.log.length_le
    have hask : (unwrapWithKms env kms u wrappedKek masterKeyId).Safe (sharing env strict limit) [] s2
        (fun key _ => UnwrappedByKms env wrappedKek masterKeyId key) (fun e s' => s'.world.FailedWith n e)
        (Late strict limit) := unwrapWithKms_safe h hr2.inv hfits _ _ hn2
    have hordered := @unwrapWithKms_ordered env kms true u.guardsOverKms h.ordered (fun g hg _ => by
      rcases List.mem_cons.mp hg with rfl | hg
      · exact Nat.one_lt_two
      · cases List.mem_singleton.mp hg
        exact Nat.zero_lt_two) u wrappedKek masterKeyId
    have hframe := hask.frame (O := libraryOrder true) hordered fun g _ hg => by cases hg
    refine .bind hr2.inv (hframe.mono (fun _ _ h => h) (fun _ _ h => h.1) fun _ h => h.1) fun kek s3 hs3 he3 hkek => ?_
    have hmissing : (s3.world.readCaches u.kekCache).data.lookup kekId = none := by
      rw [hkek.2 _ hin, hr2.same _ hheld]
      exact hl
    -- the KMS returned the KEK that it had wrapped
    have hisDrawn : strict → IsDrawn s.drawn kekId kek := by
      intro hstrict
      obtain ⟨kek0, hmade0, rfl, rfl⟩ := hmade hstrict
      obtain ⟨i, client0, hi⟩ := hmade0.wrapped
      obtain ⟨j, client, hj⟩ := hkek.1
      rw [law hstrict _ _ _ _ _ _ _ _ hi hj]
      exact hmade0.isDrawn
    have hsince := ((he1.trans hr2.evolves).trans he3)
    refine .bind (p := fun _ _ => True) hs3 (.ofCall fun s4 hr4 => ⟨?_, fun _ _ => trivial⟩) fun _ s4 _ he4 _ =>
      .pure fun s5 hr5 hstrict => (hisDrawn hstrict).mono ((hsince.trans he4).trans hr5.evolves).drawn
    have hu4 : u.kekCache < s4.world.nextReadCache := lt_of_lt_of_le hu (hsince.trans hr4.evolves).world.nextReadCache
    have hsame : s4.world.readCaches u.kekCache = s3.world.readCaches u.kekCache := hr4.same _ hin
    refine hr4.inv.setReadCache hin hu4 (fun kekId' kek' hl' => ?_) (fun hstrict kekId' kek' hl' => ?_)
      fun hstrict hlimit => (hr4.inv.intact hstrict hlimit).readCache _
    · show ((s4.world.readCaches u.kekCache).data.insert kekId kek).lookup kekId' = some kek'
      by_cases hne : kekId' = kekId
      · rw [hne, hsame, hmissing] at hl'
        cases hl'
      · rwa [AList.lookup_insert_ne hne]
    · change ((s4.world.readCaches u.kekCache).data.insert kekId kek).lookup kekId' = some kek' at hl'
      by_cases hne : kekId' = kekId
      · subst hne
        rw [AList.lookup_insert] at hl'
        cases hl'
        exact Or.inr ((hisDrawn hstrict).mono (hsince.trans hr4.evolves).drawn)
      · rw [AList.lookup_insert_ne hne] at hl'
        exact Or.inl hl'

/-- Decrypting with the KEK that the id stands for. -/
theorem decrypt_sound {m : KeyMaterial} {key : Bytes} {n : Nat} (hs : LedgerInv env strict limit s) {kek keyId : Bytes}
    {use : Nat} (hm : MaterialOf env s.drawn key m) (hd : m.doubleWrapping = true)
    (hk : m.keyEncryptionKeyId = some (Base64.encode keyId)) (hdrawn : ⟨kek, keyId, use⟩ ∈ s.drawn) :
    Ends (fun dek s => Gave env s.drawn m dek) (fun e s => s.world.FailedWith n e ∨ ¬ env.DrawsDistinct s.world.calls)
      (fun _ => False) (decryptEncryptionKey env m.wrappedDek keyId kek) s := by
  cases hm.carries with
  | single hd' _ => rw [hd] at hd'; cases hd'
  | double kek0 _ hmade hk' _ hdec =>
    rw [hk] at hk'
    obtain rfl := Base64.encode_inj ((Option.some.inj hk').trans hmade.encoded)
    obtain ⟨use0, hmem0⟩ := hmade.drawn
    cases hr : decryptEncryptionKey env m.wrappedDek kek0.keyId kek with
    | ok dek => exact .double kek kek0.keyId use hd hk hdrawn hr
    | err e =>
      refine Or.inr fun hdistinct => ?_
      rw [hs.drawn_eq hdistinct hdrawn hmem0, hdec] at hr
      cases hr
    | panic =>
      -- a text that decrypts under one key is long enough for every key
      obtain ⟨_, hshort⟩ := (decryptEncryptionKey_panic_iff env m.wrappedDek kek0.keyId kek).mp hr
      have hpanic := (decryptEncryptionKey_panic_iff env m.wrappedDek kek0.keyId kek0.key).mpr
        ⟨decryptEncryptionKey_ok env hdec, hshort⟩
      rw [hdec] at hpanic
      cases hpanic

/-- What a retrieval is to end with, if only issued metadata is read. -/
def SoundKey (env : Env) (strict : Prop) (m : KeyMaterial) (dek : Bytes) (s : Ledger) : Prop :=
  strict → Gave env s.drawn m dek

def SoundError (env : Env) (strict : Prop) (n : Nat) (e : ParquetError) (s : Ledger) : Prop :=
  strict → s.world.FailedWith n e ∨ ¬ env.DrawsDistinct s.world.calls

theorem SoundError.evolves {n : Nat} {e : ParquetError} {s s' : Ledger} (h : SoundError env strict n e s)
    (he : s.Evolves s') : SoundError env strict n e s' :=
  fun hstrict => (h hstrict).imp (fun hf => hf.grows he.world) fun hd hd' => hd (hd'.mono he.world.calls)

theorem ends_sound_evolves {m : KeyMaterial} {n : Nat} {r : Outcome ParquetError Bytes} {s s' : Ledger}
    (h : Ends (SoundKey env strict m) (SoundError env strict n) (Late strict limit) r s) (he : s.Evolves s') :
    Ends (SoundKey env strict m) (SoundError env strict n) (Late strict limit) r s' :=
  ends_evolves (fun _ _ _ he h hstrict => (h hstrict).mono he.drawn) (fun _ _ _ he h => h.evolves he)
    (fun _ _ he h => h.evolves he) h he

theorem unwrapDoubleWrappedKey_safe (h : kms.Serves env) (law : strict → env.KmsLaw)
    (hfits : strict → Fits limit u.decryptionConfiguration.cacheLifetime) (hu : u.kekCache < s.world.nextReadCache)
    {m : KeyMaterial} {kekId wrappedKek : String} (hd : m.doubleWrapping = true)
    (hk : m.keyEncryptionKeyId = some kekId)
    (hw : m.wrappedKek = some wrappedKek) (hm : strict → ∃ key, MaterialOf env s.drawn key m) {n : Nat}
    (hn : n ≤ s.world.log.length) :
    (unwrapDoubleWrappedKey env kms u m.wrappedDek m.masterKeyId kekId wrappedKek).Safe (sharing env strict limit) [] s
      (SoundKey env strict m) (SoundError env strict n) (Late strict limit) := by
  refine .mutex (p := SoundKey env strict m) (q := SoundError env strict n)
    (d := fun s' => Late strict limit s' ∧ u.kekCache < s'.world.nextReadCache)
    (fun s' hs' hp => hs'.late (Or.inr (Or.inl ⟨_, hp⟩))) (fun s' hr _ => ?_) (fun s' hs' hd => ⟨?_, hd.1⟩)
    (fun s' s'' h hr => h.evolves hr.evolves) fun r s' s'' hne h hr => ?_
  · have hu' := lt_of_lt_of_le hu hr.evolves.world.nextReadCache
    have hn' := hn.trans hr.evolves.world.log.length_le
    have hmade : strict → OfMadeKek env s'.drawn m.masterKeyId kekId wrappedKek := by
      intro hstrict
      obtain ⟨key, hkey⟩ := hm hstrict
      cases hkey.carries with
      | single hd' _ => rw [hd] at hd'; cases hd'
      | double kek0 _ hmade0 hk0 hw0 _ =>
        rw [hk] at hk0
        rw [hw] at hw0
        exact ⟨kek0, hmade0.mono hr.evolves.drawn, Option.some.inj hk0, Option.some.inj hw0⟩
    refine (Routine.Safe.evolves (p := SoundKey env strict m) (q := SoundError env strict n) (d := Late strict limit)
      ?_).mono (fun _ _ h => h.1) (fun _ _ h => h.1) fun _ h => ⟨h.1, lt_of_lt_of_le hu' h.2.world.nextReadCache⟩
    refine .bind hr.inv ((getReadKek_safe h law hr.inv hfits hu' hmade hn').mono (fun _ _ h => h)
      (fun _ _ h _ => Or.inl h) fun _ h => h) fun kek s1 hs1 he1 hkek => ?_
    have hdecode : strict → ∀ keyId, kekId = Base64.encode keyId → KeyUnwrapper.decodeKekId env kekId = .ok keyId := by
      intro _ keyId he
      rw [he, KeyUnwrapper.decodeKekId, Base64.decode_encode]
    refine .bind (p := fun decoded _ => KeyUnwrapper.decodeKekId env kekId = .ok decoded) hs1 ?_
      fun decoded s2 hs2 he2 hdecoded => ?_
    · refine call_safe (fun s2 _ => .ofExcept (fun _ h => h) fun e he hstrict => ?_) fun r _ _ hr h =>
        ends_evolves (fun _ _ _ _ h => h) (fun _ _ _ he h => h.evolves he) (fun _ _ he h => h.evolves he) h hr.evolves
      obtain ⟨keyId, _, hkekId, _⟩ := hkek hstrict
      rw [hdecode hstrict keyId hkekId] at he
      cases he
    · refine .ofCall fun s3 hr3 => ⟨.refl hr3.inv, fun s4 hr4 => ?_⟩
      have hsound : strict → Ends (fun dek s => Gave env s.drawn m dek)
          (fun e s => s.world.FailedWith n e ∨ ¬ env.DrawsDistinct s.world.calls) (fun _ => False)
          (decryptEncryptionKey env m.wrappedDek decoded kek) s4 := by
        intro hstrict
        obtain ⟨keyId, use, hkekId, hmem⟩ := hkek hstrict
        obtain ⟨key, hkey⟩ := hm hstrict
        rw [hdecode hstrict keyId hkekId] at hdecoded
        cases hdecoded
        have he : s1.Evolves s4 := (he2.trans hr3.evolves).trans hr4.evolves
        exact decrypt_sound hr4.inv (hkey.mono ((hr.evolves.trans he1).trans he).drawn) hd (hkekId ▸ hk) (he.drawn hmem)
      show Ends _ _ _ (decryptEncryptionKey env m.wrappedDek decoded kek) s4
      cases hres : decryptEncryptionKey env m.wrappedDek decoded kek with
      | ok dek => rw [hres] at hsound; exact hsound
      | err e => rw [hres] at hsound; exact hsound
      | panic => rw [hres] at hsound; exact fun hstrict => (hsound hstrict).elim
  · refine hs'.setReadCache (List.mem_cons_self ..) hd.2 (fun _ _ hl => hl) (fun _ _ _ hl => Or.inl hl)
      fun hstrict hlimit => absurd (hd.1 hstrict) (not_lt.mpr hlimit)
  · cases r with
    | ok dek => exact fun hstrict => (h hstrict).mono hr.evolves.drawn
    | err e => exact SoundError.evolves h hr.evolves
    | panic => exact absurd rfl hne

theorem unwrapDek_safe (h : kms.Serves env) (law : strict → env.KmsLaw)
    (hfits : strict → Fits limit u.decryptionConfiguration.cacheLifetime) (hu : u.kekCache < s.world.nextReadCache)
    {m : KeyMaterial} (hm : strict → ∃ key, MaterialOf env s.drawn key m) {n : Nat} (hn : n ≤ s.world.log.length) :
    (unwrapDek env kms u m).Safe (sharing env strict limit) [] s (SoundKey env strict m) (SoundError env strict n)
      (Late strict limit) := by
  unfold unwrapDek
  by_cases hd : m.doubleWrapping = true
  · rw [if_pos hd]
    split
    · rename_i kekId wrappedKek hk hw
      exact unwrapDoubleWrappedKey_safe h law hfits hu hd hk hw hm hn
    · rename_i hnone
      refine .finish fun s' _ hstrict => ?_
      obtain ⟨key, hkey⟩ := hm hstrict
      cases hkey.carries with
      | single hd' _ => rw [hd] at hd'; cases hd'
      | double kek _ _ hk hw _ => exact absurd hw (hnone _ _ hk)
  · rw [if_neg hd]
    refine .holding (p := SoundKey env strict m) (q := SoundError env strict n)
      (d := Late strict limit) (fun s' hr => ?_) fun r s' s'' h hr => ends_sound_evolves h hr.evolves
    refine (unwrapWithKms_safe h hr.inv hfits _ _ (hn.trans hr.evolves.world.log.length_le)).mono
      (fun dek s'' h _ => ?_) (fun _ _ h _ => Or.inl h) fun _ h => h
    obtain ⟨j, client, hj⟩ := h
    exact .single j client (Bool.eq_false_iff.mpr hd) hj

/-- Resolving the instance fails only on an empty id or URL. -/
theorem updateKmsConfig_along (u : KeyUnwrapper) (kmsInstanceId kmsInstanceUrl : String) (w : World) :
    Along Calm (u.updateKmsConfigFromFooterMetadata kmsInstanceId kmsInstanceUrl) w (fun _ _ => True)
      (fun _ _ => kmsInstanceId.isEmpty = true ∨ kmsInstanceUrl.isEmpty = true) fun _ => False := by
  have hset : ∀ c w, Along Calm (Eff.modify ((configPlace u.kmsConnectionConfig).set c) : Call Unit) w (fun _ _ => True)
      (fun _ _ => kmsInstanceId.isEmpty = true ∨ kmsInstanceUrl.isEmpty = true) fun _ => False :=
    fun c w => .modify (.of_managers { World.Grows.refl w with } rfl rfl rfl) trivial
  unfold KeyUnwrapper.updateKmsConfigFromFooterMetadata
  refine Along.bind (Along.read (p := fun _ _ => True) trivial) fun c w1 _ _ => ?_
  split
  · exact .pure trivial
  refine Along.bind (Along.ofExcept (p := fun _ _ => True) (fun _ _ => trivial) fun e he =>
    Or.inl (KeyUnwrapper.withInstanceId_error he)) fun withId w2 _ _ => ?_
  refine (hset withId w2).bind fun _ w3 _ _ => ?_
  exact Along.bind (Along.ofExcept (p := fun _ _ => True) (fun _ _ => trivial) fun e he =>
    Or.inr (KeyUnwrapper.withInstanceUrl_error he)) fun withUrl w4 _ _ => hset withUrl w4

theorem updateKmsConfig_safe {m : KeyMaterial} (hm : strict → ∃ key, MaterialOf env s.drawn key m) :
    (updateKmsConfig u m).Safe (sharing env strict limit) [] s (fun _ _ => True) (fun _ _ => ¬ strict)
      (Late strict limit) := by
  have hkeep : ∀ {r : Outcome ParquetError Unit} {s' s'' : Ledger}, s'.Evolves s'' →
      Ends (fun _ _ => True) (fun _ _ => ¬ strict) (Late strict limit) r s' →
      Ends (fun _ _ => True) (fun _ _ => ¬ strict) (Late strict limit) r s'' :=
    fun he h => ends_evolves (fun _ _ _ _ h => h) (fun _ _ _ _ h => h) (fun _ _ he h => h.evolves he) h he
  unfold updateKmsConfig
  split
  · rename_i kmsInstanceId kmsInstanceUrl hid hurl
    refine .holding (p := fun _ _ => True) (q := fun _ _ => ¬ strict) (d := Late strict limit) (fun s' hr => ?_)
      fun r s' s'' h hr => hkeep hr.evolves h
    refine call_safe (fun s' _ => (updateKmsConfig_along u kmsInstanceId kmsInstanceUrl s'.world).mono (fun _ _ h => h)
      (fun e w hempty hstrict => ?_) fun _ h => h.elim) fun r s' s'' hr h => hkeep hr.evolves h
    obtain ⟨key, hkey⟩ := hm hstrict
    rcases hempty with hempty | hempty
    · exact hkey.kmsInstanceId _ hid (String.isEmpty_iff.mp hempty)
    · exact hkey.kmsInstanceUrl _ hurl (String.isEmpty_iff.mp hempty)
  · exact .pure fun _ _ => trivial

/-- Retrieving a key: if the metadata was issued, what is returned comes from its material and an error from the KMS. -/
theorem retrieveKey_safe (h : kms.Serves env) (law : strict → env.KmsLaw) (hs : LedgerInv env strict limit s)
    (hfits : strict → Fits limit u.decryptionConfiguration.cacheLifetime) (hu : u.kekCache < s.world.nextReadCache)
    {keyMetadata : Bytes} (hissued : strict → ∃ key ∈ s.issued, key.metadata = keyMetadata) {n : Nat}
    (hn : n ≤ s.world.log.length) :
    (retrieveKey env kms u keyMetadata).Safe (sharing env strict limit) [] s
      (fun dek s' => strict → ∀ m, KeyUnwrapper.readMaterial env keyMetadata = .ok m → Gave env s'.drawn m dek)
      (SoundError env strict n) (Late strict limit) := by
  have hmaterial : strict → ∃ key m, KeyUnwrapper.readMaterial env keyMetadata = .ok m ∧
      MaterialOf env s.drawn key m := by
    intro hstrict
    obtain ⟨key, hkey, rfl⟩ := hissued hstrict
    obtain ⟨m, hm⟩ := hs.issued key hkey
    exact ⟨key.key, m, hm.read, hm.toMaterialOf⟩
  refine .bind (p := fun m _ => KeyUnwrapper.readMaterial env keyMetadata = .ok m) hs ?_ fun m s1 hs1 he1 hread => ?_
  · refine call_safe (fun s' _ => .ofExcept (fun _ h => h) fun e he hstrict => ?_) fun r _ _ hr h =>
      ends_evolves (fun _ _ _ _ h => h) (fun _ _ _ he h => h.evolves he) (fun _ _ he h => h.evolves he) h hr.evolves
    obtain ⟨key, m, hread, _⟩ := hmaterial hstrict
    rw [hread] at he
    cases he
  have hm : strict → ∃ key, MaterialOf env s1.drawn key m := by
    intro hstrict
    obtain ⟨key, m', hread', hof⟩ := hmaterial hstrict
    rw [hread] at hread'
    cases hread'
    exact ⟨key, hof.mono he1.drawn⟩
  split
  · rename_i hexternal
    refine .finish fun s' _ hstrict => ?_
    obtain ⟨key, hkey⟩ := hm hstrict
    exact absurd hkey.internalStorage hexternal
  · refine .bind hs1
      ((updateKmsConfig_safe hm).mono (fun _ _ h => h) (fun _ _ h hstrict => absurd hstrict h) fun _ h => h)
      fun _ s2 hs2 he2 _ => ?_
    have hm2 : strict → ∃ key, MaterialOf env s2.drawn key m := fun hstrict =>
      (hm hstrict).imp fun key hkey => hkey.mono he2.drawn
    refine (unwrapDek_safe h law hfits (lt_of_lt_of_le hu (he1.trans he2).world.nextReadCache) hm2
      (hn.trans (he1.trans he2).world.log.length_le)).mono (fun dek s' h hstrict m' hread' => ?_)
        (fun _ _ h => h) fun _ h => h
    rw [hread] at hread'
    cases hread'
    exact h hstrict

/-! ## The other requests -/

theorem newFactory_safe (hs : LedgerInv env strict limit s) :
    (newFactory env).Safe (sharing env strict limit) held s (fun _ _ => True) (fun _ _ => False)
    (Late strict limit) := by
  have hcache : ∀ (κ ν : Type) (s : Ledger), (call (ExpiringCache.new env) : Run (ExpiringCache κ ν)).Safe
      (sharing env strict limit) held s (fun c _ => c.Empty) (fun _ _ => False) (Late strict limit) := by
    intro κ ν s
    refine section_safe (p := fun (c : ExpiringCache κ ν) _ => c.Empty) (fun _ _ _ _ h => h) fun w _ _ => ?_
    refine Along.bind (p := fun _ _ => True) (Along.of_ok rfl (.single (calm_tick w _)) trivial) fun t w1 _ _ => ?_
    exact Along.pure rfl
  have hmanager : (newManager env).Safe (sharing env strict limit) held s (fun k _ => k.kmsClientCache.Empty ∧
      k.kekReadCaches.Empty ∧ k.kekWriteCaches.Empty) (fun _ _ => False) (Late strict limit) := by
    refine .bind hs (hcache _ _ s) fun c1 s1 hs1 _ h1 => .bind hs1 (hcache _ _ s1) fun c2 s2 hs2 _ h2 => ?_
    exact .bind hs2 (hcache _ _ s2) fun c3 s3 hs3 _ h3 => .pure fun _ _ => ⟨h1, h2, h3⟩
  refine .bind hs hmanager fun k s1 _ _ hk => ?_
  exact section_safe (p := fun _ _ => True) (fun _ _ _ _ h => h) fun w _ _ =>
    .of_ok rfl (.single (calm_newManager w hk.1 hk.2.1 hk.2.2)) trivial

theorem refresh_safe (config : KmsConnectionConfig) (keyAccessToken : String) :
    (refresh config keyAccessToken).Safe (sharing env strict limit) held s (fun _ _ => True) (fun _ _ => False)
      (Late strict limit) := by
  refine .holding (p := fun _ _ => True) (q := fun _ _ => False) (d := Late strict limit) (fun s' hr => ?_)
    fun r s' s'' h hr => ends_evolves (fun _ _ _ _ h => h) (fun _ _ _ _ h => h)
      (fun _ _ he h => h.evolves he) h hr.evolves
  exact section_safe (p := fun _ _ => True) (fun _ _ _ _ h => h) fun w _ _ =>
    .modify (.of_managers { World.Grows.refl w with } rfl rfl rfl) trivial

end

end Interleaved

end ParquetKeyManagement
