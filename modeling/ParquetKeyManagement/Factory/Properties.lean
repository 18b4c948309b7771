/-
  ParquetKeyManagement.Factory.Properties — what file encryption properties hold.

  A key in the properties was made for its master key at some moment of the call (`Made`):
  the material its metadata reads as describes it in the state of that moment. Later moments
  may have evicted what it was made from, so the moment is part of the statement.
  - `addColumnKeys_along`: every column named gets a key, made for a master key that names
    it, and no other column does.
  - `fileEncryptionProperties_keys`: the column keys of the properties are exactly the
    columns named in the builder's calls, each once, and every material says what its
    column's configuration does.
-/

import Mathlib.Data.List.Perm.Basic
import ParquetKeyManagement.Keys.WriterMoves

namespace ParquetKeyManagement

open Effect

variable (env : Env)

/-- The key was made by `k`, on its way from `w0` to `w`. -/
def Made (k : KeyWrapper) (w0 : World) (key : EncryptionKey) (masterKeyId : String) (isFooterKey : Bool) (w : World) :
    Prop :=
  ∃ m w1, KeyUnwrapper.readMaterial env key.metadata = .ok m ∧ Relation.ReflTransGen (WriterMove env k) w0 w1 ∧
    w1.Grows w ∧ KeyWrapper.Describes env k key.key masterKeyId (k.materialBuilder isFooterKey) m w1

theorem Made.grows {env : Env} {k : KeyWrapper} {w0 w w' : World} {key : EncryptionKey} {masterKeyId : String}
    {isFooterKey : Bool} (h : Made env k w0 key masterKeyId isFooterKey w) (hg : w.Grows w') :
    Made env k w0 key masterKeyId isFooterKey w' := by
  obtain ⟨m, w1, hm, path, hg1, hd⟩ := h
  exact ⟨m, w1, hm, path, hg1.trans hg, hd⟩

namespace CryptoFactory

variable (k : KeyWrapper) {w0 : World}

theorem generateKey_along (masterKeyId : String) (isFooterKey : Bool) {w : World}
    (path0 : Relation.ReflTransGen (WriterMove env k) w0 w) :
    Along (WriterMove env k) (generateKey env masterKeyId isFooterKey k) w
      (fun key w' => Made env k w0 key masterKeyId isFooterKey w') (fun _ _ => True) World.Poisoned := by
  unfold generateKey
  refine (((KeyWrapper.fill_along env k dekLen w).lift fun _ _ h => h.writer).mono (fun _ _ h => h) (fun _ _ h => h)
    fun _ h => h.elim).bind fun key w1 path1 _ => ?_
  refine (KeyWrapper.getKeyMetadata_along env k key masterKeyId isFooterKey w1).with_path.bind
    fun metadata w2 _ h2 => ?_
  obtain ⟨⟨m, hm, hd⟩, path2⟩ := h2
  exact Along.pure ⟨m, w2, hm, (path0.trans path1).trans path2, World.Grows.refl w2, hd⟩

/-- What adding the columns of one master key does to the properties. -/
structure AddedColumns (w0 : World) (masterKeyId : String) (columnPaths : List String)
    (b b' : FileEncryptionProperties) (w : World) : Prop where
  footerKey : b'.footerKey = b.footerKey
  plaintextFooter : b'.plaintextFooter = b.plaintextFooter
  added : ∀ c ∈ columnPaths, ∃ key, b'.columnKeys.lookup c = some key ∧ Made env k w0 key masterKeyId false w
  kept : ∀ c ∉ columnPaths, b'.columnKeys.lookup c = b.columnKeys.lookup c

theorem addColumns_along (masterKeyId : String) (columnPaths : List String) (b : FileEncryptionProperties) {w : World}
    (path0 : Relation.ReflTransGen (WriterMove env k) w0 w) :
    Along (WriterMove env k) (addColumns env k masterKeyId columnPaths b) w
      (fun b' w' => AddedColumns env k w0 masterKeyId columnPaths b b' w') (fun _ _ => True)
      World.Poisoned := by
  induction columnPaths generalizing b w with
  | nil => exact Along.pure ⟨rfl, rfl, fun c hc => absurd hc List.not_mem_nil, fun c _ => rfl⟩
  | cons c columnPaths ih =>
    unfold addColumns
    refine (generateKey_along env k masterKeyId false path0).bind fun key w1 path1 hkey => ?_
    have hrest := (ih (b.withColumnKeyAndMetadata c key.key key.metadata) (path0.trans path1)).with_path
    refine hrest.mono (fun b' w2 h => ?_) (fun _ _ h => h) fun _ h => h
    obtain ⟨h2, path2⟩ := h
    refine ⟨h2.footerKey, h2.plaintextFooter, fun x hx => ?_, fun x hx => ?_⟩
    · by_cases hin : x ∈ columnPaths
      · exact h2.added x hin
      · rcases List.mem_cons.mp hx with rfl | hx
        · refine ⟨key, ?_, hkey.grows (World.Grows.of_path (fun _ _ h => WriterMove.grows h) path2)⟩
          rw [h2.kept x hin]
          exact AList.lookup_insert _
        · exact absurd hx hin
    · have hne : x ≠ c := fun e => hx (e ▸ List.mem_cons_self ..)
      rw [h2.kept x fun h => hx (List.mem_cons_of_mem _ h)]
      exact AList.lookup_insert_ne hne

/-- What adding all columns does: a column's key is made for a master key that names it. -/
structure AddedKeys (w0 : World) (es : List (Sigma fun _ : String => List String))
    (b b' : FileEncryptionProperties) (w : World) : Prop where
  footerKey : b'.footerKey = b.footerKey
  plaintextFooter : b'.plaintextFooter = b.plaintextFooter
  added : ∀ c, (∃ e ∈ es, c ∈ e.2) →
    ∃ key, b'.columnKeys.lookup c = some key ∧ ∃ e ∈ es, c ∈ e.2 ∧ Made env k w0 key e.1 false w
  kept : ∀ c, (¬ ∃ e ∈ es, c ∈ e.2) → b'.columnKeys.lookup c = b.columnKeys.lookup c

theorem addColumnKeys_along (es : List (Sigma fun _ : String => List String)) (b : FileEncryptionProperties) {w : World}
    (path0 : Relation.ReflTransGen (WriterMove env k) w0 w) :
    Along (WriterMove env k) (addColumnKeys env k es b) w
      (fun b' w' => AddedKeys env k w0 es b b' w') (fun _ _ => True) World.Poisoned := by
  induction es generalizing b w with
  | nil =>
    refine Along.pure ⟨rfl, rfl, fun c hc => ?_, fun c _ => rfl⟩
    obtain ⟨e, he, _⟩ := hc
    cases he
  | cons e es ih =>
    unfold addColumnKeys
    refine (addColumns_along env k e.1 e.2 b path0).bind fun b1 w1 path1 h1 => ?_
    refine (ih b1 (path0.trans path1)).with_path.mono (fun b' w2 h => ?_) (fun _ _ h => h) fun _ h => h
    obtain ⟨h2, path2⟩ := h
    have hg := World.Grows.of_path (fun _ _ h => WriterMove.grows h) path2
    refine ⟨h2.footerKey.trans h1.footerKey, h2.plaintextFooter.trans h1.plaintextFooter,
      fun c hc => ?_, fun c hc => ?_⟩
    · by_cases hlater : ∃ x ∈ es, c ∈ x.2
      · obtain ⟨key, hl, x, hx, hcx, hmade⟩ := h2.added c hlater
        exact ⟨key, hl, x, List.mem_cons_of_mem _ hx, hcx, hmade⟩
      · -- the column is named by this master key and by no later one
        have hce : c ∈ e.2 := by
          obtain ⟨x, hx, hcx⟩ := hc
          rcases List.mem_cons.mp hx with rfl | hx
          · exact hcx
          · exact absurd ⟨x, hx, hcx⟩ hlater
        obtain ⟨key, hl, hmade⟩ := h1.added c hce
        exact ⟨key, (h2.kept c hlater).trans hl, e, List.mem_cons_self .., hce, hmade.grows hg⟩
    · have hlater : ¬ ∃ x ∈ es, c ∈ x.2 := fun ⟨x, hx, hcx⟩ => hc ⟨x, List.mem_cons_of_mem _ hx, hcx⟩
      rw [h2.kept c hlater, h1.kept c fun h => hc ⟨e, List.mem_cons_self .., h⟩]

end CryptoFactory

/-! ## The whole call -/

section

variable (m : ManagerId) (config : KmsConnectionConfig) (enc : EncryptionConfiguration) (ws : World)

/-- `k` is the wrapper that a call started in `ws` works with, made in the state `w`. -/
structure WrapperFor (k : KeyWrapper) (w : World) : Prop where
  kmsManager : k.kmsManager = m
  kmsConnectionConfig : k.kmsConnectionConfig = config
  encryptionConfiguration : k.encryptionConfiguration = enc
  path : Relation.ReflTransGen (ManagerMove m config enc.cacheLifetime) ws w
  held : HeldWriteCache m (w.tokens config.keyAccessToken) k.masterKeyToKek w

/-- The writes of a call of `file_encryption_properties` started in `ws`. -/
inductive EncryptMove : World → World → Prop
  | registry {w w' : World} : ManagerMove m config enc.cacheLifetime w w' → EncryptMove w w'
  | writer (k : KeyWrapper) {w0 w w' : World} : WrapperFor m config enc ws k w0 →
    Relation.ReflTransGen (WriterMove env k) w0 w → WriterMove env k w w' → EncryptMove w w'

/-- What the call returns: keys made by one wrapper for the footer and for the columns. -/
structure Encrypted (p : FileEncryptionProperties) (k : KeyWrapper) (w0 w : World) : Prop where
  wrapper : WrapperFor m config enc ws k w0
  footer : Made env k w0 p.footerKey enc.footerKeyId true w
  plaintextFooter : p.plaintextFooter = enc.plaintextFooter
  columns : ∀ c, c ∈ p.columnKeys ↔ c ∈ namedColumns enc.columnKeyIds
  made : ∀ c key, p.columnKeys.lookup c = some key →
    ∃ masterKeyId columns, enc.columnKeyIds.lookup masterKeyId = some columns ∧ c ∈ columns ∧
      Made env k w0 key masterKeyId false w

end

section

variable {m : ManagerId} {config : KmsConnectionConfig} {enc : EncryptionConfiguration} {ws w w' : World}

theorem WriterMove.tokens {k : KeyWrapper} (h : WriterMove env k w w') : w'.tokens = w.tokens := by
  cases h with
  | manager h => exact h.kept.1
  | wrap client keyBytes masterKeyId _ => rfl
  | storeKek masterKeyId kek _ _ => rfl
  | poison _ => rfl

theorem EncryptMove.grows {env : Env} (h : EncryptMove env m config enc ws w w') : w.Grows w' := by
  cases h with
  | registry h => exact h.grows
  | writer k _ _ h => exact h.grows

end

namespace CryptoFactory

variable (m : ManagerId) (config : KmsConnectionConfig) (enc : EncryptionConfiguration)

theorem newWrapper_along (w : World) :
    Along (EncryptMove env m config enc w) (KeyWrapper.new env m config enc) w (WrapperFor m config enc w)
      (fun _ _ => True) World.Poisoned := by
  unfold KeyWrapper.new
  have h := (KmsManager.getKekWriteCache_along env m config enc.cacheLifetime w).with_path
  exact ((h.lift fun _ _ hm => EncryptMove.registry hm).mono (fun _ _ h => h) (fun _ _ _ => trivial)
    fun _ h => Or.inl ⟨m, h⟩).bind fun a w1 _ h1 => Along.pure ⟨rfl, rfl, rfl, h1.2, h1.1⟩

theorem mem_namedColumns {columnKeyIds : HashMap String (List String)} {c : String} :
    c ∈ namedColumns columnKeyIds ↔ ∃ e ∈ columnKeyIds.entries, c ∈ e.2 := List.mem_flatMap

theorem withWrapper_along {k : KeyWrapper} {ws w : World} (hk : WrapperFor m config enc ws k w) :
    Along (WriterMove env k) (do
      let footerKey ← generateKey env enc.footerKeyId true k
      let order ← iterationOrder env
      addColumnKeys env k (HashMap.inOrder order enc.columnKeyIds) ⟨footerKey, enc.plaintextFooter, ∅⟩) w
      (fun p w' => Encrypted env m config enc ws p k w w') (fun _ _ => True) World.Poisoned := by
  refine (generateKey_along env k enc.footerKeyId true .refl).bind fun footerKey w1 path1 hfooter => ?_
  refine Along.bind (p := fun _ w' => w1.Grows w' ∧ Relation.ReflTransGen (WriterMove env k) w w')
    (Along.of_ok rfl (.single (.manager (.tick w1 0))) ⟨w1.grows_tick 0, path1.tail (.manager (.tick w1 0))⟩)
    fun order w2 _ h2 => ?_
  refine (addColumnKeys_along env k _ ⟨footerKey, enc.plaintextFooter, ∅⟩ h2.2).with_path.mono (fun p w3 h => ?_)
    (fun _ _ h => h) fun _ h => h
  obtain ⟨hadded, path3⟩ := h
  have hg3 := World.Grows.of_path (fun _ _ h => WriterMove.grows h) path3
  have hnamed : ∀ c, (∃ e ∈ HashMap.inOrder order enc.columnKeyIds, c ∈ e.2) ↔ c ∈ namedColumns enc.columnKeyIds := by
    intro c
    rw [mem_namedColumns]
    simp only [HashMap.mem_inOrder]
  refine ⟨hk, ?_, hadded.plaintextFooter, fun c => ⟨fun hc => ?_, fun hc => ?_⟩, fun c key hl => ?_⟩
  · rw [hadded.footerKey]; exact hfooter.grows (h2.1.trans hg3)
  · by_contra hn
    have hl := hadded.kept c fun h => hn ((hnamed c).mp h)
    rw [AList.lookup_empty] at hl
    exact AList.lookup_eq_none.mp hl hc
  · obtain ⟨key, hl, _⟩ := hadded.added c ((hnamed c).mpr hc)
    exact AList.lookup_isSome.mp (by rw [hl]; rfl)
  · by_cases hc : ∃ e ∈ HashMap.inOrder order enc.columnKeyIds, c ∈ e.2
    · obtain ⟨key', hl', e, he, hce, hmade⟩ := hadded.added c hc
      rw [hl] at hl'
      cases hl'
      exact ⟨e.1, e.2, HashMap.mem_entries_iff.mp (HashMap.mem_inOrder.mp he), hce, hmade⟩
    · have hl' := hadded.kept c hc
      rw [hl, AList.lookup_empty] at hl'
      cases hl'

/-- A successful call returns properties whose keys one wrapper made. -/
theorem fileEncryptionProperties_along (ws : World) :
    Along (EncryptMove env m config enc ws) (fileEncryptionProperties env m config enc) ws
      (fun p w' => ∃ k w0, Encrypted env m config enc ws p k w0 w') (fun _ _ => True) World.Poisoned := by
  unfold fileEncryptionProperties
  by_cases h1 : ¬ enc.internalKeyMaterial = true
  · rw [if_pos h1]; exact Along.fail trivial
  rw [if_neg h1]
  by_cases h2 : enc.dataKeyLengthBits ≠ 128
  · rw [if_pos h2]; exact Along.fail trivial
  rw [if_neg h2]
  refine (newWrapper_along env m config enc ws).bind fun k w0 _ hk => ?_
  have h := (withWrapper_along env m config enc hk).lift_keeps (I := Relation.ReflTransGen (WriterMove env k) w0) .refl
    (fun _ _ hi hm => hi.tail hm) fun _ _ hi hm => EncryptMove.writer k hk hi hm
  exact h.mono (fun p w' hp => ⟨k, w0, hp⟩) (fun _ _ h => h) fun _ h => h

end CryptoFactory

/-- The master key is the footer's, or that of some column. -/
def EncryptionConfiguration.Uses (enc : EncryptionConfiguration) (masterKeyId : String) : Prop :=
  masterKeyId = enc.footerKeyId ∨ ∃ columns c, enc.columnKeyIds.lookup masterKeyId = some columns ∧ c ∈ columns

/-- Every key of a file was made for it, and for a master key the file uses. -/
theorem Encrypted.keys_made {env : Env} {m : ManagerId} {config : KmsConnectionConfig}
    {enc : EncryptionConfiguration} {ws : World}
    {p : FileEncryptionProperties} {k : KeyWrapper} {w0 w : World} (h : Encrypted env m config enc ws p k w0 w)
    {key : EncryptionKey} (hkey : key ∈ p.keys) :
    ∃ masterKeyId isFooterKey, enc.Uses masterKeyId ∧ Made env k w0 key masterKeyId isFooterKey w := by
  rcases List.mem_cons.mp hkey with rfl | hkey
  · exact ⟨_, true, Or.inl rfl, h.footer⟩
  · obtain ⟨⟨c, key⟩, he, rfl⟩ := List.mem_map.mp hkey
    obtain ⟨masterKeyId, columns, hl, hc, hmade⟩ := h.made c key (HashMap.mem_entries_iff.mp he)
    exact ⟨masterKeyId, false, Or.inr ⟨columns, c, hl, hc⟩, hmade⟩

/-! ## What the materials say -/

/-- What every material of a file says of its configuration. -/
structure MaterialFor (enc : EncryptionConfiguration) (masterKeyId : String) (m : KeyMaterial) : Prop where
  masterKeyId : m.masterKeyId = masterKeyId
  doubleWrapping : m.doubleWrapping = enc.doubleWrapping
  keyEncryptionKeyId : m.keyEncryptionKeyId.isSome = enc.doubleWrapping
  wrappedKek : m.wrappedKek.isSome = enc.doubleWrapping

structure ColumnMaterial (enc : EncryptionConfiguration) (masterKeyId : String) (m : KeyMaterial) : Prop
    extends MaterialFor enc masterKeyId m where
  isFooterKey : m.isFooterKey = false
  kmsInstanceId : m.kmsInstanceId = none
  kmsInstanceUrl : m.kmsInstanceUrl = none

structure FooterMaterial (enc : EncryptionConfiguration) (config : KmsConnectionConfig) (masterKeyId : String)
    (m : KeyMaterial) : Prop extends MaterialFor enc masterKeyId m where
  isFooterKey : m.isFooterKey = true
  kmsInstanceId : m.kmsInstanceId = some (orDefault config.kmsInstanceId)
  kmsInstanceUrl : m.kmsInstanceUrl = some (orDefault config.kmsInstanceUrl)

theorem orDefault_ne (s : String) : orDefault s ≠ "" := by
  unfold orDefault
  by_cases h : s.isEmpty
  · rw [if_pos h, String.isEmpty_iff.mp h]; decide
  · rw [if_neg h]; exact fun e => h (String.isEmpty_iff.mpr e)

namespace KeyWrapper

variable {env : Env} {k : KeyWrapper} {key : Bytes} {masterKeyId : String} {m : KeyMaterial} {w : World}

/-- The material is what a builder made of the wrapper's starting one. -/
theorem Describes.materialFor {isFooterKey : Bool}
    (h : Describes env k key masterKeyId (k.materialBuilder isFooterKey) m w) :
    MaterialFor k.encryptionConfiguration masterKeyId m ∧ m.isFooterKey = isFooterKey ∧
      m.kmsInstanceId = (k.materialBuilder isFooterKey).kmsInstanceId ∧
      m.kmsInstanceUrl = (k.materialBuilder isFooterKey).kmsInstanceUrl := by
  have hfooter : (k.materialBuilder isFooterKey).isFooterKey = isFooterKey := by cases isFooterKey <;> rfl
  cases h with
  | single wrapped hd _ hb =>
    have hm := KeyMaterialBuilder.build_ok hb
    have hkek : (k.materialBuilder isFooterKey).keyEncryptionKeyId = none := by cases isFooterKey <;> rfl
    have hwrapped : (k.materialBuilder isFooterKey).wrappedKek = none := by cases isFooterKey <;> rfl
    refine ⟨⟨Option.some.inj hm.masterKeyId, hm.doubleWrapping.trans hd.symm, ?_, ?_⟩, hm.isFooterKey.trans hfooter,
      hm.kmsInstanceId, hm.kmsInstanceUrl⟩
    · rw [hm.keyEncryptionKeyId, hd]; exact congrArg Option.isSome hkek
    · rw [hm.wrappedKek, hd]; exact congrArg Option.isSome hwrapped
  | double kek wrappedDek hd _ _ hb =>
    have hm := KeyMaterialBuilder.build_ok hb
    refine ⟨⟨Option.some.inj hm.masterKeyId, hm.doubleWrapping.trans hd.symm, ?_, ?_⟩, hm.isFooterKey.trans hfooter,
      hm.kmsInstanceId, hm.kmsInstanceUrl⟩
    · rw [hm.keyEncryptionKeyId, hd]; rfl
    · rw [hm.wrappedKek, hd]; rfl

end KeyWrapper

section

variable {env : Env} {mid : ManagerId} {config : KmsConnectionConfig} {enc : EncryptionConfiguration}
  {ws w w0 : World} {p : FileEncryptionProperties} {k : KeyWrapper} {key : EncryptionKey} {masterKeyId : String}

theorem Made.columnMaterial (h : Made env k w0 key masterKeyId false w) (hk : WrapperFor mid config enc ws k w0) :
    ∃ m, KeyUnwrapper.readMaterial env key.metadata = .ok m ∧ ColumnMaterial enc masterKeyId m := by
  obtain ⟨m, w1, hm, _, _, hd⟩ := h
  obtain ⟨hfor, hfooter, hid, hurl⟩ := hd.materialFor
  rw [hk.encryptionConfiguration] at hfor
  exact ⟨m, hm, { hfor with isFooterKey := hfooter, kmsInstanceId := hid, kmsInstanceUrl := hurl }⟩

theorem Made.footerMaterial (h : Made env k w0 key masterKeyId true w) (hk : WrapperFor mid config enc ws k w0) :
    ∃ m, KeyUnwrapper.readMaterial env key.metadata = .ok m ∧ FooterMaterial enc config masterKeyId m := by
  obtain ⟨m, w1, hm, _, _, hd⟩ := h
  obtain ⟨hfor, hfooter, hid, hurl⟩ := hd.materialFor
  rw [hk.encryptionConfiguration] at hfor
  refine ⟨m, hm, { hfor with isFooterKey := hfooter, kmsInstanceId := ?_, kmsInstanceUrl := ?_ }⟩
  · rw [hid, ← hk.kmsConnectionConfig]; rfl
  · rw [hurl, ← hk.kmsConnectionConfig]; rfl

/-- A map in which no column is named twice has one key for each. -/
theorem key_unique (hn : (namedColumns enc.columnKeyIds).Nodup) {k1 k2 c : String} {cols1 cols2 : List String}
    (h1 : enc.columnKeyIds.lookup k1 = some cols1) (h2 : enc.columnKeyIds.lookup k2 = some cols2) (hc1 : c ∈ cols1)
    (hc2 : c ∈ cols2) : k1 = k2 := by
  by_contra hne
  rw [← HashMap.mem_entries_iff] at h1 h2
  have hsymm : Std.Symm (Function.onFun List.Disjoint fun e : Sigma fun _ : String => List String => e.2) :=
    ⟨fun _ _ h _ ha hb => h hb ha⟩
  exact (List.nodup_flatMap.mp hn).2.forall h1 h2 (fun e => hne (congrArg Sigma.fst e)) hc1 hc2

/-- The column keys of a file are the columns named, each once. -/
theorem Encrypted.keys_perm (h : Encrypted env mid config enc ws p k w0 w) :
    p.columnKeys.keys.Perm (namedColumns enc.columnKeyIds) := by
  rw [List.perm_ext_iff_of_nodup p.columnKeys.keys_nodup enc.columnsUnique]
  exact fun c => AList.mem_keys.symm.trans (h.columns c)

/-- A named column has a key, and its material says for which master key. -/
theorem Encrypted.column_keyed (h : Encrypted env mid config enc ws p k w0 w) {columns : List String} {c : String}
    (hl : enc.columnKeyIds.lookup masterKeyId = some columns) (hc : c ∈ columns) :
    ∃ key m, p.columnKeys.lookup c = some key ∧ KeyUnwrapper.readMaterial env key.metadata = .ok m ∧
      ColumnMaterial enc masterKeyId m := by
  have hin : c ∈ p.columnKeys :=
    (h.columns c).mpr (CryptoFactory.mem_namedColumns.mpr ⟨⟨masterKeyId, columns⟩, HashMap.mem_entries_iff.mpr hl, hc⟩)
  obtain ⟨key, hkey⟩ := Option.isSome_iff_exists.mp (AList.lookup_isSome.mpr hin)
  obtain ⟨mk, columns', hl', hc', hmade⟩ := h.made c key hkey
  -- the key was made for the one master key that names the column
  obtain rfl := key_unique enc.columnsUnique hl hl' hc hc'
  obtain ⟨m, hm, hmat⟩ := hmade.columnMaterial h.wrapper
  exact ⟨key, m, hkey, hm, hmat⟩

/-- Complete and exact key assignment: the column keys of a file are exactly the columns the
    builder's calls named, each once, and every material says whose key it holds. -/
theorem fileEncryptionProperties_keys {footerKeyId : String} {calls : List BuilderCall} {order : IterationOrder}
    (hbuild : (BuilderCall.applyAll footerKeyId calls).build order = .ok enc)
    (h : CryptoFactory.fileEncryptionProperties env mid config enc ws = (.ok p, w)) :
    p.columnKeys.keys.Perm ((calls.flatMap BuilderCall.named).map Prod.fst) ∧
      (∀ c masterKeyId, (c, masterKeyId) ∈ calls.flatMap BuilderCall.named →
        ∃ key m, p.columnKeys.lookup c = some key ∧ KeyUnwrapper.readMaterial env key.metadata = .ok m ∧
          ColumnMaterial enc masterKeyId m) ∧
      ∃ m kmsInstanceId kmsInstanceUrl, KeyUnwrapper.readMaterial env p.footerKey.metadata = .ok m ∧
        FooterMaterial enc config footerKeyId m ∧ m.kmsInstanceId = some kmsInstanceId ∧ kmsInstanceId ≠ "" ∧
        m.kmsInstanceUrl = some kmsInstanceUrl ∧ kmsInstanceUrl ≠ "" := by
  obtain ⟨k, w0, he⟩ := (CryptoFactory.fileEncryptionProperties_along env mid config enc ws).run_ok h
  have hmatches := EncryptionConfigurationBuilder.build_matches hbuild
  have hcolumns : (BuilderCall.applyAll footerKeyId calls).columnKeyIds = enc.columnKeyIds := by rw [hmatches]
  have hfooterId : enc.footerKeyId = footerKeyId := by
    rw [← (applyAll_fixed footerKeyId calls).1, hmatches]
  have hnamed := applyAll_named footerKeyId calls
  rw [hcolumns] at hnamed
  refine ⟨he.keys_perm.trans hnamed, fun c masterKeyId hc => ?_, ?_⟩
  · have hc' := (applyAll_columns footerKeyId calls masterKeyId c).mpr hc
    rw [hcolumns] at hc'
    cases hl : enc.columnKeyIds.lookup masterKeyId with
    | none => rw [hl] at hc'; exact absurd hc' List.not_mem_nil
    | some columns =>
      rw [hl] at hc'
      exact he.column_keyed hl hc'
  · obtain ⟨m, hm, hmat⟩ := he.footer.footerMaterial he.wrapper
    exact ⟨m, _, _, hm, hfooterId ▸ hmat, hmat.kmsInstanceId, orDefault_ne _, hmat.kmsInstanceUrl, orDefault_ne _⟩

end

/-- Columns under two keys. -/
def sampleCalls : List BuilderCall :=
  [.addColumnKey "kc1" ["a", "b"], .addColumnKey "kc2" ["c"], .addColumnKey "kc1" ["d"]]

def sampleConfiguration : EncryptionConfiguration where
  footerKeyId := "kf"
  columnKeyIds := (BuilderCall.applyAll "kf" sampleCalls).columnKeyIds
  plaintextFooter := false
  doubleWrapping := true
  cacheLifetime := some (Duration.fromSecs 600)
  internalKeyMaterial := true
  dataKeyLengthBits := 128
  columnsUnique := by decide

theorem fileEncryptionProperties_keys_sample :
    ∃ p w, CryptoFactory.fileEncryptionProperties Env.sample 0 sampleConfig sampleConfiguration
        (World.init (fun _ => "DEFAULT") 0) = (.ok p, w) ∧
      p.columnKeys.keys.Perm ((sampleCalls.flatMap BuilderCall.named).map Prod.fst) := by
  have hok : (CryptoFactory.fileEncryptionProperties Env.sample 0 sampleConfig sampleConfiguration
      (World.init (fun _ => "DEFAULT") 0)).1.isOk = true := by decide +kernel
  obtain ⟨p, w, hp⟩ := exists_ok hok
  have hbuild : (BuilderCall.applyAll "kf" sampleCalls).build IterationOrder.stored = .ok sampleConfiguration :=
    EncryptionConfigurationBuilder.Matches.build_ok rfl
  exact ⟨p, w, hp, (fileEncryptionProperties_keys hbuild hp).1⟩

end ParquetKeyManagement
