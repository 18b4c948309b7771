/-
  ParquetKeyManagement.DataFusion.Options — the options of the DataFusion integration, and
  how configurations become options and options become configurations (`datafusion.rs`).

  A map of column keys is iterated over when it is serialized, when the keys read back are
  added to a builder, and when the builder checks them; the three orders are independent of
  each other, so each function takes those it uses.
  - `options_round_trip_iff`: a configuration comes back from its options as it was exactly
    when its column keys are `Formattable`, and then it is what is written with.
  - `options_key_id_lost`: a master key id with colons in it comes back as its first part.
  - `options_honoured_iff`: options are neither honoured nor refused exactly when they are
    accepted and ask for another key length or for external key material.
-/

import ParquetKeyManagement.DataFusion.ColumnKeys
import ParquetKeyManagement.Factory.Properties

namespace ParquetKeyManagement

open Effect

/-! ## Options -/

structure EncryptionOptions where
  footerKeyId : String := ""
  columnKeyIds : String := ""
  plaintextFooter : Bool := false
  doubleWrapping : Bool := true
  cacheLifetimeS : Option UInt64 := none
  internalKeyMaterial : Bool := true
  dataKeyLengthBits : UInt64 := 128
  deriving DecidableEq

structure DecryptionOptions where
  cacheLifetimeS : Option UInt64 := none
  deriving DecidableEq

structure KmsEncryptionFactoryOptions where
  encryption : EncryptionOptions := {}
  decryption : DecryptionOptions := {}
  deriving DecidableEq

namespace EncryptionOptions

/-- `From<EncryptionConfiguration>`. -/
def fromConfiguration (order : IterationOrder) (config : EncryptionConfiguration) : EncryptionOptions where
  footerKeyId := config.footerKeyId
  columnKeyIds := serializeColumnKeys order config.columnKeyIds
  plaintextFooter := config.plaintextFooter
  doubleWrapping := config.doubleWrapping
  cacheLifetimeS := config.cacheLifetime.map Duration.asSecs
  internalKeyMaterial := config.internalKeyMaterial
  dataKeyLengthBits := config.dataKeyLengthBits.toUInt64

/-- The loop that adds the column keys to the builder. -/
def addColumnKeys (builder : EncryptionConfigurationBuilder) (es : List (Sigma fun _ : String => List String)) :
    EncryptionConfigurationBuilder :=
  es.foldl (fun b e => b.addColumnKey e.1 e.2) builder

/-- `TryInto<EncryptionConfiguration>`. -/
def tryInto (keysOrder buildOrder : IterationOrder) (o : EncryptionOptions) :
    Except DataFusionError EncryptionConfiguration := do
  let builder :=
    (((EncryptionConfiguration.builder o.footerKeyId).setDoubleWrapping o.doubleWrapping).setPlaintextFooter
    o.plaintextFooter).setCacheLifetime (o.cacheLifetimeS.map Duration.fromSecs)
  let columnKeys ← deserializeColumnKeys o.columnKeyIds
  ((addColumnKeys builder (HashMap.inOrder keysOrder columnKeys)).build buildOrder).mapError .parquetError

end EncryptionOptions

namespace DecryptionOptions

def fromConfiguration (config : DecryptionConfiguration) : DecryptionOptions where
  cacheLifetimeS := config.cacheLifetime.map Duration.asSecs

def tryInto (o : DecryptionOptions) : Except DataFusionError DecryptionConfiguration :=
  .ok (DecryptionConfigurationBuilder.new.setCacheLifetime (o.cacheLifetimeS.map Duration.fromSecs)).build

end DecryptionOptions

def KmsEncryptionFactoryOptions.new (order : IterationOrder) (encryptionConfig : EncryptionConfiguration)
    (decryptionConfig : DecryptionConfiguration) : KmsEncryptionFactoryOptions where
  encryption := .fromConfiguration order encryptionConfig
  decryption := .fromConfiguration decryptionConfig

/-! ## The encryption factory -/

structure KmsEncryptionFactory where
  cryptoFactory : ManagerId
  kmsConnectionConfig : KmsConnectionConfig

namespace KmsEncryptionFactory

variable (env : Env) (f : KmsEncryptionFactory)

/-- `get_file_encryption_properties`, with the options DataFusion keeps for the factory. -/
def getFileEncryptionProperties (config : KmsEncryptionFactoryOptions) :
    Eff World DataFusionError FileEncryptionProperties := do
  let keysOrder ← Eff.mapErr .parquetError (iterationOrder env)
  let buildOrder ← Eff.mapErr .parquetError (iterationOrder env)
  let encryptionConfiguration ← Eff.ofExcept (config.encryption.tryInto keysOrder buildOrder)
  Eff.mapErr .parquetError
    (CryptoFactory.fileEncryptionProperties env f.cryptoFactory f.kmsConnectionConfig encryptionConfiguration)

def getFileDecryptionProperties (config : KmsEncryptionFactoryOptions) : Eff World DataFusionError KeyUnwrapper := do
  let decryptionConfiguration ← Eff.ofExcept config.decryption.tryInto
  Eff.mapErr .parquetError
    (CryptoFactory.fileDecryptionProperties env f.cryptoFactory f.kmsConnectionConfig decryptionConfiguration)

/-- Written properties come from a configuration that the options became. -/
theorem getFileEncryptionProperties_ok {env : Env} {f : KmsEncryptionFactory} {config : KmsEncryptionFactoryOptions}
    {w w' : World} {p : FileEncryptionProperties} (h : getFileEncryptionProperties env f config w = (.ok p, w')) :
    ∃ keysOrder buildOrder enc w1, config.encryption.tryInto keysOrder buildOrder = .ok enc ∧
      CryptoFactory.fileEncryptionProperties env f.cryptoFactory f.kmsConnectionConfig enc w1 = (.ok p, w') := by
  obtain ⟨keysOrder, w1, _, h⟩ := bind_eq_ok h
  obtain ⟨buildOrder, w2, _, h⟩ := bind_eq_ok h
  obtain ⟨enc, w3, henc, h⟩ := bind_eq_ok h
  exact ⟨keysOrder, buildOrder, enc, w3, (ofExcept_eq_ok henc).1, mapErr_eq_ok h⟩

end KmsEncryptionFactory

/-! ## What adding column keys does -/

/-- Column keys under new ids are stored as they are. -/
theorem addColumnKeys_eq {es : List (Sigma fun _ : String => List String)} (hes : es.NodupKeys)
    (b : EncryptionConfigurationBuilder) (hb : ∀ e ∈ es, b.columnKeyIds.lookup e.1 = none) :
    EncryptionOptions.addColumnKeys b es = { b with columnKeyIds := HashMap.insertAll es b.columnKeyIds } := by
  induction es generalizing b with
  | nil => rfl
  | cons e es ih =>
    obtain ⟨hnot, hes'⟩ := List.nodupKeys_cons.mp hes
    have hadd : b.addColumnKey e.1 e.2 = { b with columnKeyIds := b.columnKeyIds.insert e.1 e.2 } := by
      unfold EncryptionConfigurationBuilder.addColumnKey
      rw [hb e (List.mem_cons_self ..)]
      rfl
    have hnext : ∀ e' ∈ es, (b.columnKeyIds.insert e.1 e.2).lookup e'.1 = none := by
      intro e' he'
      have hne : e'.1 ≠ e.1 := fun h => hnot (h ▸ List.mem_keys_of_mem he')
      rw [AList.lookup_insert_ne hne]
      exact hb e' (List.mem_cons_of_mem _ he')
    have := ih hes' { b with columnKeyIds := b.columnKeyIds.insert e.1 e.2 } hnext
    unfold EncryptionOptions.addColumnKeys at this ⊢
    rw [List.foldl_cons, hadd, this]
    rfl

/-- The builder that is finished, for column keys in this order. -/
def EncryptionOptions.builder (o : EncryptionOptions) (keysOrder : IterationOrder) (columnKeys : ColumnKeys) :
    EncryptionConfigurationBuilder where
  footerKeyId := o.footerKeyId
  columnKeyIds := HashMap.insertAll (HashMap.inOrder keysOrder columnKeys) ∅
  plaintextFooter := o.plaintextFooter
  doubleWrapping := o.doubleWrapping
  cacheLifetime := o.cacheLifetimeS.map Duration.fromSecs
  internalKeyMaterial := true
  dataKeyLengthBits := 128

section

variable {keysOrder buildOrder : IterationOrder} {o : EncryptionOptions} {columnKeys : ColumnKeys}
  {c : EncryptionConfiguration}

theorem tryInto_eq (hread : deserializeColumnKeys o.columnKeyIds = .ok columnKeys) :
    o.tryInto keysOrder buildOrder = ((o.builder keysOrder columnKeys).build buildOrder).mapError .parquetError := by
  unfold EncryptionOptions.tryInto
  rw [hread]
  simp only [bind, Except.bind]
  rw [addColumnKeys_eq (HashMap.inOrder_nodupKeys _ _) _ fun _ _ => rfl]
  rfl

/-- The options became the configuration that the finished builder is. -/
theorem tryInto_ok (h : o.tryInto keysOrder buildOrder = .ok c) :
    ∃ columnKeys, deserializeColumnKeys o.columnKeyIds = .ok columnKeys ∧
    (o.builder keysOrder columnKeys).Matches c := by
  cases hread : deserializeColumnKeys o.columnKeyIds with
  | error e =>
    unfold EncryptionOptions.tryInto at h
    rw [hread] at h
    cases h
  | ok columnKeys =>
    rw [tryInto_eq hread] at h
    cases hbuild : (o.builder keysOrder columnKeys).build buildOrder with
    | error e => rw [hbuild] at h; cases h
    | ok c' =>
      rw [hbuild] at h
      cases h
      exact ⟨columnKeys, rfl, EncryptionConfigurationBuilder.build_matches hbuild⟩

/-- The builder holds the column keys that were read. -/
theorem lookup_builder (keyId : String) :
    (o.builder keysOrder columnKeys).columnKeyIds.lookup keyId = columnKeys.lookup keyId :=
  lookup_deserialize_serialize keysOrder columnKeys keyId

end

/-! ## There and back -/

/-- `c'` is `c`, with its lifetime in whole seconds. -/
structure EncryptionConfiguration.ComesBackAs (c c' : EncryptionConfiguration) : Prop where
  footerKeyId : c'.footerKeyId = c.footerKeyId
  columnKeyIds : ∀ keyId, c'.columnKeyIds.lookup keyId = c.columnKeyIds.lookup keyId
  plaintextFooter : c'.plaintextFooter = c.plaintextFooter
  doubleWrapping : c'.doubleWrapping = c.doubleWrapping
  cacheLifetime : c'.cacheLifetime = c.cacheLifetime.map fun l => Duration.fromSecs l.asSecs
  internalKeyMaterial : c'.internalKeyMaterial = c.internalKeyMaterial
  dataKeyLengthBits : c'.dataKeyLengthBits = c.dataKeyLengthBits

/-- Exactly the columns that `c` names have a key in the file, each for the master key that `c`
    names it under, and the footer key is for the one of the footer. -/
structure EncryptionConfiguration.WrittenAs (env : Env) (c : EncryptionConfiguration) (p : FileEncryptionProperties) :
    Prop where
  plaintextFooter : p.plaintextFooter = c.plaintextFooter
  columns : p.columnKeys.keys.Perm (namedColumns c.columnKeyIds)
  keyed : ∀ masterKeyId columns col, c.columnKeyIds.lookup masterKeyId = some columns → col ∈ columns →
    ∃ key m, p.columnKeys.lookup col = some key ∧ KeyUnwrapper.readMaterial env key.metadata = .ok m ∧
      m.masterKeyId = masterKeyId
  footer : ∃ m, KeyUnwrapper.readMaterial env p.footerKey.metadata = .ok m ∧ m.masterKeyId = c.footerKeyId

section

variable {env : Env} {order keysOrder buildOrder : IterationOrder} {c c' : EncryptionConfiguration}

theorem namedColumns_perm {m m' : ColumnKeys} (h : ∀ keyId, m'.lookup keyId = m.lookup keyId) :
    (namedColumns m').Perm (namedColumns m) := by
  have hentries : m'.entries.Perm m.entries :=
    List.lookup_ext m'.nodupKeys m.nodupKeys fun keyId columns => by
      have := h keyId
      unfold AList.lookup at this
      rw [this]
  exact hentries.flatMap_right _

/-- A built configuration has the two options that no setter changes. -/
theorem EncryptionConfiguration.Built.fixed (h : c.Built) :
    c.internalKeyMaterial = true ∧ c.dataKeyLengthBits = 128 := by
  obtain ⟨footerKeyId, calls, o, h⟩ := h
  obtain ⟨_, hinternal, hbits⟩ := applyAll_fixed footerKeyId calls
  rw [EncryptionConfigurationBuilder.build_matches h] at hinternal hbits
  exact ⟨hinternal, hbits⟩

/-- What options made of `c` became is `c`, if its column keys were read back. -/
theorem comesBackAs_of_matches (hc : c.Built) {columnKeys : ColumnKeys}
    (hlookup : ∀ keyId, columnKeys.lookup keyId = c.columnKeyIds.lookup keyId)
    (h : ((EncryptionOptions.fromConfiguration order c).builder keysOrder columnKeys).Matches c') :
    c.ComesBackAs c' := by
  obtain ⟨hinternal, hbits⟩ := hc.fixed
  have hcolumns : (EncryptionOptions.builder (.fromConfiguration order c) keysOrder columnKeys).columnKeyIds =
      c'.columnKeyIds := by rw [h]
  unfold EncryptionConfigurationBuilder.Matches EncryptionOptions.builder EncryptionOptions.fromConfiguration at h
  simp only [EncryptionConfigurationBuilder.mk.injEq, Option.map_map] at h
  obtain ⟨h1, _, h3, h4, h5, h6, h7⟩ := h
  refine ⟨h1.symm, fun keyId => ?_, h3.symm, h4.symm, h5.symm, h6.symm.trans hinternal.symm, h7.symm.trans hbits.symm⟩
  rw [← hcolumns, lookup_builder, hlookup]

theorem comesBack_of_formattable (hc : c.Built) (h : Formattable c.columnKeyIds) :
    ∃ c', (EncryptionOptions.fromConfiguration order c).tryInto keysOrder buildOrder = .ok c' ∧ c.ComesBackAs c' := by
  have hread : deserializeColumnKeys (EncryptionOptions.fromConfiguration order c).columnKeyIds = _ :=
    deserialize_serialize h order
  have hback := lookup_deserialize_serialize order c.columnKeyIds
  -- the builder checks the same columns that `c` was checked for
  have hunique : (namedColumns ((EncryptionOptions.fromConfiguration order c).builder keysOrder
      (HashMap.insertAll (HashMap.inOrder order c.columnKeyIds) ∅)).columnKeyIds).Nodup := by
    refine (namedColumns_perm fun keyId => ?_).nodup_iff.mpr c.columnsUnique
    rw [lookup_builder, hback]
  obtain ⟨c', hbuild⟩ := (@EncryptionConfigurationBuilder.build_ok_iff buildOrder _).mpr hunique
  refine ⟨c', ?_, comesBackAs_of_matches hc hback (EncryptionConfigurationBuilder.build_matches hbuild)⟩
  rw [tryInto_eq hread, hbuild]
  rfl

theorem formattable_of_comesBack
    (h : (EncryptionOptions.fromConfiguration order c).tryInto keysOrder buildOrder = .ok c')
    (hback : c.ComesBackAs c') :
    Formattable c.columnKeyIds := by
  obtain ⟨columnKeys, hread, hmatches⟩ := tryInto_ok h
  have hcolumns : (EncryptionOptions.builder (.fromConfiguration order c) keysOrder columnKeys).columnKeyIds =
      c'.columnKeyIds := by rw [hmatches]
  intro keyId columns hl
  refine deserialize_formattable hread keyId columns ?_
  calc columnKeys.lookup keyId = _ := (lookup_builder keyId).symm
    _ = c'.columnKeyIds.lookup keyId := by rw [hcolumns]
    _ = some columns := (hback.columnKeyIds keyId).trans hl

/-- A file written with `c'` is as `c` says. -/
theorem EncryptionConfiguration.ComesBackAs.writtenAs (h : c.ComesBackAs c') {m : ManagerId}
    {config : KmsConnectionConfig} {w w' : World} {p : FileEncryptionProperties}
    (hp : CryptoFactory.fileEncryptionProperties env m config c' w = (.ok p, w')) : c.WrittenAs env p := by
  obtain ⟨k, w0, he⟩ := (CryptoFactory.fileEncryptionProperties_along env m config c' w).run_ok hp
  refine ⟨he.plaintextFooter.trans h.plaintextFooter, he.keys_perm.trans (namedColumns_perm h.columnKeyIds), ?_, ?_⟩
  · intro masterKeyId columns col hl hcol
    obtain ⟨key, mat, hkey, hread, hmat⟩ := he.column_keyed ((h.columnKeyIds masterKeyId).trans hl) hcol
    exact ⟨key, mat, hkey, hread, hmat.masterKeyId⟩
  · obtain ⟨mat, hread, hmat⟩ := he.footer.footerMaterial he.wrapper
    exact ⟨mat, hread, hmat.masterKeyId.trans h.footerKeyId⟩

/-- Whatever the iteration orders are, a built configuration comes back from its options as it was
    exactly when the format keeps its key ids and columns; what is written with the options then
    is what the configuration says. -/
theorem options_round_trip_iff (hc : c.Built) :
    ((∃ c', (EncryptionOptions.fromConfiguration order c).tryInto keysOrder buildOrder = .ok c' ∧ c.ComesBackAs c') ↔
      Formattable c.columnKeyIds) ∧
    (Formattable c.columnKeyIds → ∀ (f : KmsEncryptionFactory) (dec : DecryptionConfiguration) (w w' : World)
      (p : FileEncryptionProperties),
        f.getFileEncryptionProperties env (.new order c dec) w = (.ok p, w') → c.WrittenAs env p) := by
  refine ⟨⟨?_, comesBack_of_formattable hc⟩, ?_⟩
  · intro hexists
    obtain ⟨c', h, hback⟩ := hexists
    exact formattable_of_comesBack h hback
  · intro hf f dec w w' p hp
    obtain ⟨keysOrder, buildOrder, c', w1, hinto, hwritten⟩ := KmsEncryptionFactory.getFileEncryptionProperties_ok hp
    obtain ⟨c'', hinto', hback⟩ : ∃ c'', (EncryptionOptions.fromConfiguration order c).tryInto keysOrder buildOrder =
      .ok c'' ∧ c.ComesBackAs c'' := comesBack_of_formattable hc hf
    obtain rfl : c'' = c' := Except.ok.inj (hinto'.symm.trans hinto)
    exact hback.writtenAs hwritten

end

theorem sampleConfiguration_built : sampleConfiguration.Built :=
  ⟨"kf", sampleCalls, IterationOrder.stored, EncryptionConfigurationBuilder.Matches.build_ok rfl⟩

/-- The sample configuration comes back, and a file is written with its options. -/
theorem options_round_trip_sample :
    (∃ c', (EncryptionOptions.fromConfiguration IterationOrder.stored sampleConfiguration).tryInto IterationOrder.stored
      IterationOrder.stored = .ok c' ∧ sampleConfiguration.ComesBackAs c') ∧
    ∃ p w, KmsEncryptionFactory.getFileEncryptionProperties Env.sample ⟨0, sampleConfig⟩
        (.new IterationOrder.stored sampleConfiguration ⟨none⟩) (World.init (fun _ => "DEFAULT") 0) = (.ok p, w) ∧
      sampleConfiguration.WrittenAs Env.sample p := by
  have hf : Formattable sampleConfiguration.columnKeyIds := by decide
  obtain ⟨p, w, hp⟩ := exists_ok (show (KmsEncryptionFactory.getFileEncryptionProperties Env.sample ⟨0, sampleConfig⟩
    (.new IterationOrder.stored sampleConfiguration ⟨none⟩) (World.init (fun _ => "DEFAULT") 0)).1.isOk = true by
      decide +kernel)
  have hiff := @options_round_trip_iff Env.sample IterationOrder.stored IterationOrder.stored IterationOrder.stored
    sampleConfiguration sampleConfiguration_built
  exact ⟨hiff.1.mpr hf, p, w, hp, hiff.2 hf ⟨0, sampleConfig⟩ ⟨none⟩ _ w p hp⟩

def arnCalls : List BuilderCall := [.addColumnKey "arn:aws:kms:region:account:key/x" ["c"]]

/-- A column under a master key that is named by its ARN. -/
def arnConfiguration : EncryptionConfiguration where
  footerKeyId := "kf"
  columnKeyIds := (BuilderCall.applyAll "kf" arnCalls).columnKeyIds
  plaintextFooter := false
  doubleWrapping := true
  cacheLifetime := some (Duration.fromSecs 600)
  internalKeyMaterial := true
  dataKeyLengthBits := 128
  columnsUnique := by decide

/-- The ARN comes back as "arn", and the rest of it as part of the column's name. -/
theorem options_key_id_lost :
    arnConfiguration.Built ∧
    ((EncryptionOptions.fromConfiguration IterationOrder.stored arnConfiguration).tryInto IterationOrder.stored
      IterationOrder.stored).toOption.map (fun c' => c'.columnKeyIds.entries) =
        some [⟨"arn", ["aws:kms:region:account:key/x:c"]⟩] ∧
    ¬ ∃ c', (EncryptionOptions.fromConfiguration IterationOrder.stored arnConfiguration).tryInto IterationOrder.stored
      IterationOrder.stored = .ok c' ∧ arnConfiguration.ComesBackAs c' := by
  have hentries : ((EncryptionOptions.fromConfiguration IterationOrder.stored arnConfiguration).tryInto
      IterationOrder.stored IterationOrder.stored).toOption.map (fun c' => c'.columnKeyIds.entries) =
        some [⟨"arn", ["aws:kms:region:account:key/x:c"]⟩] := by decide +kernel
  refine ⟨⟨"kf", arnCalls, IterationOrder.stored, EncryptionConfigurationBuilder.Matches.build_ok rfl⟩, hentries, ?_⟩
  intro hexists
  obtain ⟨c', h, hback⟩ := hexists
  rw [h] at hentries
  have hlost : c'.columnKeyIds.lookup "arn" = none := (hback.columnKeyIds "arn").trans (by decide)
  have hread : c'.columnKeyIds.entries = [⟨"arn", ["aws:kms:region:account:key/x:c"]⟩] := Option.some.inj hentries
  unfold AList.lookup at hlost
  rw [hread] at hlost
  cases hlost

/-! ## Honouring the options -/

namespace EncryptionOptions

/-- The configuration is what the options ask for. -/
structure HonouredBy (o : EncryptionOptions) (c : EncryptionConfiguration) : Prop where
  footerKeyId : c.footerKeyId = o.footerKeyId
  plaintextFooter : c.plaintextFooter = o.plaintextFooter
  doubleWrapping : c.doubleWrapping = o.doubleWrapping
  cacheLifetime : c.cacheLifetime = o.cacheLifetimeS.map Duration.fromSecs
  internalKeyMaterial : c.internalKeyMaterial = o.internalKeyMaterial
  dataKeyLengthBits : c.dataKeyLengthBits.toUInt64 = o.dataKeyLengthBits

/-- No option is dropped: the options become a configuration that is what they ask for, or none,
    and what the library cannot write is refused. -/
structure Honoured (o : EncryptionOptions) : Prop where
  configuration : ∀ keysOrder buildOrder c, o.tryInto keysOrder buildOrder = .ok c → o.HonouredBy c
  refused : o.dataKeyLengthBits ≠ 128 ∨ o.internalKeyMaterial = false → ∀ (env : Env) (f : KmsEncryptionFactory)
    (dec : DecryptionOptions) (w : World), ∃ e, (f.getFileEncryptionProperties env ⟨o, dec⟩ w).1 = .err e

/-- The column keys can be read, and name no column twice. -/
def Accepted (o : EncryptionOptions) : Prop :=
  ∃ columnKeys, deserializeColumnKeys o.columnKeyIds = .ok columnKeys ∧ (namedColumns columnKeys).Nodup

variable {o : EncryptionOptions} {keysOrder buildOrder : IterationOrder} {c : EncryptionConfiguration}

/-- Options become a configuration exactly when their column keys are accepted. -/
theorem tryInto_ok_iff : (∃ c, o.tryInto keysOrder buildOrder = .ok c) ↔ o.Accepted := by
  constructor
  · intro hexists
    obtain ⟨c, h⟩ := hexists
    obtain ⟨columnKeys, hread, hmatches⟩ := tryInto_ok h
    have hcolumns : (o.builder keysOrder columnKeys).columnKeyIds = c.columnKeyIds := by rw [hmatches]
    refine ⟨columnKeys, hread, (namedColumns_perm fun keyId => ?_).nodup_iff.mp c.columnsUnique⟩
    rw [← hcolumns, lookup_builder]
  · intro hexists
    obtain ⟨columnKeys, hread, hunique⟩ := hexists
    have hbuilder : (namedColumns (o.builder keysOrder columnKeys).columnKeyIds).Nodup :=
      (namedColumns_perm fun keyId => lookup_builder keyId).nodup_iff.mpr hunique
    obtain ⟨c, hbuild⟩ := (@EncryptionConfigurationBuilder.build_ok_iff buildOrder _).mpr hbuilder
    exact ⟨c, by rw [tryInto_eq hread, hbuild]; rfl⟩

/-- Two options are not looked at. -/
theorem tryInto_fields (h : o.tryInto keysOrder buildOrder = .ok c) :
    c.footerKeyId = o.footerKeyId ∧ c.plaintextFooter = o.plaintextFooter ∧ c.doubleWrapping = o.doubleWrapping ∧
      c.cacheLifetime = o.cacheLifetimeS.map Duration.fromSecs ∧ c.internalKeyMaterial = true ∧
        c.dataKeyLengthBits = 128 := by
  obtain ⟨columnKeys, _, hmatches⟩ := tryInto_ok h
  unfold EncryptionConfigurationBuilder.Matches EncryptionOptions.builder at hmatches
  simp only [EncryptionConfigurationBuilder.mk.injEq] at hmatches
  obtain ⟨h1, _, h2, h3, h4, h5, h6⟩ := hmatches
  exact ⟨h1.symm, h2.symm, h3.symm, h4.symm, h5.symm, h6.symm⟩

/-- Options that do not become a configuration are refused, whatever the state is. -/
theorem refused_of_not_accepted (h : ¬ o.Accepted) (env : Env) (f : KmsEncryptionFactory) (dec : DecryptionOptions)
    (w : World) : ∃ e, (f.getFileEncryptionProperties env ⟨o, dec⟩ w).1 = .err e := by
  have horders : f.getFileEncryptionProperties env ⟨o, dec⟩ w =
      (Eff.ofExcept (o.tryInto (env.order w.calls) (env.order (w.calls + 1))) >>= fun c => Eff.mapErr .parquetError
        (CryptoFactory.fileEncryptionProperties env f.cryptoFactory f.kmsConnectionConfig c)) ((w.tick 0).tick 0) := rfl
  cases hinto : o.tryInto (env.order w.calls) (env.order (w.calls + 1)) with
  | ok c => exact absurd (tryInto_ok_iff.mp ⟨c, hinto⟩) h
  | error e =>
    refine ⟨e, ?_⟩
    rw [horders, hinto, bind_err (ofExcept_error e _)]

/-- The options are honoured exactly when their column keys are refused, or they ask for 128-bit
    keys and internal key material. -/
theorem options_honoured_iff (o : EncryptionOptions) :
    o.Honoured ↔ (o.Accepted → o.dataKeyLengthBits = 128 ∧ o.internalKeyMaterial = true) := by
  constructor
  · intro h haccepted
    obtain ⟨c, hinto⟩ := (@tryInto_ok_iff o IterationOrder.stored IterationOrder.stored).mpr haccepted
    obtain ⟨_, _, _, _, hinternal, hbits⟩ := tryInto_fields hinto
    have hc := h.configuration _ _ c hinto
    exact ⟨by rw [← hc.dataKeyLengthBits, hbits]; rfl, hc.internalKeyMaterial.symm.trans hinternal⟩
  · intro h
    by_cases haccepted : o.Accepted
    · obtain ⟨hbits, hinternal⟩ := h haccepted
      refine ⟨fun keysOrder buildOrder c hinto => ?_, fun hasks => ?_⟩
      · obtain ⟨h1, h2, h3, h4, h5, h6⟩ := tryInto_fields hinto
        exact ⟨h1, h2, h3, h4, h5.trans hinternal.symm, by rw [h6, hbits]; rfl⟩
      · rcases hasks with hasks | hasks
        · exact absurd hbits hasks
        · rw [hinternal] at hasks
          cases hasks
    · refine ⟨fun keysOrder buildOrder c hinto => ?_, fun _ => refused_of_not_accepted haccepted⟩
      exact absurd (tryInto_ok_iff.mp ⟨c, hinto⟩) haccepted

/-- Asked for 256-bit keys, the factory writes a footer key of 16 bytes. -/
theorem options_length_dropped :
    let o : EncryptionOptions := { footerKeyId := "kf", dataKeyLengthBits := 256 }
    ¬ o.Honoured ∧ (KmsEncryptionFactory.getFileEncryptionProperties Env.sample ⟨0, sampleConfig⟩ ⟨o, ⟨none⟩⟩
      (World.init (fun _ => "DEFAULT") 0)).1.toOption.map (fun p => p.footerKey.key.length) = some 16 := by
  intro o
  have hlength : (KmsEncryptionFactory.getFileEncryptionProperties Env.sample ⟨0, sampleConfig⟩ ⟨o, ⟨none⟩⟩
      (World.init (fun _ => "DEFAULT") 0)).1.toOption.map (fun p => p.footerKey.key.length) =
        some 16 := by decide +kernel
  refine ⟨fun h => ?_, hlength⟩
  obtain ⟨e, he⟩ := h.refused (Or.inl (by decide)) Env.sample ⟨0, sampleConfig⟩ ⟨none⟩
    (World.init (fun _ => "DEFAULT") 0)
  rw [he] at hlength
  cases hlength

end EncryptionOptions

end ParquetKeyManagement
