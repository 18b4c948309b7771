/-
  ParquetKeyManagement.DataFusion.Tables — whole runs of the DataFusion integration.

  DataFusion keeps what a table was configured with as texts, and hands them to the encryption
  factory with every file that it writes or opens; the factory makes a configuration of them
  and asks its crypto factory. So a run of tables is a run of crypto factories, in which the
  surroundings are also used for iterating over maps (`Runs`).
  - `Tables.Refines.exec`, `tables_refine`: a step, and a run, of tables is one of the library.
  - `tables_round_trip`: a file is written as the configuration says that its table's texts were
    made from, opening it uses that configuration's lifetime, and each of its keys comes back.
-/

import ParquetKeyManagement.DataFusion.Extension
import ParquetKeyManagement.Factory.RoundTrip

namespace ParquetKeyManagement

open Effect

/-- `EncryptionFactoryOptions`, in the order in which the texts are set. -/
abbrev EncryptionFactoryOptions : Type := List (String × String)

/-! ## From texts to properties -/

section

variable (E : ExtensionOptions EncryptionOptions) (D : ExtensionOptions DecryptionOptions)

/-- `EncryptionFactoryOptions::to_extension_options`. -/
def toExtensionOptions (options : EncryptionFactoryOptions) : Except DataFusionError KmsEncryptionFactoryOptions :=
  (KmsEncryptionFactoryOptions.extension E D).replay {} options

def buildDecryptionConfiguration (options : EncryptionFactoryOptions) :
    Except DataFusionError DecryptionConfiguration := do
  let kmsOptions ← toExtensionOptions E D options
  kmsOptions.decryption.tryInto

def buildEncryptionConfiguration (keysOrder buildOrder : IterationOrder) (options : EncryptionFactoryOptions) :
    Except DataFusionError EncryptionConfiguration := do
  let kmsOptions ← toExtensionOptions E D options
  kmsOptions.encryption.tryInto keysOrder buildOrder

namespace KmsEncryptionFactory

variable (env : Env) (f : KmsEncryptionFactory)

/-- `get_file_encryption_properties`, from the texts. -/
def encryptionPropertiesOf (config : EncryptionFactoryOptions) :
    Eff World DataFusionError FileEncryptionProperties := do
  let keysOrder ← Eff.mapErr .parquetError (iterationOrder env)
  let buildOrder ← Eff.mapErr .parquetError (iterationOrder env)
  let encryptionConfiguration ← Eff.ofExcept (buildEncryptionConfiguration E D keysOrder buildOrder config)
  Eff.mapErr .parquetError
    (CryptoFactory.fileEncryptionProperties env f.cryptoFactory f.kmsConnectionConfig encryptionConfiguration)

/-- `get_file_decryption_properties`, from the texts. -/
def decryptionPropertiesOf (config : EncryptionFactoryOptions) : Eff World DataFusionError KeyUnwrapper := do
  let decryptionConfiguration ← Eff.ofExcept (buildDecryptionConfiguration E D config)
  Eff.mapErr .parquetError
    (CryptoFactory.fileDecryptionProperties env f.cryptoFactory f.kmsConnectionConfig decryptionConfiguration)

end KmsEncryptionFactory

end

section

variable {E : ExtensionOptions EncryptionOptions} {D : ExtensionOptions DecryptionOptions}
  {options : EncryptionFactoryOptions}

/-- What the texts of options say. -/
theorem toExtensionOptions_valued (hE : E.Lists EncryptionOptions.fields) (hD : D.Lists DecryptionOptions.fields)
    {o : KmsEncryptionFactoryOptions} (h : options.Perm ((KmsEncryptionFactoryOptions.extension E D).valued o)) :
    toExtensionOptions E D options = .ok o :=
  Configurable.replay_valued (KmsEncryptionFactoryOptions.extension_lists hE hD)
    KmsEncryptionFactoryOptions.fields_lawful (KmsEncryptionFactoryOptions.default_isNone o) h

end

/-! ## Runs of tables -/

structure TableFile where
  options : EncryptionFactoryOptions
  properties : FileEncryptionProperties

structure TableReader where
  options : EncryptionFactoryOptions
  unwrapper : KeyUnwrapper

/-- The shared state, with what DataFusion was handed so far. -/
structure Tables where
  world : World
  readers : List TableReader
  files : List TableFile

inductive TableRequest where
  | newFactory
  | refresh (config : KmsConnectionConfig) (keyAccessToken : String)
  | wait (elapsed : Nat)
  | write (factory : KmsEncryptionFactory) (options : EncryptionFactoryOptions)
  | read (factory : KmsEncryptionFactory) (options : EncryptionFactoryOptions)
  | retrieve (unwrapper : KeyUnwrapper) (keyMetadata : Bytes)

namespace Tables

def init (tokens : TokenCell → String) (clock : Instant) : Tables := ⟨World.init tokens clock, [], []⟩

def issued (t : Tables) : List EncryptionKey := t.files.flatMap fun x => x.properties.keys

variable (env : Env) (E : ExtensionOptions EncryptionOptions) (D : ExtensionOptions DecryptionOptions)

def after (w : World) : TableRequest → World
  | .newFactory => (CryptoFactory.new env w).2
  | .refresh config keyAccessToken => (refreshKeyAccessToken config keyAccessToken w).2
  | .wait elapsed => w.wait elapsed
  | .write factory options => (factory.encryptionPropertiesOf E D env options w).2
  | .read factory options => (factory.decryptionPropertiesOf E D env options w).2
  | .retrieve u keyMetadata => (u.retrieveKey env keyMetadata w).2

def written (w : World) : TableRequest → List TableFile
  | .write factory options =>
    ((factory.encryptionPropertiesOf E D env options w).1.toOption.map fun p => TableFile.mk options p).toList
  | _ => []

def opened (w : World) : TableRequest → List TableReader
  | .read factory options =>
    ((factory.decryptionPropertiesOf E D env options w).1.toOption.map fun u => TableReader.mk options u).toList
  | _ => []

def exec (t : Tables) (r : TableRequest) : Tables where
  world := after env E D t.world r
  readers := t.readers ++ opened env E D t.world r
  files := t.files ++ written env E D t.world r

def Enabled (t : Tables) : TableRequest → Prop
  | .write factory _ | .read factory _ => factory.cryptoFactory < t.world.nextManager
  | .retrieve u _ => ∃ x ∈ t.readers, x.unwrapper = u
  | _ => True

inductive Reach (P : Tables → TableRequest → Prop) : Tables → Prop
  | init (tokens : TokenCell → String) (clock : Instant) : Reach P (Tables.init tokens clock)
  | step {t : Tables} (r : TableRequest) : Reach P t → t.Enabled r → P t r → Reach P (t.exec env E D r)

variable {env E D} in
theorem Reach.mono {P P' : Tables → TableRequest → Prop} {t : Tables} (h : Reach env E D P t)
    (hP : ∀ t r, P t r → P' t r) : Reach env E D P' t := by
  induction h with
  | init tokens clock => exact .init tokens clock
  | step r _ he hr ih => exact .step r ih he (hP _ _ hr)

/-- The request retrieves only issued keys, and no lifetime overflows in it. -/
def RoundTrips (t : Tables) : TableRequest → Prop
  | .write factory options => (factory.encryptionPropertiesOf E D env options t.world).1 ≠ .panic
  | .read factory options => (factory.decryptionPropertiesOf E D env options t.world).1 ≠ .panic
  | .retrieve u keyMetadata =>
    (∃ key ∈ t.issued, key.metadata = keyMetadata) ∧ ¬ u.Overflows env keyMetadata t.world
  | _ => True

end Tables

/-! ## Runs of the library in which the surroundings are also used by others -/

namespace System

variable (env : Env) (P : System → Request → Prop)

/-- The surroundings are used once. -/
def used (s : System) : System := { s with world := s.world.tick 0 }

@[simp] theorem used_readers (s : System) : s.used.readers = s.readers := rfl
@[simp] theorem used_files (s : System) : s.used.files = s.files := rfl

inductive Turn : System → System → Prop
  | use (s : System) : Turn s s.used
  | request {s : System} (r : Request) : s.Enabled r → P s r → Turn s (s.exec env r)

inductive Runs : System → Prop
  | init (tokens : TokenCell → String) (clock : Instant) : Runs (System.init tokens clock)
  | turn {s s' : System} : Runs s → Turn env P s s' → Runs s'

variable {env P} {s s' : System}

theorem Runs.turns (h : Runs env P s) (path : Relation.ReflTransGen (Turn env P) s s') : Runs env P s' :=
  path_keeps (I := Runs env P) (fun _ _ hr ht => hr.turn ht) path h

theorem Runs.mono {P' : System → Request → Prop} (h : Runs env P s) (hP : ∀ s r, P s r → P' s r) : Runs env P' s := by
  induction h with
  | init tokens clock => exact .init tokens clock
  | turn _ ht ih =>
    cases ht with
    | use => exact ih.turn (.use _)
    | request r he hr => exact ih.turn (.request r he (hP _ _ hr))

/-- Others' uses keep the invariant of the round trip. -/
theorem Runs.issuedInv (law : env.KmsLaw) (h : Runs env (fun s r => r.RoundTrips env s) s) : IssuedInv env s := by
  induction h with
  | init tokens clock => exact issuedInv_init env tokens clock
  | turn _ ht ih =>
    cases ht with
    | use =>
      refine ⟨ih.intact, ?_, fun key hkey => ?_⟩
      · exact ih.keks.of_lookup (Nat.le_succ _) (fun _ _ _ hl => Or.inl hl) fun _ _ _ hl => Or.inl hl
      · obtain ⟨m, hm⟩ := ih.issued key hkey
        exact ⟨m, hm.mono (Nat.le_succ _)⟩
    | request r _ hr => exact System.exec_issuedInv law ih hr

end System

/-! ## Tables refine the library -/

section

variable (env : Env) (E : ExtensionOptions EncryptionOptions) (D : ExtensionOptions DecryptionOptions)

/-- A file of a table, as the library wrote it. -/
structure TableFile.Of (x : TableFile) (f : Written) : Prop where
  properties : f.properties = x.properties
  configured : ∃ keysOrder buildOrder,
    buildEncryptionConfiguration E D keysOrder buildOrder x.options = .ok f.encryptionConfiguration
  written : ∃ w w', CryptoFactory.fileEncryptionProperties env f.kmsManager f.kmsConnectionConfig
      f.encryptionConfiguration w = (.ok f.properties, w')

structure TableReader.Of (x : TableReader) (r : Reader) : Prop where
  unwrapper : r.unwrapper = x.unwrapper
  configured : buildDecryptionConfiguration E D x.options = .ok x.unwrapper.decryptionConfiguration

structure Tables.Refines (t : Tables) (s : System) : Prop where
  world : t.world = s.world
  readers : List.Forall₂ (TableReader.Of E D) t.readers s.readers
  files : List.Forall₂ (TableFile.Of env E D) t.files s.files

end

section

-- requests are to round-trip where `Q` is assumed
variable {env : Env} {E : ExtensionOptions EncryptionOptions} {D : ExtensionOptions DecryptionOptions} {t : Tables}
  {s : System} {Q : Prop}

theorem exists_related {α β : Type} {R : α → β → Prop} {xs : List α} {ys : List β} (h : List.Forall₂ R xs ys) {x : α}
    (hx : x ∈ xs) : ∃ y ∈ ys, R x y := by
  induction h with
  | nil => cases hx
  | cons hxy _ ih =>
    rcases List.mem_cons.mp hx with rfl | hx
    · exact ⟨_, List.mem_cons_self .., hxy⟩
    · obtain ⟨y, hy, hR⟩ := ih hx
      exact ⟨y, List.mem_cons_of_mem _ hy, hR⟩

theorem Tables.Refines.issued (h : t.Refines env E D s) : t.issued = s.issued := by
  rw [← List.forall₂_eq_eq_eq]
  refine List.rel_flatMap h.files fun x f hx => ?_
  rw [List.forall₂_eq_eq_eq, hx.properties]

/-- What is written: the maps are iterated over, the texts refused or made into a configuration, and the crypto factory
    asked. -/
theorem encryptionPropertiesOf_eq (f : KmsEncryptionFactory) (options : EncryptionFactoryOptions) (w : World) :
    f.encryptionPropertiesOf E D env options w =
      (Eff.ofExcept (buildEncryptionConfiguration E D (env.order w.calls) (env.order (w.calls + 1)) options) >>=
        fun c =>
        Eff.mapErr .parquetError (CryptoFactory.fileEncryptionProperties env f.cryptoFactory f.kmsConnectionConfig c))
        ((w.tick 0).tick 0) := rfl

theorem mapErr_outcome {σ ε δ α : Type} (g : ε → δ) (x : Eff σ ε α) (v : σ) :
    (Eff.mapErr g x v).2 = (x v).2 ∧ (Eff.mapErr g x v).1.toOption = (x v).1.toOption ∧
      ((Eff.mapErr g x v).1 = .panic ↔ (x v).1 = .panic) := by
  unfold Eff.mapErr
  rcases x v with ⟨a | e | _, v'⟩
  · exact ⟨rfl, rfl, by simp⟩
  · exact ⟨rfl, rfl, by simp⟩
  · exact ⟨rfl, rfl, by simp⟩

theorem Tables.Refines.write (h : t.Refines env E D s) {f : KmsEncryptionFactory} {options : EncryptionFactoryOptions}
    (hm : f.cryptoFactory < t.world.nextManager) (hr : Q → t.RoundTrips env E D (.write f options)) :
    ∃ s', Relation.ReflTransGen (System.Turn env fun s r => Q → r.RoundTrips env s) s s' ∧
      (t.exec env E D (.write f options)).Refines env E D s' := by
  have hrun : f.encryptionPropertiesOf E D env options t.world = _ := encryptionPropertiesOf_eq f options t.world
  change Q → (f.encryptionPropertiesOf E D env options t.world).1 ≠ .panic at hr
  have hused : Relation.ReflTransGen (System.Turn env fun s r => Q → r.RoundTrips env s) s s.used.used :=
    .head (.use s) (.single (.use s.used))
  cases hc : buildEncryptionConfiguration E D (env.order t.world.calls) (env.order (t.world.calls + 1)) options with
  | error e =>
    rw [hc, bind_err (ofExcept_error e _)] at hrun
    refine ⟨s.used.used, hused, ?_, ?_, ?_⟩
    · show (f.encryptionPropertiesOf E D env options t.world).2 = _
      rw [hrun, h.world]
      rfl
    · simpa [Tables.exec, Tables.opened] using h.readers
    · simpa [Tables.exec, Tables.written, hrun, Outcome.toOption] using h.files
  | ok c =>
    rw [hc, bind_ok (ofExcept_ok c _)] at hrun
    have hw : (t.world.tick 0).tick 0 = s.used.used.world := by rw [h.world]; rfl
    rw [hw] at hrun
    obtain ⟨hstate, hopt, hpanic⟩ := mapErr_outcome DataFusionError.parquetError
      (CryptoFactory.fileEncryptionProperties env f.cryptoFactory f.kmsConnectionConfig c) s.used.used.world
    rw [← hrun] at hstate hopt hpanic
    refine ⟨s.used.used.exec env (.encrypt f.cryptoFactory f.kmsConnectionConfig c),
      hused.tail (.request _ ?_ ?_), ?_, ?_, ?_⟩
    · show f.cryptoFactory < s.world.nextManager
      rw [← h.world]
      exact hm
    · exact fun hQ hp => hr hQ (hpanic.mpr hp)
    · exact hstate
    · simpa [Tables.exec, Tables.opened, System.exec, System.opened] using h.readers
    · refine List.rel_append h.files ?_
      unfold Tables.written System.written
      dsimp only
      rw [hopt]
      rcases hx : CryptoFactory.fileEncryptionProperties env f.cryptoFactory f.kmsConnectionConfig c
        s.used.used.world with
        ⟨p | e | _, w'⟩
      · exact .cons ⟨rfl, ⟨_, _, hc⟩, _, _, hx⟩ .nil
      · exact .nil
      · exact .nil

theorem Tables.Refines.read (h : t.Refines env E D s) {f : KmsEncryptionFactory} {options : EncryptionFactoryOptions}
    (hm : f.cryptoFactory < t.world.nextManager) (hr : Q → t.RoundTrips env E D (.read f options)) :
    ∃ s', Relation.ReflTransGen (System.Turn env fun s r => Q → r.RoundTrips env s) s s' ∧
      (t.exec env E D (.read f options)).Refines env E D s' := by
  have hrun : f.decryptionPropertiesOf E D env options t.world =
      (Eff.ofExcept (buildDecryptionConfiguration E D options) >>= fun c =>
        Eff.mapErr .parquetError (CryptoFactory.fileDecryptionProperties env f.cryptoFactory f.kmsConnectionConfig c))
        t.world := rfl
  change Q → (f.decryptionPropertiesOf E D env options t.world).1 ≠ .panic at hr
  cases hc : buildDecryptionConfiguration E D options with
  | error e =>
    rw [hc, bind_err (ofExcept_error e _)] at hrun
    refine ⟨s, .refl, ?_, ?_, ?_⟩
    · show (f.decryptionPropertiesOf E D env options t.world).2 = _
      rw [hrun, h.world]
    · simpa [Tables.exec, Tables.opened, hrun, Outcome.toOption] using h.readers
    · simpa [Tables.exec, Tables.written] using h.files
  | ok c =>
    rw [hc, bind_ok (ofExcept_ok c _), h.world] at hrun
    obtain ⟨hstate, hopt, hpanic⟩ := mapErr_outcome DataFusionError.parquetError
      (CryptoFactory.fileDecryptionProperties env f.cryptoFactory f.kmsConnectionConfig c) s.world
    rw [← hrun, ← h.world] at hstate hopt hpanic
    rw [h.world] at hm
    refine ⟨s.exec env (.decrypt f.cryptoFactory f.kmsConnectionConfig c), .single (.request _ hm ?_), ?_, ?_, ?_⟩
    · intro hQ hp
      rw [← h.world] at hp
      exact hr hQ (hpanic.mpr hp)
    · show (f.decryptionPropertiesOf E D env options t.world).2 = _
      rw [hstate, h.world]
      rfl
    · refine List.rel_append h.readers ?_
      unfold Tables.opened System.opened
      dsimp only
      rw [hopt, h.world]
      rcases hx : CryptoFactory.fileDecryptionProperties env f.cryptoFactory f.kmsConnectionConfig c s.world with
        ⟨u | e | _, w'⟩
      · have hnew := (CryptoFactory.fileDecryptionProperties_along env f.cryptoFactory f.kmsConnectionConfig c s.world
          s.world).run_ok hx
        exact .cons ⟨rfl, by rw [hnew.1.decryptionConfiguration]; exact hc⟩ .nil
      · exact .nil
      · exact .nil
    · simpa [Tables.exec, Tables.written, System.exec, System.written] using h.files

/-- A step of tables is one of the library, after the maps have been iterated over. -/
theorem Tables.Refines.exec (h : t.Refines env E D s) (r : TableRequest) (hm : t.Enabled r) 
    (hr : Q → t.RoundTrips env E D r) :
    ∃ s', Relation.ReflTransGen (System.Turn env fun s r => Q → r.RoundTrips env s) s s' ∧
      (t.exec env E D r).Refines env E D s' := by
  have hone : ∀ r' : Request, s.Enabled r' → (Q → r'.RoundTrips env s) →
      Tables.after env E D t.world r = System.after env s.world r' →
      Tables.opened env E D t.world r = [] ∧ Tables.written env E D t.world r = [] →
      System.opened env s.world r' = [] ∧ System.written env s.world r' = [] →
      ∃ s', Relation.ReflTransGen (System.Turn env fun s r => Q → r.RoundTrips env s) s s' ∧
        (t.exec env E D r).Refines env E D s' := by
    intro r' hm' hr' hafter ht hs
    refine ⟨s.exec env r', .single (.request r' hm' hr'), hafter, ?_, ?_⟩
    · simpa [Tables.exec, System.exec, ht.1, hs.1] using h.readers
    · simpa [Tables.exec, System.exec, ht.2, hs.2] using h.files
  cases r with
  | newFactory => exact hone .newFactory trivial (fun _ => trivial) (by rw [h.world]; rfl) ⟨rfl, rfl⟩ ⟨rfl, rfl⟩
  | refresh config keyAccessToken =>
    exact hone (.refresh config keyAccessToken) trivial (fun _ => trivial) (by rw [h.world]; rfl) ⟨rfl, rfl⟩ ⟨rfl, rfl⟩
  | wait elapsed => exact hone (.wait elapsed) trivial (fun _ => trivial) (by rw [h.world]; rfl) ⟨rfl, rfl⟩ ⟨rfl, rfl⟩
  | write f options => exact h.write hm hr
  | read f options => exact h.read hm hr
  | retrieve u keyMetadata =>
    obtain ⟨x, hx, rfl⟩ := hm
    obtain ⟨y, hy, hof⟩ := exists_related h.readers hx
    refine hone (.retrieve x.unwrapper keyMetadata) ⟨y, hy, hof.unwrapper⟩ (fun hQ => ?_)
      (by rw [h.world]; rfl) ⟨rfl, rfl⟩ ⟨rfl, rfl⟩
    obtain ⟨hkey, ho⟩ := hr hQ
    rw [h.issued] at hkey
    rw [h.world] at ho
    exact ⟨hkey, ho⟩

/-- Every run of tables is a run of the library. -/
theorem tables_refine (h : Tables.Reach env E D (fun t r => Q → t.RoundTrips env E D r) t) :
    ∃ s, System.Runs env (fun s r => Q → r.RoundTrips env s) s ∧ t.Refines env E D s := by
  induction h with
  | init tokens clock => exact ⟨System.init tokens clock, .init tokens clock, rfl, .nil, .nil⟩
  | step r _ hm hr ih =>
    obtain ⟨s, hs, href⟩ := ih
    obtain ⟨s', hturns, href'⟩ := href.exec r hm hr
    exact ⟨s', hs.turns hturns, href'⟩

/-- Every run of tables is a run of the library. However a table's texts are ordered, its files are written as the
    configuration says that they were made from, and opened with its lifetime. And in a run that retrieves only issued
    keys, and in which no lifetime has overflowed, each reader retrieves each key of every file unless the KMS or the
    client factory fails, exactly when its own lifetime does not overflow. -/
theorem tables_round_trip (hE : E.Lists EncryptionOptions.fields) (hD : D.Lists DecryptionOptions.fields)
    (h : Tables.Reach env E D (fun _ _ => True) t) :
    (∃ s, System.Runs env (fun _ _ => True) s ∧ t.Refines env E D s) ∧
    (∀ order c dec, c.Built → Formattable c.columnKeyIds → ∀ x ∈ t.files,
      x.options.Perm ((KmsEncryptionFactoryOptions.extension E D).valued (.new order c dec)) →
        c.WrittenAs env x.properties) ∧
    (∀ order c dec, ∀ x ∈ t.readers,
      x.options.Perm ((KmsEncryptionFactoryOptions.extension E D).valued (.new order c dec)) →
        x.unwrapper.decryptionConfiguration.cacheLifetime = dec.cacheLifetime.map fun l => Duration.fromSecs l.asSecs) ∧
    (Tables.Reach env E D (fun t r => t.RoundTrips env E D r) t → env.KmsLaw → env.DrawsDistinct t.world.calls →
      ∀ x ∈ t.readers, ∀ key ∈ t.issued, Retrieves env x.unwrapper key t.world ↔
      ¬ x.unwrapper.Overflows env key.metadata t.world) := by
  obtain ⟨s, hs, href⟩ := tables_refine (h.mono fun _ _ _ => False.elim)
  refine ⟨⟨s, hs.mono fun _ _ _ => trivial, href⟩, fun order c dec hbuilt hformat x hx hperm => ?_,
    fun order c dec x hx hperm => ?_, fun hround law hdistinct x hx key hkey => ?_⟩
  · obtain ⟨f, _, hof⟩ := exists_related href.files hx
    obtain ⟨keysOrder, buildOrder, hconfigured⟩ := hof.configured
    obtain ⟨w, w', hwritten⟩ := hof.written
    unfold buildEncryptionConfiguration at hconfigured
    rw [toExtensionOptions_valued hE hD hperm] at hconfigured
    obtain ⟨c', hinto, hback⟩ : ∃ c', (EncryptionOptions.fromConfiguration order c).tryInto keysOrder
        buildOrder = .ok c' ∧
        c.ComesBackAs c' := comesBack_of_formattable hbuilt hformat
    obtain rfl : c' = f.encryptionConfiguration := Except.ok.inj (hinto.symm.trans hconfigured)
    rw [← hof.properties]
    exact hback.writtenAs hwritten
  · obtain ⟨r, _, hof⟩ := exists_related href.readers hx
    have hconfigured := hof.configured
    unfold buildDecryptionConfiguration at hconfigured
    rw [toExtensionOptions_valued hE hD hperm] at hconfigured
    rw [← Except.ok.inj hconfigured]
    show ((dec.cacheLifetime.map Duration.asSecs).map Duration.fromSecs) = _
    rw [Option.map_map]
    rfl
  · obtain ⟨s, hs, href⟩ := tables_refine (hround.mono fun _ _ hr (_ : True) => hr)
    have hinv := (hs.mono fun _ _ hr => hr trivial).issuedInv law
    rw [href.issued] at hkey
    rw [href.world] at hdistinct ⊢
    obtain ⟨m, hm⟩ := hinv.issued key hkey
    exact hm.retrieves_iff law hdistinct hinv.keks hinv.intact

end

/-- The texts of the sample configuration, last first. -/
def sampleTexts : EncryptionFactoryOptions :=
  ((KmsEncryptionFactoryOptions.extension KmsEncryptionFactoryOptions.sampleEncryption
    KmsEncryptionFactoryOptions.sampleDecryption).valued
      (.new IterationOrder.stored sampleConfiguration ⟨none⟩)).reverse

/-- A table with these texts is written and read. -/
def sampleTables : Tables :=
  [.newFactory, .write ⟨0, sampleConfig⟩ sampleTexts, .read ⟨0, sampleConfig⟩ sampleTexts].foldl
    (Tables.exec Env.sample KmsEncryptionFactoryOptions.sampleEncryption KmsEncryptionFactoryOptions.sampleDecryption)
    (Tables.init (fun _ => "DEFAULT") 0)

theorem tables_round_trip_sample :
    sampleTables.issued.length = 5 ∧ (∃ x ∈ sampleTables.files, sampleConfiguration.WrittenAs Env.sample x.properties) ∧
      ∀ x ∈ sampleTables.readers, ∀ key ∈ sampleTables.issued, Retrieves Env.sample x.unwrapper key sampleTables.world ↔
        ¬ x.unwrapper.Overflows Env.sample key.metadata sampleTables.world := by
  have hreach : Tables.Reach Env.sample KmsEncryptionFactoryOptions.sampleEncryption
      KmsEncryptionFactoryOptions.sampleDecryption (fun t r => t.RoundTrips Env.sample
        KmsEncryptionFactoryOptions.sampleEncryption KmsEncryptionFactoryOptions.sampleDecryption r) sampleTables :=
    (((Tables.Reach.init _ 0).step .newFactory trivial trivial).step (.write ⟨0, sampleConfig⟩ sampleTexts)
      (by decide +kernel : 0 < _) (Outcome.ne_panic (by decide +kernel))).step (.read ⟨0, sampleConfig⟩ sampleTexts)
      (by decide +kernel : 0 < _) (Outcome.ne_panic (by decide +kernel))
  obtain ⟨_, hwritten, _, hread⟩ := tables_round_trip KmsEncryptionFactoryOptions.sampleEncryption_lists
    KmsEncryptionFactoryOptions.sampleDecryption_lists (hreach.mono fun _ _ _ => trivial)
  have hfiles : sampleTables.files.map TableFile.options = [sampleTexts] := by decide +kernel
  obtain ⟨x, hx, htexts⟩ := List.mem_map.mp
    (hfiles ▸ List.mem_singleton.mpr rfl : sampleTexts ∈ sampleTables.files.map _)
  refine ⟨by decide +kernel, ⟨x, hx, ?_⟩, hread hreach sample_kmsLaw (sample_drawsDistinct (by decide +kernel))⟩
  exact hwritten IterationOrder.stored sampleConfiguration ⟨none⟩ sampleConfiguration_built (by decide) x hx
    (htexts ▸ List.reverse_perm _)

end ParquetKeyManagement
