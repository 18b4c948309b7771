/-
  ParquetKeyManagement.DataFusion.Extension — the options of the encryption factory in the
  form in which DataFusion keeps them, as texts under string keys
  (`ExtensionOptions for KmsEncryptionFactoryOptions` of `datafusion.rs`).

  The two parts of the options are listed and set by code that a macro of DataFusion's
  generates; what is relied on is `Configurable.Lists` for the fields the source declares.
  `entries` puts a part's name and a dot before each of its keys, and `set` takes them off at
  the first dot.
  - `options_replayed`: the texts of any options, set in any order on the default options,
    give these options; a key of one part sets nothing in the other.
-/

import ParquetKeyManagement.Support.Settings
import ParquetKeyManagement.DataFusion.Options

namespace ParquetKeyManagement

/-- `datafusion_common::config::ConfigEntry`. -/
abbrev ConfigEntry : Type := Entry

/-- `datafusion_common::config::ExtensionOptions`. -/
abbrev ExtensionOptions (ρ : Type) : Type := Configurable ρ DataFusionError

/-! ## The parts -/

namespace EncryptionOptions

/-- The fields that are declared with `extensions_options!`. -/
def fields : List (Setting EncryptionOptions) :=
  [⟨"footer_key_id", fun _ => false, fun o d => { d with footerKeyId := o.footerKeyId }⟩,
   ⟨"column_key_ids", fun _ => false, fun o d => { d with columnKeyIds := o.columnKeyIds }⟩,
   ⟨"plaintext_footer", fun _ => false, fun o d => { d with plaintextFooter := o.plaintextFooter }⟩,
   ⟨"double_wrapping", fun _ => false, fun o d => { d with doubleWrapping := o.doubleWrapping }⟩,
   ⟨"cache_lifetime_s", fun o => o.cacheLifetimeS.isNone, fun o d => { d with cacheLifetimeS := o.cacheLifetimeS }⟩,
   ⟨"internal_key_material", fun _ => false, fun o d => { d with internalKeyMaterial := o.internalKeyMaterial }⟩,
   ⟨"data_key_length_bits", fun _ => false, fun o d => { d with dataKeyLengthBits := o.dataKeyLengthBits }⟩]

/-- Without a lifetime on either side there is nothing to take over. -/
theorem cacheLifetime_none {o d : EncryptionOptions} (ho : o.cacheLifetimeS.isNone = true)
    (hd : d.cacheLifetimeS.isNone = true) : { d with cacheLifetimeS := o.cacheLifetimeS } = d := by
  rw [Option.isNone_iff_eq_none.mp ho, ← Option.isNone_iff_eq_none.mp hd]

theorem fields_lawful : Setting.Lawful fields := by
  refine .of_commute ?_ ?_ ?_ fun _ _ => rfl
  · simp [fields]
  · simp [fields]
  · intro f hf o d ho hd
    simp only [fields, List.mem_cons, List.not_mem_nil, or_false] at hf
    rcases hf with rfl | rfl | rfl | rfl | rfl | rfl | rfl
    case inr.inr.inr.inr.inl => exact cacheLifetime_none ho hd
    all_goals cases ho

end EncryptionOptions

namespace DecryptionOptions

def fields : List (Setting DecryptionOptions) :=
  [⟨"cache_lifetime_s", fun o => o.cacheLifetimeS.isNone, fun o d => { d with cacheLifetimeS := o.cacheLifetimeS }⟩]

theorem fields_lawful : Setting.Lawful fields := by
  refine .of_commute ?_ ?_ ?_ fun _ _ => rfl
  · simp [fields]
  · simp [fields]
  · intro f hf o d ho hd
    obtain rfl := List.mem_singleton.mp hf
    cases o
    cases d
    cases Option.isNone_iff_eq_none.mp ho
    cases Option.isNone_iff_eq_none.mp hd
    rfl

end DecryptionOptions

/-! ## The whole -/

namespace KmsEncryptionFactoryOptions

variable (E : ExtensionOptions EncryptionOptions) (D : ExtensionOptions DecryptionOptions)

def set (o : KmsEncryptionFactoryOptions) (key value : String) : Except DataFusionError KmsEncryptionFactoryOptions :=
  match Text.splitOnce '.' key with
  | none => .error (.configuration s!"Invalid configuration key for KMS encryption: {key}")
  | some (parent, key) =>
    match parent with
    | "decryption" => (D.set o.decryption key value).map fun decryption => { o with decryption }
    | "encryption" => (E.set o.encryption key value).map fun encryption => { o with encryption }
    | _ => .error (.configuration s!"Invalid configuration key for KMS encryption: {parent}")

def entries (o : KmsEncryptionFactoryOptions) : List ConfigEntry :=
  let decryptionEntries := (D.entries o.decryption).map fun entry => { entry with key := s!"decryption.{entry.key}" }
  let encryptionEntries := (E.entries o.encryption).map fun entry => { entry with key := s!"encryption.{entry.key}" }
  decryptionEntries ++ encryptionEntries

/-- `impl ExtensionOptions for KmsEncryptionFactoryOptions`. -/
def extension : ExtensionOptions KmsEncryptionFactoryOptions := ⟨entries E D, set E D⟩

def decryptionPart : Setting.Part KmsEncryptionFactoryOptions DecryptionOptions where
  get o := o.decryption
  set decryption o := { o with decryption }
  get_set _ _ := rfl
  set_get _ := rfl

def encryptionPart : Setting.Part KmsEncryptionFactoryOptions EncryptionOptions where
  get o := o.encryption
  set encryption o := { o with encryption }
  get_set _ _ := rfl
  set_get _ := rfl

def fields : List (Setting KmsEncryptionFactoryOptions) :=
  DecryptionOptions.fields.map (Setting.within "decryption" decryptionPart) ++
    EncryptionOptions.fields.map (Setting.within "encryption" encryptionPart)

theorem fields_lawful : Setting.Lawful fields := by
  refine DecryptionOptions.fields_lawful.parts EncryptionOptions.fields_lawful (fun _ _ => rfl) (fun _ _ => rfl) ?_ _ _
  intro o d hd he
  cases o
  cases d
  cases hd
  cases he
  rfl

/-! Keys under a part's name are set in that part. -/

theorem splitOnce_under {part : String} (hpart : '.' ∉ part.toList) (key : String) :
    Text.splitOnce '.' (part ++ "." ++ key) = some (part, key) :=
  Text.splitOnce_eq_some_iff.mpr ⟨hpart, by simp⟩

theorem set_decryption (o : KmsEncryptionFactoryOptions) (key value : String) :
    set E D o ("decryption" ++ "." ++ key) value =
      (D.set o.decryption key value).map fun decryption => { o with decryption } := by
  unfold set
  rw [splitOnce_under (by decide)]
  rfl

theorem set_encryption (o : KmsEncryptionFactoryOptions) (key value : String) :
    set E D o ("encryption" ++ "." ++ key) value =
      (E.set o.encryption key value).map fun encryption => { o with encryption } := by
  unfold set
  rw [splitOnce_under (by decide)]
  rfl

/-- No key is under both parts' names. -/
theorem key_ne (k k' : String) : "decryption" ++ "." ++ k ≠ "encryption" ++ "." ++ k' := by
  intro h
  have := congrArg (fun s => s.toList.head?) h
  simp at this

variable {E D}

theorem extension_lists (hE : E.Lists EncryptionOptions.fields) (hD : D.Lists DecryptionOptions.fields) :
    (extension E D).Lists fields :=
  hD.parts hE key_ne (fun _ => rfl) (set_decryption E D) (set_encryption E D)

/-- What holds nothing in any options holds nothing in the default ones. -/
theorem default_isNone (o : KmsEncryptionFactoryOptions) :
    ∀ f ∈ fields, f.isNone o = true → f.isNone ({} : KmsEncryptionFactoryOptions) = true := by
  simp [fields, DecryptionOptions.fields, EncryptionOptions.fields, Setting.within, decryptionPart, encryptionPart]

theorem map_ok {ε α β : Type} {x : Except ε α} {f : α → β} {b : β} (h : x.map f = .ok b) :
    ∃ a, x = .ok a ∧ b = f a := by
  cases x with
  | error _ => cases h
  | ok a => cases h; exact ⟨a, rfl, rfl⟩

/-- A key of the decryption options sets nothing in the encryption options. -/
theorem set_decryption_other {o o' : KmsEncryptionFactoryOptions} {key value : String}
    (h : set E D o s!"decryption.{key}" value = .ok o') : o'.encryption = o.encryption := by
  obtain ⟨decryption, _, rfl⟩ := map_ok ((set_decryption E D o key value).symm.trans h)
  rfl

theorem set_encryption_other {o o' : KmsEncryptionFactoryOptions} {key value : String}
    (h : set E D o s!"encryption.{key}" value = .ok o') : o'.decryption = o.decryption := by
  obtain ⟨encryption, _, rfl⟩ := map_ok ((set_encryption E D o key value).symm.trans h)
  rfl

/-- The texts of any options, set in any order on the default options, give these options. No key of one part sets
    anything in the other, so the two lifetimes are not exchanged. -/
theorem options_replayed (hE : E.Lists EncryptionOptions.fields) (hD : D.Lists DecryptionOptions.fields)
    (o : KmsEncryptionFactoryOptions) :
    (∀ texts, texts.Perm ((extension E D).valued o) → (extension E D).replay {} texts = .ok o) ∧
      ∀ (d d' : KmsEncryptionFactoryOptions) (key value : String),
        (set E D d s!"decryption.{key}" value = .ok d' → d'.encryption = d.encryption) ∧
        (set E D d s!"encryption.{key}" value = .ok d' → d'.decryption = d.decryption) := by
  refine ⟨fun texts hperm => ?_, fun d d' key value => ⟨set_decryption_other, set_encryption_other⟩⟩
  exact Configurable.replay_valued (extension_lists hE hD) fields_lawful (default_isNone o) hperm

/-! ## An instance -/

def showBool (b : Bool) : String := if b then "true" else "false"

def readBool (text : String) : Except DataFusionError Bool :=
  if text = "true" then .ok true
  else if text = "false" then .ok false
  else .error (.configuration s!"Error parsing {text} as bool")

def showU64 (n : UInt64) : String := n.toNat.repr

def readU64 (text : String) : Except DataFusionError UInt64 :=
  if text ≠ "" ∧ text.toList.all Char.isDigit = true ∧ Nat.ofDigitChars 10 text.toList 0 < 2 ^ 64 then
    .ok (UInt64.ofNat (Nat.ofDigitChars 10 text.toList 0))
  else .error (.configuration s!"Error parsing {text} as u64")

theorem readBool_show (b : Bool) : readBool (showBool b) = .ok b := by
  cases b <;> rfl

theorem readU64_show (n : UInt64) : readU64 (showU64 n) = .ok n := by
  have hdigits : (showU64 n).toList = Nat.toDigits 10 n.toNat := Nat.toList_repr
  have hvalue : Nat.ofDigitChars 10 (showU64 n).toList 0 = n.toNat := by
    rw [hdigits, Nat.ofDigitChars_ten_toDigits]
  unfold readU64
  rw [if_pos, hvalue, UInt64.ofNat_toNat]
  refine ⟨Nat.repr_ne_empty, List.all_eq_true.mpr fun c hc => ?_, ?_⟩
  · rw [hdigits] at hc
    exact Nat.isDigit_of_mem_toDigits (by decide) (by decide) hc
  · rw [hvalue]
    exact n.toNat_lt

/-- The options listed and set field by field. -/
def sampleDecryption : ExtensionOptions DecryptionOptions where
  entries o :=
    [⟨"cache_lifetime_s", o.cacheLifetimeS.map showU64, "How long in seconds to cache objects used during decryption"⟩]
  set o key text :=
    if key = "cache_lifetime_s" then (readU64 text).map fun n => { o with cacheLifetimeS := some n }
    else .error (.configuration s!"Config value {key} not found on DecryptionOptions")

theorem sampleDecryption_lists : sampleDecryption.Lists DecryptionOptions.fields where
  entries o := by simp [sampleDecryption, DecryptionOptions.fields]
  set o d f hf e he hkey text hvalue := by
    obtain rfl := List.mem_singleton.mp hf
    obtain rfl := List.mem_singleton.mp he
    obtain ⟨n, hn, rfl⟩ := Option.map_eq_some_iff.mp hvalue
    simp [sampleDecryption, readU64_show, Except.map, ← hn]

def sampleEncryption : ExtensionOptions EncryptionOptions where
  entries o :=
    [⟨"footer_key_id", some o.footerKeyId, "Master key identifier for footer key encryption"⟩,
     ⟨"column_key_ids", some o.columnKeyIds, "List of master key ids and the columns to be encrypted with each key, " ++
       "formatted like \"columnKeyId1:column1,column2;columnKeyId2:column3\""⟩,
     ⟨"plaintext_footer", some (showBool o.plaintextFooter), "Whether to write footer metadata unencrypted"⟩,
     ⟨"double_wrapping", some (showBool o.doubleWrapping),
       "Whether to encrypt data encryption keys with key encryption keys, " ++
       "before wrapping with the master key"⟩,
     ⟨"cache_lifetime_s", o.cacheLifetimeS.map showU64, "How long in seconds to cache objects used during encryption"⟩,
     ⟨"internal_key_material", some (showBool o.internalKeyMaterial),
       "Whether to store encryption key material inside Parquet files"⟩,
     ⟨"data_key_length_bits", some (showU64 o.dataKeyLengthBits), "Length of data encryption keys to generate"⟩]
  set o key text :=
    match key with
    | "footer_key_id" => .ok { o with footerKeyId := text }
    | "column_key_ids" => .ok { o with columnKeyIds := text }
    | "plaintext_footer" => (readBool text).map fun b => { o with plaintextFooter := b }
    | "double_wrapping" => (readBool text).map fun b => { o with doubleWrapping := b }
    | "cache_lifetime_s" => (readU64 text).map fun n => { o with cacheLifetimeS := some n }
    | "internal_key_material" => (readBool text).map fun b => { o with internalKeyMaterial := b }
    | "data_key_length_bits" => (readU64 text).map fun n => { o with dataKeyLengthBits := n }
    | _ => .error (.configuration s!"Config value {key} not found on EncryptionOptions")

theorem sampleEncryption_lists : sampleEncryption.Lists EncryptionOptions.fields where
  entries o := by simp [sampleEncryption, EncryptionOptions.fields]
  set o d f hf e he hkey text hvalue := by
    simp only [EncryptionOptions.fields, List.mem_cons, List.not_mem_nil, or_false] at hf
    simp only [sampleEncryption, List.mem_cons, List.not_mem_nil, or_false] at he
    rcases hf with rfl | rfl | rfl | rfl | rfl | rfl | rfl <;>
      rcases he with rfl | rfl | rfl | rfl | rfl | rfl | rfl <;> simp at hkey
    case inr.inr.inr.inr.inl.inr.inr.inr.inr.inl =>
      obtain ⟨n, hn, rfl⟩ := Option.map_eq_some_iff.mp hvalue
      simp [sampleEncryption, readU64_show, Except.map, ← hn]
    all_goals
      cases hvalue
      simp [sampleEncryption, readBool_show, readU64_show, Except.map]

def sampleOptions : KmsEncryptionFactoryOptions where
  encryption := { footerKeyId := "kf", columnKeyIds := "kc:x.y", doubleWrapping := false, cacheLifetimeS := some 300 }
  decryption := { cacheLifetimeS := some 120 }

theorem options_replayed_sample :
    (extension sampleEncryption sampleDecryption).replay {}
      ((extension sampleEncryption sampleDecryption).valued sampleOptions).reverse = .ok sampleOptions :=
  (options_replayed sampleEncryption_lists sampleDecryption_lists sampleOptions).1 _ (List.reverse_perm _)

end KmsEncryptionFactoryOptions

end ParquetKeyManagement
