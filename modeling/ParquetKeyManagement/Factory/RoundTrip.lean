/-
  ParquetKeyManagement.Factory.RoundTrip — a key that was issued can be retrieved.

  The wrapped key in a file's metadata depends on whichever KEK was in the shared write cache,
  and reading goes through a shared read cache that is keyed by KEK id alone. What ties the two
  together: a KEK and its id are drawn by consecutive uses of the generator, so while the drawn
  ids are distinct an id determines its KEK, in either cache and in every file (`KekInv`).
  - `issuedInv`: the invariant, and that every key issued so far can be had from its metadata.
  - `retrieveKey_round_trip`: in a run without overflowing lifetimes, every reader retrieves
    every issued key unless the KMS or the client factory fails, exactly when its own lifetime
    does not overflow.
-/

import ParquetKeyManagement.Factory.Panics

namespace ParquetKeyManagement

open Effect

/-- The clients realise one KMS: a wrapped key unwraps to itself or not at all. -/
def Env.KmsLaw (env : Env) : Prop :=
  ∀ i j client client' key masterKeyId wrapped key', env.wrapKey i client key masterKeyId = .ok wrapped →
    env.unwrapKey j client' wrapped masterKeyId = .ok key' → key' = key

/-- The 16-byte draws among the uses before `n` are pairwise distinct. -/
def Env.DrawsDistinct (env : Env) (n : Nat) : Prop :=
  ∀ i j bytes, i < n → j < n → env.Drew i bytes → env.Drew j bytes → i = j

variable (env : Env)

/-- The KMS wrapped the key. -/
def WrappedByKms (key : Bytes) (masterKeyId wrapped : String) : Prop :=
  ∃ i client, env.wrapKey i client key masterKeyId = .ok wrapped

/-- A KEK as the library makes them. -/
structure GoodKek (n : Nat) (masterKeyId : String) (kek : KeyEncryptionKey) : Prop where
  encoded : kek.encodedKeyId = Base64.encode kek.keyId
  drawn : Drawn env kek.key kek.keyId n
  wrapped : WrappedByKms env kek.key masterKeyId kek.wrappedKey

/-- The KEKs in the caches were drawn by the uses before `n`. -/
structure KekInv (n : Nat) (w : World) : Prop where
  write : ∀ a masterKeyId kek, (w.writeCaches a).data.lookup masterKeyId = some kek → GoodKek env n masterKeyId kek
  read : ∀ a kekId kek, (w.readCaches a).data.lookup kekId = some kek →
    ∃ keyId, kekId = Base64.encode keyId ∧ Drawn env kek keyId n

section

variable {env} {w w' : World}

theorem Drawn.mono {key keyId : Bytes} {n n' : Nat} (h : Drawn env key keyId n) (hn : n ≤ n') :
    Drawn env key keyId n' := by
  obtain ⟨i, hi, h1, h2⟩ := h
  exact ⟨i, lt_of_lt_of_le hi hn, h1, h2⟩

/-- Distinct draws make a KEK's id determine the KEK. -/
theorem Drawn.eq {key key' keyId : Bytes} {n : Nat} (hdistinct : env.DrawsDistinct n) (h : Drawn env key keyId n)
    (h' : Drawn env key' keyId n) : key = key' := by
  obtain ⟨i, hi, h1, h2⟩ := h
  obtain ⟨j, hj, h1', h2'⟩ := h'
  have hij : i + 1 = j + 1 := hdistinct _ _ keyId hi hj h2 h2'
  obtain rfl : i = j := by omega
  exact h1.eq env h1'

theorem GoodKek.mono {masterKeyId : String} {kek : KeyEncryptionKey} {n n' : Nat} (h : GoodKek env n masterKeyId kek)
    (hn : n ≤ n') : GoodKek env n' masterKeyId kek := { h with drawn := h.drawn.mono hn }

/-! ## The invariant of the caches -/

/-- The invariant is about what is looked up in the caches; anything new is to be accounted for. -/
theorem KekInv.of_lookup {n n' : Nat} (h : KekInv env n w) (hn : n ≤ n')
    (hw : ∀ a masterKeyId kek, (w'.writeCaches a).data.lookup masterKeyId = some kek →
      (w.writeCaches a).data.lookup masterKeyId = some kek ∨ GoodKek env n' masterKeyId kek)
    (hr : ∀ a kekId kek, (w'.readCaches a).data.lookup kekId = some kek →
      (w.readCaches a).data.lookup kekId = some kek ∨ ∃ keyId, kekId = Base64.encode keyId ∧ Drawn env kek keyId n') :
    KekInv env n' w' := by
  constructor
  · intro a masterKeyId kek hl
    rcases hw a masterKeyId kek hl with h1 | h1
    · exact (h.write a masterKeyId kek h1).mono hn
    · exact h1
  · intro a kekId kek hl
    rcases hr a kekId kek hl with h1 | h1
    · obtain ⟨keyId, he, hd⟩ := h.read a kekId kek h1
      exact ⟨keyId, he, hd.mono hn⟩
    · exact h1

theorem KekInv.mono {n n' : Nat} (h : KekInv env n w) (hn : n ≤ n') : KekInv env n' w :=
  h.of_lookup hn (fun _ _ _ hl => Or.inl hl) fun _ _ _ hl => Or.inl hl

theorem ManagerMove.kekInv {m : ManagerId} {config : KmsConnectionConfig} {lifetime : Option Duration} {n : Nat}
    (hm : ManagerMove m config lifetime w w') (h : KekInv env n w) : KekInv env n w' :=
  h.of_lookup (le_refl n) (fun _ _ _ hl => Or.inl (hm.writeKeks_lookup hl)) fun _ _ _ hl =>
    Or.inl (hm.readKeks_lookup hl)

theorem WriterMove.kekInv {k : KeyWrapper} (hm : WriterMove env k w w') (h : KekInv env w.calls w) :
    KekInv env w'.calls w' := by
  refine h.of_lookup hm.grows.calls (fun a masterKeyId kek hl => ?_) fun _ _ _ hl => Or.inl (hm.readKeks_lookup hl)
  rcases hm.writeKeks_lookup hl with h1 | ⟨_, hnew⟩
  · exact Or.inl h1
  · obtain ⟨client, _, _, i, hi⟩ := hnew.wrapped
    exact Or.inr ⟨hnew.encoded, hnew.drawn.mono hm.grows.calls, i, client, hi⟩

theorem EncryptMove.kekInv {m : ManagerId} {config : KmsConnectionConfig} {enc : EncryptionConfiguration} {ws : World}
    (hm : EncryptMove env m config enc ws w w') (h : KekInv env w.calls w) : KekInv env w'.calls w' := by
  cases hm with
  | registry hm => exact (hm.kekInv h).mono hm.grows.calls
  | writer k _ _ hm => exact hm.kekInv h

end

/-! ## Issued keys -/

/-- How a key can be had from its material. -/
inductive Holds (n : Nat) (key : Bytes) (m : KeyMaterial) : Prop
  | single : m.doubleWrapping = false → WrappedByKms env key m.masterKeyId m.wrappedDek → Holds n key m
  | double (kek : KeyEncryptionKey) : m.doubleWrapping = true → GoodKek env n m.masterKeyId kek →
    m.keyEncryptionKeyId = some kek.encodedKeyId → m.wrappedKek = some kek.wrappedKey →
    decryptEncryptionKey env m.wrappedDek kek.keyId kek.key = .ok key → Holds n key m

/-- What the metadata of an issued key reads as. -/
structure IssuedAs (n : Nat) (key : EncryptionKey) (m : KeyMaterial) : Prop where
  read : KeyUnwrapper.readMaterial env key.metadata = .ok m
  internalStorage : m.internalStorage = true
  kmsInstanceId : ∀ id, m.kmsInstanceId = some id → id ≠ ""
  kmsInstanceUrl : ∀ url, m.kmsInstanceUrl = some url → url ≠ ""
  holds : Holds env n key.key m

section

variable {env} {w w' : World}

theorem Holds.of_doubleWrapping {n : Nat} {key : Bytes} {m : KeyMaterial} (h : Holds env n key m)
    (hd : m.doubleWrapping = true) : ∃ kek, GoodKek env n m.masterKeyId kek ∧
      m.keyEncryptionKeyId = some kek.encodedKeyId ∧ m.wrappedKek = some kek.wrappedKey ∧
      decryptEncryptionKey env m.wrappedDek kek.keyId kek.key = .ok key := by
  cases h with
  | single hd' _ => rw [hd] at hd'; cases hd'
  | double kek _ hgood hk hw hdec => exact ⟨kek, hgood, hk, hw, hdec⟩

theorem IssuedAs.mono {key : EncryptionKey} {m : KeyMaterial} {n n' : Nat} (h : IssuedAs env n key m) (hn : n ≤ n') :
    IssuedAs env n' key m := by
  refine { h with holds := ?_ }
  cases h.holds with
  | single hd hw => exact .single hd hw
  | double kek hd hk h1 h2 h3 => exact .double kek hd (hk.mono hn) h1 h2 h3

/-- A key that was made from caches that satisfy the invariant can be had from its material. -/
theorem Made.issuedAs {k : KeyWrapper} {w0 : World} {key : EncryptionKey} {masterKeyId : String} {isFooterKey : Bool}
    (h : Made env k w0 key masterKeyId isFooterKey w) (hinv : KekInv env w0.calls w0) :
    ∃ m, IssuedAs env w.calls key m := by
  obtain ⟨m, w1, hread, path, hg, hd⟩ := h
  have hinv1 : KekInv env w1.calls w1 :=
    path_keeps (I := fun v => KekInv env v.calls v) (fun _ _ hi hm => hm.kekInv hi) path hinv
  obtain ⟨hfor, _, hid, hurl⟩ := hd.materialFor
  have hids : ∀ id, (k.materialBuilder isFooterKey).kmsInstanceId = some id → id ≠ "" := by
    intro id he
    cases isFooterKey with
    | true => cases he; exact orDefault_ne _
    | false => cases he
  have hurls : ∀ url, (k.materialBuilder isFooterKey).kmsInstanceUrl = some url → url ≠ "" := by
    intro url he
    cases isFooterKey with
    | true => cases he; exact orDefault_ne _
    | false => cases he
  refine ⟨m, hread, ?_, fun id he => hids id (hid ▸ he), fun url he => hurls url (hurl ▸ he), ?_⟩
  · cases hd with
    | single wrapped _ _ hb => exact (KeyMaterialBuilder.build_ok hb).internalStorage
    | double kek wrappedDek _ _ _ hb => exact (KeyMaterialBuilder.build_ok hb).internalStorage
  · rw [← hfor.masterKeyId] at hd
    cases hd with
    | single wrapped hdw hw hb =>
      have hm := KeyMaterialBuilder.build_ok hb
      obtain ⟨client, _, _, i, hi⟩ := hw
      rw [← Option.some.inj hm.wrappedDek] at hi
      exact .single hm.doubleWrapping ⟨i, client, hi⟩
    | double kek wrappedDek hdw hk hdec hb =>
      have hm := KeyMaterialBuilder.build_ok hb
      rw [← Option.some.inj hm.wrappedDek] at hdec
      exact .double kek hm.doubleWrapping ((hinv1.write _ _ _ hk).mono hg.calls)
        hm.keyEncryptionKeyId hm.wrappedKek hdec

/-! ## Retrieving an issued key -/

/-- What a reader that retrieves an issued key stores is the KEK its id stands for. -/
theorem ReaderMove.kekInv {u : KeyUnwrapper} {m : KeyMaterial} {ws : World} {key : EncryptionKey} {n : Nat}
    (law : env.KmsLaw) (hkey : IssuedAs env n key m) (hm : ReaderMove env u m ws w w') (h : KekInv env n w) :
    KekInv env n w' := by
  refine h.of_lookup (le_refl n) (fun _ _ _ hl => Or.inl (hm.writeKeks_lookup hl)) fun a kekId kek hl => ?_
  rcases hm.readKeks_lookup hl with h1 | ⟨_, hstored⟩
  · exact Or.inl h1
  · right
    cases hkey.holds with
    | single hd _ => rw [hstored.doubleWrapping] at hd; cases hd
    | double kek0 _ hgood hk hw _ =>
      obtain ⟨wrappedKek, hw', client, _, _, j, hj⟩ := hstored.unwrapped
      rw [hstored.keyEncryptionKeyId] at hk
      rw [hw'] at hw
      cases hk
      cases hw
      obtain ⟨i, client0, hi⟩ := hgood.wrapped
      -- the KMS returned the KEK it had wrapped
      obtain rfl := law _ _ _ _ _ _ _ _ hi hj
      exact ⟨kek0.keyId, hgood.encoded, hgood.drawn⟩

/-- An issued key's wrapped DEK is never too short. -/
theorem IssuedAs.not_shortDek {u : KeyUnwrapper} {key : EncryptionKey} {m : KeyMaterial} {n : Nat}
    (h : IssuedAs env n key m) : ¬ u.ShortDek env key.metadata w := by
  intro hexists
  obtain ⟨m', w1, hp, hd, kekId, wrappedKek, _, _, _, hblob, _⟩ := hexists
  have hm : m' = m := by
    have hread := hp.read
    rw [h.read] at hread
    cases hread
    rfl
  subst hm
  obtain ⟨kek, _, _, _, hdec⟩ := h.holds.of_doubleWrapping hd
  have hpanic := (decryptEncryptionKey_panic_iff env m'.wrappedDek kek.keyId kek.key).mpr
    ⟨decryptEncryptionKey_ok env hdec, hblob⟩
  rw [hdec] at hpanic
  cases hpanic

end

/-- What retrieving an issued key is to do: return it, or report a failure of the KMS or of the
    client factory. -/
def Retrieves (u : KeyUnwrapper) (key : EncryptionKey) (w : World) : Prop :=
  (u.retrieveKey env key.metadata w).1 = .ok key.key ∨
    ((∃ e, (u.retrieveKey env key.metadata w).1 = .err e) ∧
      (u.retrieveKey env key.metadata w).2.FailedSince w.log.length)

section

variable {env} {w w' : World} {key : EncryptionKey} {m : KeyMaterial} {u : KeyUnwrapper} {n : Nat}

/-- The KEK a reader ends up with for an issued key is the one its DEK was wrapped with. -/
theorem holdsKek_eq {kek0 : KeyEncryptionKey} {kek : Bytes} (hdistinct : env.DrawsDistinct n)
    (hgood : GoodKek env n m.masterKeyId kek0) (hinv : KekInv env n w) (hk : u.HoldsKek kek0.encodedKeyId kek w) :
    kek = kek0.key := by
  obtain ⟨keyId, he, hd⟩ := hinv.read u.kekCache _ _ hk
  rw [hgood.encoded] at he
  obtain rfl := Base64.encode_inj he
  exact hd.eq hdistinct hgood.drawn

theorem IssuedAs.retrieved (h : IssuedAs env n key m) (law : env.KmsLaw) (hdistinct : env.DrawsDistinct n)
    (hinv : KekInv env n w) {dek : Bytes} (hr : u.Retrieved env m dek w) : dek = key.key := by
  cases h.holds with
  | single hd hw =>
    cases hr with
    | single _ hun =>
      obtain ⟨client, _, _, j, hj⟩ := hun
      obtain ⟨i, client0, hi⟩ := hw
      exact law _ _ _ _ _ _ _ _ hi hj
    | double kekId kek decoded hd' _ _ _ _ => rw [hd] at hd'; cases hd'
  | double kek0 hd hgood hk hw hdec =>
    cases hr with
    | single hd' _ => rw [hd] at hd'; cases hd'
    | double kekId kek decoded _ hk' hholds hdecode hdec' =>
      rw [hk] at hk'
      cases hk'
      obtain rfl := holdsKek_eq hdistinct hgood hinv hholds
      rw [hgood.encoded, Base64.decode_encode] at hdecode
      cases hdecode
      rw [hdec] at hdec'
      cases hdec'
      rfl

/-- Nothing but the KMS and the client factory can refuse an issued key. -/
theorem IssuedAs.refused_by_kms (h : IssuedAs env n key m) (hdistinct : env.DrawsDistinct n) (hinv : KekInv env n w)
    {l : Nat} (hr : u.Refused env m l w) :
    ∃ wrapped, KeyUnwrapper.kmsWrapped m = some wrapped ∧ KeyUnwrapper.KmsFailed env wrapped m.masterKeyId l w := by
  cases hr with
  | kms wrapped hw hf => exact ⟨wrapped, hw, hf⟩
  | noKek hd hnone =>
    obtain ⟨kek0, _, hk, hw, _⟩ := h.holds.of_doubleWrapping hd
    rcases hnone with hn | hn
    · rw [hk] at hn; cases hn
    · rw [hw] at hn; cases hn
  | kekId kekId hd hk hdecode =>
    obtain ⟨kek0, hgood, hk', _, _⟩ := h.holds.of_doubleWrapping hd
    rw [hk] at hk'
    cases hk'
    rw [hgood.encoded, Base64.decode_encode] at hdecode
    cases hdecode
  | dek kekId kek decoded e hd hk hholds hdecode hdec =>
    obtain ⟨kek0, hgood, hk', _, hdec'⟩ := h.holds.of_doubleWrapping hd
    rw [hk] at hk'
    cases hk'
    obtain rfl := holdsKek_eq hdistinct hgood hinv hholds
    rw [hgood.encoded, Base64.decode_encode] at hdecode
    cases hdecode
    rw [hdec] at hdec'
    cases hdec'

theorem IssuedAs.refused (h : IssuedAs env n key m) (hdistinct : env.DrawsDistinct n) (hinv : KekInv env n w) {l : Nat}
    (hr : u.Refused env m l w) : w.FailedSince l := by
  obtain ⟨_, _, hf⟩ := h.refused_by_kms hdistinct hinv hr
  exact hf.1

/-- Retrieving an issued key does what it is to do exactly when its lifetime does not overflow. -/
theorem IssuedAs.retrieves_iff (h : IssuedAs env n key m) (law : env.KmsLaw) (hdistinct : env.DrawsDistinct n)
    (hinv : KekInv env n w) (hw : Intact w) : Retrieves env u key w ↔ ¬ u.Overflows env key.metadata w := by
  have hpanic := u.retrieveKey_panic_iff env key.metadata hw
  have halong := u.retrieveKey_along env m h.read h.internalStorage w
  have hinv' : KekInv env n (u.retrieveKey env key.metadata w).2 :=
    path_keeps (I := KekInv env n) (fun _ _ hi hm => hm.kekInv law h hi) halong.path hinv
  constructor
  · intro hret ho
    have hp := hpanic.mpr (Or.inl ho)
    rcases hret with hok | ⟨⟨e, he⟩, _⟩
    · rw [hp] at hok; cases hok
    · rw [hp] at he; cases he
  · intro ho
    unfold Retrieves
    cases hr : (u.retrieveKey env key.metadata w).1 with
    | ok dek =>
      left
      rw [h.retrieved law hdistinct hinv' (halong.ok dek hr)]
    | err e =>
      right
      rcases halong.err e hr with ⟨id, url, hid, hurl, hempty | hempty⟩ | hrefused
      · exact absurd (String.isEmpty_iff.mp hempty) (h.kmsInstanceId id hid)
      · exact absurd (String.isEmpty_iff.mp hempty) (h.kmsInstanceUrl url hurl)
      · exact ⟨⟨e, rfl⟩, h.refused hdistinct hinv' hrefused⟩
    | panic =>
      rcases hpanic.mp hr with h1 | h1
      · exact absurd h1 ho
      · exact absurd h1 h.not_shortDek

/-- With a complete configuration and no KEK cached, a reader whose client cannot be stored panics
    on every issued key. -/
theorem IssuedAs.panics (h : IssuedAs env n key m) (hw : Intact w)
    (hid : ¬ (w.configs u.kmsConnectionConfig).kmsInstanceId.isEmpty)
    (hurl : ¬ (w.configs u.kmsConnectionConfig).kmsInstanceUrl.isEmpty) (hkeks : (u.keks.get w).entries = [])
    (hclient : (KmsManager.getClient env u.kmsManager (w.configs u.kmsConnectionConfig)
      u.decryptionConfiguration.cacheLifetime w).1 = .panic) :
    (u.retrieveKey env key.metadata w).1 = .panic := by
  refine (u.retrieveKey_panic_iff env _ hw).mpr
    (Or.inl ⟨m, w, ?_, ?_, (KmsManager.getClient_panic_iff env hw).mp hclient⟩)
  · exact ⟨h.read, h.internalStorage, u.updateKmsConfig_set m hid hurl⟩
  · cases h.holds with
    | single hd _ => exact Or.inl hd
    | double kek hd _ hk hwrapped _ =>
      refine Or.inr ⟨_, _, hd, hk, hwrapped, ?_⟩
      rw [AList.lookup, hkeks]
      rfl

end

/-! ## Whole runs -/

/-- The run retrieves only issued keys, and no lifetime overflows in it. -/
def Request.RoundTrips (s : System) : Request → Prop
  | .retrieve u keyMetadata =>
    (∃ key ∈ s.issued, key.metadata = keyMetadata) ∧ ¬ u.Overflows env keyMetadata s.world
  | r => r.Sound env s

/-- The invariant of such runs. -/
structure IssuedInv (s : System) : Prop where
  intact : Intact s.world
  keks : KekInv env s.world.calls s.world
  issued : ∀ key ∈ s.issued, ∃ m, IssuedAs env s.world.calls key m

theorem issuedInv_init (tokens : TokenCell → String) (clock : Instant) :
    IssuedInv env (System.init tokens clock) where
  intact := intact_init tokens clock
  keks := by constructor <;> (intro a k kek hl; cases hl)
  issued := by intro key hkey; cases hkey

namespace System

variable {env} {s : System} {r : Request}

theorem exec_keks (law : env.KmsLaw) (hinv : IssuedInv env s) (hr : r.RoundTrips env s) :
    KekInv env (s.exec env r).world.calls (s.exec env r).world := by
  refine exec_keeps env (I := fun v => KekInv env v.calls v ∧ s.world.calls ≤ v.calls) (fun v v' hv hm => ?_)
    ⟨hinv.keks, le_refl _⟩ |>.1
  have hg := hm.grows
  refine ⟨?_, hv.2.trans hg.calls⟩
  have hsame : v'.writeCaches = v.writeCaches → v'.readCaches = v.readCaches → KekInv env v'.calls v' := by
    intro hw hr
    exact hv.1.of_lookup hg.calls (fun _ _ _ hl => Or.inl (by rwa [hw] at hl)) fun _ _ _ hl =>
      Or.inl (by rwa [hr] at hl)
  cases hm with
  | clock n => exact hsame rfl rfl
  | newManager _ k _ _ _ => exact hsame rfl rfl
  | refresh config keyAccessToken => exact hsame rfl rfl
  | wait elapsed => exact hsame rfl rfl
  | encrypt hm => exact hm.kekInv hv.1
  | registry hm => exact (hm.kekInv hv.1).mono hg.calls
  | newConfig m config dec => exact hsame rfl rfl
  | retrieve hread _ hm =>
    obtain ⟨⟨key, hkey, rfl⟩, _⟩ := hr
    obtain ⟨m', hissued⟩ := hinv.issued key hkey
    have he := hissued.read
    rw [hread] at he
    cases he
    exact (hm.kekInv law (hissued.mono hv.2) hv.1).mono hg.calls

theorem exec_issued (hinv : IssuedInv env s) {key : EncryptionKey} (hkey : key ∈ (s.exec env r).issued) :
    ∃ m, IssuedAs env (s.exec env r).world.calls key m := by
  obtain ⟨f, hf, hkey⟩ := List.mem_flatMap.mp hkey
  rcases List.mem_append.mp hf with hf | hf
  · obtain ⟨m, hm⟩ := hinv.issued key (List.mem_flatMap.mpr ⟨f, hf, hkey⟩)
    exact ⟨m, hm.mono (exec_grows env s r).calls⟩
  · obtain ⟨_, hcall⟩ := mem_written env hf
    obtain ⟨k, w0, he⟩ := (CryptoFactory.fileEncryptionProperties_along env _ _ _ s.world).run_ok hcall
    obtain ⟨masterKeyId, isFooterKey, _, hmade⟩ := he.keys_made hkey
    exact hmade.issuedAs (path_keeps (I := fun v => KekInv env v.calls v)
      (fun _ _ hi hm => (hm.kekInv hi).mono hm.grows.calls) he.wrapper.path hinv.keks)

theorem exec_issuedInv (law : env.KmsLaw) (hinv : IssuedInv env s) (hr : r.RoundTrips env s) :
    IssuedInv env (s.exec env r) where
  intact := by
    refine exec_intact env hinv.intact ?_
    cases r with
    | retrieve u keyMetadata =>
      obtain ⟨⟨key, hkey, rfl⟩, ho⟩ := hr
      obtain ⟨m, hm⟩ := hinv.issued key hkey
      exact ⟨ho, hm.not_shortDek⟩
    | _ => exact hr
  keks := exec_keks law hinv hr
  issued := fun _ hkey => exec_issued hinv hkey

end System

theorem issuedInv {env : Env} (law : env.KmsLaw) {s : System}
    (h : System.Reach env (fun s r => r.RoundTrips env s) s) : IssuedInv env s := by
  induction h with
  | init tokens clock => exact issuedInv_init env tokens clock
  | step r _ _ hr ih => exact System.exec_issuedInv law ih hr

/-- The envelope round trip: in a run without overflowing lifetimes, any reader retrieves any key
    issued so far, unless the KMS or the client factory fails, exactly when the reader's own
    lifetime does not overflow. -/
theorem retrieveKey_round_trip {env : Env} (law : env.KmsLaw) {s : System}
    (h : System.Reach env (fun s r => r.RoundTrips env s) s) (hdistinct : env.DrawsDistinct s.world.calls)
    {key : EncryptionKey} (hkey : key ∈ s.issued) (u : KeyUnwrapper) :
    Retrieves env u key s.world ↔ ¬ u.Overflows env key.metadata s.world := by
  have hinv := issuedInv law h
  obtain ⟨m, hm⟩ := hinv.issued key hkey
  exact hm.retrieves_iff law hdistinct hinv.keks hinv.intact

theorem sample_kmsLaw : Env.sample.KmsLaw := by
  intro i j client client' key masterKeyId wrapped key' hw hu
  cases hw
  simp only [Env.sample, Base64.decode_encode] at hu
  cases hu
  rfl

theorem sample_drawsDistinct {n : Nat} (hn : n ≤ 256) : Env.sample.DrawsDistinct n := by
  intro i j bytes hi hj hdi hdj
  obtain ⟨_, h1⟩ := hdi
  obtain ⟨_, h2⟩ := hdj
  cases h1
  have h := congrArg (List.head? ·) (congrArg (fun o => (o.map Subtype.val).getD []) h2)
  simp [Env.sample, counter, List.range_succ_eq_map, kekLen] at h
  have := congrArg UInt8.toNat h
  simp only [UInt8.toNat_ofNat'] at this
  omega

/-- A file is written, and a reader opened, by one factory. -/
def sampleWriting : System :=
  (((System.init (fun _ => "DEFAULT") 0).exec Env.sample .newFactory).exec Env.sample
    (.encrypt 0 sampleConfig sampleConfiguration)).exec Env.sample (.decrypt 0 sampleConfig ⟨none⟩)

theorem retrieveKey_round_trip_sample :
    sampleWriting.issued.length = 5 ∧ ∀ key ∈ sampleWriting.issued, ∀ u : KeyUnwrapper,
      Retrieves Env.sample u key sampleWriting.world ↔ ¬ u.Overflows Env.sample key.metadata sampleWriting.world := by
  refine ⟨by decide +kernel, fun key hkey u => ?_⟩
  refine retrieveKey_round_trip sample_kmsLaw ?_ (sample_drawsDistinct (by decide +kernel)) hkey u
  exact (((System.Reach.init _ 0).step .newFactory trivial trivial).step
    (.encrypt 0 sampleConfig sampleConfiguration) (by decide +kernel : 0 < _)
    (Outcome.ne_panic (by decide +kernel))).step (.decrypt 0 sampleConfig ⟨none⟩) (by decide +kernel : 0 < _)
    (Outcome.ne_panic (by decide +kernel))

/-- The longest lifetime for which a reader can be opened at the clock's first reading. -/
def longReading : DecryptionConfiguration := ⟨some (Duration.fromSecs 9223372036854775807)⟩

/-- One factory writes a file, another opens a reader with that lifetime, and a second passes. -/
def sampleLongReading : System :=
  (((((System.init (fun _ => "DEFAULT") 0).exec Env.sample .newFactory).exec Env.sample .newFactory).exec
    Env.sample (.encrypt 0 sampleConfig sampleConfiguration)).exec Env.sample
    (.decrypt 1 sampleConfig longReading)).exec Env.sample (.wait nanosPerSec)

theorem sampleLongReading_reach :
    System.Reach Env.sample (fun s r => r.RoundTrips Env.sample s) sampleLongReading :=
  (((((System.Reach.init _ 0).step .newFactory trivial trivial).step .newFactory trivial trivial).step
    (.encrypt 0 sampleConfig sampleConfiguration) (by decide +kernel : 0 < _)
    (Outcome.ne_panic (by decide +kernel))).step (.decrypt 1 sampleConfig longReading) (by decide +kernel : 1 < _)
    (Outcome.ne_panic (by decide +kernel))).step (.wait nanosPerSec) trivial trivial

/-- The reader panics on every key of the file: it has to store a client. -/
theorem retrieveKey_overflow :
    let u : KeyUnwrapper := ⟨1, 0, longReading, 0⟩
    sampleLongReading.readers.map Reader.unwrapper = [u] ∧ sampleLongReading.issued.length = 5 ∧
      ∀ key ∈ sampleLongReading.issued, (u.retrieveKey Env.sample key.metadata sampleLongReading.world).1 = .panic := by
  refine ⟨by decide +kernel, by decide +kernel, fun key hkey => ?_⟩
  have hinv := issuedInv sample_kmsLaw sampleLongReading_reach
  obtain ⟨m, hm⟩ := hinv.issued key hkey
  exact hm.panics hinv.intact (by decide +kernel) (by decide +kernel) (by decide +kernel) (by decide +kernel)

end ParquetKeyManagement
