/-
  ParquetKeyManagement.Factory.FreshKeys — every key has random bytes of its own.

  A data key, the nonce it is encrypted under, a KEK and its id each come from one use of the
  generator. `FreshInv` names for every key of every file the uses that it and its nonce came
  from, and says that no key the KMS was given came from that of a key that is wrapped twice.
  - `keys_and_nonces_fresh`: in every run no data key is handed out twice, and no two are
    encrypted under one nonce.
  - `double_wrapped_keys_stay_local`: in every run the KMS is never given a data key of a file
    that is written with double wrapping.
-/

import ParquetKeyManagement.Factory.Draws

namespace ParquetKeyManagement

open Effect

/-- The 12-byte draws among the uses before `n` are pairwise distinct. -/
def Env.NoncesDistinct (env : Env) (n : Nat) : Prop :=
  ∀ i j nonce, i < n → j < n → env.DrewNonce i nonce → env.DrewNonce j nonce → i = j

variable (env : Env)

/-! ## The invariant -/

/-- A use of the generator that may be any. -/
def AnyUse (_ : Nat) : Prop := True

/-- Every key has draws of its own, and none that is wrapped twice was given to the KMS. -/
structure FreshInv (ds : List DrawnKey) (w : World) : Prop where
  sound : ∀ d ∈ ds, d.Sound env AnyUse 0 w.calls
  deks : (ds.map DrawnKey.dek).Nodup
  nonces : (ds.filterMap DrawnKey.nonce).Nodup
  given : ∀ client keyBytes masterKeyId result, .wrapKey client keyBytes masterKeyId result ∈ w.log →
    ∃ i < w.calls, env.Drew i keyBytes ∧ ∀ d ∈ ds, d.nonce.isSome = true → d.dek ≠ i
  keks : ∀ a, KeksFrom env AnyUse a w

section

variable {env} {P Q : Nat → Prop} {S : Option Duration → Prop} {w w' : World} {ds ds' : List DrawnKey}

namespace FreshInv

theorem sublist (h : FreshInv env ds w) (hsub : ds'.Sublist ds) : FreshInv env ds' w where
  sound d hd := h.sound d (hsub.subset hd)
  deks := h.deks.sublist (hsub.map _)
  nonces := h.nonces.sublist (hsub.filterMap _)
  given client keyBytes masterKeyId result hin := by
    obtain ⟨i, hi, hd, hne⟩ := h.given client keyBytes masterKeyId result hin
    exact ⟨i, hi, hd, fun d hd => hne d (hsub.subset hd)⟩
  keks := h.keks

theorem perm (h : FreshInv env ds w) (hp : ds.Perm ds') : FreshInv env ds' w where
  sound d hd := h.sound d (hp.mem_iff.mpr hd)
  deks := (hp.map _).nodup_iff.mp h.deks
  nonces := (hp.filterMap _).nodup_iff.mp h.nonces
  given client keyBytes masterKeyId result hin := by
    obtain ⟨i, hi, hd, hne⟩ := h.given client keyBytes masterKeyId result hin
    exact ⟨i, hi, hd, fun d hd => hne d (hp.mem_iff.mpr hd)⟩
  keks := h.keks

/-- What is given to the KMS from now on is drawn from now on. -/
theorem later (h : FreshInv env ds w) (hg : DrawsFrom env (w.calls ≤ ·) S w w') : FreshInv env ds w' where
  sound d hd := (h.sound d hd).mono (fun _ h => h) (le_refl _) hg.calls
  deks := h.deks
  nonces := h.nonces
  given client keyBytes masterKeyId result hin := by
    rcases hg.given client keyBytes masterKeyId result hin with h1 | ⟨i, hi, hlater, hd⟩
    · obtain ⟨i, hi, hd, hne⟩ := h.given client keyBytes masterKeyId result h1
      exact ⟨i, lt_of_lt_of_le hi hg.calls, hd, hne⟩
    · refine ⟨i, hi, hd, fun d hd _ he => ?_⟩
      have := (h.sound d hd).lt_hi
      omega
  keks a := (h.keks a).later hg fun _ _ => trivial

/-- Another key was made meanwhile. -/
theorem cons (h : FreshInv env ds w) {d : DrawnKey} (hd : d.Sound env Q w.calls w'.calls)
    (hg : DrawsFrom env (fun i => w.calls ≤ i ∧ (d.nonce.isSome = true → d.dek ≠ i)) S w w') :
    FreshInv env (d :: ds) w' := by
  have hl := h.later (hg.mono fun _ h => h.1)
  constructor
  · intro x hx
    rcases List.mem_cons.mp hx with rfl | hx
    · exact hd.mono (fun _ _ => trivial) (Nat.zero_le _) (le_refl _)
    · exact hl.sound x hx
  · refine List.nodup_cons.mpr ⟨fun hin => ?_, h.deks⟩
    obtain ⟨x, hx, he⟩ := List.mem_map.mp hin
    have h1 := (h.sound x hx).lt_hi
    have h2 := hd.lo_le
    omega
  · cases hn : d.nonce with
    | none => rw [List.filterMap_cons_none hn]; exact h.nonces
    | some i =>
      rw [List.filterMap_cons_some hn]
      refine List.nodup_cons.mpr ⟨fun hin => ?_, h.nonces⟩
      obtain ⟨x, hx, he⟩ := List.mem_filterMap.mp hin
      have h1 := ((h.sound x hx).nonce_between he).2
      have h2 := (hd.nonce_between hn).1
      omega
  · intro client keyBytes masterKeyId result hin
    rcases hg.given client keyBytes masterKeyId result hin with h1 | ⟨i, hi, ⟨hlater, hne⟩, hdrew⟩
    · obtain ⟨i, hi, hdrew, hne⟩ := h.given client keyBytes masterKeyId result h1
      refine ⟨i, lt_of_lt_of_le hi hg.calls, hdrew, fun x hx hsome he => ?_⟩
      rcases List.mem_cons.mp hx with rfl | hx
      · have := hd.lo_le
        omega
      · exact hne x hx hsome he
    · refine ⟨i, hi, hdrew, fun x hx hsome he => ?_⟩
      rcases List.mem_cons.mp hx with rfl | hx
      · exact hne hsome he
      · have := (h.sound x hx).lt_hi
        omega
  · exact hl.keks

end FreshInv

/-! ## Writing a file -/

/-- The keys in the builder are fresh beside those of earlier files, and wrapped with KEKs from `Q`. -/
def FreshKeys (env : Env) (Q : Nat → Prop) (old : List DrawnKey) (b : FileEncryptionProperties) (w : World) : Prop :=
  ∃ ds, FreshInv env (old ++ ds) w ∧ (∀ d ∈ ds, d.Sound env Q 0 w.calls) ∧ ds.map DrawnKey.key = b.keys

namespace CryptoFactory

variable (k : KeyWrapper) {old : List DrawnKey}

theorem generateKey_fresh (masterKeyId : String) (isFooterKey : Bool) (h : FreshInv env ds w)
    (hQ : ∀ i, w.calls ≤ i → Q i) (hkeks : KeksFrom env Q k.masterKeyToKek w) :
    Along (DrawsFrom env (w.calls ≤ ·) S) (generateKey env masterKeyId isFooterKey k) w
      (fun key w' => ∃ d : DrawnKey, d.key = key ∧ d.Sound env Q 0 w'.calls ∧ FreshInv env (d :: ds) w')
      (fun _ _ => True) (fun _ => True) := by
  have hkey := (generateKey_draws (S := S) k masterKeyId isFooterKey hQ hkeks).with_path
  refine (hkey.lift fun _ _ hg => hg.mono fun _ h => h.1).mono (fun key w' h' => ?_) (fun _ _ h => h) fun _ h => h
  obtain ⟨⟨nonce, hsound, hsome⟩, path⟩ := h'
  have hg : DrawsFrom env (fun i => w.calls ≤ i ∧ (nonce.isSome = true → w.calls ≠ i)) S w w' :=
    (DrawsFrom.of_path path).mono fun i hi => ⟨hi.1, fun hs => hi.2 (hsome ▸ hs)⟩
  exact ⟨⟨key, w.calls, nonce⟩, rfl, hsound.mono (fun _ h => h) (Nat.zero_le _) (le_refl _), h.cons hsound hg⟩

/-- A column's key replaces one under its name, if there is one. -/
theorem FreshKeys.insert {b : FileEncryptionProperties} {d : DrawnKey} (hds : ds.map DrawnKey.key = b.keys)
    (h : FreshInv env (d :: (old ++ ds)) w) (hsound : ∀ x ∈ d :: ds, x.Sound env Q 0 w.calls) (columnPath : String) :
    FreshKeys env Q old (b.withColumnKeyAndMetadata columnPath d.key.key d.key.metadata) w := by
  obtain ⟨d0, dcols, rfl⟩ : ∃ d0 dcols, ds = d0 :: dcols := by
    cases ds with
    | nil => cases hds
    | cons d0 dcols => exact ⟨d0, dcols, rfl⟩
  obtain ⟨hfooter, hcols⟩ := List.cons.inj hds
  have hkept : ((b.columnKeys.entries.kerase columnPath).map fun e => e.2).Sublist (dcols.map DrawnKey.key) := by
    rw [hcols]
    exact (List.kerase_sublist _ _).map _
  obtain ⟨dkept, hsub, hmap⟩ := List.sublist_map_iff.mp hkept
  refine ⟨d0 :: d :: dkept, (h.perm ?_).sublist (((hsub.cons_cons d).cons_cons d0).append_left old), fun x hx => ?_, ?_⟩
  · exact (List.perm_middle.symm).trans (List.Perm.append_left old (List.Perm.swap d0 d dcols))
  · refine hsound x ?_
    rcases List.mem_cons.mp hx with rfl | hx
    · exact List.mem_cons_of_mem _ (List.mem_cons_self ..)
    rcases List.mem_cons.mp hx with rfl | hx
    · exact List.mem_cons_self ..
    · exact List.mem_cons_of_mem _ (List.mem_cons_of_mem _ (hsub.subset hx))
  · show d0.key :: d.key :: dkept.map DrawnKey.key = b.footerKey :: _
    rw [hfooter, ← hmap]
    rfl

theorem addColumns_fresh (masterKeyId : String) (columnPaths : List String) {b : FileEncryptionProperties} {n : Nat}
    (hn : n ≤ w.calls) (hQ : ∀ i, n ≤ i → Q i) (hkeks : KeksFrom env Q k.masterKeyToKek w)
    (h : FreshKeys env Q old b w) :
    Along (DrawsFrom env (n ≤ ·) S) (addColumns env k masterKeyId columnPaths b) w
      (FreshKeys env Q old) (fun _ _ => True) (fun _ => True) := by
  induction columnPaths generalizing b w with
  | nil => exact Along.pure h
  | cons c columnPaths ih =>
    unfold addColumns
    obtain ⟨ds, hfresh, hds, hkeys⟩ := h
    refine Along.bind ((generateKey_fresh k masterKeyId false hfresh (fun i hi => hQ i (hn.trans hi)) hkeks).lift
      fun _ _ hg => hg.mono fun _ h => hn.trans h) fun key w1 path1 h1 => ?_
    obtain ⟨d, rfl, hd, h1⟩ := h1
    have hg := DrawsFrom.of_path path1
    refine ih (hn.trans hg.calls) (hkeks.later hg hQ) (FreshKeys.insert hkeys h1 (fun x hx => ?_) c)
    rcases List.mem_cons.mp hx with rfl | hx
    · exact hd
    · exact (hds x hx).mono (fun _ h => h) (le_refl _) hg.calls

theorem addColumnKeys_fresh (es : List (Sigma fun _ : String => List String)) {b : FileEncryptionProperties} {n : Nat}
    (hn : n ≤ w.calls) (hQ : ∀ i, n ≤ i → Q i) (hkeks : KeksFrom env Q k.masterKeyToKek w)
    (h : FreshKeys env Q old b w) :
    Along (DrawsFrom env (n ≤ ·) S) (addColumnKeys env k es b) w (FreshKeys env Q old) (fun _ _ => True)
      (fun _ => True) := by
  induction es generalizing b w with
  | nil => exact Along.pure h
  | cons e es ih =>
    unfold addColumnKeys
    refine (addColumns_fresh k e.1 e.2 hn hQ hkeks h).bind fun b1 w1 path1 h1 => ?_
    have hg := DrawsFrom.of_path path1
    exact ih (hn.trans hg.calls) (hkeks.later hg hQ) h1

/-- The keys of a file are wrapped with KEKs from `Q`, if those in the write cache it is written
with come from there. -/
theorem fileEncryptionProperties_fresh (m : ManagerId) (config : KmsConnectionConfig) (enc : EncryptionConfiguration)
    (h : FreshInv env old w) (hS : S enc.cacheLifetime) (hQ : ∀ i, w.calls ≤ i → Q i)
    (hcache : ∀ a w1, DrawsFrom env (w.calls ≤ ·) S w w1 → HeldWriteCache m (w1.tokens config.keyAccessToken) a w1 →
      KeksFrom env Q a w1) :
    Along (DrawsFrom env (w.calls ≤ ·) S) (fileEncryptionProperties env m config enc) w (FreshKeys env Q old)
      (fun _ _ => True) (fun _ => True) := by
  unfold fileEncryptionProperties
  by_cases h1 : ¬ enc.internalKeyMaterial = true
  · rw [if_pos h1]; exact Along.fail trivial
  rw [if_neg h1]
  by_cases h2 : enc.dataKeyLengthBits ≠ 128
  · rw [if_pos h2]; exact Along.fail trivial
  rw [if_neg h2]
  have hnew : Along (DrawsFrom env (w.calls ≤ ·) S) (KeyWrapper.new env m config enc) w
      (fun k w' => HeldWriteCache m (w'.tokens config.keyAccessToken) k.masterKeyToKek w') (fun _ _ => True)
      (fun _ => True) := by
    unfold KeyWrapper.new
    exact (getKekWriteCache_draws m config enc.cacheLifetime hS w).bind fun a w1 _ ha => Along.pure ha
  refine hnew.bind fun k w1 path1 hheld => ?_
  have hg1 := DrawsFrom.of_path path1
  have hkeks1 := hcache k.masterKeyToKek w1 hg1 hheld
  refine Along.bind ((generateKey_fresh k enc.footerKeyId true (h.later hg1) (fun i hi => hQ i (hg1.calls.trans hi))
    hkeks1).lift fun _ _ hg => hg.mono fun _ h => hg1.calls.trans h) fun footerKey w2 path2 h2 => ?_
  obtain ⟨d, rfl, hd, h2⟩ := h2
  have hg2 := DrawsFrom.of_path path2
  have htick : ∀ {P : Nat → Prop}, DrawsFrom env P S w2 (w2.tick 0) :=
    .silent (w2.grows_tick 0) rfl rfl fun _ _ _ _ h => h
  refine Along.bind (p := fun _ w' => w' = w2.tick 0) (Along.of_ok rfl (.single htick) rfl) fun order w3 _ h3 => ?_
  subst h3
  refine addColumnKeys_fresh k _ ((hg1.calls.trans hg2.calls).trans (Nat.le_succ _)) hQ
    ((hkeks1.later hg2 hQ).later htick hQ) ⟨[d], ?_, fun x hx => ?_, rfl⟩
  · exact (h2.later htick).perm (List.perm_append_singleton d old).symm
  · rw [List.mem_singleton.mp hx]
    exact hd.mono (fun _ h => h) (le_refl _) (Nat.le_succ _)

end CryptoFactory

/-! ## Whole runs -/

namespace System

variable {s : System}

/-- What a request that writes a file adds, where KEKs from anywhere may be used. -/
theorem encrypt_fresh (h : FreshInv env ds s.world) (m : ManagerId) (config : KmsConnectionConfig)
    (enc : EncryptionConfiguration) :
    Along (DrawsFrom env (s.world.calls ≤ ·) fun _ => True) (CryptoFactory.fileEncryptionProperties env m config enc)
      s.world (FreshKeys env AnyUse ds) (fun _ _ => True) (fun _ => True) :=
  CryptoFactory.fileEncryptionProperties_fresh m config enc h trivial (fun _ _ => trivial) fun a _ hd _ =>
    (h.keks a).later hd fun _ _ => trivial

theorem issued_exec (s : System) (r : Request) :
    (s.exec env r).issued = s.issued ++ (written env s.world r).flatMap fun f =>
      f.properties.keys := List.flatMap_append

theorem exec_fresh (h : FreshInv env ds s.world) (hds : ds.map DrawnKey.key = s.issued) (r : Request) :
    ∃ ds', FreshInv env ds' (s.exec env r).world ∧ ds'.map DrawnKey.key = (s.exec env r).issued := by
  have hissued := @issued_exec env s r
  by_cases hr : ∃ m config enc, r = .encrypt m config enc
  · obtain ⟨m, config, enc, rfl⟩ := hr
    have halong := encrypt_fresh h m config enc
    have hold : FreshInv env ds (s.exec env (.encrypt m config enc)).world := h.later (.of_path halong.path)
    unfold written at hissued
    cases hp : (CryptoFactory.fileEncryptionProperties env m config enc s.world).1 with
    | ok p =>
      obtain ⟨ds', hfresh, _, hkeys⟩ := halong.ok p hp
      refine ⟨ds ++ ds', hfresh, ?_⟩
      simp only [hp] at hissued
      rw [hissued, List.map_append, hds, hkeys, List.flatMap_singleton]
    | err e =>
      simp only [hp] at hissued
      exact ⟨ds, hold, by rw [hissued, hds]; exact (List.append_nil _).symm⟩
    | panic =>
      simp only [hp] at hissued
      exact ⟨ds, hold, by rw [hissued, hds]; exact (List.append_nil _).symm⟩
  · have hne : ∀ m config enc, r ≠ .encrypt m config enc := fun m config enc he => hr ⟨m, config, enc, he⟩
    refine ⟨ds, h.later (exec_draws (S := fun _ => True) s hne), ?_⟩
    have hnone : written env s.world r = [] := by
      cases r with
      | encrypt m config enc => exact absurd rfl (hne m config enc)
      | _ => rfl
    rw [hissued, hds, hnone]
    exact (List.append_nil _).symm

end System

theorem freshInv {R : System → Request → Prop} {s : System} (h : System.Reach env R s) :
    ∃ ds, FreshInv env ds s.world ∧ ds.map DrawnKey.key = s.issued := by
  induction h with
  | init tokens clock =>
    refine ⟨[], ⟨fun d hd => (by cases hd), List.nodup_nil, List.nodup_nil, fun _ _ _ _ hin => ?_,
      fun _ _ _ hl => ?_⟩, rfl⟩
    · cases hin
    · cases hl
  | step r _ _ _ ih =>
    obtain ⟨ds, hfresh, hds⟩ := ih
    exact System.exec_fresh hfresh hds r

end

/-- The nonce in a key's metadata, under double wrapping. -/
def EncryptionKey.nonce (key : EncryptionKey) : Option Bytes :=
  match KeyUnwrapper.readMaterial env key.metadata with
  | .ok m => if m.doubleWrapping then (Base64.decode m.wrappedDek).map (List.take nonceLen) else none
  | .error _ => none

section

variable {env} {R : System → Request → Prop} {s : System}

theorem DrawnKey.Sound.drewNonce {Q : Nat → Prop} {lo hi : Nat} {d : DrawnKey} (h : d.Sound env Q lo hi) {nonce : Bytes}
    (hnonce : d.key.nonce env = some nonce) : ∃ i < hi, d.nonce = some i ∧ env.DrewNonce i nonce := by
  obtain ⟨m, hread, hn⟩ := h.material
  unfold EncryptionKey.nonce at hnonce
  rw [hread] at hnonce
  cases hi : d.nonce with
  | none =>
    rw [hi] at hn
    cases hn with
    | single hd _ => simp [hd] at hnonce
  | some i =>
    rw [hi] at hn
    cases hn with
    | double i drawn rest kek hd _ hlt hdrew hw _ _ =>
      obtain ⟨hlen, hfill⟩ := hdrew
      simp only [hd, hw, Base64.decode_encode, if_true, Option.map_some, List.take_left' hlen,
        Option.some.injEq] at hnonce
      subst hnonce
      exact ⟨i, hlt, rfl, hlen, hfill⟩

/-- No data key is handed out twice, and no two are encrypted under one nonce. -/
theorem keys_and_nonces_fresh (h : System.Reach env R s) (hdraws : env.DrawsDistinct s.world.calls)
    (hnonces : env.NoncesDistinct s.world.calls) :
    (s.issued.map EncryptionKey.key).Nodup ∧ (s.issued.filterMap (EncryptionKey.nonce env)).Nodup := by
  obtain ⟨ds, hfresh, hds⟩ := freshInv h
  rw [← hds]
  constructor
  · have hdeks := List.pairwise_map.mp hfresh.deks
    rw [List.map_map]
    refine List.pairwise_map.mpr (hdeks.imp_of_mem fun {a b} ha hb hne he => hne ?_)
    have hb' := (hfresh.sound b hb).drew
    rw [← show a.key.key = b.key.key from he] at hb'
    exact hdraws _ _ _ (hfresh.sound a ha).lt_hi (hfresh.sound b hb).lt_hi (hfresh.sound a ha).drew hb'
  · have hindices := List.pairwise_filterMap.mp hfresh.nonces
    rw [List.filterMap_map]
    refine List.pairwise_filterMap.mpr (hindices.imp_of_mem fun {a b} ha hb hne nonce hna nonce' hnb he => ?_)
    obtain ⟨i, hi, hai, hdi⟩ := (hfresh.sound a ha).drewNonce hna
    obtain ⟨j, hj, hbj, hdj⟩ := (hfresh.sound b hb).drewNonce hnb
    subst he
    exact hne i hai j hbj (hnonces i j nonce hi hj hdi hdj)

/-- A file's materials say what its configuration does. -/
theorem files_materialFor (h : System.Reach env R s) {f : Written} (hf : f ∈ s.files) {key : EncryptionKey}
    (hkey : key ∈ f.properties.keys) : ∃ masterKeyId m, KeyUnwrapper.readMaterial env key.metadata = .ok m ∧
      MaterialFor f.encryptionConfiguration masterKeyId m := by
  induction h with
  | init tokens clock => cases hf
  | @step s r _ _ _ ih =>
    rcases List.mem_append.mp hf with hf | hf
    · exact ih hf
    · obtain ⟨_, hcall⟩ := System.mem_written env hf
      obtain ⟨k, w0, he⟩ := (CryptoFactory.fileEncryptionProperties_along env _ _ _ s.world).run_ok hcall
      obtain ⟨masterKeyId, isFooterKey, _, m, w1, hread, _, _, hd⟩ := he.keys_made hkey
      refine ⟨masterKeyId, m, hread, ?_⟩
      rw [← he.wrapper.encryptionConfiguration]
      exact hd.materialFor.1

/-- The KMS is never given a data key of a file that is written with double wrapping. -/
theorem double_wrapped_keys_stay_local (h : System.Reach env R s)
    (hdraws : env.DrawsDistinct s.world.calls) {f : Written}
    (hf : f ∈ s.files) (hdouble : f.encryptionConfiguration.doubleWrapping = true) {key : EncryptionKey}
    (hkey : key ∈ f.properties.keys) (client : KmsClient) (masterKeyId : String) (result : Except ParquetError String) :
    .wrapKey client key.key masterKeyId result ∉ s.world.log := by
  intro hin
  obtain ⟨_, m, hread, hd⟩ := files_materialFor h hf hkey
  obtain ⟨ds, hfresh, hds⟩ := freshInv h
  have hissued : key ∈ ds.map DrawnKey.key := by
    rw [hds]
    exact List.mem_flatMap.mpr ⟨f, hf, hkey⟩
  obtain ⟨d, hmem, rfl⟩ := List.mem_map.mp hissued
  have hsound := hfresh.sound d hmem
  have hnonce : d.nonce.isSome = true := by
    obtain ⟨m', hread', hn⟩ := hsound.material
    rw [hread] at hread'
    cases hread'
    cases hcase : d.nonce with
    | none =>
      rw [hcase] at hn
      cases hn with
      | single hsingle _ => rw [hd.doubleWrapping, hdouble] at hsingle; cases hsingle
    | some i => rfl
  obtain ⟨i, hi, hdrew, hne⟩ := hfresh.given client d.key.key masterKeyId result hin
  exact hne d hmem hnonce (hdraws _ _ _ hsound.lt_hi hi hsound.drew hdrew)

end

theorem sample_noncesDistinct {n : Nat} (hn : n ≤ 256) : Env.sample.NoncesDistinct n := by
  intro i j bytes hi hj hdi hdj
  obtain ⟨_, h1⟩ := hdi
  obtain ⟨_, h2⟩ := hdj
  cases h1
  have h := congrArg (List.head? ·) (congrArg (fun o => (o.map Subtype.val).getD []) h2)
  simp [Env.sample, counter, List.range_succ_eq_map, nonceLen] at h
  have := congrArg UInt8.toNat h
  simp only [UInt8.toNat_ofNat'] at this
  omega

theorem sampleWriting_reach : System.Reach Env.sample (fun _ _ => True) sampleWriting :=
  (((System.Reach.init _ 0).step .newFactory trivial trivial).step (.encrypt 0 sampleConfig sampleConfiguration)
    (by decide +kernel : 0 < _) trivial).step (.decrypt 0 sampleConfig ⟨none⟩) (by decide +kernel : 0 < _) trivial

theorem keys_and_nonces_fresh_sample :
    sampleWriting.issued.length = 5 ∧ (sampleWriting.issued.map EncryptionKey.key).Nodup ∧
      (sampleWriting.issued.filterMap (EncryptionKey.nonce Env.sample)).Nodup := by
  have hcalls : sampleWriting.world.calls ≤ 256 := by decide +kernel
  exact ⟨by decide +kernel, keys_and_nonces_fresh sampleWriting_reach (sample_drawsDistinct hcalls)
    (sample_noncesDistinct hcalls)⟩

theorem double_wrapped_keys_stay_local_sample :
    sampleWriting.files.length = 1 ∧ ∀ f ∈ sampleWriting.files, ∀ key ∈ f.properties.keys, ∀ client masterKeyId result,
      .wrapKey client key.key masterKeyId result ∉ sampleWriting.world.log := by
  have hdouble : ∀ f ∈ sampleWriting.files, f.encryptionConfiguration.doubleWrapping = true := by
    have hall : (sampleWriting.files.all fun f => f.encryptionConfiguration.doubleWrapping) = true := by decide +kernel
    exact List.all_eq_true.mp hall
  refine ⟨by decide +kernel, fun f hf key hkey client masterKeyId result => ?_⟩
  exact double_wrapped_keys_stay_local sampleWriting_reach (sample_drawsDistinct (by decide +kernel))
    hf (hdouble f hf) hkey client masterKeyId result

end ParquetKeyManagement
