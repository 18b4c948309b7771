/-
  ParquetKeyManagement.Factory.KekRotation — how long a KEK is used for writing.

  A write cache that was registered expires a lifetime later, and a new one starts empty. So if
  no encryption asks for a longer lifetime than `L`, what is registered now has expired after `L`
  (`ExpiresWithin`), and what is not registered now holds only KEKs that are drawn from now on.
  - `keks_rotate`: two files that are written at least `L` apart share no KEK.
-/

import ParquetKeyManagement.Factory.FreshKeys

namespace ParquetKeyManagement

open Effect

/-- A lifetime of at most `l`. -/
def AtMost (l : Duration) (lifetime : Option Duration) : Prop := ∃ d, lifetime = some d ∧ d.nanos ≤ l.nanos

/-- No encryption asks for a longer lifetime. -/
def Request.Rotates (l : Duration) : Request → Prop
  | .encrypt _ _ enc => AtMost l enc.cacheLifetime
  | _ => True

/-- Every write cache that is registered has expired after `l`. -/
def ExpiresWithin (l : Duration) (w : World) : Prop :=
  ∀ m key v, (w.writeRegistry m).lookup key = some v → ∃ e, v.expirationTime = some e ∧ e ≤ w.clock + l.nanos

section

variable {env : Env} {l : Duration} {s s' : System} {w w' : World} {P : Nat → Prop}

theorem ExpiresWithin.later (h : ExpiresWithin l w) (hd : DrawsFrom env P (AtMost l) w w') : ExpiresWithin l w' := by
  intro m key v hl
  rcases hd.registered m key v hl with h1 | ⟨_, t, lifetime, _, ht, ⟨d, rfl, hle⟩, he⟩
  · obtain ⟨e, he, hle⟩ := h m key v h1
    exact ⟨e, he, hle.trans (Nat.add_le_add_right hd.clock _)⟩
  · exact ⟨t + d.nanos, he, Nat.add_le_add ht hle⟩

theorem System.Reach.draws (h : System.Reach env (fun _ r => r.Rotates l) s) {r : Request} (hr : r.Rotates l) :
    DrawsFrom env (s.world.calls ≤ ·) (AtMost l) s.world (s.exec env r).world := by
  by_cases hwrites : ∃ m config enc, r = .encrypt m config enc
  · obtain ⟨m, config, enc, rfl⟩ := hwrites
    obtain ⟨ds, hfresh, _⟩ := freshInv h
    exact .of_path (CryptoFactory.fileEncryptionProperties_fresh (Q := AnyUse) m config enc hfresh hr
      (fun _ _ => trivial) fun a _ hd _ => (hfresh.keks a).later hd fun _ _ => trivial).path
  · exact exec_draws s fun m config enc he => hwrites ⟨m, config, enc, he⟩

theorem System.Reach.expiresWithin (h : System.Reach env (fun _ r => r.Rotates l) s) : ExpiresWithin l s.world := by
  induction h with
  | init tokens clock => intro m key v hl; cases hl
  | step r hreach _ hr ih => exact ih.later (hreach.draws hr)

/-- From one system to a later one. -/
def System.Goes (env : Env) (R : System → Request → Prop) : System → System → Prop :=
  Relation.ReflTransGen fun s s' => ∃ r, s.Enabled r ∧ R s r ∧ s' = s.exec env r

/-- What happens meanwhile. -/
theorem System.Goes.draws (hlater : System.Goes env (fun _ r => r.Rotates l) s s')
    (h : System.Reach env (fun _ r => r.Rotates l) s) :
    System.Reach env (fun _ r => r.Rotates l) s' ∧
      DrawsFrom env (s.world.calls ≤ ·) (AtMost l) s.world s'.world := by
  induction hlater with
  | refl => exact ⟨h, .refl _⟩
  | tail _ hstep ih =>
    obtain ⟨hreach, hd⟩ := ih
    obtain ⟨r, hr, hrot, rfl⟩ := hstep
    exact ⟨.step r hreach hr hrot, hd.trans ((hreach.draws hrot).mono fun _ h => hd.calls.trans h)⟩

/-- A write cache that is still valid a lifetime later holds only what is drawn meanwhile. -/
theorem keks_from_now (hexpires : ExpiresWithin l w) (hd : DrawsFrom env (w.calls ≤ ·) (AtMost l) w w')
    (hclock : w.clock + l.nanos ≤ w'.clock) {w1 : World} {S : Option Duration → Prop}
    (hd1 : DrawsFrom env (w'.calls ≤ ·) S w' w1) {m : ManagerId} {token : String} {a : KekWriteCache}
    (ha : HeldWriteCache m token a w1) : KeksFrom env (w.calls ≤ ·) a w1 := by
  obtain ⟨v, hl, rfl, hvalid | hfresh⟩ := ha
  · rcases hd1.registered m _ v hl with h1 | ⟨hkeks, _⟩
    · rcases hd.registered m _ v h1 with h2 | ⟨hkeks, _⟩
      · obtain ⟨e, he, hle⟩ := hexpires m _ v h2
        exact absurd ⟨e, he, (hle.trans hclock).trans hd1.clock⟩ hvalid
      · exact hkeks.later hd1 fun _ h => hd.calls.trans h
    · exact fun masterKeyId kek hk => (hkeks masterKeyId kek hk).mono (fun _ h => hd.calls.trans h) (le_refl _)
  · intro masterKeyId kek hk
    rw [hfresh.2] at hk
    cases hk

/-- Files that are written at least a lifetime apart share no KEK. -/
theorem keks_rotate (h : System.Reach env (fun _ r => r.Rotates l) s)
    (hlater : System.Goes env (fun _ r => r.Rotates l) s s') (hclock : s.world.clock + l.nanos ≤ s'.world.clock)
    {r : Request} (hdistinct : env.DrawsDistinct (s'.exec env r).world.calls) {f f' : Written} (hf : f ∈ s.files)
    (hf' : f' ∈ System.written env s'.world r) {key key' : EncryptionKey} (hkey : key ∈ f.properties.keys)
    (hkey' : key' ∈ f'.properties.keys) {m m' : KeyMaterial}
    (hread : KeyUnwrapper.readMaterial env key.metadata = .ok m)
    (hread' : KeyUnwrapper.readMaterial env key'.metadata = .ok m') {kekId : String}
    (hkek : m.keyEncryptionKeyId = some kekId) : m'.keyEncryptionKeyId ≠ some kekId := by
  intro hkek'
  obtain ⟨hreach, hd⟩ := hlater.draws h
  -- the KEK of the earlier file was drawn before
  obtain ⟨ds, hfresh, hds⟩ := freshInv h
  have hissued : key ∈ ds.map DrawnKey.key := by
    rw [hds]
    exact List.mem_flatMap.mpr ⟨f, hf, hkey⟩
  obtain ⟨d, hmem, rfl⟩ := List.mem_map.mp hissued
  obtain ⟨m1, hread1, hwraps⟩ := (hfresh.sound d hmem).material
  rw [hread] at hread1
  cases hread1
  -- that of the later file is drawn after
  obtain ⟨ds', hfresh', _⟩ := freshInv hreach
  obtain ⟨rfl, hcall⟩ := System.mem_written env hf'
  have halong := CryptoFactory.fileEncryptionProperties_fresh (S := fun _ => True)
    (Q := (s.world.calls ≤ ·)) f'.kmsManager
    f'.kmsConnectionConfig f'.encryptionConfiguration hfresh' trivial (fun _ hi => hd.calls.trans hi)
    fun a w1 hd1 ha => keks_from_now h.expiresWithin hd hclock hd1 ha
  obtain ⟨ds2, _, hsound2, hkeys2⟩ := halong.run_ok hcall
  rw [← hkeys2] at hkey'
  obtain ⟨d', hmem', rfl⟩ := List.mem_map.mp hkey'
  obtain ⟨m2, hread2, hwraps'⟩ := (hsound2 d' hmem').material
  rw [hread'] at hread2
  cases hread2
  obtain ⟨i, keyId, _, hi, hdrew, he⟩ := hwraps.kekId hkek
  obtain ⟨i', keyId', hfrom, hi', hdrew', he'⟩ := hwraps'.kekId hkek'
  obtain rfl := Base64.encode_inj (he.symm.trans he')
  have hlt : i + 1 < i' + 1 := by omega
  have hsame := hdistinct (i + 1) (i' + 1) keyId (hlt.trans hi') hi' hdrew hdrew'
  omega

end

/-- A file is written. -/
def sampleRotation : System :=
  ((System.init (fun _ => "DEFAULT") 0).exec Env.sample .newFactory).exec Env.sample
    (.encrypt 0 sampleConfig sampleConfiguration)

theorem sampleRotation_reach : System.Reach Env.sample (fun _ r => r.Rotates (Duration.fromSecs 600)) sampleRotation :=
  ((System.Reach.init _ 0).step .newFactory trivial trivial).step (.encrypt 0 sampleConfig sampleConfiguration)
    (by decide +kernel : 0 < _) ⟨_, rfl, le_refl _⟩

theorem sampleRotation_goes : System.Goes Env.sample (fun _ r => r.Rotates (Duration.fromSecs 600)) sampleRotation
    (sampleRotation.exec Env.sample (.wait (Duration.fromSecs 600).nanos)) :=
  .single ⟨.wait (Duration.fromSecs 600).nanos, trivial, trivial, rfl⟩

theorem keks_rotate_sample :
    let later := sampleRotation.exec Env.sample (.wait (Duration.fromSecs 600).nanos)
    ∃ f ∈ sampleRotation.files,
      ∃ f' ∈ System.written Env.sample later.world (.encrypt 0 sampleConfig sampleConfiguration),
      ∃ m kekId, KeyUnwrapper.readMaterial Env.sample f.properties.footerKey.metadata = .ok m ∧
        m.keyEncryptionKeyId = some kekId ∧
        ∀ m', KeyUnwrapper.readMaterial Env.sample f'.properties.footerKey.metadata = .ok m' →
          m'.keyEncryptionKeyId ≠ some kekId := by
  intro later
  have hfiles : sampleRotation.files.length = 1 := by decide +kernel
  have hwritten : (System.written Env.sample later.world (.encrypt 0 sampleConfig sampleConfiguration)).length = 1 := by
    decide +kernel
  have hcalls : (later.exec Env.sample (.encrypt 0 sampleConfig sampleConfiguration)).world.calls ≤
      256 := by decide +kernel
  have hdouble : (sampleRotation.files.all fun f => f.encryptionConfiguration.doubleWrapping) =
      true := by decide +kernel
  obtain ⟨f, hf⟩ := List.exists_mem_of_length_pos (hfiles ▸ Nat.one_pos : 0 < sampleRotation.files.length)
  obtain ⟨f', hf'⟩ := List.exists_mem_of_length_pos (hwritten ▸ Nat.one_pos :
    0 < (System.written Env.sample later.world (.encrypt 0 sampleConfig sampleConfiguration)).length)
  obtain ⟨_, m, hread, hfor⟩ := files_materialFor sampleRotation_reach hf (List.mem_cons_self ..)
  have hsome : m.keyEncryptionKeyId.isSome = true := by
    rw [hfor.keyEncryptionKeyId]; exact List.all_eq_true.mp hdouble f hf
  obtain ⟨kekId, hkek⟩ := Option.isSome_iff_exists.mp hsome
  refine ⟨f, hf, f', hf', m, kekId, hread, hkek, fun m' hread' => ?_⟩
  exact keks_rotate sampleRotation_reach sampleRotation_goes (by decide +kernel) (sample_drawsDistinct hcalls) hf hf'
    (List.mem_cons_self ..) (List.mem_cons_self ..) hread hread' hkek

end ParquetKeyManagement
