/-
  ParquetKeyManagement.Factory.SharedConfig — readers that share a caller's connection
  configuration.

  A caller hands `Arc`s of one configuration to any number of readers, and may refresh its
  token at any time. `footerUpdate` is the update of a reader on `Arc`s: it makes the reader's
  reference its own before it writes (`Arc::make_mut`), and the copy refers to the same token
  cell. `Shared` is the library's state with the references to the configuration beside it.
  - `footerUpdate_refines`: on `Arc`s a reader's update does what it does on the reader's own
    value, and no other holder of a reference sees it.
  - `shared_config`: in any interleaving the caller's configuration is never altered, what the
    caller gave is never replaced, and every reader uses the token of the last refresh.
-/

import ParquetKeyManagement.Support.Arc
import ParquetKeyManagement.Keys.InstanceConfig
import ParquetKeyManagement.Factory.TokenIsolation

namespace ParquetKeyManagement

open Effect Arc

/-! ## Updates on references -/

/-- Who refers to a configuration: its caller, a reader by the slot of its configuration, or
    user code that was given a reference and kept a clone. -/
inductive Holder where
  | caller
  | reader (slot : ConfigSlot)
  | user (n : Nat)
  deriving DecidableEq

abbrev Configs : Type := Heap Holder KmsConnectionConfig

/-- `update_kms_config_from_footer_metadata` on the holder's reference. -/
def footerUpdate (h : Holder) (kmsInstanceId kmsInstanceUrl : String) : Eff Configs ParquetError Unit := do
  match ← Eff.read (Heap.value · h) with
  | none => pure ()
  | some c =>
    if ¬ c.kmsInstanceId.isEmpty ∧ ¬ c.kmsInstanceUrl.isEmpty then pure ()
    else do
      Eff.modify (Heap.makeMut · h)
      let withId ← Eff.ofExcept (KeyUnwrapper.withInstanceId c kmsInstanceId)
      Eff.modify (Heap.assign · h withId)
      let withUrl ← Eff.ofExcept (KeyUnwrapper.withInstanceUrl withId kmsInstanceUrl)
      Eff.modify (Heap.assign · h withUrl)

/-- From `s` to `s'` the holder's own reference was written, and nobody else saw it. -/
structure WrittenOwn (h : Holder) (c : KmsConnectionConfig) (s s' : Configs) : Prop where
  own : s'.value h = some c
  others : ∀ h', h' ≠ h → s'.value h' = s.value h'

theorem writtenOwn_assign {h : Holder} {c0 : KmsConnectionConfig} {s s' : Configs} (hs : WrittenOwn h c0 s s')
    (hu : s'.Unique h) (c : KmsConnectionConfig) : WrittenOwn h c s (s'.assign h c) :=
  ⟨Heap.value_assign c c0 hs.own, fun h' hne => (Heap.value_assign_ne hu c hne).trans (hs.others h' hne)⟩

/-- On references an update does what it does on the reader's own value. -/
theorem footerUpdate_refines (u : KeyUnwrapper) {h : Holder} {s : Configs} {w : World}
    (hv : s.value h = some (u.heldConfig w)) (kmsInstanceId kmsInstanceUrl : String) :
    (footerUpdate h kmsInstanceId kmsInstanceUrl s).1 =
        (u.updateKmsConfigFromFooterMetadata kmsInstanceId kmsInstanceUrl w).1 ∧
      WrittenOwn h (u.heldConfig (u.updateKmsConfigFromFooterMetadata kmsInstanceId kmsInstanceUrl w).2) s
        (footerUpdate h kmsInstanceId kmsInstanceUrl s).2 := by
  have hown : WrittenOwn h (u.heldConfig w) s (s.makeMut h) :=
    ⟨(Heap.value_makeMut s h h).trans hv, fun h' _ => Heap.value_makeMut s h h'⟩
  have hunique := Heap.unique_makeMut s h
  unfold footerUpdate KeyUnwrapper.updateKmsConfigFromFooterMetadata
  rw [bind_ok (read_run _ _), bind_ok (read_run _ _), hv]
  simp only
  rw [show (configPlace u.kmsConnectionConfig).get w = u.heldConfig w from rfl]
  by_cases hset : ¬ (u.heldConfig w).kmsInstanceId.isEmpty ∧ ¬ (u.heldConfig w).kmsInstanceUrl.isEmpty
  · rw [if_pos hset, if_pos hset]
    exact ⟨rfl, hv, fun _ _ => rfl⟩
  · rw [if_neg hset, if_neg hset, bind_ok (modify_run _ _)]
    cases hid : KeyUnwrapper.withInstanceId (u.heldConfig w) kmsInstanceId with
    | error e => exact ⟨rfl, hown⟩
    | ok withId =>
      have hassigned := writtenOwn_assign hown hunique withId
      rw [bind_ok (ofExcept_ok _ _), bind_ok (ofExcept_ok _ _), bind_ok (modify_run _ _), bind_ok (modify_run _ _)]
      cases hurl : KeyUnwrapper.withInstanceUrl withId kmsInstanceUrl with
      | error e =>
        refine ⟨rfl, ?_⟩
        rw [bind_err (by rfl), bind_err (by rfl), KeyUnwrapper.heldConfig_set]
        exact hassigned
      | ok withUrl =>
        refine ⟨rfl, ?_⟩
        rw [bind_ok (ofExcept_ok _ _), bind_ok (ofExcept_ok _ _), modify_run, modify_run, KeyUnwrapper.heldConfig_set]
        exact writtenOwn_assign hassigned (Heap.unique_assign hunique withId) withUrl

/-! ## A shared configuration -/

/-- The library, the references to a caller's configuration, the readers made from it, and the
    token it was given last. -/
structure Shared where
  system : System
  arcs : Configs
  readers : List KeyUnwrapper
  token : String

inductive SharedEvent where
  /-- The caller creates decryption properties from its configuration. -/
  | create (kmsManager : ManagerId) (dec : DecryptionConfiguration)
  | retrieve (unwrapper : KeyUnwrapper) (keyMetadata : Bytes)
  /-- The caller refreshes the token of its configuration. -/
  | refresh (keyAccessToken : String)
  /-- Any request that is not about the caller's configuration. -/
  | elsewhere (r : Request)
  /-- User code keeps a clone of a reference it was given, and drops it. -/
  | clone (h : Holder) (n : Nat)
  | drop (n : Nat)

variable (env : Env)

/-- What a retrieval does to the reader's reference. -/
def retrieveArcs (h : Holder) (keyMetadata : Bytes) (s : Configs) : Configs :=
  match footerInstance env keyMetadata with
  | some i => (footerUpdate h i.1 i.2 s).2
  | none => s

namespace Shared

variable (s : Shared)

/-- The state and the new reader of the request, if it made one. -/
def create (c : KmsConnectionConfig) (kmsManager : ManagerId) (dec : DecryptionConfiguration) : Shared :=
  let s' := { s with system := s.system.exec env (.decrypt kmsManager c dec) }
  match (CryptoFactory.fileDecryptionProperties env kmsManager c dec s.system.world).1 with
  | .ok u => { s' with arcs := s.arcs.share .caller (.reader u.kmsConnectionConfig), readers := s.readers ++ [u] }
  | _ => s'

def refresh (c : KmsConnectionConfig) (keyAccessToken : String) : Shared :=
  { s with system := s.system.exec env (.refresh c keyAccessToken), token := keyAccessToken }

def exec : SharedEvent → Shared
  | .create kmsManager dec => ((s.arcs.value .caller).map (s.create env · kmsManager dec)).getD s
  | .retrieve u keyMetadata =>
    { s with system := s.system.exec env (.retrieve u keyMetadata),
             arcs := retrieveArcs env (.reader u.kmsConnectionConfig) keyMetadata s.arcs }
  | .refresh keyAccessToken => ((s.arcs.value .caller).map (s.refresh env · keyAccessToken)).getD s
  | .elsewhere r => { s with system := s.system.exec env r }
  | .clone h n => { s with arcs := s.arcs.share h (.user n) }
  | .drop n => { s with arcs := s.arcs.drop (.user n) }

/-- The request neither retrieves with one of the readers nor writes the caller's token cell. -/
def Elsewhere : Request → Prop
  | .retrieve u _ => ∀ v ∈ s.readers, v.kmsConnectionConfig ≠ u.kmsConnectionConfig
  | .refresh config _ => ∀ c, s.arcs.value .caller = some c → config.keyAccessToken ≠ c.keyAccessToken
  | _ => True

def Enabled : SharedEvent → Prop
  | .retrieve u _ => u ∈ s.readers
  | .elsewhere r => s.Elsewhere r
  | _ => True

/-- Runs from any state of the library in which a caller has built the configuration `c0`. -/
inductive Reach (c0 : KmsConnectionConfig) : Shared → Prop
  | start {system : System} : System.Reach env (fun _ _ => True) system →
    Reach c0 ⟨system, Heap.single .caller c0, [], system.world.tokens c0.keyAccessToken⟩
  | step {s : Shared} (e : SharedEvent) : Reach c0 s → s.Enabled e → Reach c0 (s.exec env e)

/-- One event. -/
def Step (s s' : Shared) : Prop := ∃ e, s.Enabled e ∧ s' = s.exec env e

end Shared

/-! ## What requests leave alone -/

section

variable {env} {ws w w' : World} {r : Request}

/-- A request leaves the configuration of another reader. -/
theorem RequestMove.config_kept (hm : RequestMove env ws r w w') {i : ConfigSlot} (hi : i < w.nextConfig)
    (hr : ∀ u keyMetadata, r = .retrieve u keyMetadata → i ≠ u.kmsConnectionConfig) : w'.configs i = w.configs i := by
  cases hm with
  | clock n => rfl
  | newManager _ k _ _ _ => rfl
  | refresh config keyAccessToken => rfl
  | wait elapsed => rfl
  | encrypt hm =>
    cases hm with
    | registry hm => rw [hm.kept.2.1]
    | writer k _ _ hm =>
      cases hm with
      | manager hm => rw [hm.kept.2.1]
      | wrap client keyBytes masterKeyId _ => rfl
      | storeKek masterKeyId kek _ _ => rfl
      | poison _ => rfl
  | registry hm => rw [hm.kept.2.1]
  | newConfig _ _ config _ => exact Function.update_of_ne (Nat.ne_of_lt hi) ..
  | @retrieve u keyMetadata m _ _ _ _ hm =>
    have hne := hr u keyMetadata rfl
    cases hm with
    | manager _ hm => rw [hm.kept.2.1]
    | unwrap client wrapped masterKeyId _ => rfl
    | storeKek kekId wrappedKek kek _ _ _ _ _ _ => rfl
    | fillId kmsInstanceId c _ _ => exact Function.update_of_ne hne ..
    | fillUrl kmsInstanceUrl c _ _ => exact Function.update_of_ne hne ..
    | poison => rfl

/-- A request leaves the token of a cell that it does not refresh. -/
theorem RequestMove.token_kept (hm : RequestMove env ws r w w') {cell : TokenCell}
    (hr : ∀ config keyAccessToken, r = .refresh config keyAccessToken → cell ≠ config.keyAccessToken) :
    w'.tokens cell = w.tokens cell := by
  cases hm with
  | clock n => rfl
  | newManager _ k _ _ _ => rfl
  | refresh => exact Function.update_of_ne (hr _ _ rfl) ..
  | wait elapsed => rfl
  | encrypt hm =>
    cases hm with
    | registry hm => rw [hm.kept.1]
    | writer k _ _ hm => rw [hm.tokens]
  | registry hm => rw [hm.kept.1]
  | newConfig _ _ config _ => rfl
  | retrieve _ _ hm => rw [hm.tokens]

theorem System.exec_config_kept {s : System} {i : ConfigSlot} (hi : i < s.world.nextConfig)
    (hr : ∀ u keyMetadata, r = .retrieve u keyMetadata → i ≠ u.kmsConnectionConfig) :
    (s.exec env r).world.configs i = s.world.configs i := by
  have hkeep := System.exec_keeps env (s := s) (r := r)
    (I := fun v => v.configs i = s.world.configs i ∧ i < v.nextConfig)
    (fun a b ha hm => ⟨(hm.config_kept ha.2 hr).trans ha.1, lt_of_lt_of_le ha.2 hm.grows.nextConfig⟩) ⟨rfl, hi⟩
  exact hkeep.1

theorem System.exec_token_kept {s : System} {cell : TokenCell}
    (hr : ∀ config keyAccessToken, r = .refresh config keyAccessToken → cell ≠ config.keyAccessToken) :
    (s.exec env r).world.tokens cell = s.world.tokens cell :=
  System.exec_keeps env (s := s) (r := r) (I := fun v => v.tokens cell = s.world.tokens cell)
    (fun _ _ ha hm => (hm.token_kept hr).trans ha) rfl

/-- A new reader holds the configuration in the next slot. -/
theorem newReader_config {m : ManagerId} {config : KmsConnectionConfig} {dec : DecryptionConfiguration}
    {u : KeyUnwrapper} (h : CryptoFactory.fileDecryptionProperties env m config dec w = (.ok u, w')) :
    u.kmsConnectionConfig = w.nextConfig ∧ u.heldConfig w' = config ∧ w'.nextConfig = w.nextConfig + 1 := by
  unfold CryptoFactory.fileDecryptionProperties KeyUnwrapper.new at h
  obtain ⟨a, w1, hcache, hrest⟩ := bind_eq_ok h
  have hnext : w1.nextConfig = w.nextConfig :=
    path_keeps (I := fun v => v.nextConfig = w.nextConfig) (fun _ _ ha hm => hm.kept.2.2.trans ha)
      ((KmsManager.getKekReadCache_along env m config dec.cacheLifetime w).run_path hcache) rfl
  cases hrest
  refine ⟨hnext, Function.update_self .., ?_⟩
  show w1.nextConfig + 1 = _
  rw [hnext]

end

/-! ## The invariant -/

/-- What relates the caller's configuration, the readers' and the token cell. -/
structure SharedInv (c0 : KmsConnectionConfig) (s : Shared) : Prop where
  registry : RegistryInv s.system.world
  caller : s.arcs.value .caller = some c0
  token : s.system.world.tokens c0.keyAccessToken = s.token
  held : ∀ u ∈ s.readers, s.arcs.value (.reader u.kmsConnectionConfig) = some (u.heldConfig s.system.world)
  extends_caller : ∀ u ∈ s.readers, Extends c0 (u.heldConfig s.system.world)
  slot : ∀ u ∈ s.readers, u.kmsConnectionConfig < s.system.world.nextConfig
  distinct : ∀ u ∈ s.readers, ∀ v ∈ s.readers, u.kmsConnectionConfig = v.kmsConnectionConfig → u = v

section

variable {env} {c0 : KmsConnectionConfig} {s : Shared}

/-- Nobody's configuration was written. -/
theorem SharedInv.frame (h : SharedInv c0 s) {system : System} {arcs : Configs} {token : String}
    (hregistry : RegistryInv system.world) (hcaller : arcs.value .caller = s.arcs.value .caller)
    (htoken : system.world.tokens c0.keyAccessToken = token)
    (hconfig : ∀ u ∈ s.readers, u.heldConfig system.world = u.heldConfig s.system.world)
    (harcs : ∀ slot, arcs.value (.reader slot) = s.arcs.value (.reader slot))
    (hnext : s.system.world.nextConfig ≤ system.world.nextConfig) : SharedInv c0 ⟨system, arcs, s.readers, token⟩ where
  registry := hregistry
  caller := hcaller.trans h.caller
  token := htoken
  held u hu := by
    show arcs.value (.reader u.kmsConnectionConfig) = some (u.heldConfig system.world)
    rw [harcs, hconfig u hu, h.held u hu]
  extends_caller u hu := by
    show Extends c0 (u.heldConfig system.world)
    rw [hconfig u hu]
    exact h.extends_caller u hu
  slot u hu := lt_of_lt_of_le (h.slot u hu) hnext
  distinct := h.distinct

theorem registryInv_exec {system : System} (h : RegistryInv system.world) (r : Request) :
    RegistryInv (system.exec env r).world := System.exec_keeps env (fun _ _ hi hm => hm.registryInv hi) h

/-- A request that is not about the caller's configuration. -/
theorem SharedInv.request (env : Env) (h : SharedInv c0 s) {r : Request} (hr : s.Elsewhere r) :
    SharedInv c0 { s with system := s.system.exec env r } := by
  refine h.frame (registryInv_exec h.registry r) rfl ?_ (fun u hu => ?_) (fun _ => rfl)
    (System.exec_grows env s.system r).nextConfig
  · rw [System.exec_token_kept, h.token]
    intro config keyAccessToken he
    subst he
    exact (hr c0 h.caller).symm
  · refine System.exec_config_kept (h.slot u hu) fun u' keyMetadata he => ?_
    subst he
    exact hr u hu

theorem SharedInv.create (h : SharedInv c0 s) (m : ManagerId) (dec : DecryptionConfiguration) :
    SharedInv c0 (s.create env c0 m dec) := by
  unfold Shared.create
  have hframe := SharedInv.request env h (r := .decrypt m c0 dec) trivial
  cases hcall : (CryptoFactory.fileDecryptionProperties env m c0 dec s.system.world).1 with
  | err e => exact hframe
  | panic => exact hframe
  | ok u =>
    obtain ⟨hslot, hheld, hnext⟩ := newReader_config (Prod.ext hcall rfl :
      CryptoFactory.fileDecryptionProperties env m c0 dec s.system.world = (.ok u, _))
    have hnew : ∀ v ∈ s.readers, v.kmsConnectionConfig ≠ u.kmsConnectionConfig := by
      intro v hv he
      have hlt := h.slot v hv
      rw [he, hslot] at hlt
      exact lt_irrefl _ hlt
    have hvalue : ∀ v ∈ s.readers, (s.arcs.share .caller (.reader u.kmsConnectionConfig)).value
        (.reader v.kmsConnectionConfig) = s.arcs.value (.reader v.kmsConnectionConfig) := fun v hv =>
      Heap.value_share_ne fun he => hnew v hv (Holder.reader.inj he)
    have hmem : ∀ v ∈ s.readers ++ [u], v ∈ s.readers ∨ v = u := fun v hv =>
      (List.mem_append.mp hv).imp id List.mem_singleton.mp
    show SharedInv c0 ⟨s.system.exec env (.decrypt m c0 dec), s.arcs.share .caller (.reader u.kmsConnectionConfig),
      s.readers ++ [u], s.token⟩
    refine ⟨hframe.registry, ?_, hframe.token, fun v hv => ?_, fun v hv => ?_, fun v hv => ?_, fun v hv v' hv' he => ?_⟩
    · exact (Heap.value_share_ne (by intro he; cases he)).trans h.caller
    · rcases hmem v hv with hold | heq
      · exact (hvalue v hold).trans (hframe.held v hold)
      · rw [heq]
        exact (Heap.value_share h.caller).trans (congrArg some hheld.symm)
    · rcases hmem v hv with hold | heq
      · exact hframe.extends_caller v hold
      · show Extends c0 (v.heldConfig (CryptoFactory.fileDecryptionProperties env m c0 dec s.system.world).2)
        rw [heq, hheld]
        exact .refl c0
    · rcases hmem v hv with hold | heq
      · exact hframe.slot v hold
      · show v.kmsConnectionConfig < (CryptoFactory.fileDecryptionProperties env m c0 dec s.system.world).2.nextConfig
        rw [heq, hslot, hnext]
        exact Nat.lt_succ_self _
    · rcases hmem v hv with hold | heq
      · rcases hmem v' hv' with hold' | heq'
        · exact h.distinct v hold v' hold' he
        · rw [heq'] at he
          exact absurd he (hnew v hold)
      · rcases hmem v' hv' with hold' | heq'
        · rw [heq] at he
          exact absurd he.symm (hnew v' hold')
        · rw [heq, heq']

/-- On references a retrieval does what it does on the reader's own value. -/
theorem retrieveArcs_writtenOwn (env : Env) (u : KeyUnwrapper) {holder : Holder} {arcs : Configs} {w : World}
    (hv : arcs.value holder = some (u.heldConfig w)) (keyMetadata : Bytes) :
    WrittenOwn holder ((u.heldConfig w).after env keyMetadata) arcs (retrieveArcs env holder keyMetadata arcs) := by
  unfold retrieveArcs KmsConnectionConfig.after
  cases footerInstance env keyMetadata with
  | none => exact ⟨hv, fun _ _ => rfl⟩
  | some i =>
    obtain ⟨_, hwritten⟩ := footerUpdate_refines u hv i.1 i.2
    obtain ⟨r, c, hrun, hcase⟩ := u.update_cases i.1 i.2 w
    rw [hrun, KeyUnwrapper.heldConfig_set, hcase.eq_afterFooter] at hwritten
    exact hwritten

theorem SharedInv.retrieve (h : SharedInv c0 s) {u : KeyUnwrapper} (hu : u ∈ s.readers) (keyMetadata : Bytes) :
    SharedInv c0 (s.exec env (.retrieve u keyMetadata)) := by
  have hwritten := retrieveArcs_writtenOwn env u (h.held u hu) keyMetadata
  have hown : u.heldConfig (s.system.exec env (.retrieve u keyMetadata)).world =
      (u.heldConfig s.system.world).after env keyMetadata := u.heldConfig_retrieveKey env keyMetadata s.system.world
  have hother : ∀ v ∈ s.readers, v ≠ u → v.kmsConnectionConfig ≠ u.kmsConnectionConfig :=
    fun v hv hne he => hne (h.distinct v hv u hu he)
  have hkept : ∀ v ∈ s.readers, v ≠ u →
      v.heldConfig (s.system.exec env (.retrieve u keyMetadata)).world = v.heldConfig s.system.world := by
    intro v hv hne
    refine System.exec_config_kept (h.slot v hv) fun u' keyMetadata' he => ?_
    cases he
    exact hother v hv hne
  refine ⟨registryInv_exec h.registry _, ?_, ?_, fun v hv => ?_, fun v hv => ?_, fun v hv => ?_, h.distinct⟩
  · exact (hwritten.others .caller (by intro he; cases he)).trans h.caller
  · exact (System.exec_token_kept fun _ _ he => by cases he).trans h.token
  · show (retrieveArcs env _ keyMetadata s.arcs).value _ =
      some (v.heldConfig (s.system.exec env (.retrieve u keyMetadata)).world)
    by_cases hne : v = u
    · subst hne
      rw [hown, hwritten.own]
    · rw [hkept v hv hne, hwritten.others _ fun he => hother v hv hne (Holder.reader.inj he), h.held v hv]
  · show Extends c0 (v.heldConfig (s.system.exec env (.retrieve u keyMetadata)).world)
    by_cases hne : v = u
    · subst hne
      rw [hown]
      exact (h.extends_caller v hv).trans (extends_after _ keyMetadata)
    · rw [hkept v hv hne]
      exact h.extends_caller v hv
  · exact lt_of_lt_of_le (h.slot v hv) (System.exec_grows env s.system _).nextConfig

theorem SharedInv.refresh (h : SharedInv c0 s) (keyAccessToken : String) :
    SharedInv c0 (s.refresh env c0 keyAccessToken) := by
  refine h.frame (registryInv_exec h.registry _) rfl ?_ (fun u hu => ?_) (fun _ => rfl)
    (System.exec_grows env s.system _).nextConfig
  · exact Function.update_self ..
  · exact System.exec_config_kept (h.slot u hu) fun _ _ he => by cases he

/-- The step: every event keeps the invariant. -/
theorem SharedInv.exec (h : SharedInv c0 s) {e : SharedEvent} (he : s.Enabled e) : SharedInv c0 (s.exec env e) := by
  cases e with
  | create m dec =>
    show SharedInv c0 (((s.arcs.value .caller).map (s.create env · m dec)).getD s)
    rw [h.caller]
    exact h.create m dec
  | retrieve u keyMetadata => exact h.retrieve he keyMetadata
  | refresh keyAccessToken =>
    show SharedInv c0 (((s.arcs.value .caller).map (s.refresh env · keyAccessToken)).getD s)
    rw [h.caller]
    exact h.refresh keyAccessToken
  | elsewhere r => exact SharedInv.request env h he
  | clone holder n =>
    exact h.frame h.registry (Heap.value_share_ne (by intro he; cases he)) h.token (fun _ _ => rfl)
      (fun slot => Heap.value_share_ne (by intro he; cases he)) (le_refl _)
  | drop n =>
    exact h.frame h.registry (Heap.value_drop_ne (by intro he; cases he)) h.token (fun _ _ => rfl)
      (fun slot => Heap.value_drop_ne (by intro he; cases he)) (le_refl _)

theorem Shared.Reach.inv (h : Shared.Reach env c0 s) : SharedInv c0 s := by
  induction h with
  | start hreach =>
    exact ⟨registryInv hreach, Heap.value_single Holder.caller c0, rfl, fun u hu => absurd hu List.not_mem_nil,
      fun u hu => absurd hu List.not_mem_nil, fun u hu => absurd hu List.not_mem_nil,
      fun u hu => absurd hu List.not_mem_nil⟩
  | step e _ he ih => exact ih.exec he

/-! ## What holds in every run -/

/-- An event leaves the configurations of all readers but the one that retrieves. -/
theorem SharedInv.others_kept (h : SharedInv c0 s) {e : SharedEvent} (he : s.Enabled e) {v : KeyUnwrapper}
    (hv : v ∈ s.readers) (hne : ∀ keyMetadata, e ≠ .retrieve v keyMetadata) :
    v.heldConfig (s.exec env e).system.world = v.heldConfig s.system.world := by
  cases e with
  | create m dec =>
    show v.heldConfig (((s.arcs.value .caller).map (s.create env · m dec)).getD s).system.world = _
    rw [h.caller]
    have hkept : v.heldConfig (s.system.exec env (.decrypt m c0 dec)).world = v.heldConfig s.system.world :=
      System.exec_config_kept (h.slot v hv) fun _ _ he => by cases he
    show v.heldConfig (s.create env c0 m dec).system.world = _
    unfold Shared.create
    cases (CryptoFactory.fileDecryptionProperties env m c0 dec s.system.world).1 <;> exact hkept
  | retrieve u keyMetadata =>
    refine System.exec_config_kept (h.slot v hv) fun u' keyMetadata' hreq heq => ?_
    cases hreq
    exact hne keyMetadata (by rw [h.distinct v hv u he heq])
  | refresh keyAccessToken =>
    show v.heldConfig (((s.arcs.value .caller).map (s.refresh env · keyAccessToken)).getD s).system.world = _
    rw [h.caller]
    exact System.exec_config_kept (h.slot v hv) fun _ _ he => by cases he
  | elsewhere r =>
    refine System.exec_config_kept (h.slot v hv) fun u keyMetadata hreq => ?_
    subst hreq
    exact he v hv
  | clone holder n => rfl
  | drop n => rfl

/-- No event takes a reader away. -/
theorem SharedInv.readers_kept (h : SharedInv c0 s) (e : SharedEvent) {v : KeyUnwrapper} (hv : v ∈ s.readers) :
    v ∈ (s.exec env e).readers := by
  cases e with
  | create m dec =>
    show v ∈ (((s.arcs.value .caller).map (s.create env · m dec)).getD s).readers
    rw [h.caller]
    show v ∈ (s.create env c0 m dec).readers
    unfold Shared.create
    cases (CryptoFactory.fileDecryptionProperties env m c0 dec s.system.world).1 with
    | ok u => exact List.mem_append_left _ hv
    | err e => exact hv
    | panic => exact hv
  | refresh keyAccessToken =>
    show v ∈ (((s.arcs.value .caller).map (s.refresh env · keyAccessToken)).getD s).readers
    rw [h.caller]
    exact hv
  | retrieve u keyMetadata => exact hv
  | elsewhere r => exact hv
  | clone holder n => exact hv
  | drop n => exact hv

/-- A complete configuration is not changed by its own reader either. -/
theorem SharedInv.complete_kept (h : SharedInv c0 s) {e : SharedEvent} (he : s.Enabled e) {v : KeyUnwrapper}
    (hv : v ∈ s.readers) (hcomplete : (v.heldConfig s.system.world).Complete) :
    v.heldConfig (s.exec env e).system.world = v.heldConfig s.system.world := by
  by_cases hown : ∃ keyMetadata, e = .retrieve v keyMetadata
  · obtain ⟨keyMetadata, rfl⟩ := hown
    exact (v.heldConfig_retrieveKey env keyMetadata s.system.world).trans (hcomplete.after_eq keyMetadata)
  · exact h.others_kept he hv fun keyMetadata heq => hown ⟨keyMetadata, heq⟩

theorem SharedInv.complete_kept_run (h : SharedInv c0 s) {s' : Shared}
    (hrun : Relation.ReflTransGen (Shared.Step env) s s')
    {v : KeyUnwrapper} (hv : v ∈ s.readers) (hcomplete : (v.heldConfig s.system.world).Complete) :
    v.heldConfig s'.system.world = v.heldConfig s.system.world := by
  have hkeep : SharedInv c0 s' ∧ v ∈ s'.readers ∧ v.heldConfig s'.system.world = v.heldConfig s.system.world := by
    refine path_keeps (I := fun t => SharedInv c0 t ∧ v ∈ t.readers ∧
      v.heldConfig t.system.world = v.heldConfig s.system.world) (fun a b ha hstep => ?_) hrun ⟨h, hv, rfl⟩
    obtain ⟨e, he, rfl⟩ := hstep
    obtain ⟨hinv, hmem, hsame⟩ := ha
    refine ⟨hinv.exec he, hinv.readers_kept e hmem, ?_⟩
    rw [hinv.complete_kept he hmem (hsame ▸ hcomplete), hsame]
  exact hkeep.2.2

/-- What a footer's update leaves extends what was held. -/
theorem updateKmsConfig_extends (u : KeyUnwrapper) (m : KeyMaterial) (w : World) :
    Extends (u.heldConfig w) (u.heldConfig (u.updateKmsConfig m w).2) := by
  rcases u.updateKmsConfig_cases m w with h | ⟨_, _, r, c, _, _, h, hcase⟩
  · rw [h]; exact .refl _
  · rw [h, KeyUnwrapper.heldConfig_set, hcase.eq_afterFooter]
    exact extends_afterFooter ..

/-- The client that a retrieval gets has the token of the last refresh. -/
theorem SharedInv.client_token (h : SharedInv c0 s) {u : KeyUnwrapper} (hu : u ∈ s.readers) (m : KeyMaterial)
    {lifetime : Option Duration} {client : KmsClient} {w' : World}
    (hget : KmsManager.getClient env u.kmsManager (u.heldConfig (u.updateKmsConfig m s.system.world).2) lifetime
      (u.updateKmsConfig m s.system.world).2 = (.ok client, w')) : client.config.keyAccessToken = s.token := by
  have hcell : (u.heldConfig (u.updateKmsConfig m s.system.world).2).keyAccessToken = c0.keyAccessToken :=
    (updateKmsConfig_extends u m s.system.world).keyAccessToken.trans (h.extends_caller u hu).keyAccessToken
  obtain ⟨c, hset⟩ := u.updateKmsConfig_set_config m s.system.world
  have hregistry : RegistryInv (u.updateKmsConfig m s.system.world).2 := by
    rw [hset]
    exact h.registry.of_managers rfl { World.Grows.refl s.system.world with }
  have halong := KmsManager.getClient_along env u.kmsManager (u.heldConfig (u.updateKmsConfig m s.system.world).2)
    lifetime (Nat.zero_le (u.updateKmsConfig m s.system.world).2.log.length)
  have hregistry' : RegistryInv w' :=
    path_keeps (I := RegistryInv) (fun _ _ hi hm => hm.registryInv hi) (halong.run_path hget) hregistry
  obtain ⟨v, hl, rfl, _⟩ := halong.run_ok hget
  obtain ⟨htoken, _, _⟩ := hregistry'.clients _ _ v hl
  rw [htoken]
  show w'.tokens _ = _
  rw [KmsManager.tokens_kept _ _ _ (halong.run_path hget), hcell, ← h.token, hset]
  rfl

end

/-- In any interleaving of retrievals by readers that share a configuration with refreshes of its
    token: the caller's configuration stays what it was; a reader's has the caller's values where
    there are any, its custom options and its token cell; no reader's is changed by anybody else,
    nor by itself once it is complete; and every client a reader gets has the token of the last
    refresh. -/
theorem shared_config {c0 : KmsConnectionConfig} {s : Shared} (h : Shared.Reach env c0 s) :
    s.arcs.value .caller = some c0 ∧
    (∀ u ∈ s.readers, s.arcs.value (.reader u.kmsConnectionConfig) = some (u.heldConfig s.system.world) ∧
      Extends c0 (u.heldConfig s.system.world)) ∧
    (∀ e, s.Enabled e → ∀ v ∈ s.readers, (∀ keyMetadata, e ≠ .retrieve v keyMetadata) →
      (s.exec env e).arcs.value (.reader v.kmsConnectionConfig) = s.arcs.value (.reader v.kmsConnectionConfig)) ∧
    (∀ s', Relation.ReflTransGen (Shared.Step env) s s' → ∀ u ∈ s.readers, (u.heldConfig s.system.world).Complete →
      u.heldConfig s'.system.world = u.heldConfig s.system.world) ∧
    ∀ u ∈ s.readers, ∀ (m : KeyMaterial) (lifetime : Option Duration) (client : KmsClient) (w' : World),
      KmsManager.getClient env u.kmsManager (u.heldConfig (u.updateKmsConfig m s.system.world).2) lifetime
        (u.updateKmsConfig m s.system.world).2 = (.ok client, w') → client.config.keyAccessToken = s.token := by
  have hinv := h.inv
  refine ⟨hinv.caller, fun u hu => ⟨hinv.held u hu, hinv.extends_caller u hu⟩, fun e he v hv hne => ?_,
    fun s' hrun u hu hcomplete => hinv.complete_kept_run hrun hu hcomplete,
    fun u hu m lifetime client w' hget => hinv.client_token hu m hget⟩
  rw [(hinv.exec he).held v (hinv.readers_kept e hv), hinv.others_kept he hv hne, hinv.held v hv]

/-- A factory, and a caller without an instance that makes two readers and then refreshes its token. -/
def sampleShared : Shared :=
  let s : Shared := ⟨(System.init (fun _ => "DEFAULT") 0).exec Env.sample .newFactory, Heap.single .caller unconfigured,
    [], "DEFAULT"⟩
  ((s.exec Env.sample (.create 0 ⟨none⟩)).exec Env.sample (.create 0 ⟨none⟩)).exec Env.sample (.refresh "NEW")

theorem sampleShared_reach : Shared.Reach Env.sample unconfigured sampleShared := by
  have hstart : Shared.Reach Env.sample unconfigured _ :=
    .start ((System.Reach.init (fun _ => "DEFAULT") 0).step .newFactory trivial trivial)
  exact ((hstart.step (.create 0 ⟨none⟩) trivial).step (.create 0 ⟨none⟩) trivial).step (.refresh "NEW") trivial

/-- The second reader of the caller's configuration. -/
def secondReader : KeyUnwrapper := ⟨0, 1, ⟨none⟩, 0⟩

/-- One of two readers reads a footer: the instance is filled in for it, and neither for the other nor for the caller;
    and the clients of both have the new token. -/
theorem shared_config_sample :
    sampleShared.readers = [unconfiguredReader, secondReader] ∧ ∃ keyMetadata,
      let s := sampleShared.exec Env.sample (.retrieve unconfiguredReader keyMetadata)
      s.arcs.value .caller = some unconfigured ∧
      s.arcs.value (.reader 0) = some (unconfigured.filled "id" "url") ∧
      s.arcs.value (.reader 1) = some unconfigured ∧
      ∀ u ∈ s.readers, ∀ lifetime client w',
        KmsManager.getClient Env.sample u.kmsManager (u.heldConfig s.system.world) lifetime s.system.world =
          (.ok client, w') → client.config.keyAccessToken = "NEW" := by
  have hreaders : sampleShared.readers = [unconfiguredReader, secondReader] := by decide +kernel
  obtain ⟨keyMetadata, hread, _⟩ := exists_footer "id" "url"
  have hfooter : footerInstance Env.sample keyMetadata = some ("id", "url") :=
    footerInstance_of_read Env.sample hread rfl
  have henabled : sampleShared.Enabled (.retrieve unconfiguredReader keyMetadata) := by
    show _ ∈ sampleShared.readers
    rw [hreaders]
    exact List.mem_cons_self ..
  have hfirst : unconfiguredReader ∈
      (sampleShared.exec Env.sample (.retrieve unconfiguredReader keyMetadata)).readers := henabled
  obtain ⟨_, _, hothers, _⟩ := shared_config Env.sample sampleShared_reach
  obtain ⟨hcaller, hheld, _, _, htoken⟩ := shared_config Env.sample (sampleShared_reach.step _ henabled)
  refine ⟨hreaders, keyMetadata, hcaller, ?_, ?_, fun u hu lifetime client w' hget => ?_⟩
  · refine (hheld _ hfirst).1.trans (congrArg some ?_)
    refine (unconfiguredReader.heldConfig_retrieveKey Env.sample keyMetadata sampleShared.system.world).trans ?_
    have hempty : unconfiguredReader.heldConfig sampleShared.system.world = unconfigured := rfl
    rw [KmsConnectionConfig.after, hfooter, hempty]
    exact if_neg (by simp)
  · have hsecond : secondReader ∈ sampleShared.readers := by
      rw [hreaders]
      exact List.mem_cons_of_mem _ (List.mem_cons_self ..)
    refine (hothers (.retrieve unconfiguredReader keyMetadata) henabled secondReader hsecond fun md he => ?_).trans rfl
    cases he
  · -- material without an instance leaves the configuration as it is
    exact htoken u hu (sampleMaterial "") lifetime client w' hget

end ParquetKeyManagement
