/-
  ParquetKeyManagement.Factory.Panics — when retrieving a key panics, and what a panic leaves.

  A call that panics under a cache's lock poisons the mutex for every later call. Two inputs
  make `retrieve_key` do so while all mutexes are fine: a lifetime whose sum with the clock
  overflows, in a call that has to store a client (`Overflows`), and a wrapped DEK that decodes
  to less than a nonce, once a KEK for it has been had (`ShortDek`).
  - `fileEncryptionProperties_quiet`, `fileEncryptionProperties_pastLimit`: creating properties
    poisons nothing unless it panics, and panics only for a lifetime that ends past the last
    instant.
  - `retrieveKey_panic_iff`: retrieving panics on exactly those two inputs.
  - `retrieveKey_panic_free`: no mutex is poisoned in a run that has neither.
  - `retrieveKey_short_dek`: an empty wrapped DEK poisons the KEK cache.
-/

import ParquetKeyManagement.Factory.System
import ParquetKeyManagement.Kms.Expiry

namespace ParquetKeyManagement

open Effect

variable (env : Env)

/-- No mutex is poisoned. -/
def Intact (w : World) : Prop := ¬ w.Poisoned

section

variable {w w' : World}

theorem intact_of_flags (hm : KeepsLocks w w') (hr : ∀ a, (w'.readCaches a).poisoned = (w.readCaches a).poisoned)
    (hw : ∀ a, (w'.writeCaches a).poisoned = (w.writeCaches a).poisoned) (h : Intact w) : Intact w' := by
  intro hcases
  rcases hcases with ⟨m, hp⟩ | ⟨a, hp⟩ | ⟨a, hp⟩
  · exact h (Or.inl ⟨m, hm m hp⟩)
  · rw [hr] at hp; exact h (Or.inr (Or.inl ⟨a, hp⟩))
  · rw [hw] at hp; exact h (Or.inr (Or.inr ⟨a, hp⟩))

theorem keepsLocks_of_eq (hm : w'.managers = w.managers) : KeepsLocks w w' := by
  intro m hp
  unfold World.ManagerPoisoned at hp ⊢
  rwa [hm] at hp

theorem intact_of_eq (hm : w'.managers = w.managers) (hr : w'.readCaches = w.readCaches)
    (hw : w'.writeCaches = w.writeCaches) (h : Intact w) : Intact w' :=
  intact_of_flags (keepsLocks_of_eq hm) (fun a => by rw [hr]) (fun a => by rw [hw]) h

theorem Intact.manager (h : Intact w) (m : ManagerId) : ¬ w.ManagerPoisoned m := fun hp => h (Or.inl ⟨m, hp⟩)

theorem Intact.readCache (h : Intact w) (a : KekReadCache) : (w.readCaches a).poisoned = false :=
  Bool.eq_false_iff.mpr fun hp => h (Or.inr (Or.inl ⟨a, hp⟩))

theorem PastLimit.grows {lifetime : Option Duration} (h : PastLimit lifetime w) (hg : w.Grows w') :
    PastLimit lifetime w' := by
  obtain ⟨d, hd, hlim⟩ := h
  exact ⟨d, hd, hlim.trans (Nat.add_le_add_right hg.clock _)⟩

/-- A move of a manager poisons a mutex only when a lifetime ends past the last instant. -/
theorem ManagerMove.intact {m : ManagerId} {config : KmsConnectionConfig} {lifetime : Option Duration}
    (hm : ManagerMove m config lifetime w w') (h : Intact w) : Intact w' ∨ PastLimit lifetime w := by
  by_cases hlim : PastLimit lifetime w
  · exact Or.inr hlim
  · left
    intro hcases
    rcases hcases with ⟨m', hp⟩ | ⟨a, ha⟩ | ⟨a, ha⟩
    · rcases hm.managerPoisoned hp with h1 | h1
      · exact h (Or.inl ⟨m', h1⟩)
      · exact hlim h1
    · rcases hm.readCaches_eq a with he | he
      · rw [he] at ha; exact h (Or.inr (Or.inl ⟨a, ha⟩))
      · rw [he] at ha; cases ha
    · rcases hm.writeCaches_eq a with he | he
      · rw [he] at ha; exact h (Or.inr (Or.inr ⟨a, ha⟩))
      · rw [he] at ha; cases ha

/-! Storing a KEK does not touch the mutex's flag. -/

theorem intact_storeReadKek (u : KeyUnwrapper) (f : HashMap String Bytes → HashMap String Bytes) (h : Intact w) :
    Intact (u.keks.modify f w) := by
  refine intact_of_flags (w := w) (keepsLocks_of_eq rfl) (fun a => ?_) (fun _ => rfl) h
  show (Function.update w.readCaches u.kekCache ⟨f (w.readCaches u.kekCache).data, _⟩ a).poisoned = _
  by_cases ha : a = u.kekCache
  · subst ha; rw [Function.update_self]; rfl
  · rw [Function.update_of_ne ha]

theorem intact_storeWriteKek (k : KeyWrapper) (f : HashMap String KeyEncryptionKey → HashMap String KeyEncryptionKey)
    (h : Intact w) : Intact (k.keks.modify f w) := by
  refine intact_of_flags (w := w) (keepsLocks_of_eq rfl) (fun _ => rfl) (fun a => ?_) h
  show (Function.update w.writeCaches k.masterKeyToKek ⟨f (w.writeCaches k.masterKeyToKek).data, _⟩ a).poisoned = _
  by_cases ha : a = k.masterKeyToKek
  · subst ha; rw [Function.update_self]; rfl
  · rw [Function.update_of_ne ha]

end

/-! ## The registry poisons nothing unless it panics -/

namespace KmsManager

variable (m : ManagerId) (config : KmsConnectionConfig) (lifetime : Option Duration)

theorem intact_of_move {w w' : World} (h : ManagerMove m config none w w') (hw : Intact w) : Intact w' := by
  rcases h.intact hw with h1 | ⟨d, hd, _⟩
  · exact h1
  · cases hd

theorem clientsIntact : ExpiringCache.Moves (clientCachePlace m) lifetime (fun _ _ _ => True)
    (fun a b => Intact a → Intact b) where
  write a b h := by
    have hl := (clientLocks m lifetime).write a b h
    obtain ⟨c, rfl⟩ := h.eq_set
    exact intact_of_flags hl (fun _ => rfl) fun _ => rfl
  tick _ _ h := intact_of_eq rfl rfl rfl h
  get_tick _ _ := rfl
  fresh_tick _ _ _ _ h := h
  fresh_set _ _ _ _ h := h

theorem readCachesIntact : ExpiringCache.Moves (readCachesPlace m) lifetime (fun _ _ _ => True)
    (fun a b => Intact a → Intact b) where
  write a b h := by
    have hl := (readLocks m lifetime).write a b h
    obtain ⟨c, rfl⟩ := h.eq_set
    exact intact_of_flags hl (fun _ => rfl) fun _ => rfl
  tick _ _ h := intact_of_eq rfl rfl rfl h
  get_tick _ _ := rfl
  fresh_tick _ _ _ _ h := h
  fresh_set _ _ _ _ h := h

theorem writeCachesIntact : ExpiringCache.Moves (writeCachesPlace m) lifetime (fun _ _ _ => True)
    (fun a b => Intact a → Intact b) where
  write a b h := by
    have hl := (writeLocks m lifetime).write a b h
    obtain ⟨c, rfl⟩ := h.eq_set
    exact intact_of_flags hl (fun _ => rfl) fun _ => rfl
  tick _ _ h := intact_of_eq rfl rfl rfl h
  get_tick _ _ := rfl
  fresh_tick _ _ _ _ h := h
  fresh_set _ _ _ _ h := h

/-- A creator's moves, as moves that keep the mutexes. -/
theorem creator_intact {ν : Type} {x : Call ν} {w : World} {p : ν → World → Prop} {q : ParquetError → World → Prop}
    (h : Along (ManagerMove m config none) x w p q fun _ => False) :
    Along (fun a b => Intact a → Intact b) x w (fun _ _ => True) (fun _ _ => True) fun _ => False :=
  (h.lift fun _ _ hm => intact_of_move m config hm).mono (fun _ _ _ => trivial) (fun _ _ _ => trivial) fun _ h => h

theorem clearExpiredEntries_quiet (cleanupInterval : Option Duration) :
    Quiet Intact (clearExpiredEntries env m cleanupInterval) :=
  .of_along fun w => (clearExpiredEntries_along env m ⟨"", "", 0, ∅⟩ none cleanupInterval w).lift
    fun _ _ hm => intact_of_move m _ hm

theorem getClient_quiet : Quiet Intact (getClient env m config lifetime) :=
  (clearExpiredEntries_quiet env m lifetime).bind fun _ => (Quiet.read _).bind fun _ => Quiet.lock <|
    .of_along fun _ => ExpiringCache.lookupOrCreate_along env (clientsIntact m lifetime) fun _ _ =>
      creator_intact m config (createClient_along env m config none (Nat.zero_le _))

theorem getKekReadCache_quiet : Quiet Intact (getKekReadCache env m config lifetime) :=
  (clearExpiredEntries_quiet env m lifetime).bind fun _ => (Quiet.read _).bind fun token => Quiet.unwrap <|
    Quiet.lock <| .of_along fun _ => ExpiringCache.lookupOrCreate_along env (readCachesIntact m lifetime) fun w' _ =>
      creator_intact m config (newReadCache_along m config none token w')

theorem getKekWriteCache_quiet : Quiet Intact (getKekWriteCache env m config lifetime) :=
  (clearExpiredEntries_quiet env m lifetime).bind fun _ => (Quiet.read _).bind fun token => Quiet.unwrap <|
    Quiet.lock <| .of_along fun _ => ExpiringCache.lookupOrCreate_along env (writeCachesIntact m lifetime) fun w' _ =>
      creator_intact m config (newWriteCache_along m config none token w')

end KmsManager

/-! ## Creating properties -/

theorem fill_quiet (len : Nat) : Quiet Intact (fill env len) :=
  .of_world fun w hw => by
    have h : (fill env len w).2 = w.tick 0 := by unfold fill; split <;> rfl
    rw [h]
    exact intact_of_eq rfl rfl rfl hw

theorem wrapKey_quiet (client : KmsClient) (keyBytes : Bytes) (masterKeyId : String) :
    Quiet Intact (wrapKey env client keyBytes masterKeyId) :=
  .of_world fun w hw => by
    have h : ∃ e, (wrapKey env client keyBytes masterKeyId w).2 = w.record e := by
      unfold wrapKey
      cases env.wrapKey w.calls client keyBytes masterKeyId with
      | ok _ => exact ⟨_, rfl⟩
      | error _ => exact ⟨_, rfl⟩
    obtain ⟨e, he⟩ := h
    rw [he]
    exact intact_of_eq rfl rfl rfl hw

theorem encryptEncryptionKey_quiet (dek kekId kekBytes : Bytes) :
    Quiet Intact (encryptEncryptionKey env dek kekId kekBytes) := by
  refine (Quiet.ofExcept _).bind fun kek => (fill_quiet env nonceLen).bind fun nonce => ?_
  cases env.aes128Gcm.sealDetached kek nonce kekId dek with
  | none => exact Quiet.fail _
  | some r => exact Quiet.pure _

namespace KeyWrapper

variable (k : KeyWrapper) (key : Bytes) (masterKeyId : String)

theorem getKek_quiet : Quiet Intact (getKek env k masterKeyId) := by
  refine (Quiet.read _).bind fun keks => ?_
  cases keks.lookup masterKeyId with
  | some kek => exact Quiet.pure kek
  | none =>
    refine Quiet.bind ?_ fun kek => (Quiet.modify fun w hw => intact_storeWriteKek k _ hw).bind fun _ => Quiet.pure kek
    exact (fill_quiet env kekLen).bind fun _ => (fill_quiet env kekLen).bind fun _ =>
      (KmsManager.getClient_quiet env _ _ _).bind fun _ => (wrapKey_quiet env _ _ _).bind fun _ => Quiet.pure _

theorem getKeyMetadata_quiet (isFooterKey : Bool) :
    Quiet Intact (getKeyMetadata env k key masterKeyId isFooterKey) := by
  refine Quiet.bind ?_ fun m => (Quiet.ofExcept _).bind fun _ => Quiet.pure _
  unfold wrap
  by_cases hd : k.encryptionConfiguration.doubleWrapping = true
  · rw [if_pos hd]
    exact Quiet.lock <| (getKek_quiet env k masterKeyId).bind fun kek =>
      (encryptEncryptionKey_quiet env _ _ _).bind fun _ => Quiet.ofExcept _
  · rw [if_neg hd]
    exact (KmsManager.getClient_quiet env _ _ _).bind fun _ => (wrapKey_quiet env _ _ _).bind fun _ => Quiet.ofExcept _

end KeyWrapper

namespace CryptoFactory

theorem generateKey_quiet (masterKeyId : String) (isFooterKey : Bool) (k : KeyWrapper) :
    Quiet Intact (generateKey env masterKeyId isFooterKey k) :=
  (fill_quiet env dekLen).bind fun _ => (KeyWrapper.getKeyMetadata_quiet env k _ _ _).bind fun _ => Quiet.pure _

theorem addColumns_quiet (k : KeyWrapper) (masterKeyId : String) (columnPaths : List String)
    (b : FileEncryptionProperties) : Quiet Intact (addColumns env k masterKeyId columnPaths b) := by
  induction columnPaths generalizing b with
  | nil => exact Quiet.pure b
  | cons c columnPaths ih => exact (generateKey_quiet env masterKeyId false k).bind fun key => ih _

theorem addColumnKeys_quiet (k : KeyWrapper) (es : List (Sigma fun _ : String => List String))
    (b : FileEncryptionProperties) : Quiet Intact (addColumnKeys env k es b) := by
  induction es generalizing b with
  | nil => exact Quiet.pure b
  | cons e es ih => exact (addColumns_quiet env k e.1 e.2 b).bind fun b' => ih b'

theorem fileEncryptionProperties_quiet (m : ManagerId) (config : KmsConnectionConfig) (enc : EncryptionConfiguration) :
    Quiet Intact (fileEncryptionProperties env m config enc) := by
  unfold fileEncryptionProperties
  by_cases h1 : ¬ enc.internalKeyMaterial = true
  · rw [if_pos h1]; exact Quiet.fail _
  rw [if_neg h1]
  by_cases h2 : enc.dataKeyLengthBits ≠ 128
  · rw [if_pos h2]; exact Quiet.fail _
  rw [if_neg h2]
  refine Quiet.bind ?_ fun k => (generateKey_quiet env _ _ k).bind fun footerKey =>
    Quiet.bind (Quiet.of_world fun _ hw => intact_of_eq rfl rfl rfl hw) fun order => addColumnKeys_quiet env k _ _
  exact (KmsManager.getKekWriteCache_quiet env m config enc.cacheLifetime).bind fun _ => Quiet.pure _

theorem fileDecryptionProperties_quiet (m : ManagerId) (config : KmsConnectionConfig) (dec : DecryptionConfiguration) :
    Quiet Intact (fileDecryptionProperties env m config dec) :=
  (KmsManager.getKekReadCache_quiet env m config dec.cacheLifetime).bind fun _ =>
    Quiet.bind (Quiet.of_world fun _ hw => intact_of_eq rfl rfl rfl hw) fun _ => Quiet.pure _

/-- From mutexes that are fine, the call panics only for a lifetime that, by then, ends past the
    last instant. -/
theorem fileEncryptionProperties_pastLimit {m : ManagerId} {config : KmsConnectionConfig}
    {enc : EncryptionConfiguration} {w : World} (hw : Intact w)
    (h : (fileEncryptionProperties env m config enc w).1 = .panic) :
    PastLimit enc.cacheLifetime (fileEncryptionProperties env m config enc w).2 := by
  have halong := fileEncryptionProperties_along env m config enc w
  have hstep : ∀ a b, Intact a ∨ PastLimit enc.cacheLifetime a → EncryptMove env m config enc w a b →
      Intact b ∨ PastLimit enc.cacheLifetime b := by
    intro a b ha hm
    rcases ha with ha | ha
    · cases hm with
      | registry hm => exact (hm.intact ha).imp id fun hl => hl.grows hm.grows
      | writer k hk _ hm =>
        cases hm with
        | manager hm =>
          rw [hk.encryptionConfiguration] at hm
          exact (hm.intact ha).imp id fun hl => hl.grows hm.grows
        | wrap client keyBytes masterKeyId _ => exact Or.inl (intact_of_eq rfl rfl rfl ha)
        | storeKek masterKeyId kek _ _ => exact Or.inl (intact_storeWriteKek k _ ha)
        | poison hp => exact absurd hp (ha.manager k.kmsManager)
    · exact Or.inr (ha.grows hm.grows)
  rcases path_keeps hstep halong.path (Or.inl hw) with hi | hl
  · exact absurd (halong.panic h) hi
  · exact hl

end CryptoFactory

/-! ## Retrieving keys -/

namespace KmsManager

theorem getClient_panic_iff {m : ManagerId} {config : KmsConnectionConfig} {lifetime : Option Duration} {w : World}
    (hw : Intact w) :
    (getClient env m config lifetime w).1 = .panic ↔
    (ManagerCall.getClient config lifetime).StoresPastLimit env m w := by
  have h := (managerCall_step env m (.getClient config lifetime) (hw.manager m)).1
  unfold ManagerCall.run at h
  rwa [discard_panic_iff] at h

end KmsManager

namespace KeyUnwrapper

variable (u : KeyUnwrapper)

/-- Everything before the DEK is unwrapped goes well: the metadata reads as `m`, and filling in
    the connection configuration leaves `w1`. -/
structure Prepared (keyMetadata : Bytes) (w : World) (m : KeyMaterial) (w1 : World) : Prop where
  read : readMaterial env keyMetadata = .ok m
  internalStorage : m.internalStorage = true
  updated : updateKmsConfig u m w = (.ok (), w1)

/-- The KMS is needed for `m`: it wrapped the DEK, or the KEK is not cached. -/
def NeedsKms (m : KeyMaterial) (w : World) : Prop :=
  m.doubleWrapping = false ∨ ∃ kekId wrappedKek, m.doubleWrapping = true ∧ m.keyEncryptionKeyId = some kekId ∧
    m.wrappedKek = some wrappedKek ∧ (u.keks.get w).lookup kekId = none

/-- A client has to be stored for the reader's configuration, and would expire past the last
    instant. -/
def StoresPastLimit (w : World) : Prop :=
  (ManagerCall.getClient (w.configs u.kmsConnectionConfig) u.decryptionConfiguration.cacheLifetime).StoresPastLimit env
    u.kmsManager w

/-- A KEK of the right length is had for `m`, and its wrapped DEK is shorter than a nonce. -/
def MeetsShortDek (m : KeyMaterial) (w : World) : Prop :=
  m.doubleWrapping = true ∧ ∃ kekId wrappedKek, m.keyEncryptionKeyId = some kekId ∧ m.wrappedKek = some wrappedKek ∧
    (∃ decoded, Base64.decode kekId = some decoded) ∧
    (∃ blob, Base64.decode m.wrappedDek = some blob ∧ blob.length < nonceLen) ∧
    ∃ kek w', getKek env u m.masterKeyId kekId wrappedKek w = (.ok kek, w') ∧ kek.length = 16

def Overflows (keyMetadata : Bytes) (w : World) : Prop :=
  ∃ m w1, Prepared env u keyMetadata w m w1 ∧ NeedsKms u m w1 ∧ StoresPastLimit env u w1

def ShortDek (keyMetadata : Bytes) (w : World) : Prop :=
  ∃ m w1, Prepared env u keyMetadata w m w1 ∧ MeetsShortDek env u m w1

variable {env} in
/-- A reader without a lifetime stores clients that never expire. -/
theorem not_overflows {keyMetadata : Bytes} {w : World} (h : u.decryptionConfiguration.cacheLifetime = none) :
    ¬ Overflows env u keyMetadata w := by
  intro ho
  obtain ⟨m, w1, _, _, _, _, _, _, _, d, hd, _⟩ := ho
  rw [h] at hd
  cases hd

theorem updateKmsConfig_quiet (m : KeyMaterial) : Quiet Intact (updateKmsConfig u m) := by
  have hset : ∀ c, Quiet Intact (Eff.modify ((configPlace u.kmsConnectionConfig).set c) : Call Unit) :=
    fun c => Quiet.modify fun _ hw => intact_of_eq rfl rfl rfl hw
  unfold updateKmsConfig
  split
  · refine (Quiet.read _).bind fun c => ?_
    split
    · exact Quiet.pure ()
    · exact (Quiet.ofExcept _).bind fun _ => (hset _).bind fun _ => (Quiet.ofExcept _).bind fun _ => hset _
  · exact Quiet.pure ()

theorem unwrapWithKms_panic_iff {wrapped masterKeyId : String} {w : World} (hw : Intact w) :
    (unwrapWithKms env u wrapped masterKeyId w).1 = .panic ↔ StoresPastLimit env u w := by
  unfold unwrapWithKms StoresPastLimit
  rw [bind_ok (read_run _ _), bind_panic_iff, KmsManager.getClient_panic_iff env hw]
  constructor
  · intro hcases
    rcases hcases with h | ⟨client, w1, _, h⟩
    · exact h
    · -- a client only returns
      unfold unwrapKey at h
      simp only at h
      split at h <;> cases h
  · exact Or.inl

theorem getKek_panic_iff {masterKeyId kekId wrappedKek : String} {w : World} (hw : Intact w) :
    (getKek env u masterKeyId kekId wrappedKek w).1 = .panic ↔
      (u.keks.get w).lookup kekId = none ∧ StoresPastLimit env u w := by
  unfold getKek
  rw [bind_ok (read_run _ _)]
  cases hl : (u.keks.get w).lookup kekId with
  | some kek => simp
  | none =>
    simp only [true_and]
    rw [bind_panic_iff, unwrapWithKms_panic_iff env u hw]
    constructor
    · intro hcases
      rcases hcases with h | ⟨kek, w1, _, h⟩
      · exact h
      · cases h
    · exact Or.inl

theorem unwrapDoubleWrappedKey_panic_iff {m : KeyMaterial} {kekId wrappedKek : String} {w : World} (hw : Intact w)
    (hd : m.doubleWrapping = true) (hk : m.keyEncryptionKeyId = some kekId) (hkek : m.wrappedKek = some wrappedKek) :
    (unwrapDoubleWrappedKey env u m.wrappedDek m.masterKeyId kekId wrappedKek w).1 = .panic ↔
      (NeedsKms u m w ∧ StoresPastLimit env u w) ∨ MeetsShortDek env u m w := by
  unfold unwrapDoubleWrappedKey
  rw [lock_panic_iff (hw.readCache u.kekCache), bind_panic_iff, getKek_panic_iff env u hw]
  refine or_congr (and_congr_left fun _ => ⟨fun h => Or.inr ⟨kekId, wrappedKek, hd, hk, hkek, h⟩, fun h => ?_⟩)
    ⟨fun h => ?_, fun h => ?_⟩
  · rcases h with h | ⟨kekId', _, _, hk', _, h⟩
    · rw [hd] at h; cases h
    · rw [hk] at hk'; cases hk'; exact h
  · obtain ⟨kek, w1, hget, h⟩ := h
    rcases bind_panic_iff.mp h with h | ⟨decoded, w2, hdec, h⟩
    · cases hdec : decodeKekId env kekId with
      | ok d => rw [hdec] at h; cases h
      | error e => rw [hdec] at h; cases h
    · rw [ofOutcome_run] at h
      obtain ⟨hlen, hblob⟩ := (decryptEncryptionKey_panic_iff env _ _ _).mp h
      exact ⟨hd, kekId, wrappedKek, hk, hkek, ⟨decoded, decodeKekId_ok env (ofExcept_eq_ok hdec).1⟩, hblob, kek, w1,
        hget, hlen⟩
  · obtain ⟨_, kekId', wrappedKek', hk', hkek', ⟨decoded, hdec⟩, hblob, kek, w1, hget, hlen⟩ := h
    rw [hk] at hk'
    rw [hkek] at hkek'
    cases hk'
    cases hkek'
    refine ⟨kek, w1, hget, ?_⟩
    have hok : decodeKekId env kekId = .ok decoded := by unfold decodeKekId; rw [hdec]
    rw [hok, bind_ok (ofExcept_ok _ _), ofOutcome_run]
    exact (decryptEncryptionKey_panic_iff env _ _ _).mpr ⟨hlen, hblob⟩

theorem unwrapDek_panic_iff {m : KeyMaterial} {w : World} (hw : Intact w) :
    (unwrapDek env u m w).1 = .panic ↔ (NeedsKms u m w ∧ StoresPastLimit env u w) ∨ MeetsShortDek env u m w := by
  unfold unwrapDek
  cases hd : m.doubleWrapping with
  | false =>
    have hneeds : NeedsKms u m w := Or.inl hd
    have hno : ¬ MeetsShortDek env u m w := fun h => by rw [h.1] at hd; cases hd
    simp only [Bool.false_eq_true, if_false, hneeds, hno, true_and, or_false]
    exact unwrapWithKms_panic_iff env u hw
  | true =>
    cases hk : m.keyEncryptionKeyId with
    | none =>
      constructor
      · intro h; cases h
      · intro hcases
        rcases hcases with ⟨h | ⟨_, _, _, h, _⟩, _⟩ | ⟨_, _, _, h, _⟩
        · rw [hd] at h; cases h
        · rw [hk] at h; cases h
        · rw [hk] at h; cases h
    | some kekId =>
      cases hkek : m.wrappedKek with
      | none =>
        constructor
        · intro h; cases h
        · intro hcases
          rcases hcases with ⟨h | ⟨_, _, _, _, h, _⟩, _⟩ | ⟨_, _, _, _, h, _⟩
          · rw [hd] at h; cases h
          · rw [hkek] at h; cases h
          · rw [hkek] at h; cases h
      | some wrappedKek => exact unwrapDoubleWrappedKey_panic_iff env u hw hd hk hkek

theorem updateKmsConfig_returns (m : KeyMaterial) (w : World) : (updateKmsConfig u m w).1 ≠ .panic := by
  have h : Along (ReaderMove Env.sample u m w) (updateKmsConfig u m) w _ _ _ :=
    updateKmsConfig_along Env.sample u m w
  exact fun hp => h.panic hp

theorem Prepared.intact {env : Env} {u : KeyUnwrapper} {keyMetadata : Bytes} {w w1 : World} {m : KeyMaterial}
    (h : Prepared env u keyMetadata w m w1) (hw : Intact w) : Intact w1 := by
  have hq := updateKmsConfig_quiet u m w hw (updateKmsConfig_returns u m w)
  rwa [h.updated] at hq

/-- Retrieving panics on exactly two kinds of input: a lifetime that overflows, and a wrapped DEK
    that is too short for its nonce. -/
theorem retrieveKey_panic_iff (keyMetadata : Bytes) {w : World} (hw : Intact w) :
    (retrieveKey env u keyMetadata w).1 = .panic ↔ Overflows env u keyMetadata w ∨ ShortDek env u keyMetadata w := by
  constructor
  · intro h
    by_cases hm : ∃ m, readMaterial env keyMetadata = .ok m ∧ m.internalStorage = true
    · obtain ⟨m, hread, hi⟩ := hm
      rw [retrieveKey_eq env u m hread hi] at h
      rcases bind_panic_iff.mp h with h | ⟨_, w1, hup, h⟩
      · exact absurd h (updateKmsConfig_returns u m w)
      · have hp : Prepared env u keyMetadata w m w1 := ⟨hread, hi, hup⟩
        rcases (unwrapDek_panic_iff env u (hp.intact hw)).mp h with ⟨hneeds, hlim⟩ | hshort
        · exact Or.inl ⟨m, w1, hp, hneeds, hlim⟩
        · exact Or.inr ⟨m, w1, hp, hshort⟩
    · obtain ⟨e, he⟩ := retrieveKey_refused env u w fun m hread =>
        Bool.eq_false_iff.mpr fun hi => hm ⟨m, hread, hi⟩
      rw [he] at h
      cases h
  · have hpanic : ∀ m w1, Prepared env u keyMetadata w m w1 →
        (NeedsKms u m w1 ∧ StoresPastLimit env u w1) ∨ MeetsShortDek env u m w1 →
        (retrieveKey env u keyMetadata w).1 = .panic := by
      intro m w1 hp hbad
      rw [retrieveKey_eq env u m hp.read hp.internalStorage, bind_ok hp.updated]
      exact (unwrapDek_panic_iff env u (hp.intact hw)).mpr hbad
    intro hcases
    rcases hcases with ⟨m, w1, hp, hneeds, hlim⟩ | ⟨m, w1, hp, hshort⟩
    · exact hpanic m w1 hp (Or.inl ⟨hneeds, hlim⟩)
    · exact hpanic m w1 hp (Or.inr hshort)

theorem unwrapKey_quiet (client : KmsClient) (wrapped masterKeyId : String) :
    Quiet Intact (unwrapKey env client wrapped masterKeyId) :=
  .of_world fun w hw => by
    have h : ∃ e, (unwrapKey env client wrapped masterKeyId w).2 = w.record e := by
      unfold unwrapKey
      cases env.unwrapKey w.calls client wrapped masterKeyId with
      | ok _ => exact ⟨_, rfl⟩
      | error _ => exact ⟨_, rfl⟩
    obtain ⟨e, he⟩ := h
    rw [he]
    exact intact_of_eq rfl rfl rfl hw

theorem unwrapWithKms_quiet (wrapped masterKeyId : String) : Quiet Intact (unwrapWithKms env u wrapped masterKeyId) :=
  (Quiet.read _).bind fun _ => (KmsManager.getClient_quiet env _ _ _).bind fun _ => unwrapKey_quiet env _ _ _

theorem unwrapDek_quiet (m : KeyMaterial) : Quiet Intact (unwrapDek env u m) := by
  unfold unwrapDek
  by_cases hd : m.doubleWrapping = true
  · rw [if_pos hd]
    split
    · refine Quiet.lock (Quiet.bind ((Quiet.read _).bind fun keks => ?_) fun kek => (Quiet.ofExcept _).bind fun _ =>
        Quiet.ofOutcome _)
      split
      · exact Quiet.pure _
      · exact (unwrapWithKms_quiet env u _ _).bind fun kek =>
          (Quiet.modify fun w hw => intact_storeReadKek u _ hw).bind fun _ => Quiet.pure kek
    · exact Quiet.fail _
  · rw [if_neg hd]
    exact unwrapWithKms_quiet env u _ _

theorem retrieveKey_quiet (keyMetadata : Bytes) : Quiet Intact (retrieveKey env u keyMetadata) := by
  refine (Quiet.ofExcept _).bind fun m => ?_
  by_cases hi : m.internalStorage = true
  · rw [if_neg (not_not.mpr hi)]
    exact (updateKmsConfig_quiet u m).bind fun _ => unwrapDek_quiet env u m
  · rw [if_pos hi]
    exact Quiet.fail _

end KeyUnwrapper

/-! ## Runs without a panic -/

/-- The request does not take the branch that goes wrong: retrieving meets neither an overflow
    nor a short DEK, and creating properties does not overflow. -/
def Request.Sound (s : System) : Request → Prop
  | .encrypt m config enc => (CryptoFactory.fileEncryptionProperties env m config enc s.world).1 ≠ .panic
  | .decrypt m config dec => (CryptoFactory.fileDecryptionProperties env m config dec s.world).1 ≠ .panic
  | .retrieve u keyMetadata => ¬ u.Overflows env keyMetadata s.world ∧ ¬ u.ShortDek env keyMetadata s.world
  | .newFactory | .refresh _ _ | .wait _ => True

theorem intact_init (tokens : TokenCell → String) (clock : Instant) : Intact (World.init tokens clock) := by
  rintro (⟨m, h | h | h⟩ | ⟨a, h⟩ | ⟨a, h⟩) <;> cases h

theorem intact_newFactory {w : World} (hw : Intact w) : Intact (CryptoFactory.new env w).2 := by
  refine path_keeps (fun a b ha hm => ?_) (CryptoFactory.newManager_along env w w).path hw
  cases hm with
  | clock n => exact intact_of_eq rfl rfl rfl ha
  | newManager _ k h1 h2 h3 =>
    refine intact_of_flags (w := a) (fun m hp => ?_) (fun _ => rfl) (fun _ => rfl) ha
    unfold World.ManagerPoisoned at hp ⊢
    change ((a.setManager a.nextManager k).managers m).kmsClientCache.cache.poisoned = true ∨ _ at hp
    by_cases hm : m = a.nextManager
    · subst hm
      change _ ∨ ((a.setManager a.nextManager k).managers a.nextManager).kekReadCaches.cache.poisoned = true ∨
        ((a.setManager a.nextManager k).managers a.nextManager).kekWriteCaches.cache.poisoned = true at hp
      rw [setManager_eq, h1, h2, h3] at hp
      rcases hp with hp | hp | hp <;> cases hp
    · change _ ∨ ((a.setManager a.nextManager k).managers m).kekReadCaches.cache.poisoned = true ∨
        ((a.setManager a.nextManager k).managers m).kekWriteCaches.cache.poisoned = true at hp
      rwa [setManager_ne a k hm] at hp

/-- A sound request poisons no mutex. -/
theorem exec_intact {s : System} {r : Request} (hw : Intact s.world) (hr : r.Sound env s) :
    Intact (s.exec env r).world := by
  cases r with
  | newFactory => exact intact_newFactory env hw
  | refresh config keyAccessToken => exact intact_of_eq rfl rfl rfl hw
  | wait elapsed => exact intact_of_eq rfl rfl rfl hw
  | encrypt m config enc => exact CryptoFactory.fileEncryptionProperties_quiet env m config enc s.world hw hr
  | decrypt m config dec => exact CryptoFactory.fileDecryptionProperties_quiet env m config dec s.world hw hr
  | retrieve u keyMetadata =>
    refine u.retrieveKey_quiet env keyMetadata s.world hw fun h => ?_
    rcases (u.retrieveKey_panic_iff env _ hw).mp h with h | h
    · exact hr.1 h
    · exact hr.2 h

theorem reach_intact {s : System} (h : System.Reach env (fun s r => r.Sound env s) s) : Intact s.world := by
  induction h with
  | init tokens clock => exact intact_init tokens clock
  | step r _ _ hr ih => exact exec_intact env ih hr

/-- As long as no request takes a branch that goes wrong, no mutex is poisoned, and the next key
    is retrieved without a panic exactly when retrieving it does not either. -/
theorem retrieveKey_panic_free {s : System} (h : System.Reach env (fun s r => r.Sound env s) s) :
    Intact s.world ∧ ∀ (u : KeyUnwrapper) (keyMetadata : Bytes), (u.retrieveKey env keyMetadata s.world).1 ≠ .panic ↔
      ¬ u.Overflows env keyMetadata s.world ∧ ¬ u.ShortDek env keyMetadata s.world :=
  ⟨reach_intact env h, fun u _ =>
    (not_congr (u.retrieveKey_panic_iff env _ (reach_intact env h))).trans not_or⟩

/-- A reader with a KEK cache, in surroundings in which nothing fails. -/
def sampleReading : System :=
  ((System.init (fun _ => "DEFAULT") 0).exec Env.sample .newFactory).exec Env.sample (.decrypt 0 sampleConfig ⟨none⟩)

def sampleUnwrapper : KeyUnwrapper := ⟨0, 0, ⟨none⟩, 0⟩

theorem sampleReading_reach : System.Reach Env.sample (fun s r => r.Sound Env.sample s) sampleReading :=
  ((System.Reach.init _ 0).step .newFactory trivial trivial).step (.decrypt 0 sampleConfig ⟨none⟩)
    (by decide +kernel : 0 < _) (by decide +kernel : _ ≠ Outcome.panic)

theorem retrieveKey_panic_free_sample :
    Intact sampleReading.world ∧ ∀ (u : KeyUnwrapper) (keyMetadata : Bytes),
      (u.retrieveKey Env.sample keyMetadata sampleReading.world).1 ≠ .panic ↔
        ¬ u.Overflows Env.sample keyMetadata sampleReading.world ∧
          ¬ u.ShortDek Env.sample keyMetadata sampleReading.world :=
  retrieveKey_panic_free Env.sample sampleReading_reach

/-- Material with a KEK the KMS can unwrap, and this wrapped DEK. -/
def sampleMaterial (wrappedDek : String) : KeyMaterial where
  keyMaterialType := "PKMT1"
  internalStorage := true
  keyReference := none
  isFooterKey := false
  kmsInstanceId := none
  kmsInstanceUrl := none
  masterKeyId := "kc"
  wrappedDek := wrappedDek
  doubleWrapping := true
  keyEncryptionKeyId := some ""
  wrappedKek := some (Base64.encode (counter 7 kekLen))

/-- An empty wrapped DEK makes the reader panic, and after it metadata panics that was only
    refused before. -/
theorem retrieveKey_short_dek :
    ∃ short other, KeyUnwrapper.readMaterial Env.sample short = .ok (sampleMaterial "") ∧
      KeyUnwrapper.readMaterial Env.sample other = .ok (sampleMaterial (Base64.encode (counter 0 28))) ∧
      let w := (sampleUnwrapper.retrieveKey Env.sample short sampleReading.world).2
      sampleReading.readers.map Reader.unwrapper = [sampleUnwrapper] ∧
        (sampleUnwrapper.retrieveKey Env.sample short sampleReading.world).1 = .panic ∧
        (sampleUnwrapper.retrieveKey Env.sample other sampleReading.world).1 =
          .err (.external "ring::error::Unspecified") ∧
        (w.readCaches sampleUnwrapper.kekCache).poisoned = true ∧
        (sampleUnwrapper.retrieveKey Env.sample other w).1 = .panic := by
  obtain ⟨short, hshort⟩ := KeyWrapper.exists_metadata Env.sample (m := sampleMaterial "") rfl
  obtain ⟨other, hother⟩ := KeyWrapper.exists_metadata Env.sample
    (m := sampleMaterial (Base64.encode (counter 0 28))) rfl
  refine ⟨short, other, hshort, hother, ?_⟩
  simp only [KeyUnwrapper.retrieveKey_eq _ _ _ hshort rfl, KeyUnwrapper.retrieveKey_eq _ _ _ hother rfl]
  decide +kernel

end ParquetKeyManagement
