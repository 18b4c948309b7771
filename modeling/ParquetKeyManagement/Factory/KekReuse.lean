/-
  ParquetKeyManagement.Factory.KekReuse — how often a factory has a KEK wrapped.

  Under double wrapping the KMS wraps a key for a master key only when the write cache in use
  has none for it, and the new KEK is stored at once: so much as is wrapped is no longer lacking
  (`balance`). A file is written through the cache that is registered for its token, and caches
  that are no longer registered are not used again (`vacant`).
  - `wraps_le_caches`: in any part of a run the KMS wraps at most once for a master key and each
    write cache that was made for the token, and once for the cache that was there before.
  - `keks_reused`: within the lifetimes that are asked for, the KMS wraps at most twice for a
    master key and a token, and at most once if no cache was registered for the token before.
-/

import ParquetKeyManagement.Factory.CacheReuse
import ParquetKeyManagement.Keys.KekCalls

namespace ParquetKeyManagement

open Effect

variable (env : Env)

/-- A key was wrapped for the master key. -/
def KmsEvent.wrapsFor (masterKeyId : String) : KmsEvent → Bool
  | .wrapKey _ _ masterKeyIdentifier (.ok _) => decide (masterKeyIdentifier = masterKeyId)
  | _ => false

namespace World

/-- The keys that were wrapped for the master key. -/
def wrapsFor (masterKeyId : String) (w : World) : Nat := w.log.countP (KmsEvent.wrapsFor masterKeyId)

/-- Whether a KEK for the master key is lacking in the cache. -/
def lacks (a : KekWriteCache) (masterKeyId : String) (w : World) : Nat :=
  if ((w.writeCaches a).data.lookup masterKeyId).isSome then 0 else 1

/-- Whether it is lacking in the cache registered for the token. -/
def vacant (m : ManagerId) (token masterKeyId : String) (w : World) : Nat :=
  match (w.writeRegistry m).lookup ⟨token⟩ with
  | some v => w.lacks v.value masterKeyId
  | none => 0

/-- What was wrapped, and what is lacking. -/
def balance (a : KekWriteCache) (masterKeyId : String) (w : World) : Nat :=
  w.wrapsFor masterKeyId + w.lacks a masterKeyId

end World

/-! ## What is wrapped is stored -/

section

variable {env} {a : KekWriteCache} {masterKeyId : String} {w w' : World}

theorem KmsEvent.served_of_wrapsFor {e : KmsEvent} (h : e.wrapsFor masterKeyId = true) : e.served = true := by
  cases e with
  | wrapKey client keyBytes masterKeyIdentifier result =>
    cases result with
    | ok wrapped => rfl
    | error e => cases h
  | createClient config result => cases h
  | unwrapKey client wrapped masterKeyIdentifier result => cases h

theorem lacks_le_one : w.lacks a masterKeyId ≤ 1 := by
  unfold World.lacks
  split <;> omega

theorem lacks_of_same (h : (w'.writeCaches a).data = (w.writeCaches a).data) :
    w'.lacks a masterKeyId = w.lacks a masterKeyId := by
  unfold World.lacks
  rw [h]

theorem RegistryOnly.balance (h : RegistryOnly w w') : w'.balance a masterKeyId = w.balance a masterKeyId := by
  unfold World.balance World.wrapsFor
  rw [h.countP_eq fun _ => KmsEvent.served_of_wrapsFor, lacks_of_same (congrArg Mutex.data (congrFun h.writeCaches a))]

/-- A call that has nothing wrapped that is not stored. -/
abbrev Balanced {α : Type} (a : KekWriteCache) (masterKeyId : String) (x : Call α) : Prop :=
  Takes (fun w w' => World.balance a masterKeyId w' = World.balance a masterKeyId w) x

theorem balanced_of_frame {α : Type} {x : Call α} (h : ∀ w, RegistryOnly w (x w).2) : Balanced a masterKeyId x :=
  .of_step fun w => (h w).balance

namespace KeyWrapper

variable (k : KeyWrapper)

theorem storeKek_lookup (id : String) (kek : KeyEncryptionKey) (w : World) (x : String) :
    ((k.keks.modify (fun m => m.insert id kek) w).writeCaches k.masterKeyToKek).data.lookup x =
      if x = id then some kek else (w.writeCaches k.masterKeyToKek).data.lookup x := by
  show (k.keks.get (k.keks.modify _ w)).lookup x = _
  rw [Place.get_modify]
  by_cases hx : x = id
  · rw [if_pos hx, hx, AList.lookup_insert]
  · rw [if_neg hx, AList.lookup_insert_ne hx]
    rfl

/-- Wrapping a KEK and storing it, where there was none. -/
theorem storeKek_balance {id : String} (client : KmsClient) (kek : KeyEncryptionKey)
    (hnone : (w.writeCaches k.masterKeyToKek).data.lookup id = none) :
    (k.keks.modify (fun m => m.insert id kek) (w.record (.wrapKey client kek.key id (.ok kek.wrappedKey)))).balance
      k.masterKeyToKek masterKeyId = w.balance k.masterKeyToKek masterKeyId := by
  have hlog :
    (k.keks.modify (fun m => m.insert id kek) (w.record (.wrapKey client kek.key id (.ok kek.wrappedKey)))).wrapsFor
      masterKeyId = w.wrapsFor masterKeyId + if id = masterKeyId then 1 else 0 := by
    show (w.log ++ [_]).countP _ = _
    rw [List.countP_append]
    simp [World.wrapsFor, KmsEvent.wrapsFor]
  unfold World.balance
  rw [hlog]
  unfold World.lacks
  rw [k.storeKek_lookup]
  change _ + (if (if masterKeyId = id then some kek else
    (w.writeCaches k.masterKeyToKek).data.lookup masterKeyId).isSome then 0 else 1) = _
  by_cases hid : id = masterKeyId
  · subst hid
    simp [hnone]
  · simp [hid, Ne.symm hid]

/-- A new KEK is stored as soon as it is wrapped. -/
theorem getKek_balanced (id : String) : Balanced k.masterKeyToKek masterKeyId (k.getKek env id) := by
  refine .of_step fun w => ?_
  unfold getKek
  rw [bind_ok (read_run _ _)]
  cases hl : (k.keks.get w).lookup id with
  | some kek => rfl
  | none =>
    have hcase := generate_cases env id k.kmsManager k.kmsConnectionConfig k.encryptionConfiguration.cacheLifetime w
    cases hgen : generateKeyEncryptionKey env id k.kmsManager k.kmsConnectionConfig
      k.encryptionConfiguration.cacheLifetime w with | mk r w' =>
    rw [hgen] at hcase
    simp only
    cases hcase with
    | wrapped client kek w1 _ hframe _ _ hrec =>
      -- nobody has put a KEK for this master key into the cache meanwhile
      have hnone : (w1.writeCaches k.masterKeyToKek).data.lookup id = none := by
        rw [congrFun hframe.writeCaches k.masterKeyToKek]
        exact hl
      rw [bind_ok hgen, ← hframe.balance, hrec]
      exact k.storeKek_balance client kek hnone
    | failed _ _ hr hframe =>
      cases r with
      | ok kek => cases hr
      | err e =>
        rw [bind_err hgen]
        exact hframe.balance
      | panic =>
        rw [bind_panic hgen]
        exact hframe.balance

theorem wrap_balanced (hd : k.encryptionConfiguration.doubleWrapping = true) (key : Bytes) (id : String)
    (b : KeyMaterialBuilder) :
    Balanced k.masterKeyToKek masterKeyId (k.wrap env key id b) := by
  unfold wrap doubleWrap
  rw [if_pos hd]
  refine Takes.lock ((k.getKek_balanced id).bind fun kek => ?_) fun w => ?_
  · exact balanced_of_frame (sealDek_frame env key id b kek)
  · exact congrArg (w.wrapsFor masterKeyId + ·) (lacks_of_same (writeCaches_poison _ w))

end KeyWrapper

namespace CryptoFactory

variable {k : KeyWrapper} (hd : k.encryptionConfiguration.doubleWrapping = true)
include hd

theorem generateKey_balanced (id : String) (isFooterKey : Bool) :
    Balanced k.masterKeyToKek masterKeyId (generateKey env id isFooterKey k) := by
  refine Takes.bind (balanced_of_frame fun w => .of_along (fill_frame env dekLen w)) fun key => ?_
  exact ((k.wrap_balanced hd key id _).bind fun _ => (Takes.ofExcept _).bind fun _ => .pure _).bind fun _ => .pure _

theorem addColumns_balanced (id : String) (columnPaths : List String) (b : FileEncryptionProperties) :
    Balanced k.masterKeyToKek masterKeyId (addColumns env k id columnPaths b) := by
  induction columnPaths generalizing b with
  | nil => exact .pure b
  | cons c columnPaths ih => exact (generateKey_balanced hd id false).bind fun key => ih _

theorem addColumnKeys_balanced (es : List (Sigma fun _ : String => List String)) (b : FileEncryptionProperties) :
    Balanced k.masterKeyToKek masterKeyId (addColumnKeys env k es b) := by
  induction es generalizing b with
  | nil => exact .pure b
  | cons e es ih => exact (addColumns_balanced hd e.1 e.2 b).bind fun b' => ih b'

/-- What follows once the wrapper is there. -/
theorem withWrapper_balanced : Balanced k.masterKeyToKek masterKeyId
    (do
      let footerKey ← generateKey env k.encryptionConfiguration.footerKeyId true k
      let order ← iterationOrder env
      addColumnKeys env k (HashMap.inOrder order k.encryptionConfiguration.columnKeyIds)
        ⟨footerKey, k.encryptionConfiguration.plaintextFooter, ∅⟩) := by
  refine (generateKey_balanced hd k.encryptionConfiguration.footerKeyId true).bind fun footerKey => ?_
  exact Takes.bind (balanced_of_frame fun w => .tick w 0) fun order => addColumnKeys_balanced hd _ _

end CryptoFactory

end

/-! ## Which caches are registered -/

/-- What is registered for writing was registered before, or is a new cache. -/
structure Registers (m : ManagerId) (w w' : World) : Prop where
  next : w.nextWriteCache ≤ w'.nextWriteCache
  registered : ∀ key v, (w'.writeRegistry m).lookup key = some v →
    (w.writeRegistry m).lookup key = some v ∨ w.nextWriteCache ≤ v.value

section

variable {env} {m : ManagerId} {lifetime : Option Duration} {w w' w'' : World}

theorem Registers.refl (w : World) : Registers m w w := ⟨le_refl _, fun _ _ h => Or.inl h⟩

theorem Registers.trans (h : Registers m w w') (h' : Registers m w' w'') : Registers m w w'' := by
  refine ⟨h.next.trans h'.next, fun key v hl => ?_⟩
  rcases h'.registered key v hl with h1 | h1
  · exact h.registered key v h1
  · exact Or.inr (h.next.trans h1)

/-- `get_client` registers nothing. -/
theorem ClientCall.registered (h : ClientCall env m lifetime w w') {key : KekCacheKey}
    {v : ExpiringCacheValue KekWriteCache}
    (hl : (w'.writeRegistry m).lookup key = some v) : (w.writeRegistry m).lookup key = some v := by
  cases h with
  | client config =>
    have hops := KmsManager.getClient_writeOps env m config lifetime w fun _ => False
    exact (ExpiringCache.CacheOp.cleans_path env hops (KmsManager.writeCaches_apart m)).kept hl
  | outside h =>
    unfold World.writeRegistry at hl ⊢
    rwa [h.managers] at hl

theorem nextWriteCache_isValid {ν : Type} (e : ExpiringCacheValue ν) (w : World) :
    (e.isValid env w).2.nextWriteCache = w.nextWriteCache := by
  unfold ExpiringCacheValue.isValid
  cases e.expirationTime with
  | none => rfl
  | some t => rfl

/-- Only a new cache is registered by `get_or_create`. -/
theorem registered_of_get (token : String) (w : World) {key : KekCacheKey} {v : ExpiringCacheValue KekWriteCache}
    (hl : ((ExpiringCache.getOrCreate env (writeCachesPlace m) ⟨token⟩ lifetime
      (KmsManager.newWriteCache m token) w).2.writeRegistry m).lookup key = some v) :
    (w.writeRegistry m).lookup key = some v ∨ w.nextWriteCache ≤ v.value := by
  obtain ⟨ran, _, hcase⟩ := ExpiringCache.getOrCreate_cases env (KmsManager.writeCaches_apart m)
    (KmsManager.newWriteCache_creator m token) ⟨token⟩ lifetime w
  have hsame : ∀ w' : World, (ExpiringCache.entries (writeCachesPlace m)).get w' =
      (ExpiringCache.entries (writeCachesPlace m)).get w → (w'.writeRegistry m).lookup key = some v →
      (w.writeRegistry m).lookup key = some v := by
    intro w' h hl'
    change ((ExpiringCache.entries (writeCachesPlace m)).get w').lookup key = some v at hl'
    rwa [h] at hl'
  cases hrun : ExpiringCache.getOrCreate env (writeCachesPlace m) ⟨token⟩ lifetime
    (KmsManager.newWriteCache m token) w with
  | mk r w' =>
  rw [hrun] at hcase hl
  cases hcase with
  | hit e _ _ _ _ h => exact Or.inl (hsame w' h hl)
  | failed w1 _ e _ _ _ _ _ h => exact Or.inl (hsame w' h hl)
  | panicked _ _ _ h => exact Or.inl (hsame w' h hl)
  | created w1 w2 _ a hmiss _ _ hnew _ hstored =>
    by_cases hkey : key = ⟨token⟩
    · right
      change ((ExpiringCache.entries (writeCachesPlace m)).get w').lookup key = some v at hl
      rw [hstored, hkey, AList.lookup_insert] at hl
      have hnext : w1.nextWriteCache = w.nextWriteCache := by
        rcases hmiss with ⟨_, rfl⟩ | ⟨e, _, hvalid⟩
        · rfl
        · exact (congrArg (fun r => r.2.nextWriteCache) hvalid).symm.trans (nextWriteCache_isValid e w)
      cases hnew
      cases hl
      exact hnext.ge
    · left
      change ((ExpiringCache.entries (writeCachesPlace m)).get w').lookup key = some v at hl
      rw [hstored, AList.lookup_insert_ne hkey] at hl
      exact hl

theorem getKekWriteCache_registers (config : KmsConnectionConfig) (w : World) :
    Registers m w (KmsManager.getKekWriteCache env m config lifetime w).2 := by
  have hgrows := World.Grows.of_path (fun _ _ h => ManagerMove.grows h)
    (KmsManager.getKekWriteCache_along env m config lifetime w).path
  refine ⟨hgrows.nextWriteCache, fun key v hl => ?_⟩
  have hclear := KmsManager.clearExpiredEntries_writeOps env m lifetime w fun _ => False
  have hclean := ExpiringCache.CacheOp.cleans_path env hclear (KmsManager.writeCaches_apart m)
  have hnext := (World.Grows.of_path (fun _ _ h => ManagerMove.grows h)
    (KmsManager.clearExpiredEntries_along env m config lifetime lifetime w).path).nextWriteCache
  rcases KmsManager.after_clearing env m lifetime w
    (x := KmsManager.getKekWriteCache env m config lifetime) rfl with h | h
  · rw [h] at hl
    change ((Eff.unwrap (ExpiringCache.getOrCreate _ _ _ _ _) _).2.writeRegistry m).lookup key = some v at hl
    rw [unwrap_state] at hl
    exact (registered_of_get _ _ hl).imp (hclean.kept ·) hnext.trans
  · rw [h] at hl
    exact Or.inl (hclean.kept hl)

theorem RegistryCall.registers (h : RegistryCall env m lifetime w w') : Registers m w w' := by
  cases h with
  | inside h =>
    refine ⟨?_, fun key v hl => Or.inl (h.registered hl)⟩
    cases h with
    | client config =>
      exact (World.Grows.of_path (fun _ _ h => ManagerMove.grows h)
        (KmsManager.getClient_along env m config lifetime (le_refl w.log.length)).path).nextWriteCache
    | outside h => exact h.nextWriteCache.ge
  | readCache config =>
    have hops := KmsManager.getKekReadCache_writeOps env m config lifetime w fun _ => False
    refine ⟨(World.Grows.of_path (fun _ _ h => ManagerMove.grows h)
      (KmsManager.getKekReadCache_along env m config lifetime w).path).nextWriteCache, fun key v hl => Or.inl ?_⟩
    exact (ExpiringCache.CacheOp.cleans_path env hops (KmsManager.writeCaches_apart m)).kept hl
  | writeCache config => exact getKekWriteCache_registers config w

end

/-! ## What is lacking in a registered cache -/

section

variable {env} {m : ManagerId} {a : KekWriteCache} {token masterKeyId : String} {w w' : World}

theorem ManagerMove.lacks_eq {config : KmsConnectionConfig} {lifetime : Option Duration}
    (h : ManagerMove m config lifetime w w') (ha : a < w.nextWriteCache) :
    w'.lacks a masterKeyId = w.lacks a masterKeyId :=
  lacks_of_same (congrArg Mutex.data (h.writeKeks_kept ha))

theorem WriterMove.lacks_le {k : KeyWrapper} (h : WriterMove env k w w') (ha : a < w.nextWriteCache) :
    w'.lacks a masterKeyId ≤ w.lacks a masterKeyId := by
  cases h with
  | manager h => exact (h.lacks_eq ha).le
  | wrap client keyBytes id _ => exact le_refl _
  | poison _ =>
    by_cases hk : a = k.masterKeyToKek
    · subst hk
      exact (lacks_of_same (KeyWrapper.writeCaches_poison _ w)).le
    · exact (lacks_of_same (congrArg Mutex.data (Function.update_of_ne hk ..))).le
  | storeKek id kek _ _ =>
    by_cases hk : a = k.masterKeyToKek
    · subst hk
      unfold World.lacks
      rw [k.storeKek_lookup]
      by_cases hid : masterKeyId = id
      · simp [hid]
      · simp [hid]
    · exact (lacks_of_same (congrArg Mutex.data (Function.update_of_ne hk ..))).le

/-- A KEK that is in a write cache stays there. -/
theorem RequestMove.lacks_le {ws : World} {r : Request} (h : RequestMove env ws r w w') (ha : a < w.nextWriteCache) :
    w'.lacks a masterKeyId ≤ w.lacks a masterKeyId := by
  cases h with
  | encrypt h =>
    cases h with
    | registry h => exact (h.lacks_eq ha).le
    | writer k _ _ h => exact h.lacks_le ha
  | registry h => exact (h.lacks_eq ha).le
  | retrieve _ _ h =>
    cases h with
    | manager _ h => exact (h.lacks_eq ha).le
    | _ => exact le_refl _
  | _ => exact le_refl _

theorem lacks_le_of_path {ws : World} {r : Request} (path : Relation.ReflTransGen (RequestMove env ws r) w w')
    (ha : a < w.nextWriteCache) : w'.lacks a masterKeyId ≤ w.lacks a masterKeyId :=
  (path_keeps (I := fun v : World => w.nextWriteCache ≤ v.nextWriteCache ∧
    v.lacks a masterKeyId ≤ w.lacks a masterKeyId)
    (fun _ _ hi hm => ⟨hi.1.trans hm.grows.nextWriteCache, (hm.lacks_le (lt_of_lt_of_le ha hi.1)).trans hi.2⟩) path
    ⟨le_refl _, le_refl _⟩).2

variable (masterKeyId) in
theorem wrapsFor_grows (h : w.Grows w') : w.wrapsFor masterKeyId ≤ w'.wrapsFor masterKeyId :=
  h.log.sublist.countP_le

/-- Caches that were made stay made, and a new one counts. -/
theorem made_grows (h : w.Grows w') (key : KekCacheKey) :
    w.writeCachesMade m key ≤ w'.writeCachesMade m key ∧
      ∀ a, w.nextWriteCache ≤ a → OwnedWriteCache m key a w' → w.writeCachesMade m key < w'.writeCachesMade m key := by
  have hold : (List.range w.nextWriteCache).countP (fun a => decide (w'.writeCacheOwner a = (m, key.keyAccessToken))) =
      w.writeCachesMade m key := by
    refine List.countP_congr fun a ha => ?_
    rw [h.writeCacheOwner a (List.mem_range.mp ha)]
  obtain ⟨n, hn⟩ := Nat.exists_eq_add_of_le h.nextWriteCache
  have hsplit : w'.writeCachesMade m key = w.writeCachesMade m key +
      ((List.range n).map (w.nextWriteCache + ·)).countP fun a =>
        decide (w'.writeCacheOwner a = (m, key.keyAccessToken)) := by
    rw [← hold]
    unfold World.writeCachesMade
    rw [hn, List.range_add, List.countP_append]
  refine ⟨hsplit ▸ Nat.le_add_right _ _, fun a hle hown => ?_⟩
  have hpos : 0 < ((List.range n).map (w.nextWriteCache + ·)).countP
      fun a => decide (w'.writeCacheOwner a = (m, key.keyAccessToken)) := by
    have hlt : a - w.nextWriteCache < n := Nat.sub_lt_left_of_lt_add hle (hn ▸ hown.2)
    exact List.countP_pos_iff.mpr
      ⟨a, List.mem_map.mpr ⟨a - w.nextWriteCache, List.mem_range.mpr hlt, Nat.add_sub_of_le hle⟩,
      decide_eq_true hown.1⟩
  omega

/-- More is lacking only where a cache was made. -/
theorem vacant_le (hinv : RegistryInv w) (hinv' : RegistryInv w') (hgrows : w.Grows w') (hreg : Registers m w w')
    (hlacks : ∀ a < w.nextWriteCache, w'.lacks a masterKeyId ≤ w.lacks a masterKeyId) :
    w'.vacant m token masterKeyId + w.writeCachesMade m ⟨token⟩ ≤
      w.vacant m token masterKeyId + w'.writeCachesMade m ⟨token⟩ := by
  obtain ⟨hmade, hnew⟩ := made_grows (m := m) hgrows ⟨token⟩
  unfold World.vacant
  cases hl : (w'.writeRegistry m).lookup ⟨token⟩ with
  | none => simp only; omega
  | some v =>
    simp only
    rcases hreg.registered _ v hl with h1 | h1
    · rw [h1]
      have := hlacks v.value (hinv.writeCaches m _ v h1).2
      simp only
      omega
    · have := hnew v.value h1 (hinv'.writeCaches m _ v hl)
      have hone : w'.lacks v.value masterKeyId ≤ 1 := lacks_le_one
      omega

end

/-! ## Requests -/

/-- The requests that write a file of a factory under a token, with double wrapping. -/
def Request.doubleWraps (m : ManagerId) (token : String) (w : World) : Request → Bool
  | .encrypt m' config enc => decide (m' = m) && enc.doubleWrapping && decide (w.tokens config.keyAccessToken = token)
  | _ => false

section

variable {env} {m : ManagerId} {token masterKeyId : String} {s : System} {r : Request}

theorem Request.doubleWraps_on {w : World} (h : r.doubleWraps m token w = true) : r.factory = some m := by
  cases r with
  | encrypt m' config enc =>
    simp only [doubleWraps, Bool.and_eq_true, decide_eq_true_eq] at h
    exact congrArg some h.1.1
  | _ => cases h

theorem ManagerMove.wrapsFor_eq {config : KmsConnectionConfig} {lifetime : Option Duration} {w w' : World}
    (h : ManagerMove m config lifetime w w') : w'.wrapsFor masterKeyId = w.wrapsFor masterKeyId := by
  cases h with
  | create result _ => simp [World.wrapsFor, World.record, KmsEvent.wrapsFor]
  | clients hc => obtain ⟨c, rfl⟩ := hc.eq_set; rfl
  | readCaches hc => obtain ⟨c, rfl⟩ := hc.eq_set; rfl
  | writeCaches hc => obtain ⟨c, rfl⟩ := hc.eq_set; rfl
  | _ => rfl

variable {config : KmsConnectionConfig} {enc : EncryptionConfiguration} {w w1 : World}

variable (token masterKeyId) in
/-- Registering a cache touches no KEK. -/
theorem getKekWriteCache_vacant {r : Outcome ParquetError KekWriteCache} (hinv : RegistryInv w)
    (hrun : KmsManager.getKekWriteCache env m config enc.cacheLifetime w = (r, w1)) :
    w1.wrapsFor masterKeyId = w.wrapsFor masterKeyId ∧
      w1.vacant m token masterKeyId + w.writeCachesMade m ⟨token⟩ ≤
        w.vacant m token masterKeyId + w1.writeCachesMade m ⟨token⟩ := by
  have hreg : Registers m w (KmsManager.getKekWriteCache env m config enc.cacheLifetime w).2 :=
    getKekWriteCache_registers config w
  rw [hrun] at hreg
  have path := (KmsManager.getKekWriteCache_along env m config enc.cacheLifetime w).run_path hrun
  have hinv1 : RegistryInv w1 := path_keeps (fun _ _ hi hm => hm.registryInv hi) path hinv
  have hgrows : w.Grows w1 := World.Grows.of_path (fun _ _ h => ManagerMove.grows h) path
  refine ⟨path_keeps (I := fun v : World => v.wrapsFor masterKeyId = w.wrapsFor masterKeyId)
    (fun _ _ hi hm => hm.wrapsFor_eq.trans hi) path rfl, vacant_le hinv hinv1 hgrows hreg fun a ha => ?_⟩
  have hkept : w.nextWriteCache ≤ w1.nextWriteCache ∧ w1.lacks a masterKeyId ≤ w.lacks a masterKeyId :=
    path_keeps (I := fun v : World => w.nextWriteCache ≤ v.nextWriteCache ∧
      v.lacks a masterKeyId ≤ w.lacks a masterKeyId)
      (fun _ _ hi hm => ⟨hi.1.trans hm.grows.nextWriteCache, (hm.lacks_eq (lt_of_lt_of_le ha hi.1)).le.trans hi.2⟩) path
      ⟨le_refl _, le_refl _⟩
  exact hkept.2

variable (masterKeyId) in
/-- What a wrapper has wrapped was lacking in its cache. -/
theorem withWrapper_wraps {k : KeyWrapper} (hk : WrapperFor m config enc w k w1) (hd : enc.doubleWrapping = true)
    (htoken : w1.tokens config.keyAccessToken = token) {w' : World}
    (hw' : ((do
      let footerKey ← CryptoFactory.generateKey env k.encryptionConfiguration.footerKeyId true k
      let order ← iterationOrder env
      CryptoFactory.addColumnKeys env k (HashMap.inOrder order k.encryptionConfiguration.columnKeyIds)
        ⟨footerKey, k.encryptionConfiguration.plaintextFooter, ∅⟩ : Call FileEncryptionProperties) w1).2 = w') :
    w'.wrapsFor masterKeyId + w'.vacant m token masterKeyId ≤ w1.wrapsFor masterKeyId + w1.vacant m token masterKeyId ∧
      w1.Grows w' := by
  have hbalance : w'.balance k.masterKeyToKek masterKeyId = w1.balance k.masterKeyToKek masterKeyId := by
    rw [← hw']
    have hdouble : k.encryptionConfiguration.doubleWrapping = true := by rw [hk.encryptionConfiguration]; exact hd
    exact (CryptoFactory.withWrapper_balanced hdouble).keeps (fun _ _ h => h) w1
  have hkept : ∀ v, (w'.writeRegistry m).lookup ⟨token⟩ = some v → (w1.writeRegistry m).lookup ⟨token⟩ = some v := by
    rw [← hw', ← hk.kmsManager]
    exact path_keeps (I := fun u : World => ∀ v, (u.writeRegistry k.kmsManager).lookup ⟨token⟩ = some v →
      (w1.writeRegistry k.kmsManager).lookup ⟨token⟩ = some v) (fun _ _ hi hcall v hl => hi v (hcall.registered hl))
      (CryptoFactory.withWrapper_calls env k w1) fun _ h => h
  have hgrows : w1.Grows w' := by
    rw [← hw', hk.encryptionConfiguration]
    exact World.Grows.of_path (fun _ _ h => WriterMove.grows h)
      (CryptoFactory.withWrapper_along env m config enc hk).path
  refine ⟨?_, hgrows⟩
  -- the wrapper's cache is the one that is registered
  obtain ⟨v, hl, hv, _⟩ := hk.held
  rw [htoken] at hl
  change (w1.writeRegistry m).lookup ⟨token⟩ = some v at hl
  have hcache : w1.vacant m token masterKeyId = w1.lacks k.masterKeyToKek masterKeyId := by
    unfold World.vacant
    rw [hl, ← hv]
  have hafter : w'.vacant m token masterKeyId ≤ w'.lacks k.masterKeyToKek masterKeyId := by
    unfold World.vacant
    cases hl' : (w'.writeRegistry m).lookup ⟨token⟩ with
    | none => exact Nat.zero_le _
    | some v' =>
      have heq := hkept v' hl'
      rw [hl] at heq
      cases heq
      rw [← hv]
  unfold World.balance at hbalance
  omega

/-- What is wrapped for a file was lacking in the cache that was registered, or in a new one. -/
theorem fileEncryptionProperties_wraps {w' : World} (hinv : RegistryInv w) (hd : enc.doubleWrapping = true)
    (htoken : w.tokens config.keyAccessToken = token)
    (hw' : (CryptoFactory.fileEncryptionProperties env m config enc w).2 = w') :
    w'.wrapsFor masterKeyId + w'.vacant m token masterKeyId + w.writeCachesMade m ⟨token⟩ ≤
      w.wrapsFor masterKeyId + w.vacant m token masterKeyId + w'.writeCachesMade m ⟨token⟩ := by
  unfold CryptoFactory.fileEncryptionProperties KeyWrapper.new at hw'
  split at hw'
  · rw [← hw']
    exact le_refl _
  split at hw'
  · rw [← hw']
    exact le_refl _
  rw [bind_assoc] at hw'
  have halong := KmsManager.getKekWriteCache_along env m config enc.cacheLifetime w
  rcases hrun : KmsManager.getKekWriteCache env m config enc.cacheLifetime w with ⟨a | e | _, w1⟩
  · obtain ⟨hwraps, hvacant⟩ := getKekWriteCache_vacant token masterKeyId hinv hrun
    have path := halong.run_path hrun
    have hk : WrapperFor m config enc w ⟨m, config, enc, a⟩ w1 := ⟨rfl, rfl, rfl, path, halong.run_ok hrun⟩
    have htoken1 : w1.tokens config.keyAccessToken = token := by
      rw [KmsManager.tokens_kept m config enc.cacheLifetime path, htoken]
    rw [bind_ok hrun] at hw'
    obtain ⟨hle, hgrows⟩ := withWrapper_wraps masterKeyId hk hd htoken1 hw'
    have hmade := (made_grows (m := m) hgrows ⟨token⟩).1
    omega
  · obtain ⟨hwraps, hvacant⟩ := getKekWriteCache_vacant token masterKeyId hinv hrun
    rw [bind_err hrun] at hw'
    change w1 = w' at hw'
    rw [← hw']
    omega
  · obtain ⟨hwraps, hvacant⟩ := getKekWriteCache_vacant token masterKeyId hinv hrun
    rw [bind_panic hrun] at hw'
    change w1 = w' at hw'
    rw [← hw']
    omega

theorem System.exec_registers (hm : m < s.world.nextManager) : Registers m s.world (s.exec env r).world := by
  by_cases hr : r.factory = some m
  · exact path_keeps (I := Registers m s.world) (fun _ _ hi hcall => hi.trans hcall.registers)
      (System.exec_calls hr) (.refl _)
  · refine ⟨(System.exec_grows env s r).nextWriteCache, fun key v hl => Or.inl ?_⟩
    unfold World.writeRegistry at hl ⊢
    rwa [System.exec_managers_kept hm hr] at hl

theorem System.exec_registryInv (h : RegistryInv s.world) : RegistryInv (s.exec env r).world :=
  System.exec_keeps env (fun _ _ hi hm => hm.registryInv hi) h

variable (env token masterKeyId) in
/-- A request on another factory changes nothing that is registered. -/
theorem System.exec_vacant_other (hinv : RegistryInv s.world) (hm : m < s.world.nextManager) (hr : r.factory ≠ some m) :
    (s.exec env r).world.vacant m token masterKeyId ≤ s.world.vacant m token masterKeyId := by
  unfold World.vacant World.writeRegistry
  rw [System.exec_managers_kept hm hr]
  cases hl : (s.world.writeRegistry m).lookup ⟨token⟩ with
  | none =>
    unfold World.writeRegistry at hl
    rw [hl]
  | some v =>
    have hlt := (hinv.writeCaches m _ v hl).2
    unfold World.writeRegistry at hl
    rw [hl]
    exact lacks_le_of_path (System.exec_path env s r) hlt

variable (env token masterKeyId) in
theorem System.exec_vacant_le (hinv : RegistryInv s.world) (hm : m < s.world.nextManager) :
    (s.exec env r).world.vacant m token masterKeyId + s.world.writeCachesMade m ⟨token⟩ ≤
      s.world.vacant m token masterKeyId + (s.exec env r).world.writeCachesMade m ⟨token⟩ :=
  vacant_le hinv (System.exec_registryInv hinv) (System.exec_grows env s r) (System.exec_registers hm)
    fun _ ha => lacks_le_of_path (System.exec_path env s r) ha

variable (env masterKeyId) in
/-- Writing a file under the token wraps only what was lacking. -/
theorem System.exec_wraps (hinv : RegistryInv s.world) (hr : r.doubleWraps m token s.world = true) :
    (s.exec env r).world.wrapsFor masterKeyId + (s.exec env r).world.vacant m token masterKeyId +
        s.world.writeCachesMade m ⟨token⟩ ≤
      s.world.wrapsFor masterKeyId + s.world.vacant m token masterKeyId +
        (s.exec env r).world.writeCachesMade m ⟨token⟩ := by
  cases r with
  | encrypt m' config enc =>
    simp only [Request.doubleWraps, Bool.and_eq_true, decide_eq_true_eq] at hr
    obtain ⟨⟨rfl, hd⟩, htoken⟩ := hr
    exact fileEncryptionProperties_wraps hinv hd htoken rfl
  | _ => cases hr

variable (env token masterKeyId) in
/-- In any part of a run the KMS wraps at most once for each write cache that is made for the token, and once for the
    cache that was registered before. -/
theorem System.wraps_le_caches (rs : List Request) {s : System} (hinv : RegistryInv s.world)
    (hm : m < s.world.nextManager) :
    s.counted env (Request.doubleWraps m token) (World.wrapsFor masterKeyId) rs +
        (s.run env rs).world.vacant m token masterKeyId ≤
      s.world.vacant m token masterKeyId +
        s.counted env (Request.on m) (World.writeCachesMade m ⟨token⟩) rs := by
  induction rs generalizing s with
  | nil => exact (Nat.add_comm ..).le
  | cons r rs ih =>
    have hgrows := System.exec_grows env s r
    have hinv' : RegistryInv (s.exec env r).world := System.exec_registryInv hinv
    have hrest := ih hinv' (lt_of_lt_of_le hm hgrows.nextManager)
    have hmade := (made_grows (m := m) hgrows ⟨token⟩).1
    show (if r.doubleWraps m token s.world = true then _ else 0) + _ + _ ≤
      _ + ((if Request.on m s.world r = true then _ else 0) + _)
    by_cases hw : r.doubleWraps m token s.world = true
    · have hstep := System.exec_wraps env masterKeyId hinv hw
      have hwraps := wrapsFor_grows masterKeyId hgrows
      rw [if_pos hw, if_pos (Request.on_iff.mpr (Request.doubleWraps_on hw))]
      change _ + (((s.exec env r).run env rs).world.vacant m token masterKeyId) ≤ _
      omega
    · rw [if_neg hw]
      change _ + (((s.exec env r).run env rs).world.vacant m token masterKeyId) ≤ _
      by_cases hr : r.factory = some m
      · have hstep := System.exec_vacant_le env token masterKeyId (r := r) hinv hm
        rw [if_pos (Request.on_iff.mpr hr)]
        omega
      · have hstep := System.exec_vacant_other env token masterKeyId hinv hm hr
        rw [if_neg (mt Request.on_iff.mp hr)]
        omega

theorem vacant_le_one {w : World} : w.vacant m token masterKeyId ≤ 1 := by
  unfold World.vacant
  split
  · exact lacks_le_one
  · exact Nat.zero_le 1

/-- A factory shares its KEKs: in a time shorter than the lifetimes that are asked for, the files that it writes under a
    token, with double wrapping, have a KEK wrapped at most twice for a master key, and at most once if no cache was
    registered for the token before. -/
theorem keks_reused {P : System → Request → Prop} {rs : List Request} {d : Duration} (h : System.Reach env P s)
    (hm : m < s.world.nextManager) (hlong : ∀ r ∈ rs, r.factory = some m → AtLeast d r.cacheLifetime)
    (hclock : (s.run env rs).world.clock < s.world.clock + d.nanos) (token masterKeyId : String) :
    s.counted env (Request.doubleWraps m token) (World.wrapsFor masterKeyId) rs ≤ 2 ∧
      ((s.world.writeRegistry m).lookup ⟨token⟩ = none →
        s.counted env (Request.doubleWraps m token) (World.wrapsFor masterKeyId) rs ≤ 1) := by
  have hcaches : s.counted env (Request.on m) (World.writeCachesMade m ⟨token⟩) rs ≤ 1 :=
    (writeCaches_factoryCache ⟨token⟩).counted_le_one rs hm hlong hclock
  have hwraps := System.wraps_le_caches env token masterKeyId rs (registryInv h) hm
  have hvacant : s.world.vacant m token masterKeyId ≤ 1 := vacant_le_one
  refine ⟨by omega, fun hnone => ?_⟩
  have hzero : s.world.vacant m token masterKeyId = 0 := by
    unfold World.vacant
    rw [hnone]
  omega

end

/-- Both files of the sample have their footers' KEK wrapped once. -/
theorem keks_reused_sample :
    sampleReuse.counted Env.sample (Request.doubleWraps 0 "DEFAULT") (World.wrapsFor "kf") sampleWrites = 1 ∧
      ∀ masterKeyId, sampleReuse.counted Env.sample (Request.doubleWraps 0 "DEFAULT") (World.wrapsFor masterKeyId)
        sampleWrites ≤ 1 := by
  refine ⟨by decide +kernel, fun masterKeyId => ?_⟩
  have hreach : System.Reach Env.sample (fun _ _ => True) sampleReuse := .step _ (.init _ _) trivial trivial
  exact (keks_reused hreach (by decide +kernel) sampleWrites_atLeast (by decide +kernel) "DEFAULT" masterKeyId).2
    (by decide +kernel)

end ParquetKeyManagement
