/-
  ParquetKeyManagement.Factory.Draws — where the bytes of keys come from.

  The uses of the random number generator are numbered. `DrawsFrom P S` bounds what a call does
  with them on its way: the KMS is given only bytes of uses that satisfy `P`, KEKs are stored
  only if such uses drew them, and the write caches that are registered are new ones and expire
  a lifetime in `S` after they were registered.
  - `generateKey_draws`: the data key is drawn first, the nonce later; the KEK was in the cache
    before, or is drawn in between.
  - `exec_draws`: what a request that writes no file does.
-/

import ParquetKeyManagement.Factory.RoundTrip
import ParquetKeyManagement.Kms.Lifetimes
import ParquetKeyManagement.Keys.Retrieval

namespace ParquetKeyManagement

open Effect

/-- The generator answered use `i` with that nonce. -/
def Env.DrewNonce (env : Env) (i : Nat) (nonce : Bytes) : Prop := ∃ h, env.fill i nonceLen = some ⟨nonce, h⟩

/-- The configuration a client was asked for with. -/
def KmsEvent.requested : KmsEvent → Option KmsConnectionConfigDetails
  | .createClient config _ => some config
  | _ => none

variable (env : Env)

/-- A use that satisfies `P` drew the KEK, and the next one its id, before use `n`. -/
structure KekFrom (P : Nat → Prop) (n : Nat) (kek : KeyEncryptionKey) : Prop where
  encoded : kek.encodedKeyId = Base64.encode kek.keyId
  drawn : ∃ i, P i ∧ i + 1 < n ∧ env.Drew i kek.key ∧ env.Drew (i + 1) kek.keyId

def KeksFrom (P : Nat → Prop) (a : KekWriteCache) (w : World) : Prop :=
  ∀ masterKeyId kek, (w.writeCaches a).data.lookup masterKeyId = some kek → KekFrom env P w.calls kek

/-- The entry expires a lifetime in `S` after some moment between `lo` and `hi`. -/
def RegisteredWithin {ν : Type} (S : Option Duration → Prop) (lo hi : Instant) (v : ExpiringCacheValue ν) : Prop :=
  ∃ t lifetime, lo ≤ t ∧ t ≤ hi ∧ S lifetime ∧ v.expirationTime = lifetime.map fun d => t + d.nanos

structure DrawsFrom (P : Nat → Prop) (S : Option Duration → Prop) (w w' : World) : Prop where
  clock : w.clock ≤ w'.clock
  calls : w.calls ≤ w'.calls
  given : ∀ client keyBytes masterKeyId result, .wrapKey client keyBytes masterKeyId result ∈ w'.log →
    .wrapKey client keyBytes masterKeyId result ∈ w.log ∨ ∃ i < w'.calls, P i ∧ env.Drew i keyBytes
  stored : ∀ a masterKeyId kek, (w'.writeCaches a).data.lookup masterKeyId = some kek →
    (w.writeCaches a).data.lookup masterKeyId = some kek ∨ KekFrom env P w'.calls kek
  registered : ∀ m key v, (w'.writeRegistry m).lookup key = some v → (w.writeRegistry m).lookup key = some v ∨
    (KeksFrom env P v.value w' ∧ RegisteredWithin S w.clock w'.clock v)

section

variable {env} {P Q : Nat → Prop} {S : Option Duration → Prop} {w w' w'' : World}

theorem KekFrom.mono {n n' : Nat} {kek : KeyEncryptionKey} (h : KekFrom env P n kek)
    (hPQ : ∀ i, P i → Q i) (hn : n ≤ n') :
    KekFrom env Q n' kek := by
  obtain ⟨i, hP, hi, hkey, hid⟩ := h.drawn
  exact ⟨h.encoded, i, hPQ i hP, lt_of_lt_of_le hi hn, hkey, hid⟩

theorem RegisteredWithin.mono {ν : Type} {lo lo' hi hi' : Instant} {v : ExpiringCacheValue ν}
    (h : RegisteredWithin S lo hi v) (hlo : lo' ≤ lo) (hhi : hi ≤ hi') : RegisteredWithin S lo' hi' v := by
  obtain ⟨t, lifetime, h1, h2, hS, he⟩ := h
  exact ⟨t, lifetime, hlo.trans h1, h2.trans hhi, hS, he⟩

/-- The KEKs in a cache keep their source. -/
theorem KeksFrom.later {a : KekWriteCache} (h : KeksFrom env Q a w) (hd : DrawsFrom env P S w w')
    (hPQ : ∀ i, P i → Q i) :
    KeksFrom env Q a w' := by
  intro masterKeyId kek hl
  rcases hd.stored a masterKeyId kek hl with h1 | h1
  · exact (h masterKeyId kek h1).mono (fun _ h => h) hd.calls
  · exact h1.mono hPQ (le_refl _)

namespace DrawsFrom

theorem refl (w : World) : DrawsFrom env P S w w :=
  ⟨le_refl _, le_refl _, fun _ _ _ _ h => Or.inl h, fun _ _ _ h => Or.inl h, fun _ _ _ h => Or.inl h⟩

theorem trans (h : DrawsFrom env P S w w') (h' : DrawsFrom env P S w' w'') : DrawsFrom env P S w w'' where
  clock := h.clock.trans h'.clock
  calls := h.calls.trans h'.calls
  given client keyBytes masterKeyId result hin := by
    rcases h'.given client keyBytes masterKeyId result hin with h1 | h1
    · refine (h.given client keyBytes masterKeyId result h1).imp id fun h2 => ?_
      obtain ⟨i, hi, hP, hd⟩ := h2
      exact ⟨i, lt_of_lt_of_le hi h'.calls, hP, hd⟩
    · exact Or.inr h1
  stored a masterKeyId kek hl := by
    rcases h'.stored a masterKeyId kek hl with h1 | h1
    · exact (h.stored a masterKeyId kek h1).imp id fun h2 => h2.mono (fun _ h => h) h'.calls
    · exact Or.inr h1
  registered m key v hl := by
    rcases h'.registered m key v hl with h1 | ⟨hk, hr⟩
    · exact (h.registered m key v h1).imp id fun h2 =>
        ⟨h2.1.later h' fun _ h => h, h2.2.mono (le_refl _) h'.clock⟩
    · exact Or.inr ⟨hk, hr.mono h.clock (le_refl _)⟩

theorem mono (h : DrawsFrom env P S w w') (hPQ : ∀ i, P i → Q i) : DrawsFrom env Q S w w' where
  clock := h.clock
  calls := h.calls
  given client keyBytes masterKeyId result hin := (h.given client keyBytes masterKeyId result hin).imp id fun h1 => by
    obtain ⟨i, hi, hP, hd⟩ := h1
    exact ⟨i, hi, hPQ i hP, hd⟩
  stored a masterKeyId kek hl := (h.stored a masterKeyId kek hl).imp id fun h1 => h1.mono hPQ (le_refl _)
  registered m key v hl := (h.registered m key v hl).imp id fun h1 =>
    ⟨fun masterKeyId kek hk => (h1.1 masterKeyId kek hk).mono hPQ (le_refl _), h1.2⟩

theorem of_path (path : Relation.ReflTransGen (DrawsFrom env P S) w w') : DrawsFrom env P S w w' :=
  path_keeps (I := DrawsFrom env P S w) (fun _ _ h h' => h.trans h') path (refl w)

/-- Only the log may show anything, and no key that was wrapped. -/
theorem silent (hg : w.Grows w') (hw : w'.writeCaches = w.writeCaches) (hm : w'.managers = w.managers)
    (hl : ∀ client keyBytes masterKeyId result, .wrapKey client keyBytes masterKeyId result ∈ w'.log →
      .wrapKey client keyBytes masterKeyId result ∈ w.log) : DrawsFrom env P S w w' where
  clock := hg.clock
  calls := hg.calls
  given client keyBytes masterKeyId result hin := Or.inl (hl client keyBytes masterKeyId result hin)
  stored a masterKeyId kek hk := Or.inl (by rwa [hw] at hk)
  registered m key v hk := Or.inl (by unfold World.writeRegistry at hk ⊢; rwa [hm] at hk)

theorem wrap {i : Nat} {keyBytes : Bytes} (hi : i ≤ w.calls) (hP : P i) (hd : env.Drew i keyBytes) (client : KmsClient)
    (masterKeyId : String) (result : Except ParquetError String) :
    DrawsFrom env P S w (w.record (.wrapKey client keyBytes masterKeyId result)) where
  clock := le_refl _
  calls := Nat.le_succ _
  given client' keyBytes' masterKeyId' result' hin := by
    rcases List.mem_append.mp hin with h | h
    · exact Or.inl h
    · cases List.mem_singleton.mp h
      exact Or.inr ⟨i, Nat.lt_succ_of_le hi, hP, hd⟩
  stored _ _ _ hk := Or.inl hk
  registered _ _ _ hk := Or.inl hk

/-- A drawn KEK is stored. -/
theorem storeKek (k : KeyWrapper) (masterKeyId : String) {kek : KeyEncryptionKey} (hk : KekFrom env P w.calls kek) :
    DrawsFrom env P S w (k.keks.modify (fun m => m.insert masterKeyId kek) w) where
  clock := le_refl _
  calls := le_refl _
  given _ _ _ _ hin := Or.inl hin
  stored a masterKeyId' kek' hl := by
    change (Function.update w.writeCaches k.masterKeyToKek _ a).data.lookup masterKeyId' = some kek' at hl
    by_cases ha : a = k.masterKeyToKek
    · subst ha
      rw [Function.update_self] at hl
      change ((w.writeCaches k.masterKeyToKek).data.insert masterKeyId kek).lookup masterKeyId' = some kek' at hl
      by_cases hid : masterKeyId' = masterKeyId
      · subst hid
        rw [AList.lookup_insert] at hl
        cases hl
        exact Or.inr hk
      · rw [AList.lookup_insert_ne hid] at hl; exact Or.inl hl
    · rw [Function.update_of_ne ha] at hl; exact Or.inl hl
  registered _ _ _ hl := Or.inl hl

theorem poison (a : KekWriteCache) (w : World) : DrawsFrom env P S w (poison (writeCachePlace a) w) where
  clock := le_refl _
  calls := le_refl _
  given _ _ _ _ hin := Or.inl hin
  stored a' masterKeyId kek hl := by
    change (Function.update w.writeCaches a _ a').data.lookup masterKeyId = some kek at hl
    by_cases ha : a' = a
    · subst ha; rw [Function.update_self] at hl; exact Or.inl hl
    · rw [Function.update_of_ne ha] at hl; exact Or.inl hl
  registered _ _ _ hl := Or.inl hl

end DrawsFrom

/-! ## The registry -/

section

variable {m : ManagerId} {config : KmsConnectionConfig} {lifetime : Option Duration}

/-- A write cache that is registered on the way is new, and empty. -/
theorem registered_empty (path : Relation.ReflTransGen (ManagerMove m config lifetime) w w') (m' : ManagerId)
    {key : KekCacheKey} {v : ExpiringCacheValue KekWriteCache} (hl : (w'.writeRegistry m').lookup key = some v) :
    (w.writeRegistry m').lookup key = some v ∨
      (m' = m ∧ ∀ masterKeyId, (w'.writeCaches v.value).data.lookup masterKeyId = none) := by
  induction path with
  | refl => exact Or.inl hl
  | @tail w1 w2 _ hm ih =>
    have hnone : ∀ a, (∀ masterKeyId, (w1.writeCaches a).data.lookup masterKeyId = none) →
        ∀ masterKeyId, (w2.writeCaches a).data.lookup masterKeyId = none := by
      intro a h1 masterKeyId
      cases hk : (w2.writeCaches a).data.lookup masterKeyId with
      | none => rfl
      | some kek =>
        have := hm.writeKeks_lookup hk
        rw [h1 masterKeyId] at this
        cases this
    rcases hm.writeRegistry_lookup hl with h1 | ⟨rfl, hfresh⟩
    · exact (ih h1).imp id fun h2 => ⟨h2.1, hnone _ h2.2⟩
    · refine Or.inr ⟨rfl, hnone _ fun masterKeyId => ?_⟩
      rw [hfresh.2]
      rfl

/-- The registry asks user code for clients only. -/
theorem ManagerMove.log_kept (h : ManagerMove m config lifetime w w') {x : KmsEvent} (hx : x.requested = none)
    (hin : x ∈ w'.log) : x ∈ w.log := by
  cases h with
  | create r _ =>
    rcases List.mem_append.mp hin with h1 | h1
    · exact h1
    · rw [List.mem_singleton.mp h1] at hx
      cases hx
  | clients hc => obtain ⟨c, rfl⟩ := hc.eq_set; exact hin
  | readCaches hc => obtain ⟨c, rfl⟩ := hc.eq_set; exact hin
  | writeCaches hc => obtain ⟨c, rfl⟩ := hc.eq_set; exact hin
  | _ => exact hin

/-- The registry gives the KMS nothing, and stores no KEK. -/
theorem DrawsFrom.of_registry (path : Relation.ReflTransGen (ManagerMove m config lifetime) w w')
    (hreg : ∀ key v, (w'.writeRegistry m).lookup key = some v →
      (w.writeRegistry m).lookup key = some v ∨ RegisteredWithin S w.clock w'.clock v) : DrawsFrom env P S w w' where
  clock := (World.Grows.of_path (fun _ _ h => ManagerMove.grows h) path).clock
  calls := (World.Grows.of_path (fun _ _ h => ManagerMove.grows h) path).calls
  given client keyBytes masterKeyId result hin := by
    refine Or.inl (path_keeps (I := fun v => .wrapKey client keyBytes masterKeyId result ∈ v.log →
      .wrapKey client keyBytes masterKeyId result ∈ w.log) (fun _ _ hi hm h => hi (hm.log_kept rfl h))
        path (fun h => h) hin)
  stored a masterKeyId kek hl := by
    refine Or.inl (path_keeps (I := fun v => (v.writeCaches a).data.lookup masterKeyId = some kek →
      (w.writeCaches a).data.lookup masterKeyId = some kek) (fun _ _ hi hm h => hi (hm.writeKeks_lookup h)) path
      (fun h => h) hl)
  registered m' key v hl := by
    rcases registered_empty path m' hl with h1 | ⟨rfl, hempty⟩
    · exact Or.inl h1
    · exact (hreg key v hl).imp id fun hr => ⟨fun masterKeyId kek hk => (by rw [hempty] at hk; cases hk), hr⟩

end

variable (m : ManagerId) (config : KmsConnectionConfig) (lifetime : Option Duration)

/-- Whatever else is known of a call, it is one step. -/
theorem DrawsFrom.along {α : Type} {move : World → World → Prop} {x : Call α} {p : α → World → Prop}
    {q : ParquetError → World → Prop} {d : World → Prop} (hd : DrawsFrom env P S w (x w).2) (h : Along move x w p q d) :
    Along (DrawsFrom env P S) x w p q d := ⟨.single hd, h.ok, h.err, h.panic⟩

/-- Clients are had without registering a write cache. -/
theorem getClient_draws (w : World) :
    Along (DrawsFrom env P S) (KmsManager.getClient env m config lifetime) w (fun _ _ => True) (fun _ _ => True)
      (fun _ => True) := by
  have halong := KmsManager.getClient_along env m config lifetime (Nat.zero_le w.log.length)
  have hclean := ExpiringCache.CacheOp.cleans_path env
    (KmsManager.getClient_writeOps env m config lifetime w fun _ => False) (KmsManager.writeCaches_apart m)
  exact DrawsFrom.along (.of_registry halong.path fun key v hl => Or.inl (hclean.kept hl))
    (halong.mono (fun _ _ _ => trivial) (fun _ _ _ => trivial) fun _ _ => trivial)

theorem getKekReadCache_draws (w : World) :
    Along (DrawsFrom env P S) (KmsManager.getKekReadCache env m config lifetime) w (fun _ _ => True) (fun _ _ => True)
      (fun _ => True) := by
  have halong := KmsManager.getKekReadCache_along env m config lifetime w
  have hclean := ExpiringCache.CacheOp.cleans_path env
    (KmsManager.getKekReadCache_writeOps env m config lifetime w fun _ => False) (KmsManager.writeCaches_apart m)
  exact DrawsFrom.along (.of_registry halong.path fun key v hl => Or.inl (hclean.kept hl))
    (halong.mono (fun _ _ _ => trivial) (fun _ _ _ => trivial) fun _ _ => trivial)

/-- The write cache that is answered is registered for the token: it was there before, or expires the caller's lifetime
    after some moment of the call. -/
theorem getKekWriteCache_draws (hS : S lifetime) (w : World) :
    Along (DrawsFrom env P S) (KmsManager.getKekWriteCache env m config lifetime) w
      (fun a w' => HeldWriteCache m (w'.tokens config.keyAccessToken) a w') (fun _ _ => True) (fun _ => True) := by
  have halong := KmsManager.getKekWriteCache_along env m config lifetime w
  have hclock := (World.Grows.of_path (fun _ _ h => ManagerMove.grows h) halong.path).clock
  obtain ⟨w1, ⟨hclean, hform⟩, -⟩ := KmsManager.getKekWriteCache_uses env m config lifetime w
  have hsourced : ExpiringCache.Sourced (writeCachesPlace m)
      (fun key v => (w.writeRegistry m).lookup key = some v ∨
        RegisteredWithin S w.clock (KmsManager.getKekWriteCache env m config lifetime w).2.clock v)
      (KmsManager.getKekWriteCache env m config lifetime w).2 := by
    have hbefore : ExpiringCache.Sourced (writeCachesPlace m)
        (fun key v => (w.writeRegistry m).lookup key = some v ∨
          RegisteredWithin S w.clock (KmsManager.getKekWriteCache env m config lifetime w).2.clock v) w1 :=
      fun key v hl => Or.inl (hclean.kept hl)
    rcases hform with hform | hform
    · rw [hform] at hclock hbefore ⊢
      refine hbefore.use env (KmsManager.writeCaches_apart m) (KmsManager.newWriteCache_creator m _) _ lifetime
        fun v w' hrun _ => ?_
      rw [hrun] at hclock ⊢
      exact Or.inr ⟨w'.clock, lifetime, hclock, le_refl _, hS, rfl⟩
    · rw [hform] at hbefore ⊢
      exact hbefore
  exact DrawsFrom.along (.of_registry halong.path fun key v hl => hsourced key v hl)
    (halong.mono (fun _ _ h => h) (fun _ _ _ => trivial) fun _ _ => trivial)

/-! ## Writing a key -/

theorem fill_draws (len : Nat) (w : World) :
    Along (DrawsFrom env P S) (fill env len) w
      (fun bytes w' => w'.calls = w.calls + 1 ∧ w'.writeCaches = w.writeCaches ∧
        ∃ h, env.fill w.calls len = some ⟨bytes, h⟩) (fun _ _ => True) (fun _ => True) := by
  have path : Relation.ReflTransGen (DrawsFrom env P S) w (w.tick 0) :=
    .single (.silent (w.grows_tick 0) rfl rfl fun _ _ _ _ h => h)
  cases hr : env.fill w.calls len with
  | some bytes =>
    refine Along.of_ok (a := bytes.1) (t := w.tick 0) ?_ path ⟨rfl, rfl, bytes.2, rfl⟩
    simp only [fill, hr]
  | none =>
    refine Along.of_err (t := w.tick 0) (e := .external "ring::error::Unspecified") ?_ path trivial
    simp only [fill, hr]

theorem wrapKey_draws {i : Nat} {keyBytes : Bytes} {w : World} (hi : i ≤ w.calls) (hP : P i) (hd : env.Drew i keyBytes)
    (client : KmsClient) (masterKeyId : String) :
    Along (DrawsFrom env P S) (wrapKey env client keyBytes masterKeyId) w (fun _ w' => w'.calls = w.calls + 1)
      (fun _ _ => True) (fun _ => True) := by
  have path := Relation.ReflTransGen.single (DrawsFrom.wrap hi hP hd client masterKeyId
    (env.wrapKey w.calls client keyBytes masterKeyId) : DrawsFrom env P S w _)
  cases hr : env.wrapKey w.calls client keyBytes masterKeyId with
  | ok wrapped =>
    rw [hr] at path
    refine Along.of_ok (a := wrapped) ?_ path rfl
    simp only [wrapKey, hr]
  | error e =>
    rw [hr] at path
    refine Along.of_err (e := e) ?_ path trivial
    simp only [wrapKey, hr]

/-- A new KEK is drawn on the way, and given to the KMS. -/
theorem generateKek_draws (masterKeyId : String) {w : World} (hP : ∀ i, w.calls ≤ i → P i) :
    Along (DrawsFrom env P S) (generateKeyEncryptionKey env masterKeyId m config lifetime) w
      (fun kek w' => KekFrom env P w'.calls kek) (fun _ _ => True) (fun _ => True) := by
  unfold generateKeyEncryptionKey
  refine (fill_draws kekLen w).bind fun key w1 _ h1 => ?_
  obtain ⟨hcalls1, -, hkey⟩ := h1
  refine (fill_draws kekLen w1).bind fun keyId w2 _ h2 => ?_
  obtain ⟨hcalls2, -, hkeyId⟩ := h2
  rw [hcalls1] at hkeyId
  refine (getClient_draws m config lifetime w2).bind fun client w3 path3 _ => ?_
  have h3 := (DrawsFrom.of_path path3).calls
  refine (wrapKey_draws (by omega) (hP w.calls (le_refl _)) hkey client masterKeyId).bind fun wrappedKey w4 _ h4 => ?_
  exact Along.pure ⟨rfl, w.calls, hP w.calls (le_refl _), by omega, hkey, hkeyId⟩

variable (k : KeyWrapper)

/-- The KEK comes from the cache, or is drawn on the way. -/
theorem getKek_draws (masterKeyId : String) {w : World} (hP : ∀ i, w.calls ≤ i → P i) (hPQ : ∀ i, P i → Q i)
    (hkeks : KeksFrom env Q k.masterKeyToKek w) :
    Along (DrawsFrom env P S) (k.getKek env masterKeyId) w (fun kek w' => KekFrom env Q w'.calls kek) (fun _ _ => True)
      (fun _ => True) := by
  unfold KeyWrapper.getKek
  refine Along.bind (Along.read (p := fun c w' => c = k.keks.get w' ∧ w' = w) ⟨rfl, rfl⟩) fun cache w1 _ h1 => ?_
  obtain ⟨rfl, rfl⟩ := h1
  cases hl : (k.keks.get w1).lookup masterKeyId with
  | some kek => exact Along.pure (hkeks masterKeyId kek hl)
  | none =>
    refine (generateKek_draws _ _ _ masterKeyId hP).bind fun kek w2 _ h2 => ?_
    refine Along.bind (p := fun _ w' => KekFrom env Q w'.calls kek)
      (Along.modify (.storeKek k masterKeyId h2) (h2.mono hPQ (le_refl _))) fun _ w3 _ h3 => Along.pure h3

/-- The wrapped DEK begins with the nonce that was drawn. -/
theorem encrypt_draws (dek kekId kekBytes : Bytes) (w : World) :
    Along (DrawsFrom env P S) (encryptEncryptionKey env dek kekId kekBytes) w
      (fun wrappedDek w' => w.calls < w'.calls ∧ ∃ nonce rest, env.DrewNonce w.calls nonce ∧
        wrappedDek = Base64.encode (nonce ++ rest)) (fun _ _ => True) (fun _ => True) := by
  unfold encryptEncryptionKey
  refine Along.bind (Along.ofExcept (p := fun _ w' => w' = w) (fun _ _ => rfl) fun _ _ => trivial) fun kek w1 _ h1 => ?_
  subst h1
  refine (fill_draws nonceLen w1).bind fun nonce w2 _ h2 => ?_
  obtain ⟨hcalls, -, hnonce⟩ := h2
  cases env.aes128Gcm.sealDetached kek nonce kekId dek with
  | none => exact Along.fail trivial
  | some r =>
    refine Along.pure ⟨?_, nonce, r.1 ++ r.2, hnonce, by rw [List.append_assoc]⟩
    omega

end

/-- How a material made between the uses `lo` and `hi` wraps its key: under double wrapping with a KEK from `Q`, and
    with a nonce that was drawn by the use given. -/
inductive WrapsWith (Q : Nat → Prop) (lo hi : Nat) (m : KeyMaterial) : Option Nat → Prop
  | single : m.doubleWrapping = false → m.keyEncryptionKeyId = none → WrapsWith Q lo hi m none
  | double (i : Nat) (nonce rest : Bytes) (kek : KeyEncryptionKey) : m.doubleWrapping = true → lo ≤ i → i < hi →
    env.DrewNonce i nonce → m.wrappedDek = Base64.encode (nonce ++ rest) → KekFrom env Q hi kek →
    m.keyEncryptionKeyId = some kek.encodedKeyId → WrapsWith Q lo hi m (some i)

/-- A key with its metadata, and the uses of the generator that it and its nonce came from. -/
structure DrawnKey where
  key : EncryptionKey
  dek : Nat
  nonce : Option Nat

/-- The key was made between the uses `lo` and `hi`, with a KEK from `Q`. -/
structure DrawnKey.Sound (Q : Nat → Prop) (lo hi : Nat) (d : DrawnKey) : Prop where
  lo_le : lo ≤ d.dek
  lt_hi : d.dek < hi
  drew : env.Drew d.dek d.key.key
  material : ∃ m, KeyUnwrapper.readMaterial env d.key.metadata = .ok m ∧ WrapsWith env Q lo hi m d.nonce

section

variable {env} {P Q : Nat → Prop} {S : Option Duration → Prop} {w : World} (k : KeyWrapper)

theorem WrapsWith.mono {lo lo' hi hi' : Nat} {m : KeyMaterial} {nonce : Option Nat} (h : WrapsWith env P lo hi m nonce)
    (hPQ : ∀ i, P i → Q i) (hlo : lo' ≤ lo) (hhi : hi ≤ hi') : WrapsWith env Q lo' hi' m nonce := by
  cases h with
  | single hd hk => exact .single hd hk
  | double i nonce rest kek hd h1 h2 hn hw hkek hk =>
    exact .double i nonce rest kek hd (hlo.trans h1) (lt_of_lt_of_le h2 hhi) hn hw (hkek.mono hPQ hhi) hk

/-- The use that drew the id of the KEK, which is the one after that of the KEK. -/
theorem WrapsWith.kekId {lo hi : Nat} {m : KeyMaterial} {nonce : Option Nat} (h : WrapsWith env Q lo hi m nonce)
    {kekId : String} (hk : m.keyEncryptionKeyId = some kekId) :
    ∃ i keyId, Q i ∧ i + 1 < hi ∧ env.Drew (i + 1) keyId ∧ kekId = Base64.encode keyId := by
  cases h with
  | single _ hnone => rw [hnone] at hk; cases hk
  | double _ _ _ kek _ _ _ _ _ hkek hsome =>
    obtain ⟨i, hQ, hi, _, hid⟩ := hkek.drawn
    rw [hsome] at hk
    cases hk
    exact ⟨i, kek.keyId, hQ, hi, hid, hkek.encoded⟩

theorem DrawnKey.Sound.mono {lo lo' hi hi' : Nat} {d : DrawnKey} (h : d.Sound env P lo hi) (hPQ : ∀ i, P i → Q i)
    (hlo : lo' ≤ lo) (hhi : hi ≤ hi') : d.Sound env Q lo' hi' := by
  obtain ⟨m, hread, hw⟩ := h.material
  exact ⟨hlo.trans h.lo_le, lt_of_lt_of_le h.lt_hi hhi, h.drew, m, hread, hw.mono hPQ hlo hhi⟩

theorem DrawnKey.Sound.nonce_between {lo hi : Nat} {d : DrawnKey} (h : d.Sound env Q lo hi) {i : Nat}
    (hnonce : d.nonce = some i) : lo ≤ i ∧ i < hi := by
  obtain ⟨m, _, hw⟩ := h.material
  rw [hnonce] at hw
  cases hw with
  | double _ _ _ _ _ hlo hhi _ _ _ _ => exact ⟨hlo, hhi⟩

theorem doubleWrap_draws (key : Bytes) (masterKeyId : String) (b : KeyMaterialBuilder) (hP : ∀ i, w.calls ≤ i → P i)
    (hPQ : ∀ i, P i → Q i) (hkeks : KeksFrom env Q k.masterKeyToKek w) :
    Along (DrawsFrom env P S) (k.doubleWrap env key masterKeyId b) w
      (fun m w' => m.keyMaterialType = "PKMT1" ∧ ∃ i, WrapsWith env Q w.calls w'.calls m (some i)) (fun _ _ => True)
      (fun _ => True) := by
  refine Along.lock (fun _ => True) (fun _ => trivial) (fun _ => ?_) fun w' _ _ =>
    ⟨.poison k.masterKeyToKek w', trivial⟩
  refine (getKek_draws k masterKeyId hP hPQ hkeks).bind fun kek w1 path1 hkek => ?_
  refine (encrypt_draws key kek.keyId kek.key w1).bind fun wrappedDek w2 _ h2 => ?_
  obtain ⟨hcalls, nonce, rest, hd, he⟩ := h2
  refine Along.ofExcept (fun m hm => ?_) fun _ _ => trivial
  have hbuilt := KeyMaterialBuilder.build_ok hm
  exact ⟨hbuilt.keyMaterialType, w1.calls, .double w1.calls nonce rest kek hbuilt.doubleWrapping
    (DrawsFrom.of_path path1).calls hcalls hd ((Option.some.inj hbuilt.wrappedDek).trans he)
    (hkek.mono (fun _ h => h) (le_of_lt hcalls)) hbuilt.keyEncryptionKeyId⟩

theorem singleWrap_draws {key : Bytes} {i : Nat} (masterKeyId : String) (isFooterKey : Bool)
    (hi : i ≤ w.calls) (hP : P i) (hd : env.Drew i key) :
    Along (DrawsFrom env P S) (k.singleWrap env key masterKeyId (k.materialBuilder isFooterKey)) w
      (fun m w' => m.keyMaterialType = "PKMT1" ∧ WrapsWith env Q w.calls w'.calls m none) (fun _ _ => True)
      (fun _ => True) := by
  unfold KeyWrapper.singleWrap
  refine (getClient_draws _ _ _ w).bind fun client w1 path1 _ => ?_
  refine (wrapKey_draws (hi.trans (DrawsFrom.of_path path1).calls) hP hd client masterKeyId).bind
    fun wrapped w2 _ _ => ?_
  refine Along.ofExcept (fun m hm => ?_) fun _ _ => trivial
  have hbuilt := KeyMaterialBuilder.build_ok hm
  have hnone : (k.materialBuilder isFooterKey).keyEncryptionKeyId = none := by cases isFooterKey <;> rfl
  exact ⟨hbuilt.keyMaterialType, .single hbuilt.doubleWrapping (hbuilt.keyEncryptionKeyId.trans hnone)⟩

theorem getKeyMetadata_draws {key : Bytes} {i : Nat} (masterKeyId : String) (isFooterKey : Bool) (hi : i < w.calls)
    (hd : env.Drew i key) (hP : ∀ j, w.calls ≤ j → P j)
    (hsingle : k.encryptionConfiguration.doubleWrapping = false → P i) (hPQ : ∀ i, P i → Q i)
    (hkeks : KeksFrom env Q k.masterKeyToKek w) :
    Along (DrawsFrom env P S) (k.getKeyMetadata env key masterKeyId isFooterKey) w
      (fun metadata w' => ∃ m nonce, KeyUnwrapper.readMaterial env metadata = .ok m ∧
        WrapsWith env Q w.calls w'.calls m nonce ∧ nonce.isSome = k.encryptionConfiguration.doubleWrapping)
      (fun _ _ => True) (fun _ => True) := by
  unfold KeyWrapper.getKeyMetadata
  refine Along.bind (p := fun m w' => m.keyMaterialType = "PKMT1" ∧ ∃ nonce, WrapsWith env Q w.calls w'.calls m nonce ∧
    nonce.isSome = k.encryptionConfiguration.doubleWrapping) ?_ fun m w1 _ h1 => ?_
  · unfold KeyWrapper.wrap
    cases hdw : k.encryptionConfiguration.doubleWrapping with
    | true =>
      exact (doubleWrap_draws k key masterKeyId _ hP hPQ hkeks).mono
        (fun m w' h => ⟨h.1, by obtain ⟨_, j, hj⟩ := h; exact ⟨some j, hj, rfl⟩⟩) (fun _ _ h => h) fun _ h => h
    | false =>
      exact (singleWrap_draws k masterKeyId isFooterKey (le_of_lt hi) (hsingle hdw) hd).mono
        (fun m w' h => ⟨h.1, none, h.2, rfl⟩) (fun _ _ h => h) fun _ h => h
  · obtain ⟨htype, nonce, hnonce⟩ := h1
    obtain ⟨text, ht⟩ := m.serialize_ok env
    rw [ht]
    refine Along.bind (p := fun a w' => a = text ∧ w' = w1) (Along.of_ok rfl .refl ⟨rfl, rfl⟩) fun a w2 _ h2 => ?_
    obtain ⟨rfl, rfl⟩ := h2
    exact Along.pure ⟨m, nonce, (KeyWrapper.readMaterial_intoBytes env a).trans
      (KeyMaterial.deserialize_serialize env htype ht), hnonce⟩

/-- A key is drawn first. Under double wrapping the KMS is given only what is drawn after it. -/
theorem generateKey_draws (masterKeyId : String) (isFooterKey : Bool) (hQ : ∀ i, w.calls ≤ i → Q i)
    (hkeks : KeksFrom env Q k.masterKeyToKek w) :
    Along (DrawsFrom env (fun i => w.calls ≤ i ∧ (k.encryptionConfiguration.doubleWrapping = true → w.calls ≠ i)) S)
      (CryptoFactory.generateKey env masterKeyId isFooterKey k) w
      (fun key w' => ∃ nonce, DrawnKey.Sound env Q w.calls w'.calls ⟨key, w.calls, nonce⟩ ∧
        nonce.isSome = k.encryptionConfiguration.doubleWrapping) (fun _ _ => True) (fun _ => True) := by
  unfold CryptoFactory.generateKey
  refine (fill_draws CryptoFactory.dekLen w).bind fun key w1 _ h1 => ?_
  obtain ⟨hcalls, hsame, hdrew⟩ := h1
  have hkeks1 : KeksFrom env Q k.masterKeyToKek w1 := by
    intro id kek hl
    rw [hsame] at hl
    exact (hkeks id kek hl).mono (fun _ h => h) (by omega)
  refine (getKeyMetadata_draws k masterKeyId isFooterKey (by omega : w.calls < w1.calls) hdrew
    (fun j hj => ⟨by omega, fun _ => by omega⟩) (fun hd => ⟨le_refl _, fun hd' => (by rw [hd] at hd'; cases hd')⟩)
    (fun i h => hQ i h.1) hkeks1).with_path.bind fun metadata w2 _ h2 => ?_
  obtain ⟨⟨m, nonce, hread, hwraps, hsome⟩, path2⟩ := h2
  have hg := (DrawsFrom.of_path path2).calls
  exact Along.pure ⟨nonce, ⟨le_refl _, (by show w.calls < w2.calls; omega), hdrew, m, hread,
    hwraps.mono (fun _ h => h) (by omega) (le_refl _)⟩, hsome⟩

end

/-! ## Requests that write no file -/

section

variable {env} {P : Nat → Prop} {S : Option Duration → Prop} (u : KeyUnwrapper)

theorem newFactory_draws (w : World) : DrawsFrom env P S w (CryptoFactory.new env w).2 := by
  refine .of_path ((CryptoFactory.newManager_along env w w).lift fun v v' h => ?_).path
  have hg := h.grows
  cases h with
  | clock n => exact .silent hg rfl rfl fun _ _ _ _ h => h
  | newManager _ k h1 h2 h3 =>
    refine ⟨hg.clock, hg.calls, fun _ _ _ _ h => Or.inl h, fun _ _ _ h => Or.inl h, fun m key entry hl => Or.inl ?_⟩
    change ((v.setManager v.nextManager k).managers m).kekWriteCaches.cache.data.lookup key = some entry at hl
    by_cases hm : m = v.nextManager
    · subst hm; rw [setManager_eq, h3.data] at hl; cases hl
    · rwa [setManager_ne v k hm] at hl

theorem fileDecryptionProperties_draws (m : ManagerId) (config : KmsConnectionConfig) (dec : DecryptionConfiguration)
    (w : World) : DrawsFrom env P S w (CryptoFactory.fileDecryptionProperties env m config dec w).2 := by
  refine .of_path (Along.path (p := fun _ _ => True) (q := fun _ _ => True) (d := fun _ => True) ?_)
  unfold CryptoFactory.fileDecryptionProperties KeyUnwrapper.new
  refine (getKekReadCache_draws m config dec.cacheLifetime w).bind fun a w1 _ _ => ?_
  refine Along.bind (p := fun _ _ => True) (Along.of_ok rfl (.single (.silent ?_ rfl rfl fun _ _ _ _ h => h)) trivial)
    fun slot w2 _ _ => Along.pure trivial
  exact { World.Grows.refl w1 with nextConfig := Nat.le_succ _ }

theorem unwrapWithKms_draws (wrapped masterKeyId : String) (w : World) :
    Along (DrawsFrom env P S) (u.unwrapWithKms env wrapped masterKeyId) w (fun _ _ => True) (fun _ _ => True)
      (fun _ => True) := by
  unfold KeyUnwrapper.unwrapWithKms
  refine Along.bind (Along.read (p := fun _ _ => True) trivial) fun config w1 _ _ => ?_
  refine (getClient_draws u.kmsManager config u.decryptionConfiguration.cacheLifetime w1).bind fun client w2 _ _ => ?_
  have path : ∀ result, Relation.ReflTransGen (DrawsFrom env P S) w2
      (w2.record (.unwrapKey client wrapped masterKeyId result)) := by
    intro result
    refine .single (.silent (w2.grows_record _) rfl rfl fun _ _ _ _ h => ?_)
    rcases List.mem_append.mp h with h | h
    · exact h
    · cases List.mem_singleton.mp h
  cases hr : env.unwrapKey w2.calls client wrapped masterKeyId with
  | ok key =>
    refine Along.of_ok (a := key) ?_ (path (.ok key)) trivial
    simp only [unwrapKey, hr]
  | error e =>
    refine Along.of_err (e := e) ?_ (path (.error e)) trivial
    simp only [unwrapKey, hr]

theorem getReadKek_draws (masterKeyId kekId wrappedKek : String) (w : World) :
    Along (DrawsFrom env P S) (u.getKek env masterKeyId kekId wrappedKek) w (fun _ _ => True) (fun _ _ => True)
      (fun _ => True) := by
  unfold KeyUnwrapper.getKek
  refine Along.bind (Along.read (p := fun _ _ => True) trivial) fun cache w1 _ _ => ?_
  cases cache.lookup kekId with
  | some kek => exact Along.pure trivial
  | none =>
    refine (unwrapWithKms_draws u wrappedKek masterKeyId w1).bind fun kek w2 _ _ => ?_
    refine Along.bind (p := fun _ _ => True) (Along.modify (.silent ?_ rfl rfl fun _ _ _ _ h => h) trivial)
      fun _ w3 _ _ => Along.pure trivial
    exact { World.Grows.refl w2 with }

theorem unwrapDek_draws (m : KeyMaterial) (w : World) :
    Along (DrawsFrom env P S) (u.unwrapDek env m) w (fun _ _ => True) (fun _ _ => True) (fun _ => True) := by
  unfold KeyUnwrapper.unwrapDek
  cases m.doubleWrapping with
  | false => exact unwrapWithKms_draws u m.wrappedDek m.masterKeyId w
  | true =>
    cases m.keyEncryptionKeyId with
    | none => exact Along.fail trivial
    | some kekId =>
      cases m.wrappedKek with
      | none => exact Along.fail trivial
      | some wrappedKek =>
        refine Along.lock (fun _ => True) (fun _ => trivial) (fun _ => ?_) fun w' _ _ =>
          ⟨.silent { World.Grows.refl w' with } rfl rfl fun _ _ _ _ h => h, trivial⟩
        refine (getReadKek_draws u m.masterKeyId kekId wrappedKek w).bind fun kek w1 _ _ => ?_
        refine Along.bind (Along.ofExcept (p := fun _ _ => True) (fun _ _ => trivial) fun _ _ => trivial)
          fun decodedKekId w2 _ _ => ?_
        exact ⟨.refl, fun _ _ => trivial, fun _ _ => trivial, fun _ => trivial⟩

theorem retrieveKey_draws (keyMetadata : Bytes) (w : World) :
    DrawsFrom env P S w (u.retrieveKey env keyMetadata w).2 := by
  refine .of_path (Along.path (p := fun _ _ => True) (q := fun _ _ => True) (d := fun _ => True) ?_)
  unfold KeyUnwrapper.retrieveKey
  refine Along.bind (Along.ofExcept (p := fun _ _ => True) (fun _ _ => trivial) fun _ _ => trivial) fun m w1 _ _ => ?_
  by_cases hi : ¬ m.internalStorage = true
  · rw [if_pos hi]; exact Along.fail trivial
  rw [if_neg hi]
  refine Along.bind (p := fun _ _ => True) ?_ fun _ w2 _ _ => unwrapDek_draws u m w2
  obtain ⟨c, hc⟩ := u.updateKmsConfig_set_config m w1
  refine ⟨.single ?_, fun _ _ => trivial, fun _ _ => trivial, fun _ => trivial⟩
  rw [hc]
  exact .silent { World.Grows.refl w1 with } rfl rfl fun _ _ _ _ h => h

/-- A request that writes no file gives the KMS nothing, stores no KEK and registers no write cache. -/
theorem exec_draws (s : System) {r : Request} (hr : ∀ m config enc, r ≠ .encrypt m config enc) :
    DrawsFrom env P S s.world (s.exec env r).world := by
  cases r with
  | newFactory => exact newFactory_draws s.world
  | refresh config keyAccessToken => exact .silent { World.Grows.refl s.world with } rfl rfl fun _ _ _ _ h => h
  | wait elapsed =>
    exact .silent { World.Grows.refl s.world with clock := Nat.le_add_right _ _ } rfl rfl fun _ _ _ _ h => h
  | encrypt m config enc => exact absurd rfl (hr m config enc)
  | decrypt m config dec => exact fileDecryptionProperties_draws m config dec s.world
  | retrieve u keyMetadata => exact retrieveKey_draws u keyMetadata s.world

end

end ParquetKeyManagement
