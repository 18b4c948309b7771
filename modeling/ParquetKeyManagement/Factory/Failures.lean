/-
  ParquetKeyManagement.Factory.Failures — what a call answers when something outside it fails.

  A call of user code that fails ends the library's call, with the error as it is: nothing is
  asked of the KMS after it, and no error is replaced or dropped. Where no call of user code
  failed (`Unfailing`), writing a file fails only for what the generator or the cipher refused
  (`NotWritten`), opening a reader does not fail, and retrieving a key fails for what the
  metadata says (`NotRead`). A KEK that was drawn has the length the cipher asks for, and a
  builder of key material is given all it needs, so those errors never come up.
  - `failures_surface`: so every call answers, whatever ran before.
-/

import ParquetKeyManagement.Factory.FreshKeys
import ParquetKeyManagement.Factory.SharedKeys

namespace ParquetKeyManagement

open Effect

/-- Some use of the surroundings was answered so. -/
def KmsEvent.AnsweredBy (env : Env) : KmsEvent → Prop
  | .createClient config result => ∃ i, env.createClient i config = result.map fun _ => ()
  | .wrapKey client keyBytes masterKeyId result => ∃ i, env.wrapKey i client keyBytes masterKeyId = result
  | .unwrapKey client wrapped masterKeyId result => ∃ i, env.unwrapKey i client wrapped masterKeyId = result

/-- Since `w`, no call of user code failed. -/
structure Unfailing (env : Env) (w w' : World) : Prop where
  calls : w.calls ≤ w'.calls
  log : ∃ es, w'.log = w.log ++ es ∧ ∀ x ∈ es, x.AnsweredBy env ∧ x.error = none

/-- Since `w`, the last call of user code failed with the error, and no other did. -/
def EndedWith (env : Env) (w w' : World) (e : ParquetError) : Prop :=
  ∃ es x, w'.log = w.log ++ es ++ [x] ∧ (∀ y ∈ es, y.AnsweredBy env ∧ y.error = none) ∧
  x.AnsweredBy env ∧ x.error = some e

/-- The call answers a failure of user code with its error, and has errors of its own only
    where nothing of the kind happened. -/
structure Answers (env : Env) {α : Type} (own : ParquetError → World → Prop) (x : Call α) (w : World) : Prop where
  unfailing : (∀ e, (x w).1 ≠ .err e) → Unfailing env w (x w).2
  error : ∀ e, (x w).1 = .err e → EndedWith env w (x w).2 e ∨ (Unfailing env w (x w).2 ∧ own e (x w).2)

/-- No failure is dropped or replaced. -/
theorem Answers.failed {env : Env} {α : Type} {own : ParquetError → World → Prop} {x : Call α} {w : World}
    (h : Answers env own x w)
    {y : KmsEvent} {e : ParquetError} (hy : y ∈ (x w).2.log.drop w.log.length) (he : y.error = some e) :
    (x w).1 = .err e ∧ EndedWith env w (x w).2 e := by
  have hfailing : ¬ Unfailing env w (x w).2 := by
    intro hu
    obtain ⟨es, hes, hnone⟩ := hu.log
    rw [hes, List.drop_left] at hy
    rw [(hnone y hy).2] at he
    cases he
  cases hx : (x w).1 with
  | ok a => exact absurd (h.unfailing fun e' => by rw [hx]; simp) hfailing
  | panic => exact absurd (h.unfailing fun e' => by rw [hx]; simp) hfailing
  | err e' =>
    have hended := (h.error e' hx).resolve_right fun hown => hfailing hown.1
    obtain ⟨es, z, hes, hnone, ha, hz⟩ := hended
    rw [hes, List.append_assoc, List.drop_left] at hy
    rcases List.mem_append.mp hy with hmem | hmem
    · rw [(hnone y hmem).2] at he
      cases he
    · obtain rfl := List.mem_singleton.mp hmem
      rw [he] at hz
      cases hz
      exact ⟨rfl, es, y, hes, hnone, ha, he⟩

section

variable (env : Env)

/-- The generator did not fill a buffer, or the cipher did not seal a key. -/
inductive Unsealed (ws : World) : ParquetError → World → Prop
  | fill {w : World} (i len : Nat) : ws.calls ≤ i → i < w.calls → env.fill i len = none →
    Unsealed ws (.external "ring::error::Unspecified") w
  | seal {w : World} (kek nonce kekId dek : Bytes) : env.aes128Gcm.sealDetached kek nonce kekId dek = none →
    Unsealed ws (.external "ring::error::Unspecified") w

/-- Why a file is not written. -/
inductive NotWritten (enc : EncryptionConfiguration) (ws : World) : ParquetError → World → Prop
  | external {w : World} : enc.internalKeyMaterial = false →
    NotWritten enc ws (.nyi "External key material is not yet implemented") w
  | keyLength {w : World} : enc.dataKeyLengthBits ≠ 128 →
    NotWritten enc ws (.nyi "Only 128 bit data keys are currently implemented") w
  | unsealed {e : ParquetError} {w : World} : Unsealed env ws e w → NotWritten enc ws e w

/-- Why material yields no key. -/
inductive NotUnwrapped (m : KeyMaterial) : ParquetError → Prop
  | external : m.internalStorage = false →
    NotUnwrapped m (.nyi "Decryption using external key material is not yet implemented")
  | noInstanceId : m.kmsInstanceId = some "" →
    NotUnwrapped m (.general "KMS instance ID not set in connection configuration or footer key metadata")
  | noInstanceUrl : m.kmsInstanceUrl = some "" →
    NotUnwrapped m (.general "KMS instance URL not set in connection configuration or footer key metadata")
  | noKek : m.doubleWrapping = true → m.keyEncryptionKeyId = none ∨ m.wrappedKek = none →
    NotUnwrapped m (.general "Key uses double wrapping but key encryption key is not set")
  | kekId {kekId : String} {e : ParquetError} : m.keyEncryptionKeyId = some kekId →
    KeyUnwrapper.decodeKekId env kekId = .error e → NotUnwrapped m e
  | dek (kekId kek : Bytes) {e : ParquetError} : decryptEncryptionKey env m.wrappedDek kekId kek = .err e →
    NotUnwrapped m e

/-- Why metadata yields no key. -/
inductive NotRead (keyMetadata : Bytes) : ParquetError → Prop
  | unreadable {e : ParquetError} : KeyUnwrapper.readMaterial env keyMetadata = .error e → NotRead keyMetadata e
  | material {m : KeyMaterial} {e : ParquetError} : KeyUnwrapper.readMaterial env keyMetadata = .ok m →
    NotUnwrapped env m e → NotRead keyMetadata e

end

/-! ## Stretches without a failure -/

namespace Unfailing

variable {env : Env} {w w' w'' : World}

theorem of_log (hc : w.calls ≤ w'.calls) (hl : w'.log = w.log) : Unfailing env w w' :=
  ⟨hc, [], by rw [hl, List.append_nil], fun x hx => by cases hx⟩

theorem refl (w : World) : Unfailing env w w := of_log (le_refl _) rfl

theorem trans (h : Unfailing env w w') (h' : Unfailing env w' w'') : Unfailing env w w'' := by
  obtain ⟨es, hes, hnone⟩ := h.log
  obtain ⟨es', hes', hnone'⟩ := h'.log
  refine ⟨h.calls.trans h'.calls, es ++ es', by rw [hes', hes, List.append_assoc], fun x hx => ?_⟩
  rcases List.mem_append.mp hx with h1 | h1
  · exact hnone x h1
  · exact hnone' x h1

theorem of_path (path : Relation.ReflTransGen (Unfailing env) w w') : Unfailing env w w' :=
  path_keeps (I := Unfailing env w) (fun _ _ h h' => h.trans h') path (refl w)

theorem tick (w : World) (n : Nat) : Unfailing env w (w.tick n) := of_log (Nat.le_succ _) rfl

theorem record (h : Unfailing env w w') {x : KmsEvent} (ha : x.AnsweredBy env) (hx : x.error = none) :
    Unfailing env w (w'.record x) := by
  refine h.trans ⟨Nat.le_succ _, [x], rfl, fun y hy => ?_⟩
  rw [List.mem_singleton.mp hy]
  exact ⟨ha, hx⟩

/-- The call that fails is the last one. -/
theorem endedWith (h : Unfailing env w w') {x : KmsEvent} {e : ParquetError} (ha : x.AnsweredBy env)
    (hx : x.error = some e) : EndedWith env w (w'.record x) e := by
  obtain ⟨es, hes, hnone⟩ := h.log
  exact ⟨es, x, congrArg (· ++ [x]) hes, hnone, ha, hx⟩

/-- A cache that is part of a manager. -/
theorem moves {κ ν : Type} [DecidableEq κ] {place : Place World (ExpiringCache κ ν)} (m : ManagerId)
    (lifetime : Option Duration) (hset : ∀ c w, ∃ k, place.set c w = w.setManager m k)
    (htick : ∀ w n, place.get (w.tick n) = place.get w) :
    ExpiringCache.Moves place lifetime (fun _ _ _ => True) (Unfailing env) where
  write a b h := by
    obtain ⟨c, rfl⟩ := h.eq_set
    obtain ⟨k, hk⟩ := hset c a
    rw [hk]
    exact of_log (le_refl _) rfl
  tick := tick
  get_tick := htick
  fresh_tick _ _ _ _ h := h
  fresh_set _ _ _ _ h := h

theorem clientMoves (m : ManagerId) (lifetime : Option Duration) :
    ExpiringCache.Moves (clientCachePlace m) lifetime (fun _ _ _ => True) (Unfailing env) :=
  moves m lifetime (fun _ _ => ⟨_, rfl⟩) fun _ _ => rfl

theorem readMoves (m : ManagerId) (lifetime : Option Duration) :
    ExpiringCache.Moves (readCachesPlace m) lifetime (fun _ _ _ => True) (Unfailing env) :=
  moves m lifetime (fun _ _ => ⟨_, rfl⟩) fun _ _ => rfl

theorem writeMoves (m : ManagerId) (lifetime : Option Duration) :
    ExpiringCache.Moves (writeCachesPlace m) lifetime (fun _ _ _ => True) (Unfailing env) :=
  moves m lifetime (fun _ _ => ⟨_, rfl⟩) fun _ _ => rfl

end Unfailing

/-! ## Calls that surface what failed -/

/-- The part of a call that began in `ws`, run from `w` on, surfaces what failed. -/
def Surfaces (env : Env) {α : Type} (own : ParquetError → World → Prop) (ws : World) (x : Call α) (w : World)
    (p : α → World → Prop) : Prop :=
  Along (fun _ _ => True) x w (fun a w' => Unfailing env ws w' ∧ p a w')
    (fun e w' => EndedWith env ws w' e ∨ (Unfailing env ws w' ∧ own e w')) (Unfailing env ws)

namespace Surfaces

variable {env : Env} {α β : Type} {own : ParquetError → World → Prop} {ws w : World} {x : Call α} {p : α → World → Prop}

theorem answers (h : Surfaces env own w x w p) : Answers env own x w where
  unfailing hne := by
    cases hx : (x w).1 with
    | ok a => exact (h.ok a hx).1
    | err e => exact absurd hx (hne e)
    | panic => exact h.panic hx
  error := h.err

/-- A call that fails nowhere, and asks user code nothing that fails. -/
theorem of_unfailing {q : World → Prop} (hw : Unfailing env ws w)
    (h : Along (Unfailing env) x w p (fun _ _ => False) q) :
    Surfaces env own ws x w p where
  path := .single trivial
  ok a ha := ⟨hw.trans (.of_path h.path), h.ok a ha⟩
  err e he := (h.err e he).elim
  panic _ := hw.trans (.of_path h.path)

theorem bind {f : α → Call β} {p' : β → World → Prop} (h : Surfaces env own ws x w p)
    (hf : ∀ a t, Unfailing env ws t → p a t → Surfaces env own ws (f a) t p') : Surfaces env own ws (x >>= f) w p' :=
  Along.bind h fun a t _ ha => hf a t ha.1 ha.2

theorem mono {p' : α → World → Prop} (h : Surfaces env own ws x w p) (hp : ∀ a t, p a t → p' a t) :
    Surfaces env own ws x w p' :=
  Along.mono h (fun a t ha => ⟨ha.1, hp a t ha.2⟩) (fun _ _ h => h) fun _ h => h

/-- What else is known of the result. -/
theorem and {move : World → World → Prop} {p' : α → World → Prop} {q' : ParquetError → World → Prop} {d' : World → Prop}
    (h : Surfaces env own ws x w p) (h' : Along move x w p' q' d') : Surfaces env own ws x w p' where
  path := h.path
  ok a ha := ⟨(h.ok a ha).1, h'.ok a ha⟩
  err := h.err
  panic := h.panic

theorem pure {a : α} (hw : Unfailing env ws w) (ha : p a w) :
    Surfaces env own ws (pure a : Call α) w p := Along.pure ⟨hw, ha⟩

theorem ofExcept {y : Except ParquetError α} (hw : Unfailing env ws w) (ha : ∀ a, y = .ok a → p a w)
    (he : ∀ e, y = .error e → own e w) : Surfaces env own ws (Eff.ofExcept y) w p :=
  Along.ofExcept (fun a h => ⟨hw, ha a h⟩) fun e h => Or.inr ⟨hw, he e h⟩

theorem fail {e : ParquetError} (hw : Unfailing env ws w) (he : own e w) :
    Surfaces env own ws (Eff.fail e : Call α) w p :=
  Along.fail (Or.inr ⟨hw, he⟩)

theorem ofOutcome {r : Outcome ParquetError α} (hw : Unfailing env ws w) (ha : ∀ a, r = .ok a → p a w)
    (he : ∀ e, r = .err e → own e w) : Surfaces env own ws (Eff.ofOutcome r) w p where
  path := .refl
  ok a h := ⟨hw, ha a h⟩
  err e h := Or.inr ⟨hw, he e h⟩
  panic _ := hw

theorem lock {γ : Type} {place : Place World (Mutex γ)} (hw : Unfailing env ws w)
    (hpoison : ∀ t, Unfailing env ws t → Unfailing env ws (poison place t)) (h : Surfaces env own ws x w p) :
    Surfaces env own ws (lock place x) w p :=
  Along.lock (Unfailing env ws) (fun _ => hw) (fun _ => h) fun t _ ht => ⟨trivial, hpoison t ht⟩

end Surfaces

/-! ## The registry -/

section

variable (env : Env) {own : ParquetError → World → Prop} {ws w : World} (m : ManagerId) (config : KmsConnectionConfig)
  (lifetime : Option Duration)

theorem clearExpiredEntries_unfailing (w : World) :
    Along (Unfailing env) (KmsManager.clearExpiredEntries env m lifetime) w (fun _ _ => True) (fun _ _ => False)
      (fun _ => True) := by
  unfold KmsManager.clearExpiredEntries
  cases lifetime with
  | none => exact Along.pure trivial
  | some d =>
    refine Along.bind ((ExpiringCache.clearExpired_along env (Unfailing.clientMoves m none) d w).mono
      (fun _ _ h => h) (fun _ _ h => h) fun _ _ => trivial) fun _ w1 _ _ => ?_
    refine Along.bind ((ExpiringCache.clearExpired_along env (Unfailing.readMoves m none) d w1).mono
      (fun _ _ h => h) (fun _ _ h => h) fun _ _ => trivial) fun _ w2 _ _ => ?_
    exact (ExpiringCache.clearExpired_along env (Unfailing.writeMoves m none) d w2).mono
      (fun _ _ h => h) (fun _ _ h => h) fun _ _ => trivial

theorem createClient_surfaces (hw : Unfailing env ws w) :
    Surfaces env own ws (createClient env config) w fun _ _ => True := by
  cases hr : env.createClient w.calls (config.details w) with
  | ok _ =>
    refine Along.of_ok (a := ⟨w.calls, config.details w⟩)
      (t := w.record (.createClient (config.details w) (.ok ⟨w.calls, config.details w⟩))) ?_ (.single trivial)
      ⟨hw.record ⟨_, hr⟩ rfl, trivial⟩
    simp only [createClient, hr]
  | error e =>
    refine Along.of_err (e := e) (t := w.record (.createClient (config.details w) (.error e))) ?_ (.single trivial)
      (Or.inl (hw.endedWith ⟨_, hr⟩ rfl))
    simp only [createClient, hr]

theorem getClient_surfaces (hw : Unfailing env ws w) :
    Surfaces env own ws (KmsManager.getClient env m config lifetime) w fun _ _ => True := by
  unfold KmsManager.getClient
  refine (Surfaces.of_unfailing hw (clearExpiredEntries_unfailing env m lifetime w)).bind fun _ w1 h1 _ => ?_
  refine Surfaces.bind (p := fun _ _ => True) (Along.read ⟨h1, trivial⟩) fun token w2 h2 _ => ?_
  refine Surfaces.lock h2 (fun t ht => ⟨ht.calls, ht.log⟩) ?_
  rw [ExpiringCache.lookupOrCreate_eq]
  refine (Surfaces.of_unfailing h2 (ExpiringCache.findValid_along env (Unfailing.clientMoves m lifetime) w2)).bind
    fun found w3 h3 _ => ?_
  cases found with
  | some client => exact Surfaces.pure h3 trivial
  | none =>
    refine (createClient_surfaces env config h3).bind fun client w4 h4 _ => ?_
    exact (Surfaces.of_unfailing h4 (ExpiringCache.store_along (q := fun _ _ => False) env
      (Unfailing.clientMoves m lifetime)
      trivial)).mono fun _ _ _ => trivial

theorem newWriteCache_unfailing (token : String) (w : World) :
    Along (Unfailing env) (KmsManager.newWriteCache m token) w (fun _ _ => True) (fun _ _ => False) (fun _ => False) :=
  Along.of_ok rfl (.single (.of_log (le_refl _) rfl)) trivial

theorem newReadCache_unfailing (token : String) (w : World) :
    Along (Unfailing env) (KmsManager.newReadCache m token) w (fun _ _ => True) (fun _ _ => False) (fun _ => False) :=
  Along.of_ok rfl (.single (.of_log (le_refl _) rfl)) trivial

/-- A KEK cache is had without user code. -/
theorem getKekWriteCache_unfailing (w : World) :
    Along (Unfailing env) (KmsManager.getKekWriteCache env m config lifetime) w (fun _ _ => True) (fun _ _ => False)
      (fun _ => True) := by
  unfold KmsManager.getKekWriteCache
  refine Along.bind (clearExpiredEntries_unfailing env m lifetime w) fun _ w1 _ _ => ?_
  refine Along.bind (Along.read (p := fun _ _ => True) trivial) fun token w2 _ _ => Along.unwrap ?_
  exact (ExpiringCache.getOrCreate_along (q := fun _ _ => False) env (Unfailing.writeMoves m lifetime)
    (fun w _ => .of_log (le_refl _) rfl) fun w' _ => newWriteCache_unfailing env m token w').mono
      (fun _ _ _ => trivial) (fun _ _ h => h) fun _ _ => trivial

theorem getKekReadCache_unfailing (w : World) :
    Along (Unfailing env) (KmsManager.getKekReadCache env m config lifetime) w (fun _ _ => True) (fun _ _ => False)
      (fun _ => True) := by
  unfold KmsManager.getKekReadCache
  refine Along.bind (clearExpiredEntries_unfailing env m lifetime w) fun _ w1 _ _ => ?_
  refine Along.bind (Along.read (p := fun _ _ => True) trivial) fun token w2 _ _ => Along.unwrap ?_
  exact (ExpiringCache.getOrCreate_along (q := fun _ _ => False) env (Unfailing.readMoves m lifetime)
    (fun w _ => .of_log (le_refl _) rfl) fun w' _ => newReadCache_unfailing env m token w').mono
      (fun _ _ _ => trivial) (fun _ _ h => h) fun _ _ => trivial

/-! ## The KMS and the generator -/

theorem wrapKey_surfaces (client : KmsClient) (keyBytes : Bytes) (masterKeyId : String) (hw : Unfailing env ws w) :
    Surfaces env own ws (wrapKey env client keyBytes masterKeyId) w fun _ _ => True := by
  cases hr : env.wrapKey w.calls client keyBytes masterKeyId with
  | ok wrapped =>
    refine Along.of_ok (a := wrapped) (t := w.record (.wrapKey client keyBytes masterKeyId (.ok wrapped)))
      ?_ (.single trivial) ⟨hw.record ⟨_, hr⟩ rfl, trivial⟩
    simp only [wrapKey, hr]
  | error e =>
    refine Along.of_err (e := e) (t := w.record (.wrapKey client keyBytes masterKeyId (.error e))) ?_ (.single trivial)
      (Or.inl (hw.endedWith ⟨_, hr⟩ rfl))
    simp only [wrapKey, hr]

theorem unwrapKey_surfaces (client : KmsClient) (wrapped masterKeyId : String) (hw : Unfailing env ws w) :
    Surfaces env own ws (unwrapKey env client wrapped masterKeyId) w fun _ _ => True := by
  cases hr : env.unwrapKey w.calls client wrapped masterKeyId with
  | ok key =>
    refine Along.of_ok (a := key) (t := w.record (.unwrapKey client wrapped masterKeyId (.ok key))) ?_ (.single trivial)
      ⟨hw.record ⟨_, hr⟩ rfl, trivial⟩
    simp only [unwrapKey, hr]
  | error e =>
    refine Along.of_err (e := e) (t := w.record (.unwrapKey client wrapped masterKeyId (.error e))) ?_ (.single trivial)
      (Or.inl (hw.endedWith ⟨_, hr⟩ rfl))
    simp only [unwrapKey, hr]

theorem fill_surfaces (len : Nat) (hown : ∀ e t, Unsealed env ws e t → own e t) (hw : Unfailing env ws w) :
    Surfaces env own ws (fill env len) w fun _ _ => True := by
  have htick := hw.trans (Unfailing.tick w 0)
  cases hr : env.fill w.calls len with
  | some bytes =>
    refine Along.of_ok (a := bytes.1) (t := w.tick 0) ?_ (.single trivial) ⟨htick, trivial⟩
    simp only [fill, hr]
  | none =>
    refine Along.of_err (t := w.tick 0) (e := .external "ring::error::Unspecified") ?_ (.single trivial)
      (Or.inr ⟨htick, hown _ _ (.fill w.calls len hw.calls (Nat.lt_succ_self _) hr)⟩)
    simp only [fill, hr]

end

/-! ## Writing -/

/-- The KEKs in the write caches have the length of a key of the cipher. -/
def KekLengths (w : World) : Prop :=
  ∀ a masterKeyId kek, (w.writeCaches a).data.lookup masterKeyId = some kek → kek.key.length = 16

section

variable {env : Env} {own : ParquetError → World → Prop} {ws w w' : World} {k : KeyWrapper} {α : Type} {x : Call α}

theorem WriterMove.kekLengths (hm : WriterMove env k w w') (h : KekLengths w) : KekLengths w' := by
  intro a masterKeyId kek hl
  rcases hm.writeKeks_lookup hl with hold | ⟨_, hnew⟩
  · exact h a masterKeyId kek hold
  · obtain ⟨i, _, hkey, _⟩ := hnew.drawn
    exact hkey.length

/-- What a wrapper does keeps the lengths. -/
theorem Surfaces.keeps {p p' : α → World → Prop} {q : ParquetError → World → Prop} {d : World → Prop}
    (h : Surfaces env own ws x w p) (halong : Along (WriterMove env k) x w p' q d) (hk : KekLengths w) :
    Surfaces env own ws x w fun a t => p' a t ∧ KekLengths t :=
  (h.and halong.with_path).mono fun _ _ ha =>
    ⟨ha.1, path_keeps (I := KekLengths) (fun _ _ hi hm => hm.kekLengths hi) ha.2 hk⟩

namespace KeyWrapper

variable (hown : ∀ e t, Unsealed env ws e t → own e t)
include hown

theorem getKek_surfaces (masterKeyId : String) (hw : Unfailing env ws w) :
    Surfaces env own ws (k.getKek env masterKeyId) w fun _ _ => True := by
  unfold getKek
  refine Surfaces.bind (p := fun c t => c = k.keks.get t) (Along.read ⟨hw, rfl⟩) fun cache w1 h1 hc => ?_
  subst hc
  cases (k.keks.get w1).lookup masterKeyId with
  | some kek => exact Surfaces.pure h1 trivial
  | none =>
    refine Surfaces.bind (p := fun _ _ => True) ?_ fun kek w2 h2 _ => ?_
    · unfold generateKeyEncryptionKey
      refine (fill_surfaces env kekLen hown h1).bind fun key w2 h2 _ => ?_
      refine (fill_surfaces env kekLen hown h2).bind fun keyId w3 h3 _ => ?_
      refine (getClient_surfaces env _ _ _ h3).bind fun client w4 h4 _ => ?_
      exact (wrapKey_surfaces env client key masterKeyId h4).bind fun wrappedKey w5 h5 _ => Surfaces.pure h5 trivial
    · exact Surfaces.bind (p := fun _ _ => True) (Along.modify trivial ⟨⟨h2.calls, h2.log⟩, trivial⟩) fun _ w3 h3 _ =>
        Surfaces.pure h3 trivial

/-- A KEK of the right length is not refused. -/
theorem encrypt_surfaces {dek kekId kek : Bytes} (hlen : kek.length = 16) (hw : Unfailing env ws w) :
    Surfaces env own ws (encryptEncryptionKey env dek kekId kek) w fun _ _ => True := by
  unfold encryptEncryptionKey
  rw [aesKey_of_length hlen]
  refine Surfaces.bind (p := fun a _ => a = kek) (Surfaces.pure hw rfl) fun a w1 h1 ha => ?_
  subst ha
  refine (fill_surfaces env nonceLen hown h1).bind fun nonce w2 h2 _ => ?_
  cases hs : env.aes128Gcm.sealDetached a nonce kekId dek with
  | none => exact Surfaces.fail h2 (hown _ _ (.seal a nonce kekId dek hs))
  | some sealed => exact Surfaces.pure h2 trivial

theorem wrap_surfaces (key : Bytes) (masterKeyId : String) (b : KeyMaterialBuilder) (hk : KekLengths w)
    (hw : Unfailing env ws w) : Surfaces env own ws (k.wrap env key masterKeyId b) w fun _ _ => True := by
  unfold wrap
  cases k.encryptionConfiguration.doubleWrapping with
  | true =>
    rw [if_pos rfl]
    refine Surfaces.lock hw (fun t ht => ⟨ht.calls, ht.log⟩) ?_
    refine ((getKek_surfaces hown masterKeyId hw).keeps (getKek_along env k masterKeyId w) hk).bind
      fun kek w1 h1 hkek => ?_
    refine (encrypt_surfaces hown (hkek.2 _ _ _ hkek.1) h1).bind fun wrappedDek w2 h2 _ => ?_
    exact Surfaces.pure h2 trivial
  | false =>
    rw [if_neg (by decide)]
    refine (getClient_surfaces env _ _ _ hw).bind fun client w1 h1 _ => ?_
    exact (wrapKey_surfaces env client key masterKeyId h1).bind fun wrapped w2 h2 _ => Surfaces.pure h2 trivial

theorem getKeyMetadata_surfaces (key : Bytes) (masterKeyId : String) (isFooterKey : Bool) (hk : KekLengths w)
    (hw : Unfailing env ws w) : Surfaces env own ws (k.getKeyMetadata env key masterKeyId isFooterKey) w
      fun _ _ => True := by
  unfold getKeyMetadata
  refine (wrap_surfaces hown key masterKeyId _ hk hw).bind fun m w1 h1 _ => ?_
  obtain ⟨text, ht⟩ := m.serialize_ok env
  rw [ht]
  exact Surfaces.bind (p := fun _ _ => True) (Surfaces.pure h1 trivial) fun _ w2 h2 _ => Surfaces.pure h2 trivial

end KeyWrapper

namespace CryptoFactory

section

variable (hown : ∀ e t, Unsealed env ws e t → own e t)
include hown

theorem generateKey_surfaces (masterKeyId : String) (isFooterKey : Bool) (hk : KekLengths w) (hw : Unfailing env ws w) :
    Surfaces env own ws (generateKey env masterKeyId isFooterKey k) w fun _ t => KekLengths t := by
  have hcall : Surfaces env own ws (generateKey env masterKeyId isFooterKey k) w fun _ _ => True := by
    unfold generateKey
    refine ((fill_surfaces env dekLen hown hw).keeps ((KeyWrapper.fill_along env k dekLen w).lift fun _ _ h => h.writer)
      hk).bind fun key w1 h1 hk1 => ?_
    exact (KeyWrapper.getKeyMetadata_surfaces hown key masterKeyId isFooterKey hk1.2 h1).bind fun _ w2 h2 _ =>
      Surfaces.pure h2 trivial
  exact (hcall.keeps (generateKey_along env k masterKeyId isFooterKey .refl) hk).mono fun _ _ h => h.2

theorem addColumns_surfaces (masterKeyId : String) (columnPaths : List String) (b : FileEncryptionProperties)
    (hk : KekLengths w) (hw : Unfailing env ws w) :
    Surfaces env own ws (addColumns env k masterKeyId columnPaths b) w fun _ t => KekLengths t := by
  induction columnPaths generalizing b w with
  | nil => exact Surfaces.pure hw hk
  | cons c columnPaths ih =>
    unfold addColumns
    exact (generateKey_surfaces hown masterKeyId false hk hw).bind fun key w1 h1 hk1 => ih _ hk1 h1

theorem addColumnKeys_surfaces (es : List (Sigma fun _ : String => List String)) (b : FileEncryptionProperties)
    (hk : KekLengths w) (hw : Unfailing env ws w) :
    Surfaces env own ws (addColumnKeys env k es b) w fun _ t => KekLengths t := by
  induction es generalizing b w with
  | nil => exact Surfaces.pure hw hk
  | cons e es ih =>
    unfold addColumnKeys
    exact (addColumns_surfaces hown e.1 e.2 b hk hw).bind fun b1 w1 h1 hk1 => ih b1 hk1 h1

end

variable (m : ManagerId) (config : KmsConnectionConfig) (enc : EncryptionConfiguration)

theorem newWrapper_surfaces (hk : KekLengths w) :
    Surfaces env own w (KeyWrapper.new env m config enc) w fun _ t => KekLengths t := by
  unfold KeyWrapper.new
  have hcache : Surfaces env own w (KmsManager.getKekWriteCache env m config enc.cacheLifetime) w fun _ _ => True :=
    Surfaces.of_unfailing (Unfailing.refl w) (getKekWriteCache_unfailing env m config enc.cacheLifetime w)
  have halong := (KmsManager.getKekWriteCache_along env m config enc.cacheLifetime w).with_path
  refine (hcache.and halong).bind fun a w1 h1 ha => Surfaces.pure h1 ?_
  intro a' masterKeyId kek hl
  refine hk a' masterKeyId kek (path_keeps (I := fun v => (v.writeCaches a').data.lookup masterKeyId = some kek →
    (w.writeCaches a').data.lookup masterKeyId = some kek) (fun _ _ hi hm h => hi (hm.writeKeks_lookup h))
      ha.2 (fun h => h) hl)

theorem fileEncryptionProperties_surfaces (hk : KekLengths w) :
    Surfaces env (NotWritten env enc w) w (fileEncryptionProperties env m config enc) w fun _ _ => True := by
  have hown : ∀ e t, Unsealed env w e t → NotWritten env enc w e t := fun _ _ h => .unsealed h
  unfold fileEncryptionProperties
  by_cases h1 : enc.internalKeyMaterial = true
  swap
  · rw [if_pos h1]
    exact Surfaces.fail (.refl w) (.external (Bool.eq_false_iff.mpr h1))
  rw [if_neg (not_not.mpr h1)]
  by_cases h2 : enc.dataKeyLengthBits ≠ 128
  · rw [if_pos h2]
    exact Surfaces.fail (.refl w) (.keyLength h2)
  rw [if_neg h2]
  refine (newWrapper_surfaces m config enc hk).bind fun k w1 hw1 hk1 => ?_
  refine (generateKey_surfaces hown enc.footerKeyId true hk1 hw1).bind fun footerKey w2 hw2 hk2 => ?_
  refine Surfaces.bind (p := fun _ t => KekLengths t) (Along.of_ok rfl (.single trivial) ⟨hw2.trans (.tick w2 0), hk2⟩)
    fun order w3 hw3 hk3 => ?_
  exact (addColumnKeys_surfaces hown _ _ hk3 hw3).mono fun _ _ _ => trivial

end CryptoFactory

/-! ## Reading -/

namespace KeyUnwrapper

theorem new_surfaces (m : ManagerId) (config : KmsConnectionConfig) (dec : DecryptionConfiguration) :
    Surfaces env own w (new env m config dec) w fun _ _ => True := by
  unfold new
  refine (Surfaces.of_unfailing (.refl w) (getKekReadCache_unfailing env m config dec.cacheLifetime w)).bind
    fun kekCache w1 h1 _ => ?_
  exact Surfaces.bind (p := fun _ _ => True) (Along.of_ok rfl (.single trivial) ⟨⟨h1.calls, h1.log⟩, trivial⟩)
    fun slot w2 h2 _ => Surfaces.pure h2 trivial

theorem withInstanceId_refused {c : KmsConnectionConfig} {kmsInstanceId : String} {e : ParquetError}
    (h : withInstanceId c kmsInstanceId = .error e) : kmsInstanceId = "" ∧
      e = .general "KMS instance ID not set in connection configuration or footer key metadata" := by
  refine ⟨String.isEmpty_iff.mp (withInstanceId_error h), ?_⟩
  unfold withInstanceId at h
  split at h
  · split at h
    · cases h; rfl
    · cases h
  · cases h

theorem withInstanceUrl_refused {c : KmsConnectionConfig} {kmsInstanceUrl : String} {e : ParquetError}
    (h : withInstanceUrl c kmsInstanceUrl = .error e) : kmsInstanceUrl = "" ∧
      e = .general "KMS instance URL not set in connection configuration or footer key metadata" := by
  refine ⟨String.isEmpty_iff.mp (withInstanceUrl_error h), ?_⟩
  unfold withInstanceUrl at h
  split at h
  · split at h
    · cases h; rfl
    · cases h
  · cases h

variable {u : KeyUnwrapper} {m : KeyMaterial} (hown : ∀ e t, NotUnwrapped env m e → own e t)
include hown

theorem updateKmsConfig_surfaces (hw : Unfailing env ws w) :
    Surfaces env own ws (u.updateKmsConfig m) w fun _ _ => True := by
  unfold updateKmsConfig
  cases hid : m.kmsInstanceId with
  | none => exact Surfaces.pure hw trivial
  | some kmsInstanceId =>
    cases hurl : m.kmsInstanceUrl with
    | none => exact Surfaces.pure hw trivial
    | some kmsInstanceUrl =>
      simp only [updateKmsConfigFromFooterMetadata]
      refine Surfaces.bind (p := fun _ _ => True) (Along.read ⟨hw, trivial⟩) fun c w1 h1 _ => ?_
      split
      · exact Surfaces.pure h1 trivial
      · refine (Surfaces.ofExcept (p := fun _ _ => True) h1 (fun _ _ => trivial) fun e he => ?_).bind
          fun withId w2 h2 _ => ?_
        · obtain ⟨rfl, rfl⟩ := withInstanceId_refused he
          exact hown _ _ (.noInstanceId hid)
        refine Surfaces.bind (p := fun _ _ => True)
          (Along.modify trivial ⟨⟨h2.calls, h2.log⟩, trivial⟩) fun _ w3 h3 _ => ?_
        refine (Surfaces.ofExcept (p := fun _ _ => True) h3 (fun _ _ => trivial) fun e he => ?_).bind
          fun withUrl w4 h4 _ => ?_
        · obtain ⟨rfl, rfl⟩ := withInstanceUrl_refused he
          exact hown _ _ (.noInstanceUrl hurl)
        exact Along.modify trivial ⟨⟨h4.calls, h4.log⟩, trivial⟩

omit hown in
theorem unwrapWithKms_surfaces (wrapped masterKeyId : String) (hw : Unfailing env ws w) :
    Surfaces env own ws (u.unwrapWithKms env wrapped masterKeyId) w fun _ _ => True := by
  unfold unwrapWithKms
  refine Surfaces.bind (p := fun _ _ => True) (Along.read ⟨hw, trivial⟩) fun c w1 h1 _ => ?_
  exact (getClient_surfaces env _ _ _ h1).bind fun client w2 h2 _ =>
    unwrapKey_surfaces env client wrapped masterKeyId h2

theorem unwrapDek_surfaces (hw : Unfailing env ws w) : Surfaces env own ws (u.unwrapDek env m) w fun _ _ => True := by
  unfold unwrapDek
  cases hd : m.doubleWrapping with
  | false =>
    rw [if_neg (by decide)]
    exact unwrapWithKms_surfaces _ _ hw
  | true =>
    rw [if_pos rfl]
    cases hid : m.keyEncryptionKeyId with
    | none => exact Surfaces.fail hw (hown _ _ (.noKek hd (Or.inl hid)))
    | some kekId =>
      cases hkek : m.wrappedKek with
      | none => exact Surfaces.fail hw (hown _ _ (.noKek hd (Or.inr hkek)))
      | some wrappedKek =>
        refine Surfaces.lock hw (fun t ht => ⟨ht.calls, ht.log⟩) ?_
        refine Surfaces.bind (p := fun _ _ => True) ?_ fun kek w1 h1 _ => ?_
        · unfold getKek
          refine Surfaces.bind (p := fun _ _ => True) (Along.read ⟨hw, trivial⟩) fun cache w1 h1 _ => ?_
          cases cache.lookup kekId with
          | some kek => exact Surfaces.pure h1 trivial
          | none =>
            refine (unwrapWithKms_surfaces wrappedKek m.masterKeyId h1).bind fun kek w2 h2 _ => ?_
            exact Surfaces.bind (p := fun _ _ => True) (Along.modify trivial ⟨⟨h2.calls, h2.log⟩, trivial⟩)
              fun _ w3 h3 _ => Surfaces.pure h3 trivial
        · refine (Surfaces.ofExcept (p := fun _ _ => True) h1 (fun _ _ => trivial) fun e he =>
            hown _ _ (.kekId hid he)).bind fun decoded w2 h2 _ => ?_
          exact Surfaces.ofOutcome h2 (fun _ _ => trivial) fun e he => hown _ _ (.dek decoded kek he)

omit hown in
theorem retrieveKey_surfaces (u : KeyUnwrapper) (keyMetadata : Bytes) :
    Surfaces env (fun e _ => NotRead env keyMetadata e) w (u.retrieveKey env keyMetadata) w fun _ _ => True := by
  unfold retrieveKey
  refine (Surfaces.ofExcept (p := fun m _ => readMaterial env keyMetadata = .ok m) (.refl w) (fun _ h => h) fun e he =>
    .unreadable he).bind fun m w1 h1 hread => ?_
  have hown : ∀ e (t : World), NotUnwrapped env m e → NotRead env keyMetadata e := fun _ _ h => .material hread h
  by_cases hi : m.internalStorage = true
  swap
  · rw [if_pos hi]
    exact Surfaces.fail h1 (hown _ w1 (.external (Bool.eq_false_iff.mpr hi)))
  rw [if_neg (not_not.mpr hi)]
  exact (updateKmsConfig_surfaces hown h1).bind fun _ w2 h2 _ => unwrapDek_surfaces hown h2

end KeyUnwrapper

/-! ## Every run -/

theorem kekLengths {R : System → Request → Prop} {s : System} (h : System.Reach env R s) : KekLengths s.world := by
  obtain ⟨ds, hfresh, _⟩ := freshInv h
  intro a masterKeyId kek hl
  obtain ⟨i, _, _, hkey, _⟩ := (hfresh.keks a masterKeyId kek hl).drawn
  exact hkey.length

/-- Whatever ran before, a call answers the failure of a call of user code with its error and
    ends there, and fails otherwise only for what the generator or the cipher refused when it
    writes a file, never when it opens a reader, and for what the metadata says when it
    retrieves a key. -/
theorem failures_surface {R : System → Request → Prop} {s : System} (h : System.Reach env R s) :
    (∀ m config enc, Answers env (NotWritten env enc s.world)
      (CryptoFactory.fileEncryptionProperties env m config enc) s.world) ∧
    (∀ m config dec, Answers env (fun _ _ => False) (CryptoFactory.fileDecryptionProperties env m config dec) s.world) ∧
    ∀ (u : KeyUnwrapper) (keyMetadata : Bytes),
      Answers env (fun e _ => NotRead env keyMetadata e) (u.retrieveKey env keyMetadata) s.world := by
  refine ⟨fun m config enc => ?_, fun m config dec => ?_, fun u keyMetadata => ?_⟩
  · exact (CryptoFactory.fileEncryptionProperties_surfaces m config enc (kekLengths h)).answers
  · exact (KeyUnwrapper.new_surfaces m config dec).answers
  · exact (KeyUnwrapper.retrieveKey_surfaces u keyMetadata).answers

end

/-- Surroundings whose KMS wraps no key. -/
def Env.refusing : Env := { Env.sample with wrapKey := fun _ _ _ _ => .error (.general "access denied") }

def sampleRefused : System := (System.init (fun _ => "DEFAULT") 0).exec Env.refusing .newFactory

/-- Writing a file answers what the KMS said. -/
theorem failures_surface_sample :
    (CryptoFactory.fileEncryptionProperties Env.refusing 0 sampleConfig sampleConfiguration sampleRefused.world).1 =
        .err (.general "access denied") ∧
      EndedWith Env.refusing sampleRefused.world
        (CryptoFactory.fileEncryptionProperties Env.refusing 0 sampleConfig sampleConfiguration sampleRefused.world).2
        (.general "access denied") := by
  have hreach : System.Reach Env.refusing (fun _ _ => True) sampleRefused :=
    (System.Reach.init _ 0).step .newFactory trivial trivial
  have hlog : ((CryptoFactory.fileEncryptionProperties Env.refusing 0 sampleConfig sampleConfiguration
      sampleRefused.world).2.log.drop sampleRefused.world.log.length).any
        (fun x => x.error = some (.general "access denied")) = true := by
    decide +kernel
  obtain ⟨x, hx, he⟩ := List.any_eq_true.mp hlog
  exact ((failures_surface hreach).1 0 sampleConfig sampleConfiguration).failed hx (of_decide_eq_true he)

end ParquetKeyManagement
