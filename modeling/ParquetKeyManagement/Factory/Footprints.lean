/-
  ParquetKeyManagement.Factory.Footprints — which locks a call takes, and what it does under them.

  Beside the two calls that use a KEK cache, nothing takes a KEK cache's mutex (`OffKeks`), and
  no KEK is touched and no key wrapped or unwrapped by asking the registry, drawing random
  bytes or encrypting (`Aside`). A wrapper that double-wraps asks the KMS only under the mutex of
  its cache, an unwrapper only under that of its own.
  - `getClient_aside`, `generateKey_writes`, `retrieveKey_writes`: what a call may do, for any
    bound on its steps that these steps keep.
-/

import ParquetKeyManagement.Factory.SafeRegistry
import ParquetKeyManagement.Keys.KekCalls
import ParquetKeyManagement.Support.Traces

namespace ParquetKeyManagement

open Effect Locks

/-! ## What is done between two states -/

/-- The lock of a KEK cache. -/
def LibraryLock.IsKeks : LibraryLock → Prop
  | .kekReads _ | .kekWrites _ => True
  | _ => False

/-- The lock of something else. -/
def OffKeks (l : LibraryLock) (_ : Mode) : Prop := ¬ l.IsKeks

namespace Ledger

/-- The calls of user code that were made from the one state to the other. -/
def eventsUntil (s s' : Ledger) : List KmsEvent := s'.world.log.drop s.world.log.length

/-- The master keys that a key was wrapped for. -/
def wrappedUntil (s s' : Ledger) : List String := (s.eventsUntil s').filterMap KmsEvent.wrappedFor

/-- How many keys were unwrapped. -/
def unwrapsUntil (s s' : Ledger) : Nat := (s.eventsUntil s').countP KmsEvent.unwraps

/-- Neither was any KEK touched nor a key wrapped or unwrapped. -/
def Aside (s s' : Ledger) : Prop := RegistryOnly s.world s'.world

/-- No key was wrapped or unwrapped. -/
def Unserved (s s' : Ledger) : Prop := ∃ es, s'.world.log = s.world.log ++ es ∧ ∀ e ∈ es, e.served = false

variable {s s' : Ledger}

theorem Aside.unserved (h : s.Aside s') : s.Unserved s' := h.log

theorem Aside.refl (s : Ledger) : s.Aside s := RegistryOnly.refl s.world

theorem Unserved.of_log (h : s'.world.log = s.world.log) : s.Unserved s' :=
  ⟨[], by rw [h, List.append_nil], fun e he => by cases he⟩

theorem Unserved.refl (s : Ledger) : s.Unserved s := .of_log rfl

theorem eventsUntil_append {es : List KmsEvent} (h : s'.world.log = s.world.log ++ es) : s.eventsUntil s' = es := by
  unfold eventsUntil
  rw [h, List.drop_left]

/-- A call to user code adds one event. -/
theorem eventsUntil_record (s : Ledger) (event : KmsEvent) :
    s.eventsUntil { s with world := s.world.record event } = [event] := eventsUntil_append rfl

@[simp] theorem wrappedUntil_self (s : Ledger) : s.wrappedUntil s = [] := by
  simp [wrappedUntil, eventsUntil]

@[simp] theorem unwrapsUntil_self (s : Ledger) : s.unwrapsUntil s = 0 := by
  simp [unwrapsUntil, eventsUntil]

theorem Unserved.wrappedUntil (h : s.Unserved s') : s.wrappedUntil s' = [] := by
  obtain ⟨es, hlog, hserved⟩ := h
  unfold Ledger.wrappedUntil
  rw [eventsUntil_append hlog, List.filterMap_eq_nil_iff]
  exact fun e he => KmsEvent.wrappedFor_of_not_served (hserved e he)

theorem Unserved.unwrapsUntil (h : s.Unserved s') : s.unwrapsUntil s' = 0 := by
  obtain ⟨es, hlog, hserved⟩ := h
  unfold Ledger.unwrapsUntil
  rw [eventsUntil_append hlog, List.countP_eq_zero]
  intro e he hun
  have := KmsEvent.served_of_unwraps hun
  rw [hserved e he] at this
  cases this

end Ledger

/-- Steps that touch no KEK, and have no key wrapped or unwrapped. -/
abbrev AsideSteps (_ : List (LibraryLock × Mode)) (s s' : Ledger) : Prop := s.Aside s'

abbrev UnservedSteps (_ : List (LibraryLock × Mode)) (s s' : Ledger) : Prop := s.Unserved s'

abbrev AnySteps (_ : List (LibraryLock × Mode)) (_ _ : Ledger) : Prop := True

section

variable {env : Env} {kms : UserKms} {held : List (LibraryLock × Mode)}
  {R : List (LibraryLock × Mode) → Ledger → Ledger → Prop}

theorem Locks.Routine.Writes.unserved {α : Type} {x : Run α} (h : x.Writes OffKeks AsideSteps held) :
    x.Writes OffKeks UnservedSteps held := h.mono (fun _ _ h => h) fun _ _ _ h => h.unserved

theorem Locks.Routine.Writes.any {α : Type} {x : Run α} {A : LibraryLock → Mode → Prop} (h : x.Writes A R held) :
    x.Writes A AnySteps held := h.mono (fun _ _ h => h) fun _ _ _ _ => trivial

/-! ## User code and the registry -/

theorem call_writes {α : Type} {x : Call α} {A : LibraryLock → Mode → Prop}
    (hx : ∀ s : Ledger, R held s { s with world := (x s.world).2 }) : (call x).Writes A R held := .ofCall hx

theorem UnderTokens.writes {α : Type} {x : Call α} {P : Run α} (h : UnderTokens x P) (hrefl : ∀ held s, R held s s)
    (hx : ∀ held, ∀ s : Ledger, R held s { s with world := (x s.world).2 }) : P.Writes OffKeks R held := by
  induction h generalizing held with
  | call => exact call_writes (hx held)
  | holding cell _ ih => exact .holding (fun h => h) hrefl ih

namespace Interleaved

theorem cleanup_aside (m : ManagerId) (c : CacheName) (cleanupInterval : Duration) (w : World) :
    RegistryOnly w (c.cleanupDue env m cleanupInterval w).2 ∧ RegistryOnly w (c.removeExpired env m w).2 := by
  cases c with
  | kmsClients =>
    exact ⟨.of_along (ExpiringCache.cleanupDue_along env (RegistryOnly.clientMoves m none) cleanupInterval w),
      .of_along (ExpiringCache.lockedRemove_along env (RegistryOnly.clientMoves m none) w)⟩
  | kekReadCaches =>
    exact ⟨.of_along (ExpiringCache.cleanupDue_along env (RegistryOnly.readMoves m none) cleanupInterval w),
      .of_along (ExpiringCache.lockedRemove_along env (RegistryOnly.readMoves m none) w)⟩
  | kekWriteCaches =>
    exact ⟨.of_along (ExpiringCache.cleanupDue_along env (RegistryOnly.writeMoves m none) cleanupInterval w),
      .of_along (ExpiringCache.lockedRemove_along env (RegistryOnly.writeMoves m none) w)⟩

theorem clearExpired_aside (m : ManagerId) (c : CacheName) (cleanupInterval : Duration) :
    (clearExpired env m c cleanupInterval).Writes OffKeks AsideSteps held := by
  refine .bind
    (.holding (fun h => h) (fun _ => .refl) (call_writes fun s => (cleanup_aside m c cleanupInterval s.world).1))
    fun due => ?_
  cases due with
  | true =>
    exact .holding (fun h => h) (fun _ => .refl) (call_writes fun s => (cleanup_aside m c cleanupInterval s.world).2)
  | false => exact .pure ()

theorem clearExpiredEntries_aside (m : ManagerId) (cleanupInterval : Option Duration) :
    (clearExpiredEntries env m cleanupInterval).Writes OffKeks AsideSteps held := by
  cases cleanupInterval with
  | none => exact .pure ()
  | some d =>
    exact (clearExpired_aside m .kmsClients d).bind fun _ => (clearExpired_aside m .kekReadCaches d).bind fun _ =>
      clearExpired_aside m .kekWriteCaches d

/-- What `get_or_create` does beside what the creator does. -/
theorem getOrCreate_writes {κ ν : Type} [DecidableEq κ] {l : LibraryLock} {place : Place World (ExpiringCache κ ν)}
    {key : κ} {lifetime : Option Duration} {creator : Run ν} (hl : ¬ l.IsKeks)
    (M : ExpiringCache.Moves place lifetime (fun _ _ _ => True) RegistryOnly)
    (hpoison : ∀ w, RegistryOnly w (poison (cacheLock place) w)) (hR : ∀ held s s', Ledger.Aside s s' → R held s s')
    (hcreator : creator.Writes OffKeks R ((l, .exclusive) :: held)) :
    (getOrCreate env l place key lifetime creator).Writes OffKeks R held := by
  refine .mutex hl (fun s => hR _ _ _ (.refl s)) (fun s => hR _ _ _ (.refl s)) (fun s => hR _ _ _ (hpoison s.world)) ?_
  refine .bind (call_writes fun s => hR _ _ _ (.of_along (ExpiringCache.findValid_along env M s.world))) fun found => ?_
  cases found with
  | some value => exact .pure value
  | none =>
    refine hcreator.bind fun value => call_writes fun s => hR _ _ _ ?_
    exact RegistryOnly.of_along (ExpiringCache.store_along (q := fun _ _ => True) env M trivial)

theorem getClient_aside (h : kms.Serves env) (m : ManagerId) (config : KmsConnectionConfig)
    (lifetime : Option Duration) :
    (getClient env kms m config lifetime).Writes OffKeks AsideSteps held := by
  refine (clearExpiredEntries_aside m lifetime).bind fun _ => .holding (fun h => h) (fun _ => .refl) ?_
  refine .bind (call_writes fun s => .refl s) fun token => ?_
  refine getOrCreate_writes (fun h => h) (RegistryOnly.clientMoves m lifetime) (fun w => .setManager w m _)
    (fun _ _ _ h => h) ?_
  exact (h.createClient config).writes (fun _ => .refl) fun _ s => .of_along (createClient_frame env config s.world)

theorem readToken_aside (config : KmsConnectionConfig) : (readToken config).Writes OffKeks AsideSteps held :=
  .holding (fun h => h) (fun _ => .refl) (call_writes fun s => .refl s)

theorem getKekReadCache_unserved (m : ManagerId) (config : KmsConnectionConfig) (lifetime : Option Duration) :
    (getKekReadCache env m config lifetime).Writes OffKeks UnservedSteps held := by
  refine (clearExpiredEntries_aside m lifetime).unserved.bind fun _ =>
    (readToken_aside config).unserved.bind fun token => ?_
  refine .unwrap (getOrCreate_writes (fun h => h) (RegistryOnly.readMoves m lifetime) (fun w => .setManager w m _)
    (fun _ _ _ h => h.unserved) ?_)
  exact call_writes fun s => .of_log rfl

theorem getKekWriteCache_unserved (m : ManagerId) (config : KmsConnectionConfig) (lifetime : Option Duration) :
    (getKekWriteCache env m config lifetime).Writes OffKeks UnservedSteps held := by
  refine (clearExpiredEntries_aside m lifetime).unserved.bind fun _ =>
    (readToken_aside config).unserved.bind fun token => ?_
  refine .unwrap (getOrCreate_writes (fun h => h) (RegistryOnly.writeMoves m lifetime) (fun w => .setManager w m _)
    (fun _ _ _ h => h.unserved) ?_)
  exact call_writes fun s => .of_log rfl

/-! ## Wrapping -/

variable (env kms) in
/-- What follows in `file_encryption_properties` once the wrapper is made. -/
def withWrapper (enc : EncryptionConfiguration) (k : KeyWrapper) : Run FileEncryptionProperties := do
  let footerKey ← generateKey env kms k enc.footerKeyId true
  let order ← call (iterationOrder env)
  addColumnKeys env kms k (HashMap.inOrder order enc.columnKeyIds) ⟨footerKey, enc.plaintextFooter, ∅⟩

/-- The wrapper is made from the cache. -/
theorem newKeyWrapper_bind {β : Type} (m : ManagerId) (config : KmsConnectionConfig) (enc : EncryptionConfiguration)
    (f : KeyWrapper → Run β) :
    newKeyWrapper env m config enc >>= f = getKekWriteCache env m config enc.cacheLifetime >>=
      fun a => f ⟨m, config, enc, a⟩ :=
  Routine.bind_assoc _ _ _

theorem fileEncryptionProperties_eq (m : ManagerId) (config : KmsConnectionConfig) (enc : EncryptionConfiguration) :
    fileEncryptionProperties env kms m config enc =
      if ¬ enc.internalKeyMaterial then Routine.finish (.err (.nyi "External key material is not yet implemented"))
      else if enc.dataKeyLengthBits ≠ 128 then
        Routine.finish (.err (.nyi "Only 128 bit data keys are currently implemented"))
      else getKekWriteCache env m config enc.cacheLifetime >>= fun a =>
        withWrapper env kms enc ⟨m, config, enc, a⟩ := by
  unfold fileEncryptionProperties
  rw [← newKeyWrapper_bind (f := withWrapper env kms enc)]
  rfl

theorem fill_aside (len : Nat) : (call (fill env len)).Writes OffKeks AsideSteps held :=
  call_writes fun s => .of_along (fill_frame env len s.world)

theorem drawKeyId_aside (key : Bytes) : (Routine.ofCall (drawKeyId env key)).Writes OffKeks AsideSteps held := by
  refine .ofCall fun s => ?_
  have hfill := RegistryOnly.of_along (fill_frame env kekLen s.world)
  unfold drawKeyId
  rcases hr : fill env kekLen s.world with ⟨keyId | e | _, w⟩
  all_goals
    rw [hr] at hfill
    exact hfill

theorem encrypt_aside (key kekId kekBytes : Bytes) :
    (call (encryptEncryptionKey env key kekId kekBytes)).Writes OffKeks AsideSteps held :=
  call_writes fun s => .of_along (KeyWrapper.encrypt_frame env key kekId kekBytes s.world)

theorem ofExcept_aside {α : Type} (x : Except ParquetError α) :
    (call (Eff.ofExcept x)).Writes OffKeks AsideSteps held :=
  call_writes fun s => by cases x <;> exact .refl s

theorem ofExcept_bind_writes {α β : Type} {A : LibraryLock → Mode → Prop} {x : Except ParquetError α} {f : α → Run β}
    (hrefl : ∀ s, R held s s) (hf : ∀ a, x = .ok a → (f a).Writes A R held) :
    (call (Eff.ofExcept x) >>= f).Writes A R held := by
  cases x with
  | ok a => exact fun s => ⟨hrefl s, hf a rfl⟩
  | error e => exact fun s => ⟨hrefl s, rfl⟩

end Interleaved

/-- What a call is bound by that asks the KMS for KEKs under the mutex `l`, if it does `double` wrapping, and for data
    keys otherwise: with the guards of other locks only it does what asks for nothing, and under the mutex anything. -/
structure Bounds (l : LibraryLock) (double : Prop) (A : LibraryLock → Mode → Prop)
    (R : List (LibraryLock × Mode) → Ledger → Ledger → Prop) : Prop where
  off : ∀ l mode, OffKeks l mode → A l mode
  lock : double → A l .exclusive
  unserved : ∀ own, (∀ g ∈ own, OffKeks g.1 g.2) → ∀ s s', s.Unserved s' → R own s s'
  under : double → ∀ own, (∀ g ∈ own, OffKeks g.1 g.2) → ∀ s s', R (own ++ [(l, .exclusive)]) s s'
  single : ¬ double → ∀ own, (∀ g ∈ own, OffKeks g.1 g.2) → ∀ s s', R own s s'

namespace Bounds

variable {α : Type} {l : LibraryLock} {double : Prop} {A : LibraryLock → Mode → Prop} {x : Run α}

theorem refl (hb : Bounds l double A R) (s : Ledger) :
    R [] s s := hb.unserved [] (fun _ hg => by cases hg) _ _ (.refl s)

/-- What asks the KMS for nothing. -/
theorem writes_unserved (hb : Bounds l double A R) (hx : x.Writes OffKeks UnservedSteps []) : x.Writes A R [] := by
  refine (hx.frame fun own ho s s' hs => ?_).mono hb.off fun _ _ _ h => h
  rw [List.append_nil]
  exact hb.unserved own ho s s' hs

/-- What is done without the mutex where there is no double wrapping. -/
theorem writes_single (hb : Bounds l double A R) (hd : ¬ double) (hx : x.Writes OffKeks AnySteps []) :
    x.Writes A R [] := by
  refine (hx.frame fun own ho s s' _ => ?_).mono hb.off fun _ _ _ h => h
  rw [List.append_nil]
  exact hb.single hd own ho s s'

/-- What is done under the mutex. -/
theorem writes_mutex {β : Type} {m : Place Ledger (Mutex β)} (hb : Bounds l double A R) (hd : double)
    (hx : x.Writes OffKeks AnySteps []) : (Routine.mutex l m x).Writes A R [] := by
  have hunder := hb.under hd [] fun _ hg => by cases hg
  refine .mutex (hb.lock hd) hb.refl (fun s => hunder s s) (fun s => hunder s _) ?_
  exact (hx.frame fun own ho s s' _ => hb.under hd own ho s s').mono hb.off fun _ _ _ h => h

end Bounds

namespace Interleaved

section

variable {k : KeyWrapper} {u : KeyUnwrapper} {A : LibraryLock → Mode → Prop} (h : kms.Serves env)
include h

theorem wrapKey_any (client : KmsClient) (keyBytes : Bytes) (masterKeyId : String) :
    (kms.wrapKey client keyBytes masterKeyId).Writes OffKeks AnySteps held :=
  (h.wrapKey client keyBytes masterKeyId).writes (fun _ _ => trivial) fun _ _ => trivial

theorem getWriteKek_any (masterKeyId : String) : (getWriteKek env kms k masterKeyId).Writes OffKeks AnySteps held := by
  refine .bind (call_writes fun _ => trivial) fun keks => ?_
  cases keks.lookup masterKeyId with
  | some kek => exact .pure kek
  | none =>
    refine .bind ?_ fun kek => (call_writes fun _ => trivial).bind fun _ => .pure kek
    refine (fill_aside kekLen).any.bind fun key => (drawKeyId_aside key).any.bind fun keyId => ?_
    refine (getClient_aside h _ _ _).any.bind fun client => ?_
    exact (wrapKey_any h client key masterKeyId).bind fun wrappedKey => .pure _

section

variable (hb : Bounds (.kekWrites k.masterKeyToKek) (k.encryptionConfiguration.doubleWrapping = true) A R)
include hb

theorem getKeyMetadata_writes (key : Bytes) (masterKeyId : String) (isFooterKey : Bool) :
    (getKeyMetadata env kms k key masterKeyId isFooterKey).Writes A R [] := by
  refine .bind ?_ fun m => (hb.writes_unserved (ofExcept_aside (m.serialize env)).unserved).bind fun text => .pure _
  unfold wrap
  by_cases hd : k.encryptionConfiguration.doubleWrapping = true
  · rw [if_pos hd]
    refine hb.writes_mutex hd ((getWriteKek_any h masterKeyId).bind fun kek => ?_)
    exact (encrypt_aside key kek.keyId kek.key).any.bind fun wrappedDek => (ofExcept_aside _).any
  · rw [if_neg hd]
    refine hb.writes_single hd ((getClient_aside h _ _ _).any.bind fun client => ?_)
    exact (wrapKey_any h client key masterKeyId).bind fun wrapped => (ofExcept_aside _).any

theorem generateKey_writes (masterKeyId : String) (isFooterKey : Bool) :
    (generateKey env kms k masterKeyId isFooterKey).Writes A R [] :=
  (hb.writes_unserved (fill_aside _).unserved).bind fun key =>
    (getKeyMetadata_writes h hb key masterKeyId isFooterKey).bind fun _ => .pure _

theorem addColumns_writes (masterKeyId : String) (columnPaths : List String) (b : FileEncryptionProperties) :
    (addColumns env kms k masterKeyId columnPaths b).Writes A R [] := by
  induction columnPaths generalizing b with
  | nil => exact .pure b
  | cons c columnPaths ih => exact (generateKey_writes h hb masterKeyId false).bind fun key => ih _

theorem addColumnKeys_writes (es : List (Sigma fun _ : String => List String)) (b : FileEncryptionProperties) :
    (addColumnKeys env kms k es b).Writes A R [] := by
  induction es generalizing b with
  | nil => exact .pure b
  | cons e es ih => exact (addColumns_writes h hb e.1 e.2 b).bind fun b' => ih b'

theorem withWrapper_writes (enc : EncryptionConfiguration) : (withWrapper env kms enc k).Writes A R [] :=
  (generateKey_writes h hb _ true).bind fun _ =>
    (hb.writes_unserved (call_writes fun _ => .of_log rfl)).bind fun _ => addColumnKeys_writes h hb _ _

end

/-! ## Unwrapping -/

theorem unwrapWithKms_any (wrapped masterKeyId : String) :
    (unwrapWithKms env kms u wrapped masterKeyId).Writes OffKeks AnySteps held := by
  refine .bind (call_writes fun _ => trivial) fun config => (getClient_aside h _ config _).any.bind fun client => ?_
  exact (h.unwrapKey client wrapped masterKeyId).writes (fun _ _ => trivial) fun _ _ => trivial

theorem getReadKek_any (masterKeyId kekId wrappedKek : String) :
    (getReadKek env kms u masterKeyId kekId wrappedKek).Writes OffKeks AnySteps held := by
  refine .bind (call_writes fun _ => trivial) fun keks => ?_
  cases keks.lookup kekId with
  | some kek => exact .pure kek
  | none =>
    refine .holding (fun h => h) (fun _ _ => trivial) ((unwrapWithKms_any h wrappedKek masterKeyId).bind fun kek => ?_)
    exact (call_writes fun _ => trivial).bind fun _ => .pure kek

end

end Interleaved

/-- The id of the KEK that the metadata name, under double wrapping. -/
def KeyMaterial.namedKek (m : KeyMaterial) : Option String :=
  if m.doubleWrapping then m.wrappedKek.bind fun _ => m.keyEncryptionKeyId else none

theorem KeyMaterial.namedKek_eq_some {m : KeyMaterial} {kekId : String} : m.namedKek = some kekId ↔
    m.doubleWrapping = true ∧ ∃ wrappedKek, m.wrappedKek = some wrappedKek ∧ m.keyEncryptionKeyId = some kekId := by
  unfold namedKek
  split
  · rename_i hd
    simp [hd, Option.bind_eq_some_iff]
  · rename_i hd
    simp [hd]

def KeyUnwrapper.namedKek (env : Env) (keyMetadata : Bytes) : Option String :=
  (readMaterial env keyMetadata).toOption.bind KeyMaterial.namedKek

namespace Interleaved

section

variable {u : KeyUnwrapper} {A : LibraryLock → Mode → Prop} {keyMetadata : Bytes} {double : Prop}

theorem updateKmsConfig_unserved (u : KeyUnwrapper) (m : KeyMaterial) :
    (updateKmsConfig u m).Writes OffKeks UnservedSteps held := by
  unfold updateKmsConfig
  split
  · refine .holding (fun h => h) (fun _ => .refl) (call_writes fun s => .of_log ?_)
    obtain ⟨r, c, hrun, _⟩ := u.update_cases _ _ s.world
    rw [hrun]
    rfl
  · exact .pure ()

theorem retrieveKey_writes (h : kms.Serves env)
    (hb : Bounds (.kekReads u.kekCache) ((KeyUnwrapper.namedKek env keyMetadata).isSome = true) A R) :
    (retrieveKey env kms u keyMetadata).Writes A R [] := by
  refine ofExcept_bind_writes hb.refl fun m hm => ?_
  split
  · exact .finish _
  refine (hb.writes_unserved (updateKmsConfig_unserved u m)).bind fun _ => ?_
  have hnamed : KeyUnwrapper.namedKek env keyMetadata = m.namedKek := by
    simp [KeyUnwrapper.namedKek, hm, Except.toOption]
  rw [hnamed] at hb
  unfold unwrapDek
  by_cases hd : m.doubleWrapping = true
  · rw [if_pos hd]
    split
    · rename_i kekId wrappedKek hk hw
      have hsome : m.namedKek.isSome = true := by simp [KeyMaterial.namedKek, hd, hk, hw]
      refine hb.writes_mutex hsome ((getReadKek_any h _ _ _).bind fun kek => ?_)
      exact (ofExcept_aside _).any.bind fun decoded => call_writes fun _ => trivial
    · exact .finish _
  · rw [if_neg hd]
    have hnone : ¬ m.namedKek.isSome = true := by simp [KeyMaterial.namedKek, hd]
    exact hb.writes_single hnone (.holding (fun h => h) (fun _ _ => trivial) (unwrapWithKms_any h _ _))

end

end Interleaved

/-! ## Requests -/

section

variable {A : LibraryLock → Mode → Prop} {ρ : Type}

/-- A program that asks the KMS for nothing is allowed all that is allowed so. -/
theorem writes_of_unserved {p : Program LibraryLock Ledger ρ} (hp : p.Writes OffKeks UnservedSteps [] [])
    (hA : ∀ l mode, OffKeks l mode → A l mode)
    (hR : ∀ own, (∀ g ∈ own, OffKeks g.1 g.2) → ∀ s s', s.Unserved s' → R own s s') : p.Writes A R [] [] := by
  refine (hp.frame [] (fun _ hg => by cases hg) fun own ho s s' hs => ?_).mono hA fun _ _ _ h => h
  rw [List.append_nil]
  exact hR own ho s s' hs

/-- Requests that neither write nor read a key. -/
def Request.Unserved : Request → Prop
  | .encrypt _ _ _ | .retrieve _ _ => False
  | _ => True

theorem Request.program_unserved {r : Request} (hr : r.Unserved) :
    (r.program env kms).Writes OffKeks UnservedSteps [] [] := by
  have hlog : ∀ {α : Type} {x : Call α}, (∀ w, (x w).2.log = w.log) → (call x).Writes OffKeks UnservedSteps [] :=
    fun hx => call_writes fun s => .of_log (hx s.world)
  cases r with
  | newFactory =>
    have hmanager : (Interleaved.newManager env).Writes OffKeks UnservedSteps [] :=
      (hlog fun _ => rfl).bind fun _ => (hlog fun _ => rfl).bind fun _ => (hlog fun _ => rfl).bind fun _ => .pure _
    exact Program.Writes.bind (hmanager.bind fun k => hlog fun _ => rfl) fun _ => rfl
  | refresh config token =>
    have hrefresh : (Interleaved.refresh config token).Writes OffKeks UnservedSteps [] :=
      .holding (fun h => h) (fun _ => .refl) (call_writes fun s => .of_log rfl)
    exact Program.Writes.bind hrefresh fun _ => rfl
  | wait elapsed => exact fun s => ⟨.of_log rfl, rfl⟩
  | decrypt m config dec =>
    refine Program.Writes.bind (m := []) ?_ fun r s => ⟨.of_log ?_, rfl⟩
    · exact (Interleaved.getKekReadCache_unserved m config _).bind fun _ => (hlog fun _ => rfl).bind fun _ => .pure _
    · cases r <;> rfl
  | encrypt m config enc => exact hr.elim
  | retrieve u keyMetadata => exact hr.elim

theorem retrieve_writes (h : kms.Serves env) {u : KeyUnwrapper} {keyMetadata : Bytes}
    (hb : Bounds (.kekReads u.kekCache) ((KeyUnwrapper.namedKek env keyMetadata).isSome = true) A R) :
    ((Request.retrieve u keyMetadata).program env kms).Writes A R [] [] := by
  have hlog : ∀ s s', s'.world = s.world → R [] s s' := fun s s' hw =>
    hb.unserved [] (fun _ hg => by cases hg) s s' (.of_log (by rw [hw]))
  exact fun s => ⟨hb.refl s, Program.Writes.bind (Interleaved.retrieveKey_writes h hb) fun r s' => ⟨hlog _ _ rfl, rfl⟩⟩

/-- The keys of a file are wrapped as a wrapper wraps them that is made first. -/
theorem encrypt_settles (h : kms.Serves env) {m : ManagerId} {config : KmsConnectionConfig}
    {enc : EncryptionConfiguration} {F : KekWriteCache → List (LibraryLock × Mode) → Ledger → Ledger → Prop}
    (hb : ∀ a, Bounds (.kekWrites a) (enc.doubleWrapping = true) (fun _ _ => True) (F a)) :
    ((Request.encrypt m config enc).program env kms).Settles F [] [] := by
  have hunserved : ∀ {ρ : Type} {p : Program LibraryLock Ledger ρ}, p.Writes OffKeks UnservedSteps [] [] →
      p.Writes (fun _ _ => True) (fun held s s' => ∀ a, F a held s s') [] [] := fun hp =>
    writes_of_unserved hp (fun _ _ _ => trivial) fun own ho s s' hs a => (hb a).unserved own ho s s' hs
  have hfinish : ∀ r : Outcome ParquetError FileEncryptionProperties,
      Program.Settles F [] [] (Routine.finish r : Run FileEncryptionProperties) := fun r =>
        .on (A := fun _ _ => True) 0 rfl
  refine Program.Settles.bind (m := []) ?_ fun r => hunserved fun s => ⟨.of_log ?_, rfl⟩
  · rw [Interleaved.fileEncryptionProperties_eq]
    split
    · exact hfinish _
    · split
      · exact hfinish _
      · refine (hunserved (Interleaved.getKekWriteCache_unserved m config enc.cacheLifetime)).settles_bind fun r => ?_
        cases r with
        | ok a => exact .on a (Interleaved.withWrapper_writes (k := ⟨m, config, enc, a⟩) h (hb a) enc)
        | err e => exact hfinish _
        | panic => exact hfinish _
  · cases r <;> rfl

end

end

end ParquetKeyManagement
