/-
  ParquetKeyManagement.Factory.FewestCalls — double wrapping makes the fewest KMS calls.

  Any number of threads make a call each: a wrapper makes the metadata of a key, or some request
  is made. They run step by step, as their locks let them, and any call may fail anywhere. A
  `Pool.Trace` is such a run with all that each thread did, from which what the KMS wrapped and
  unwrapped is read off (`wrappedThrough`, `unwrappedThrough`). That one thread at a time is in a
  cache is what its mutex brings about.
  - `Task.program_wraps`, `Task.program_unwraps`: a double-wrapping call has keys wrapped under the
    mutex of one cache only, and a retrieval has a KEK unwrapped under that of its reader's.
  - `Task.wraps_once`, `Task.unwraps_once`: each call keeps to the protocol of `Support.Memo`.
  - `fewest_kms_calls`: through one write cache the KMS wraps at most once for a master key, and
    all metadata for it name the same KEK; through one read cache it unwraps at most once for a
    KEK ID; and calls that all succeed make exactly one wrap for each master key they use.
-/

import ParquetKeyManagement.Factory.ConcurrentKeys
import ParquetKeyManagement.Factory.KekMemo

namespace ParquetKeyManagement

open Effect Locks Memo

/-! ## Calls -/

/-- A wrapper's `get_key_metadata`, or a request. -/
inductive Task where
  | metadata (wrapper : KeyWrapper) (key : Bytes) (masterKeyId : String) (isFooterKey : Bool)
  | request (r : Request)

/-- What a call is answered; it is not made if there is no such wrapper or reader yet. -/
inductive Answer where
  | metadata (result : Outcome ParquetError Bytes)
  | reply (reply : Reply)
  | unasked

namespace Task

/-- The wrapper's cache exists, and the reader was handed out. -/
def Ready (s : Ledger) : Task → Prop
  | .metadata k _ _ _ => k.masterKeyToKek < s.world.nextWriteCache
  | .request (.retrieve u _) => u ∈ s.readers
  | .request _ => True

instance (s : Ledger) (t : Task) : Decidable (t.Ready s) :=
  match t with
  | .metadata k _ _ _ => inferInstanceAs (Decidable (k.masterKeyToKek < s.world.nextWriteCache))
  | .request (.retrieve u _) => inferInstanceAs (Decidable (u ∈ s.readers))
  | .request .newFactory | .request (.refresh _ _) | .request (.wait _) | .request (.encrypt _ _ _)
  | .request (.decrypt _ _ _) => isTrue trivial

def call (env : Env) (kms : UserKms) : Task → Program LibraryLock Ledger Answer
  | .metadata k key masterKeyId isFooterKey =>
    (Interleaved.getKeyMetadata env kms k key masterKeyId isFooterKey).andThen fun r => .done (.metadata r)
  | .request r => Program.bind (r.program env kms) fun reply => .done (.reply reply)

def program (env : Env) (kms : UserKms) (t : Task) : Program LibraryLock Ledger Answer :=
  .atomic id fun s => if t.Ready s then t.call env kms else .done .unasked

/-- The call wraps keys with KEKs. -/
def doubleWraps : Task → Bool
  | .metadata k _ _ _ => k.encryptionConfiguration.doubleWrapping
  | .request (.encrypt _ _ enc) => enc.doubleWrapping
  | _ => false

/-- The master keys that it uses. -/
def usedIds : Task → List String
  | .metadata _ _ masterKeyId _ => [masterKeyId]
  | .request (.encrypt _ _ enc) => enc.usedIds
  | _ => []

/-- The cache of the call's wrapper, if it has one; a file's is made in the call. -/
def cacheOr (a : KekWriteCache) : Task → KekWriteCache
  | .metadata k _ _ _ => k.masterKeyToKek
  | _ => a

/-- The wrapper was made for the cache. -/
def isGiven (a : KekWriteCache) : Task → Bool
  | .metadata k _ _ _ => k.masterKeyToKek == a
  | _ => false

/-- The KEK that is asked for through the read cache. -/
def kekThrough (env : Env) (c : KekReadCache) : Task → Option String
  | .request (.retrieve u keyMetadata) => if u.kekCache = c then KeyUnwrapper.namedKek env keyMetadata else none
  | _ => none

/-- What the call had unwrapped from one state to the other: the KEK, as often as the KMS unwrapped a key. -/
def unwrapped (env : Env) (c : KekReadCache) (t : Task) (s s' : Ledger) : List String :=
  match t.kekThrough env c with
  | some kekId => List.replicate (s.unwrapsUntil s') kekId
  | none => []

end Task

namespace Answer

/-- The metadata that were handed out. -/
def issued : Answer → List Bytes
  | .metadata (.ok keyMetadata) => [keyMetadata]
  | .reply (.encryption (.ok p)) => p.keys.map EncryptionKey.metadata
  | _ => []

/-- Keys were wrapped as they were asked for. -/
def succeeded : Answer → Bool
  | .metadata r => r.isOk
  | .reply (.encryption r) => r.isOk
  | _ => false

end Answer

/-! ## What was wrapped and unwrapped in a run -/

section

variable {τ : Type} [DecidableEq τ] (env : Env) (tasks : τ → Task) (ds : List (Deed τ LibraryLock Ledger))

/-- The thread double-wraps through the cache: its wrapper was made for it, or it has taken its mutex. -/
def through (a : KekWriteCache) (t : τ) : Bool :=
  (tasks t).doubleWraps && ((tasks t).isGiven a ||
    ds.any fun d => decide (d.thread = t) && decide ((LibraryLock.kekWrites a, Mode.exclusive) ∈ d.held))

/-- The master keys that the KMS wrapped keys for, in double-wrapping calls through the cache. -/
def wrappedThrough (a : KekWriteCache) : List String :=
  ds.flatMap fun d => if through tasks ds a d.thread then d.before.wrappedUntil d.after else []

/-- The ids of the KEKs that the KMS unwrapped for retrievals through the cache. -/
def unwrappedThrough (c : KekReadCache) : List String :=
  ds.flatMap fun d => (tasks d.thread).unwrapped env c d.before d.after

end

/-- Metadata for one master key name one KEK. -/
def SameKek (env : Env) (metadata metadata' : Bytes) : Prop :=
  ∃ m m', KeyUnwrapper.readMaterial env metadata = .ok m ∧ KeyUnwrapper.readMaterial env metadata' = .ok m' ∧
    (m.masterKeyId = m'.masterKeyId → ∃ keyEncryptionKeyId wrappedKek,
      m.keyEncryptionKeyId = some keyEncryptionKeyId ∧ m'.keyEncryptionKeyId = some keyEncryptionKeyId ∧
      m.wrappedKek = some wrappedKek ∧ m'.wrappedKek = some wrappedKek)

/-! ## What a call does -/

/-- A double-wrapping call takes the mutex of one write cache only, and has keys wrapped under it. -/
structure WrapsIn (double : Bool) (a : KekWriteCache) (held : List (LibraryLock × Mode)) (s s' : Ledger) : Prop where
  own : ∀ b, (.kekWrites b, .exclusive) ∈ held → double = true ∧ b = a
  under : double = true → s.wrappedUntil s' ≠ [] → (.kekWrites a, .exclusive) ∈ held

/-- A retrieval has a KEK unwrapped under the mutex of its reader's cache. -/
def UnwrapsIn (env : Env) (c : KekReadCache) (t : Task) (held : List (LibraryLock × Mode)) (s s' : Ledger) : Prop :=
  t.unwrapped env c s s' ≠ [] → (.kekReads c, .exclusive) ∈ held

section

variable {env : Env} {kms : UserKms} {a : KekWriteCache} {c : KekReadCache} {held : List (LibraryLock × Mode)}

theorem bounds_wrapsIn (a : KekWriteCache) (double : Bool) :
    Bounds (.kekWrites a) (double = true) (fun _ _ => True) (WrapsIn double a) where
  off _ _ _ := trivial
  lock _ := trivial
  unserved own ho s s' hs := ⟨fun b hb => (ho _ hb trivial).elim, fun _ hn => absurd hs.wrappedUntil hn⟩
  under hd own ho s s' := by
    refine ⟨fun b hb => ⟨hd, ?_⟩, fun _ _ => List.mem_append_right _ (List.mem_singleton.mpr rfl)⟩
    rcases List.mem_append.mp hb with hb | hb
    · exact (ho _ hb trivial).elim
    · cases List.mem_singleton.mp hb
      rfl
  single hd own ho s s' := ⟨fun b hb => (ho _ hb trivial).elim, fun h => absurd h hd⟩

/-- Retrievals take no write cache's mutex. -/
theorem bounds_wrapsIn_reads (c : KekReadCache) (double : Prop) (a : KekWriteCache) :
    Bounds (.kekReads c) double (fun _ _ => True) (WrapsIn false a) where
  off _ _ _ := trivial
  lock _ := trivial
  unserved own ho s s' hs := ⟨fun b hb => (ho _ hb trivial).elim, fun hd => by cases hd⟩
  under hd own ho s s' := by
    refine ⟨fun b hb => ?_, fun hd => by cases hd⟩
    rcases List.mem_append.mp hb with hb | hb
    · exact (ho _ hb trivial).elim
    · cases List.mem_singleton.mp hb
  single hd own ho s s' := ⟨fun b hb => (ho _ hb trivial).elim, fun hd => by cases hd⟩

/-- Where everything is allowed. -/
theorem bounds_any (l : LibraryLock) (double : Prop) {R : List (LibraryLock × Mode) → Ledger → Ledger → Prop}
    (hR : ∀ held s s', R held s s') : Bounds l double (fun _ _ => True) R :=
  ⟨fun _ _ _ => trivial, fun _ => trivial, fun _ _ _ _ _ => hR _ _ _, fun _ _ _ _ _ => hR _ _ _,
    fun _ _ _ _ _ => hR _ _ _⟩

namespace Task

/-- What bounds the KMS calls of a task, for each cache that its wrapper may have. -/
def Bounded (env : Env) (F : KekWriteCache → List (LibraryLock × Mode) → Ledger → Ledger → Prop) : Task → Prop
  | .metadata k _ _ _ =>
    Bounds (.kekWrites k.masterKeyToKek) (k.encryptionConfiguration.doubleWrapping = true) (fun _ _ => True) (F 0)
  | .request (.encrypt _ _ enc) => ∀ a, Bounds (.kekWrites a) (enc.doubleWrapping = true) (fun _ _ => True) (F a)
  | .request (.retrieve u keyMetadata) =>
    Bounds (.kekReads u.kekCache) ((KeyUnwrapper.namedKek env keyMetadata).isSome = true) (fun _ _ => True) (F 0)
  | .request _ => ∀ own, (∀ g ∈ own, OffKeks g.1 g.2) → ∀ s s', s.Unserved s' → F 0 own s s'

/-- A task does what its KMS calls are bounded by. -/
theorem program_settles (h : kms.Serves env) {F : KekWriteCache → List (LibraryLock × Mode) → Ledger → Ledger → Prop}
    (hrefl : ∀ s a, F a [] s s) {t : Task} (ht : t.Bounded env F) : (t.program env kms).Settles F [] [] := by
  refine .atomic hrefl fun s => ?_
  split
  · cases t with
    | metadata k key masterKeyId isFooterKey =>
      have hwrites := Interleaved.getKeyMetadata_writes h ht key masterKeyId isFooterKey
      exact .on 0 (Program.Writes.bind hwrites fun _ => rfl)
    | request r =>
      cases r with
      | encrypt m config enc => exact Program.Settles.bind (A := fun _ _ => True) (encrypt_settles h ht) fun _ => rfl
      | retrieve u keyMetadata => exact .on 0 (Program.Writes.bind (retrieve_writes h ht) fun _ => rfl)
      | _ =>
        refine .on (A := fun _ _ => True) 0
          (Program.Writes.bind (writes_of_unserved ?_ (fun _ _ _ => trivial) ht) fun _ => rfl)
        exact Request.program_unserved trivial
  · exact .on (A := fun _ _ => True) 0 rfl

/-- Whatever cache it settles on, a call has keys wrapped under the mutex of that one only. -/
theorem program_wraps (h : kms.Serves env) (t : Task) :
    (t.program env kms).Settles (fun a => WrapsIn t.doubleWraps (t.cacheOr a)) [] [] := by
  have hunserved : ∀ double a own, (∀ g ∈ own, OffKeks g.1 g.2) → ∀ s s', s.Unserved s' → WrapsIn double a own s s' :=
    fun double a => (bounds_wrapsIn a double).unserved
  refine program_settles h (fun s a => hunserved _ _ [] (fun _ hg => by cases hg) s s (.refl s)) ?_
  cases t with
  | metadata k key masterKeyId isFooterKey => exact bounds_wrapsIn k.masterKeyToKek _
  | request r =>
    cases r with
    | encrypt m config enc => exact fun a => bounds_wrapsIn a enc.doubleWrapping
    | retrieve u keyMetadata => exact bounds_wrapsIn_reads u.kekCache _ 0
    | _ => exact hunserved false 0

theorem unwrapped_of_unserved {t : Task} {s s' : Ledger} (hs : s.Unserved s') : t.unwrapped env c s s' = [] := by
  unfold unwrapped
  rw [hs.unwrapsUntil]
  cases t.kekThrough env c <;> rfl

theorem unwrapsIn_of_none {t : Task} (ht : t.kekThrough env c = none)
    (held : List (LibraryLock × Mode)) (s s' : Ledger) :
    UnwrapsIn env c t held s s' := by
  unfold UnwrapsIn unwrapped
  rw [ht]
  exact fun hn => absurd rfl hn

theorem kekThrough_eq_some {t : Task} {kekId : String} : t.kekThrough env c = some kekId ↔
    ∃ u keyMetadata, t = .request (.retrieve u keyMetadata) ∧ u.kekCache = c ∧
      KeyUnwrapper.namedKek env keyMetadata = some kekId := by
  constructor
  · intro h
    unfold kekThrough at h
    split at h
    · split at h
      · exact ⟨_, _, rfl, ‹_›, h⟩
      · cases h
    · cases h
  · rintro ⟨u, keyMetadata, rfl, hc, hnamed⟩
    exact (if_pos hc).trans hnamed

/-- A retrieval has its KEK unwrapped under the mutex of its reader's cache only. -/
theorem program_unwraps (h : kms.Serves env) (c : KekReadCache) (t : Task) :
    (t.program env kms).Settles (fun _ : KekWriteCache => UnwrapsIn env c t) [] [] := by
  refine program_settles h (fun s _ hn => absurd (unwrapped_of_unserved (.refl s)) hn) ?_
  cases hthrough : t.kekThrough env c with
  | none =>
    have hany := unwrapsIn_of_none hthrough
    cases t with
    | metadata k key masterKeyId isFooterKey => exact bounds_any _ _ hany
    | request r =>
      cases r with
      | encrypt m config enc => exact fun a => bounds_any _ _ hany
      | retrieve u keyMetadata => exact bounds_any _ _ hany
      | _ => exact fun own _ s s' _ => hany own s s'
  | some kekId =>
    obtain ⟨u, keyMetadata, rfl, rfl, hnamed⟩ := kekThrough_eq_some.mp hthrough
    refine ⟨fun _ _ _ => trivial, fun _ => trivial, fun own _ s s' hs hn => absurd (unwrapped_of_unserved hs) hn,
      fun _ own _ s s' _ => List.mem_append_right _ (List.mem_singleton.mpr rfl), fun hn => absurd ?_ hn⟩
    rw [hnamed]
    rfl

end Task

/-! ## Calls keep to the protocol -/

/-- Everything but one cache's mutex may be taken. -/
theorem bounds_off {l l' : LibraryLock} {double : Prop} (hl' : l'.IsKeks) (hl : double → l ≠ l') :
    Bounds l double (fun l _ => l ≠ l') AnySteps where
  off _ _ hoff he := hoff (he ▸ hl')
  lock := hl
  unserved _ _ _ _ _ := trivial
  under _ _ _ _ _ := trivial
  single _ _ _ _ _ := trivial

theorem encrypt_off (h : kms.Serves env) {l : LibraryLock} (hl : l.IsKeks) {m : ManagerId}
    {config : KmsConnectionConfig}
    {enc : EncryptionConfiguration} (hne : enc.doubleWrapping = true → ∀ a, LibraryLock.kekWrites a ≠ l) :
    ((Request.encrypt m config enc).program env kms).Writes (fun l' _ => l' ≠ l) AnySteps [] [] := by
  have hoff : ∀ l' mode, OffKeks l' mode → l' ≠ l := fun l' mode hoff he => hoff (he ▸ hl)
  refine Program.Writes.bind (?_ : Routine.Writes _ _ [] _) fun r s => ⟨trivial, rfl⟩
  rw [Interleaved.fileEncryptionProperties_eq]
  refine .ite (.finish _) (.ite (.finish _) (.bind ?_ fun a => ?_))
  · exact (Interleaved.getKekWriteCache_unserved m config enc.cacheLifetime).mono hoff fun _ _ _ _ => trivial
  · exact Interleaved.withWrapper_writes (k := ⟨m, config, enc, a⟩) h (bounds_off hl fun hd => hne hd a) enc

namespace Task

/-- A call that does not use the cache does not take its mutex. -/
theorem call_off (h : kms.Serves env) {l : LibraryLock} (hl : l.IsKeks) {t : Task}
    (hwrites : t.doubleWraps = true → ∀ a, LibraryLock.kekWrites (t.cacheOr a) ≠ l)
    (hreads : ∀ u keyMetadata, t = .request (.retrieve u keyMetadata) →
      (KeyUnwrapper.namedKek env keyMetadata).isSome = true → LibraryLock.kekReads u.kekCache ≠ l) :
    (t.call env kms).Writes (fun l' _ => l' ≠ l) AnySteps [] [] := by
  have hoff : ∀ l' mode, OffKeks l' mode → l' ≠ l := fun l' mode hoff he => hoff (he ▸ hl)
  cases t with
  | metadata k key masterKeyId isFooterKey =>
    have hb : Bounds (.kekWrites k.masterKeyToKek) (k.encryptionConfiguration.doubleWrapping = true) _ AnySteps :=
      bounds_off hl fun hd => hwrites hd 0
    exact Program.Writes.bind (Interleaved.getKeyMetadata_writes h hb key masterKeyId isFooterKey) fun _ => rfl
  | request r =>
    cases r with
    | encrypt m config enc => exact Program.Writes.bind (encrypt_off h hl hwrites) fun _ => rfl
    | retrieve u keyMetadata =>
      exact Program.Writes.bind (retrieve_writes h (bounds_off hl (hreads u keyMetadata rfl))) fun _ => rfl
    | _ =>
      refine Program.Writes.bind (writes_of_unserved ?_ hoff fun _ _ _ _ _ => trivial) fun _ => rfl
      exact Request.program_unserved trivial

/-- How a call ends, if it double-wraps through the cache: its metadata name KEKs that are in the cache, and if it
    succeeded there is a KEK for each master key that it uses. -/
def Wrapped (env : Env) (a : KekWriteCache) (t : Task) (answer : Answer) (g : Account String) (s : Ledger) : Prop :=
  g.owed = none ∧ (t.doubleWraps = true → t.isGiven a = true ∨ g.opened →
    (∀ keyMetadata ∈ answer.issued, ∃ x ∈ t.usedIds, Interleaved.NamesStored env a x keyMetadata s) ∧
    (answer.succeeded = true → ∀ x ∈ t.usedIds, Interleaved.HasKek a x s))

theorem Wrapped.evolves {t : Task} {answer : Answer} {g : Account String} {s s' : Ledger}
    (h : t.Wrapped env a answer g s) (he : s.Evolves s') : t.Wrapped env a answer g s' := by
  refine ⟨h.1, fun hd ha => ?_⟩
  obtain ⟨hnamed, hhas⟩ := h.2 hd ha
  exact ⟨fun md hmd => (hnamed md hmd).imp fun _ hx => ⟨hx.1, hx.2.evolves he⟩,
    fun ho x hx => (hhas ho x hx).evolves he⟩

/-- A call that did not take the cache's mutex. -/
theorem Wrapped.of_closed {t : Task} {answer : Answer} {g : Account String} {s : Ledger} (howed : g.owed = none)
    (ha : t.doubleWraps = true → t.isGiven a = false ∧ ¬ g.opened) : t.Wrapped env a answer g s := by
  refine ⟨howed, fun hd hthrough => ?_⟩
  rcases hthrough with hgiven | hopened
  · rw [(ha hd).1] at hgiven
    cases hgiven
  · exact ((ha hd).2 hopened).elim

variable {strict : Prop} {limit : Instant} {s : Ledger}

/-- The call produces KEKs for missing master keys only, and stores them. -/
abbrev WrapsOnce (env : Env) (strict : Prop) (limit : Instant) (a : KekWriteCache) {ρ : Type} (allowed : String → Prop)
    (x : Program LibraryLock Ledger ρ) (g : Account String) (s : Ledger) (post : ρ → Account String → Ledger → Prop) :
    Prop :=
  x.Memoizes (sharing env strict limit) (.kekWrites a) ((worldPlace.comp (writeCachePlace a)).comp mutexData)
    Ledger.wrappedUntil allowed [] post g [] s

/-- A key's metadata are made through the wrapper's own cache. -/
theorem metadata_wrapsOnce {k : KeyWrapper} (h : kms.Serves env) (hs : LedgerInv env strict limit s)
    (hd : k.encryptionConfiguration.doubleWrapping = true) (key : Bytes) (masterKeyId : String) (isFooterKey : Bool) :
    WrapsOnce env strict limit k.masterKeyToKek (· ∈ [masterKeyId])
      ((Task.metadata k key masterKeyId isFooterKey).call env kms) ⟨False, none⟩ s
      (Wrapped env k.masterKeyToKek (.metadata k key masterKeyId isFooterKey)) := by
  refine Program.Memoizes.bind hs
    (Interleaved.getKeyMetadata_once h hd hs rfl (List.mem_singleton.mpr rfl) key isFooterKey)
    fun r g s1 hs1 _ hr => ⟨rfl, fun s2 hr2 => ⟨(hr s2 hr2).1, fun _ _ => ?_⟩⟩
  cases r with
  | ok metadata =>
    have hnames := (hr s2 hr2).2 metadata rfl
    refine ⟨fun md hmd => ⟨masterKeyId, List.mem_singleton.mpr rfl, ?_⟩, fun _ x hx => ?_⟩
    · cases List.mem_singleton.mp hmd
      exact hnames
    · cases List.mem_singleton.mp hx
      exact hnames.hasKek
  | err e => exact ⟨fun md hmd => (by cases hmd), fun ho => by cases ho⟩
  | panic => exact ⟨fun md hmd => (by cases hmd), fun ho => by cases ho⟩

/-- A file's keys are wrapped through the cache of its wrapper, which is this one or not. -/
theorem encrypt_wrapsOnce (h : kms.Serves env) (hs : LedgerInv env strict limit s) {m : ManagerId}
    {config : KmsConnectionConfig} {enc : EncryptionConfiguration} (hd : enc.doubleWrapping = true) :
    WrapsOnce env strict limit a (· ∈ enc.usedIds) (Interleaved.fileEncryptionProperties env kms m config enc)
      ⟨False, none⟩ s fun r g s => Wrapped env a (.request (.encrypt m config enc)) (.reply (.encryption r)) g s := by
  have hclosed : ∀ (answer : Answer) (s : Ledger),
      Wrapped env a (.request (.encrypt m config enc)) answer ⟨False, none⟩ s :=
    fun _ _ => .of_closed rfl fun _ => ⟨rfl, fun ho => ho⟩
  have hfinish : ∀ (r : Outcome ParquetError FileEncryptionProperties) (s : Ledger), WrapsOnce env strict limit a
      (· ∈ enc.usedIds) (Routine.finish r) ⟨False, none⟩ s fun r g s =>
        Wrapped env a (.request (.encrypt m config enc)) (.reply (.encryption r)) g s :=
    fun r _ => ⟨rfl, fun s' _ => hclosed _ s'⟩
  rw [Interleaved.fileEncryptionProperties_eq]
  split
  · exact hfinish _ s
  split
  · exact hfinish _ s
  have hoff : (Interleaved.getKekWriteCache env m config enc.cacheLifetime).Writes OffKeks UnservedSteps [] :=
    Interleaved.getKekWriteCache_unserved m config enc.cacheLifetime
  refine Program.Memoizes.bind hs ((writeKeksAt a).outside hoff fun _ hn => hn trivial) fun r g' s1 hs1 _ hg => ?_
  obtain rfl : g' = ⟨False, none⟩ := hg s1 (.refl hs1)
  cases r with
  | err e => exact hfinish _ s1
  | panic => exact hfinish _ s1
  | ok a' =>
    by_cases ha : a' = a
    · subst ha
      refine Program.Memoizes.mono
        (Interleaved.withWrapper_once (k := ⟨m, config, enc, a'⟩) h hd hs1 rfl fun _ hx => hx)
        fun r g s hr => ⟨hr.1, fun _ _ => ⟨fun md hmd => ?_, fun ho => ?_⟩⟩
      · cases r with
        | ok p =>
          obtain ⟨key, hkey, rfl⟩ := List.mem_map.mp hmd
          exact (hr.2 p rfl).1 key hkey
        | err e => cases hmd
        | panic => cases hmd
      · cases r with
        | ok p => exact (hr.2 p rfl).2
        | err e => cases ho
        | panic => cases ho
    · have hoff := Interleaved.withWrapper_writes (k := ⟨m, config, enc, a'⟩) h
        (bounds_off (writeKeksAt a).keks fun _ he => ha (LibraryLock.kekWrites.inj he)) enc
      refine Program.Memoizes.mono ((writeKeksAt a).outside hoff fun _ hn => hn rfl) fun r g s hg => ?_
      rw [hg]
      exact hclosed _ s

/-- Every call keeps to the protocol of each write cache. -/
theorem wraps_once (h : kms.Serves env) (t : Task) :
    WrapsOnce env strict limit a (· ∈ t.usedIds) (t.program env kms) ⟨False, none⟩ s (t.Wrapped env a) := by
  refine fun s' hr _ => ⟨none, fun hg => (by cases hg), fun _ => rfl, ?_⟩
  have hs' : LedgerInv env strict limit s' := hr.inv
  -- a call that does not use the cache, or no call
  have hoff : ∀ {p : Program LibraryLock Ledger Answer}, p.Writes (fun l' _ => l' ≠ .kekWrites a) AnySteps [] [] →
      (t.doubleWraps = true → t.isGiven a = false) →
      WrapsOnce env strict limit a (· ∈ t.usedIds) p ⟨False, none⟩ s' (t.Wrapped env a) := by
    intro p hp hgiven
    refine ((writeKeksAt a).outside hp fun _ hn => hn rfl).mono fun answer g s hg => ?_
    rw [hg]
    exact .of_closed rfl fun hd => ⟨hgiven hd, fun ho => ho⟩
  show WrapsOnce env strict limit a _ (if _ then _ else _) _ s' _
  split
  · by_cases hd : t.doubleWraps = true
    · cases t with
      | metadata k key masterKeyId isFooterKey =>
        by_cases ha : k.masterKeyToKek = a
        · subst ha
          exact metadata_wrapsOnce h hs' hd key masterKeyId isFooterKey
        · refine hoff (call_off h (writeKeksAt a).keks (fun _ _ he => ha ?_) fun _ _ he => by cases he) fun _ => ?_
          · exact LibraryLock.kekWrites.inj he
          · exact beq_false_of_ne ha
      | request r =>
        cases r with
        | encrypt m config enc =>
          refine Program.Memoizes.bind hs' (Program.Memoizes.bind hs' (encrypt_wrapsOnce h hs' hd)
            fun r g s1 _ _ hr => ?_) fun reply g s1 _ _ hr => ⟨rfl, hr⟩
          -- the file is recorded outside the mutex
          refine fun s2 hr2 hguar => ⟨g.owed, fun hg => (by cases hg), fun _ => rfl, rfl, fun s3 hr3 => ?_⟩
          exact (hr s2 hr2).evolves (hguar.evolves.trans hr3.evolves)
        | _ => cases hd
    · refine hoff (call_off h (writeKeksAt a).keks (fun hd' => absurd hd' hd) fun _ _ _ _ he => by cases he)
        fun hd' => ?_
      exact absurd hd' hd
  · exact ⟨rfl, fun s1 _ => ⟨rfl, fun _ _ => ⟨fun _ hmd => (by cases hmd), fun ho => by cases ho⟩⟩⟩

/-- Every call keeps to the protocol of each read cache: it produces the KEK that it asks for through the cache. -/
theorem unwraps_once (h : kms.Serves env) (t : Task) :
    (t.program env kms).Memoizes (sharing env strict limit) (.kekReads c)
    ((worldPlace.comp (readCachePlace c)).comp mutexData)
      (t.unwrapped env c) (fun _ => True) [] (fun _ _ _ => True) ⟨False, none⟩ [] s := by
  refine fun s' hr _ => ⟨none, fun hg => (by cases hg), fun _ => rfl, ?_⟩
  have hs' : LedgerInv env strict limit s' := hr.inv
  show Program.Memoizes _ _ _ _ _ _ _ _ _ (if t.Ready s' then _ else _) s'
  split
  · cases hthrough : t.kekThrough env c with
    | none =>
      have hoff : (t.call env kms).Writes (fun l' _ => l' ≠ .kekReads c) AnySteps [] [] := by
        refine call_off h (readKeksAt c "").keks (fun _ _ he => by cases he) fun u keyMetadata ht hnamed he => ?_
        obtain ⟨kekId, hkekId⟩ := Option.isSome_iff_exists.mp hnamed
        rw [kekThrough_eq_some.mpr ⟨u, keyMetadata, ht, LibraryLock.kekReads.inj he, hkekId⟩] at hthrough
        cases hthrough
      exact (hoff.memoizes_outside (fun _ hn => hn rfl) (readKeksAt c "").data_same).mono fun _ _ _ _ => trivial
    | some kekId =>
      have hyields : t.unwrapped env c = fun s s' => List.replicate (s.unwrapsUntil s') kekId := by
        funext s s'
        unfold unwrapped
        rw [hthrough]
      obtain ⟨u, keyMetadata, rfl, rfl, hnamed⟩ := kekThrough_eq_some.mp hthrough
      rw [hyields]
      have hretrieve : ((Request.retrieve u keyMetadata).program env kms).Memoizes (sharing env strict limit)
          (.kekReads u.kekCache) ((worldPlace.comp (readCachePlace u.kekCache)).comp mutexData)
          (fun s s' => List.replicate (s.unwrapsUntil s') kekId) (fun _ => True) [] (fun _ _ _ => True)
            ⟨False, none⟩ [] s' := by
        refine fun s1 hr1 _ => ⟨none, fun hg => (by cases hg), fun _ => rfl, ?_⟩
        refine Program.Memoizes.bind hr1.inv (Interleaved.retrieveKey_once h hr1.inv rfl trivial hnamed)
          fun r g s2 _ _ _ => ?_
        exact fun s3 _ _ => ⟨g.owed, fun hg => (by cases hg), fun _ => rfl, rfl, fun _ _ => trivial⟩
      exact Program.Memoizes.bind hs' hretrieve fun _ _ _ _ _ _ => ⟨rfl, fun _ _ => trivial⟩
  · exact ⟨rfl, fun _ _ => trivial⟩

theorem program_safe (h : kms.Serves env) (t : Task) :
    (t.program env kms).Safe (sharing env False 0) [] (fun _ _ => True) [] s := by
  refine fun s' hr => ⟨.refl hr.inv, ?_⟩
  have hs' : LedgerInv env False 0 s' := hr.inv
  show Program.Safe _ _ _ _ (if t.Ready s' then _ else _) s'
  split
  · cases t with
    | metadata k key masterKeyId isFooterKey =>
      refine Program.Safe.bind hs'
        (Interleaved.getKeyMetadata_safe h hs' ⟨‹_›, fun hf => hf.elim⟩ key masterKeyId isFooterKey)
        fun _ _ _ _ => ⟨rfl, fun _ _ => trivial⟩
    | request r =>
      have hknown : r.ThroughKnown s' := by
        cases r with
        | retrieve u keyMetadata => assumption
        | _ => trivial
      exact Program.Safe.bind hs' (Request.program_safe h (fun hf => hf.elim) hs' hknown fun hf => hf.elim)
        fun _ _ _ _ => ⟨rfl, fun _ _ => trivial⟩
  · exact ⟨rfl, fun _ _ => trivial⟩

end Task

end

/-! ## The fewest calls -/

section

variable {τ : Type} [DecidableEq τ] {env : Env} {kms : UserKms} {tasks : τ → Task}
  {ds : List (Deed τ LibraryLock Ledger)}
  {p p' : Pool τ LibraryLock Ledger Answer} {a : KekWriteCache} {c : KekReadCache} {t : τ}

/-- The calls of user code are those that were made in the steps. -/
theorem trace_log {post : τ → Answer → Ledger → Prop} (hs : Pool.Sound (sharing env False 0) post p)
    (htrace : Pool.Trace p ds p') :
    p'.state.world.log = p.state.world.log ++ ds.flatMap fun d => d.before.eventsUntil d.after := by
  induction htrace with
  | start => simp
  | @step ds s s' t htrace hstep ih =>
    have he : s.state.Evolves s'.state := ((htrace.reach.sound hs).1.step hstep).2
    obtain ⟨es, hes⟩ := he.world.log
    rw [List.flatMap_append, ← List.append_assoc, ← ih, ← hes]
    simp [Ledger.eventsUntil_append hes.symm]

/-- Every deed of a thread is one of a call that uses one write cache. -/
def OneCache (tasks : τ → Task) (ds : List (Deed τ LibraryLock Ledger)) (i : τ → KekWriteCache) : Prop :=
  ∀ d ∈ ds, WrapsIn (tasks d.thread).doubleWraps ((tasks d.thread).cacheOr (i d.thread)) d.held d.before d.after

namespace OneCache

variable {i : τ → KekWriteCache} (h : OneCache tasks ds i)
include h

theorem cacheOr_of_through (ht : through tasks ds a t = true) :
    (tasks t).doubleWraps = true ∧ (tasks t).cacheOr (i t) = a := by
  obtain ⟨hdouble, hthrough⟩ := Bool.and_eq_true_iff.mp ht
  refine ⟨hdouble, ?_⟩
  rcases Bool.or_eq_true_iff.mp hthrough with hgiven | htaken
  · cases htask : tasks t with
    | metadata k key masterKeyId isFooterKey =>
      rw [htask] at hgiven
      exact beq_iff_eq.mp hgiven
    | request r =>
      rw [htask] at hgiven
      cases hgiven
  · obtain ⟨d, hd, htaken⟩ := List.any_eq_true.mp htaken
    simp only [Bool.and_eq_true, decide_eq_true_eq] at htaken
    obtain ⟨rfl, hl⟩ := htaken
    exact ((h d hd).own a hl).2.symm

theorem through_of_held {d : Deed τ LibraryLock Ledger} (hd : d ∈ ds) (hl : (.kekWrites a, .exclusive) ∈ d.held) :
    through tasks ds a d.thread = true := by
  refine Bool.and_eq_true_iff.mpr ⟨((h d hd).own a hl).1, Bool.or_eq_true_iff.mpr (Or.inr ?_)⟩
  exact List.any_eq_true.mpr ⟨d, hd, by simp [hl]⟩

/-- What was wrapped through the cache was wrapped under its mutex, and the other way round. -/
theorem wrappedThrough_eq : wrappedThrough tasks ds a = made (.kekWrites a) (fun _ => Ledger.wrappedUntil) ds := by
  refine List.flatMap_congr fun d hd => ?_
  by_cases hl : (LibraryLock.kekWrites a, Mode.exclusive) ∈ d.held
  · rw [if_pos hl, if_pos (h.through_of_held hd hl)]
  · rw [if_neg hl]
    split
    · rename_i ht
      obtain ⟨hdouble, hcache⟩ := h.cacheOr_of_through ht
      by_contra hn
      exact hl (hcache ▸ (h d hd).under hdouble hn)
    · rfl

theorem existsUnique_through {d : Deed τ LibraryLock Ledger} (hd : d ∈ ds)
    (hdouble : (tasks d.thread).doubleWraps = true)
    (hn : d.before.wrappedUntil d.after ≠ []) : ∃! a, through tasks ds a d.thread = true :=
  ⟨_, h.through_of_held hd ((h d hd).under hdouble hn), fun _ ht => (h.cacheOr_of_through ht).2.symm⟩

end OneCache

omit [DecidableEq τ] in
theorem unwrappedThrough_eq (h : ∀ d ∈ ds, UnwrapsIn env c (tasks d.thread) d.held d.before d.after) :
    unwrappedThrough env tasks ds c = made (.kekReads c) (fun t => (tasks t).unwrapped env c) ds := by
  refine List.flatMap_congr fun d hd => ?_
  by_cases hl : (LibraryLock.kekReads c, Mode.exclusive) ∈ d.held
  · rw [if_pos hl]
  · rw [if_neg hl]
    by_contra hn
    exact hl (h d hd hn)

variable {tokens : TokenCell → String} {clock : Instant}

/-- The threads before any has begun. -/
def taskPool (env : Env) (kms : UserKms) (tasks : τ → Task) (tokens : TokenCell → String) (clock : Instant) :
    Pool τ LibraryLock Ledger Answer := Pool.init (Ledger.init tokens clock) fun t => (tasks t).program env kms

omit [DecidableEq τ] in
theorem taskPool_sound (h : kms.Serves env) :
    Pool.Sound (sharing env False 0) (fun _ _ _ => True) (taskPool env kms tasks tokens clock) :=
  Pool.Sound.init (ledgerInv_init tokens clock) fun t => Task.program_safe h (tasks t)

/-- A write cache's books. -/
abbrev WriteBooks (env : Env) (tasks : τ → Task) (tokens : TokenCell → String) (clock : Instant) (a : KekWriteCache)
    (ds : List (Deed τ LibraryLock Ledger)) (p : Pool τ LibraryLock Ledger Answer) (g : τ → Account String) : Prop :=
  Books (sharing env False 0) (.kekWrites a) ((worldPlace.comp (writeCachePlace a)).comp mutexData)
    (fun _ => Ledger.wrappedUntil) (fun t x => x ∈ (tasks t).usedIds) (fun t => (tasks t).Wrapped env a)
    (Ledger.init tokens clock) ds p g

theorem exists_writeBooks (h : kms.Serves env) (htrace : Pool.Trace (taskPool env kms tasks tokens clock) ds p)
    (a : KekWriteCache) : ∃ g, WriteBooks env tasks tokens clock a ds p g :=
  Books.of_trace (taskPool_sound h) htrace (fun t => Task.wraps_once h (tasks t)) (fun _ hl => by cases hl)
    (fun _ => (writeKeksAt a).refl) (writeKeksAt a).data_same

/-- Through one read cache a KEK is unwrapped once. -/
theorem unwrappedThrough_nodup (h : kms.Serves env) (htrace : Pool.Trace (taskPool env kms tasks tokens clock) ds p)
    (c : KekReadCache) : (unwrappedThrough env tasks ds c).Nodup := by
  obtain ⟨_, hi⟩ := htrace.settles fun t => Task.program_unwraps h c (tasks t)
  obtain ⟨g, hbooks⟩ := Books.of_trace (taskPool_sound h) htrace (fun t => Task.unwraps_once (c := c) h (tasks t))
    (fun _ hl => by cases hl) (fun t s => Task.unwrapped_of_unserved (.refl s)) (readKeksAt c "").data_same
  rw [unwrappedThrough_eq hi]
  exact hbooks.nodup

namespace WriteBooks

variable {g : τ → Account String} {i : τ → KekWriteCache} {answer : Answer}

/-- What a finished call through the cache left. -/
theorem wrapped (h : WriteBooks env tasks tokens clock a ds p g) (hinv : LedgerInv env False 0 p.state)
    (ht : through tasks ds a t = true) (hdone : (p.pc t).rest = .done answer) :
    (∀ keyMetadata ∈ answer.issued, ∃ x ∈ (tasks t).usedIds, Interleaved.NamesStored env a x keyMetadata p.state) ∧
    (answer.succeeded = true → ∀ x ∈ (tasks t).usedIds, Interleaved.HasKek a x p.state) := by
  obtain ⟨hdouble, hthrough⟩ := Bool.and_eq_true_iff.mp ht
  have hprogram := h.programs t
  rw [hdone] at hprogram
  refine (hprogram.2 p.state (.refl hinv)).2 hdouble ((Bool.or_eq_true_iff.mp hthrough).imp id fun htaken => ?_)
  obtain ⟨d, hd, htaken⟩ := List.any_eq_true.mp htaken
  simp only [Bool.and_eq_true, decide_eq_true_eq] at htaken
  obtain ⟨rfl, hl⟩ := htaken
  exact h.opened d hd hl

/-- Calls that all succeeded had one key wrapped for each master key that they use. -/
theorem perm_usedIds (h : WriteBooks env tasks tokens clock a ds p g) (hinv : LedgerInv env False 0 p.state)
    (hi : OneCache tasks ds i) {threads : List τ}
    (hthreads : ∀ t, t ∈ threads ↔ through tasks ds a t = true)
    (hdone : ∀ t ∈ threads, ∃ answer, (p.pc t).rest = .done answer ∧ answer.succeeded = true) :
    (wrappedThrough tasks ds a).Perm (threads.flatMap fun t => (tasks t).usedIds).dedup := by
  rw [hi.wrappedThrough_eq]
  refine (List.perm_ext_iff_of_nodup h.nodup (List.nodup_dedup _)).mpr fun x => ?_
  rw [List.mem_dedup, List.mem_flatMap]
  constructor
  · intro hx
    obtain ⟨d, hd, hl, hallowed⟩ := h.allowed x hx
    exact ⟨d.thread, (hthreads _).mpr (hi.through_of_held hd hl), hallowed⟩
  · rintro ⟨t, ht, hx⟩
    obtain ⟨answer, hrest, hok⟩ := hdone t ht
    have hstored := (h.wrapped hinv ((hthreads t).mp ht) hrest).2 hok x hx
    -- the cache was empty, so what is in it was produced
    exact ((h.source x).mpr (Or.inl hstored)).resolve_right fun hempty => by cases hempty

end WriteBooks

/-- Double wrapping makes the fewest KMS calls. In every run of any number of calls, of which each may fail anywhere and
    takes its steps between those of the others: what the KMS wrapped and unwrapped is in the steps of the calls, and a
    double-wrapping call had it wrapped for one cache. Through one write cache a key was wrapped at most once for a
    master key, and all metadata that were handed out for it name one KEK; if the calls through the cache have all
    succeeded, a key was wrapped for each of the master keys that they use, and no other. Through one read cache a KEK
    was unwrapped at most once for a KEK ID. -/
theorem fewest_kms_calls (h : kms.Serves env) (htrace : Pool.Trace (taskPool env kms tasks tokens clock) ds p) :
    p.state.world.log = ds.flatMap (fun d => d.before.eventsUntil d.after) ∧
    (∀ d ∈ ds, (tasks d.thread).doubleWraps = true → d.before.wrappedUntil d.after ≠ [] →
      ∃! a, through tasks ds a d.thread = true) ∧
    (∀ a, (wrappedThrough tasks ds a).Nodup ∧
      (∀ t answer, through tasks ds a t = true → (p.pc t).rest = .done answer → ∀ keyMetadata ∈ answer.issued,
        (∃ m, KeyUnwrapper.readMaterial env keyMetadata = .ok m ∧ m.masterKeyId ∈ (tasks t).usedIds) ∧
        ∀ t' answer', through tasks ds a t' = true → (p.pc t').rest = .done answer' → ∀ keyMetadata' ∈ answer'.issued,
          SameKek env keyMetadata keyMetadata') ∧
      ∀ threads : List τ, (∀ t, t ∈ threads ↔ through tasks ds a t = true) →
        (∀ t ∈ threads, ∃ answer, (p.pc t).rest = .done answer ∧ answer.succeeded = true) →
        (wrappedThrough tasks ds a).Perm (threads.flatMap fun t => (tasks t).usedIds).dedup) ∧
    ∀ c, (unwrappedThrough env tasks ds c).Nodup := by
  obtain ⟨i, hi⟩ := htrace.settles fun t => Task.program_wraps h (tasks t)
  have hone : OneCache tasks ds i := hi
  have hinv : LedgerInv env False 0 p.state := (htrace.reach.sound (taskPool_sound h)).1.inv
  refine ⟨trace_log (taskPool_sound h) htrace,
    fun d hd hdouble hn => hone.existsUnique_through hd hdouble hn, fun a => ?_,
    unwrappedThrough_nodup h htrace⟩
  obtain ⟨g, hbooks⟩ := exists_writeBooks h htrace a
  refine ⟨?_, fun t answer ht hdone md hmd => ?_, fun threads => hbooks.perm_usedIds hinv hone⟩
  · rw [hone.wrappedThrough_eq]
    exact hbooks.nodup
  obtain ⟨x, hx, m, hread, kek, hkek, hnames⟩ := (hbooks.wrapped hinv ht hdone).1 md hmd
  refine ⟨⟨m, hread, ?_⟩, fun t' answer' ht' hdone' md' hmd' => ?_⟩
  · rw [hnames.masterKeyId]
    exact hx
  · obtain ⟨x', _, m', hread', kek', hkek', hnames'⟩ := (hbooks.wrapped hinv ht' hdone').1 md' hmd'
    refine ⟨m, m', hread, hread', fun hid => ⟨kek.encodedKeyId, kek.wrappedKey, hnames.keyEncryptionKeyId, ?_,
      hnames.wrappedKek, ?_⟩⟩
    all_goals
      rw [hnames.masterKeyId, hnames'.masterKeyId] at hid
      subst hid
      rw [hkek] at hkek'
      cases hkek'
    · exact hnames'.keyEncryptionKeyId
    · exact hnames'.wrappedKek

end

/-! ## Two files at once -/

def sampleWriterTask : Task := .request (.encrypt 0 sampleConfig sampleConfiguration)

/-- One thread makes the factory, and two write a file each. -/
inductive SampleThread where
  | factory
  | first
  | second
  deriving DecidableEq

def sampleTasks : SampleThread → Task
  | .factory => .request .newFactory
  | .first | .second => sampleWriterTask

/-- A writer until it asks for the mutex of its wrapper's cache. -/
def sampleBegin : Program LibraryLock Ledger (Outcome ParquetError (KeyWrapper × Bytes)) :=
  .atomic id fun _ => Interleaved.beginFile Env.sample 0 sampleConfig sampleConfiguration

/-- And from then on. -/
def sampleEnd (r : Outcome ParquetError (KeyWrapper × Bytes)) : Program LibraryLock Ledger Answer :=
  Program.bind (Interleaved.recordFile Env.sample (.readingToken Env.sample) 0 sampleConfig sampleConfiguration r)
    fun reply => .done (.reply reply)

theorem sampleWriterTask_program :
    sampleWriterTask.program Env.sample (.readingToken Env.sample) = Program.bind sampleBegin sampleEnd := by
  refine congrArg (Program.atomic id) (funext fun _ => ?_)
  refine (congrArg (fun x => Program.bind x _) (Interleaved.encrypt_program _ _ _ _ _ rfl rfl)).trans ?_
  exact Program.bind_assoc _ _ _

/-- The states between the parts: the factory is made, the writers have begun, and the one and the other have ended. -/
def sampleMade : Ledger := (((Task.request .newFactory).program Env.sample (.readingToken Env.sample)).alone
  (Ledger.init (fun _ => "DEFAULT") 0)).2

def sampleBegun1 : Outcome ParquetError (KeyWrapper × Bytes) × Ledger := sampleBegin.alone sampleMade

def sampleBegun2 : Outcome ParquetError (KeyWrapper × Bytes) × Ledger := sampleBegin.alone sampleBegun1.2

def sampleEnded1 : Answer × Ledger := (sampleEnd sampleBegun1.1).alone sampleBegun2.2

def sampleEnded2 : Answer × Ledger := (sampleEnd sampleBegun2.1).alone sampleEnded1.2

def sampleDeeds : List (Deed SampleThread LibraryLock Ledger) :=
  ((Task.request .newFactory).program Env.sample (.readingToken Env.sample)).deeds .factory []
    (Ledger.init (fun _ => "DEFAULT") 0) ++
  sampleBegin.deeds .first [] sampleMade ++ sampleBegin.deeds .second [] sampleBegun1.2 ++
  (sampleEnd sampleBegun1.1).deeds .first [] sampleBegun2.2 ++
    (sampleEnd sampleBegun2.1).deeds .second [] sampleEnded1.2

/-- The run: both writers stand before the mutex when the first goes on. -/
theorem sampleTasks_run :
    ∃ p, Pool.Trace (taskPool Env.sample (.readingToken Env.sample) sampleTasks (fun _ => "DEFAULT") 0)
      sampleDeeds p ∧ (p.pc .first).rest = .done sampleEnded1.1 ∧ (p.pc .second).rest = .done sampleEnded2.1 := by
  have hkms : (UserKms.readingToken Env.sample).Ordered (libraryOrder true) :=
    (UserKms.readingToken_readsOnly Env.sample).ordered fun l hl => by
      obtain ⟨cell, rfl⟩ := hl
      rfl
  have hend : ∀ r, (sampleEnd r).Ordered (libraryOrder true) [] [] :=
    fun r => Program.Ordered.bind (Interleaved.recordFile_ordered hkms r) fun _ => rfl
  have hbegin : sampleBegin.Ordered (libraryOrder true) [] [] := fun _ => Interleaved.beginFile_ordered
  have hfactory : ((Task.request .newFactory).program Env.sample (.readingToken Env.sample)).Ordered
      (libraryOrder true) [] [] :=
    fun _ => Program.Ordered.bind (Request.program_ordered hkms fun _ => id) fun _ => rfl
  have hstart : Pool.Trace (taskPool Env.sample (.readingToken Env.sample) sampleTasks (fun _ => "DEFAULT") 0) []
      (taskPool Env.sample (.readingToken Env.sample) sampleTasks (fun _ => "DEFAULT") 0) := .start
  have hmade := hstart.runs_part (t := SampleThread.factory) (f := .done) hfactory (fun _ => rfl)
    (Program.bind_done _).symm
  have hbegun1 := hmade.runs_part (t := SampleThread.first) hbegin (fun t => by cases t <;> rfl)
    sampleWriterTask_program
  have hbegun2 := hbegun1.runs_part (t := SampleThread.second) hbegin (fun t => by cases t <;> rfl)
    sampleWriterTask_program
  have hended1 := hbegun2.runs_part (t := SampleThread.first) (f := .done) (hend _) (fun t => by cases t <;> rfl)
    (Program.bind_done _).symm
  have hended2 := hended1.runs_part (t := SampleThread.second) (f := .done) (hend _) (fun t => by cases t <;> rfl)
    (Program.bind_done _).symm
  exact ⟨_, hended2, rfl, rfl⟩

/-- Two files are written at once under three master keys: the KMS wraps one key for each, and the files' metadata name
    the same KEKs. -/
theorem fewest_kms_calls_sample : ∃ p, Pool.Trace (taskPool Env.sample (.readingToken Env.sample) sampleTasks
      (fun _ => "DEFAULT") 0) sampleDeeds p ∧
    (wrappedThrough sampleTasks sampleDeeds 0).Perm ["kf", "kc1", "kc2"] ∧
    ∀ keyMetadata ∈ sampleEnded1.1.issued, ∀ keyMetadata' ∈ sampleEnded2.1.issued,
      SameKek Env.sample keyMetadata keyMetadata' := by
  obtain ⟨p, htrace, hdone1, hdone2⟩ := sampleTasks_run
  have h0 : through sampleTasks sampleDeeds 0 .factory = false := by decide +kernel
  have h1 : through sampleTasks sampleDeeds 0 .first = true := by decide +kernel
  have h2 : through sampleTasks sampleDeeds 0 .second = true := by decide +kernel
  obtain ⟨_, hsame, hperm⟩ := (fewest_kms_calls (UserKms.readingToken_serves Env.sample) htrace).2.2.1 0
  refine ⟨p, htrace, (hperm [.first, .second] (fun t => ?_) fun t ht => ?_).trans (by decide), fun md hmd => ?_⟩
  · cases t <;> simp [h0, h1, h2]
  · rcases List.mem_pair.mp ht with rfl | rfl
    · exact ⟨_, hdone1, by decide +kernel⟩
    · exact ⟨_, hdone2, by decide +kernel⟩
  · exact (hsame .first _ h1 hdone1 md hmd).2 .second _ h2 hdone2

end ParquetKeyManagement
