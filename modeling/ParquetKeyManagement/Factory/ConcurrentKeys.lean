/-
  ParquetKeyManagement.Factory.ConcurrentKeys — keys stay sound however requests interleave.

  Any number of threads make requests to any number of factories and readers, and what they
  ask for may depend on all that was handed out so far. Each keeps to the contract of
  `Factory.SharedKeys` by itself, so all do together (`pool_sound`).
  - `keks_never_lost`: whatever the threads read and write, a KEK in a cache is never replaced
    or lost.
  - `concurrent_round_trip`: every key that one thread was handed is retrieved by every other,
    or with the error of a call of user code made meanwhile.
-/

import ParquetKeyManagement.Factory.SafeCalls

namespace ParquetKeyManagement

open Effect Locks

/-! ## Requests and threads -/

/-- The reader that a key is retrieved through was handed out. -/
def Request.ThroughKnown (s : Ledger) : Request → Prop
  | .retrieve u _ => u ∈ s.readers
  | _ => True

/-- Only issued metadata is read, and lifetimes end, from any moment up to the limit, at an instant. -/
def Request.OfIssued (limit : Instant) (s : Ledger) : Request → Prop
  | .encrypt _ _ enc => Fits limit enc.cacheLifetime
  | .decrypt _ _ dec => Fits limit dec.cacheLifetime
  | .retrieve _ keyMetadata => ∃ key ∈ s.issued, key.metadata = keyMetadata
  | _ => True

/-- Whatever the thread was answered and has been handed out, its next request satisfies `P`. -/
def Client.Makes (P : Ledger → Request → Prop) : Client → Prop
  | .stop => True
  | .call request next => (∀ s, P s (request s)) ∧ ∀ reply, (next reply).Makes P

theorem Client.Makes.mono {P Q : Ledger → Request → Prop} {c : Client} (h : c.Makes P) (hPQ : ∀ s r, P s r → Q s r) :
    c.Makes Q := by
  induction c with
  | stop => trivial
  | call request next ih => exact ⟨fun s => hPQ s _ (h.1 s), fun reply => ih reply (h.2 reply)⟩

section

variable {env : Env} {kms : UserKms} {strict : Prop} {limit : Instant} {s : Ledger}

/-! What is handed out keeps to the contract. -/

theorem same_of_world {s s' : Ledger} (h : s'.world = s.world) (l : LibraryLock) : l.Same s s' := by
  cases l with
  | kekReads a => exact congrFun (congrArg World.readCaches h) a
  | kekWrites a => exact congrFun (congrArg World.writeCaches h) a
  | _ => trivial

theorem guar_addFile (hs : LedgerInv env strict limit s) (m : ManagerId) (config : KmsConnectionConfig)
    (enc : EncryptionConfiguration) {r : Outcome ParquetError FileEncryptionProperties}
    (hr : ∀ p, r = .ok p → Interleaved.AllIssuable env p s) :
    (sharing env strict limit).Guar [] s (s.addFile m config enc r) := by
  cases r with
  | ok p =>
    have he : s.Evolves (s.addFile m config enc (.ok p)) :=
      { Ledger.Evolves.refl s with files := List.subset_append_left .. }
    refine .of_same { hs with
      issued := fun key hkey => ?_
      retrieved := fun hstrict r hr => (hs.retrieved hstrict r hr).evolves he } he (same_of_world rfl)
    obtain ⟨f, hf, hkey⟩ := Ledger.mem_issued.mp hkey
    rcases List.mem_append.mp hf with hf | hf
    · exact hs.issued key (Ledger.mem_issued.mpr ⟨f, hf, hkey⟩)
    · cases List.mem_singleton.mp hf
      exact hr p rfl key hkey
  | err e => exact .refl hs
  | panic => exact .refl hs

theorem guar_addReader (hs : LedgerInv env strict limit s) {r : Outcome ParquetError KeyUnwrapper}
    (hr : ∀ u, r = .ok u → u.kekCache < s.world.nextReadCache ∧
      (strict → Fits limit u.decryptionConfiguration.cacheLifetime)) :
    (sharing env strict limit).Guar [] s (s.addReader r) := by
  cases r with
  | ok u =>
    have he : s.Evolves (s.addReader (.ok u)) := { Ledger.Evolves.refl s with readers := List.subset_append_left .. }
    refine .of_same { hs with
      readers := fun u' hu' => ?_
      retrieved := fun hstrict r hr => (hs.retrieved hstrict r hr).evolves he } he (same_of_world rfl)
    rcases List.mem_append.mp hu' with hu' | hu'
    · exact hs.readers u' hu'
    · cases List.mem_singleton.mp hu'
      exact hr u rfl
  | err e => exact .refl hs
  | panic => exact .refl hs

theorem guar_addRetrieval (hs : LedgerInv env strict limit s) {u : KeyUnwrapper} {keyMetadata : Bytes} {since : Nat}
    {r : Outcome ParquetError Bytes} (hr : strict →
      Retrieval.Sound env limit ⟨u, keyMetadata, since, s.world.log.length, r⟩ s) :
    (sharing env strict limit).Guar [] s (s.addRetrieval u keyMetadata since r) := by
  have he : s.Evolves (s.addRetrieval u keyMetadata since r) :=
    { Ledger.Evolves.refl s with retrieved := List.subset_append_left .. }
  refine .of_same { hs with retrieved := fun hstrict x hx => ?_ } he (same_of_world rfl)
  rcases List.mem_append.mp hx with hx | hx
  · exact (hs.retrieved hstrict x hx).evolves he
  · cases List.mem_singleton.mp hx
    exact (hr hstrict).evolves he

/-- A request keeps to the contract. -/
theorem Request.program_safe (h : kms.Serves env) (law : strict → env.KmsLaw) (hs : LedgerInv env strict limit s)
    {r : Request} (hknown : r.ThroughKnown s) (hissued : strict → r.OfIssued limit s) :
    (r.program env kms).Safe (sharing env strict limit) [] (fun _ _ => True) [] s := by
  have hdone : ∀ (reply : Reply) (s : Ledger), Program.Safe (sharing env strict limit) [] (fun _ _ => True) []
      (.done reply : Program LibraryLock Ledger Reply) s := fun _ _ => ⟨rfl, fun _ _ => trivial⟩
  cases r with
  | newFactory => exact Program.Safe.bind hs (Interleaved.newFactory_safe hs) fun r s' _ _ => hdone _ s'
  | refresh config keyAccessToken =>
    exact Program.Safe.bind hs (Interleaved.refresh_safe config keyAccessToken) fun r s' _ _ => hdone _ s'
  | wait elapsed =>
    refine fun s' hr => ⟨Calm.guar (.of_managers ?_ rfl rfl rfl) hr.inv, hdone _ _⟩
    exact { World.Grows.refl s'.world with clock := Nat.le_add_right _ _ }
  | encrypt m config enc =>
    refine Program.Safe.bind hs (Interleaved.fileEncryptionProperties_safe h hs m config hissued) fun r s' hs' hr => ?_
    refine fun s'' hr' => ⟨guar_addFile hr'.inv m config enc fun p hp => ?_, hdone _ _⟩
    subst hp
    exact hr s'' hr'
  | decrypt m config dec =>
    refine Program.Safe.bind hs (Interleaved.fileDecryptionProperties_safe hs m config hissued) fun r s' hs' hr => ?_
    refine fun s'' hr' => ⟨guar_addReader hr'.inv fun u hu => ?_, hdone _ _⟩
    subst hu
    obtain ⟨hu, hdec⟩ := hr s'' hr'
    exact ⟨hu, fun hstrict => by rw [hdec]; exact hissued hstrict⟩
  | retrieve u keyMetadata =>
    refine fun s' hr => ⟨.refl hr.inv, ?_⟩
    obtain ⟨hu, hfits⟩ := hr.inv.readers u (hr.evolves.readers hknown)
    have hissued' : strict → ∃ key ∈ s'.issued, key.metadata = keyMetadata := by
      intro hstrict
      obtain ⟨key, hkey, hmeta⟩ := hissued hstrict
      exact ⟨key, Ledger.Evolves.issued hr.evolves hkey, hmeta⟩
    refine Program.Safe.bind hr.inv (Interleaved.retrieveKey_safe h law hr.inv hfits hu hissued' (le_refl _))
      fun r s1 hs1 hr1 => ?_
    refine fun s2 hr2 => ⟨guar_addRetrieval hr2.inv fun hstrict => ?_, hdone _ _⟩
    have hend := hr1 s2 hr2
    refine ⟨le_refl _, ?_⟩
    cases r with
    | ok dek => exact hend hstrict
    | err e =>
      refine Or.imp (fun hf => ?_) id (hend hstrict)
      unfold Retrieval.events
      rw [List.take_length]
      exact hf
    | panic => exact hend hstrict

theorem Client.program_safe (h : kms.Serves env) (law : strict → env.KmsLaw)
    (hs : LedgerInv env strict limit s) {c : Client}
    (hc : c.Makes fun s r => r.ThroughKnown s ∧ (strict → r.OfIssued limit s)) :
    (c.program env kms).Safe (sharing env strict limit) [] (fun _ _ => True) [] s := by
  induction c generalizing s with
  | stop => exact ⟨rfl, fun _ _ => trivial⟩
  | call request next ih =>
    intro s' hr
    obtain ⟨hknown, hissued⟩ := hc.1 s'
    refine ⟨.refl hr.inv, Program.Safe.bind hr.inv (Request.program_safe h law hr.inv hknown hissued) ?_⟩
    exact fun reply s'' hs'' _ => ih reply hs'' (hc.2 reply)

theorem ledgerInv_init (tokens : TokenCell → String) (clock : Instant) :
    LedgerInv env strict limit (Ledger.init tokens clock) where
  caches := ⟨fun _ _ _ hl => (by cases hl), fun _ _ _ hl => (by cases hl), fun _ _ => rfl, fun _ _ => rfl⟩
  uses _ hd := by cases hd
  once _ hd := by cases hd
  readers _ hu := by cases hu
  writeKeks _ _ _ hl := by cases hl
  issued _ hkey := by cases hkey
  readKeks _ _ _ _ hl := by cases hl
  retrieved _ _ hr := by cases hr
  intact _ _ hp := by
    rcases hp with ⟨m, hp⟩ | ⟨a, hp⟩ | ⟨a, hp⟩
    · rcases hp with hp | hp | hp <;> cases hp
    · cases hp
    · cases hp

variable {τ : Type} [DecidableEq τ] {clients : τ → Client} {tokens : TokenCell → String} {clock : Instant}
  {p p' : Pool τ LibraryLock Ledger Unit}

/-- Whatever the threads do, in whatever order, the contract holds. -/
theorem pool_sound (h : kms.Serves env) (law : strict → env.KmsLaw)
    (hclients : ∀ t, (clients t).Makes fun s r => r.ThroughKnown s ∧ (strict → r.OfIssued limit s))
    (hreach : Pool.Reach (pool env kms clients (Ledger.init tokens clock)) p) :
    Pool.Sound (sharing env strict limit) (fun _ _ _ => True) p := by
  have hinv : LedgerInv env strict limit (Ledger.init tokens clock) := ledgerInv_init tokens clock
  exact (hreach.sound (Pool.Sound.init hinv fun t => Client.program_safe h law hinv (hclients t))).1

/-- Whatever is written and read, whichever metadata it is, and however the threads interleave: a KEK that is in a cache
    is in it for good, and is never replaced by another. -/
theorem keks_never_lost (h : kms.Serves env) (hclients : ∀ t, (clients t).Makes fun s r => r.ThroughKnown s)
    (hreach : Pool.Reach (pool env kms clients (Ledger.init tokens clock)) p) (hlater : Pool.Reach p p') :
    (∀ a kekId kek, (p.state.world.readCaches a).data.lookup kekId = some kek →
      (p'.state.world.readCaches a).data.lookup kekId = some kek) ∧
    ∀ a masterKeyId kek, (p.state.world.writeCaches a).data.lookup masterKeyId = some kek →
      (p'.state.world.writeCaches a).data.lookup masterKeyId = some kek := by
  have hsound : Pool.Sound (sharing env False 0) (fun _ _ _ => True) p :=
    pool_sound h (fun hf => hf.elim) (fun t => (hclients t).mono fun _ _ hr => ⟨hr, fun hf => hf.elim⟩) hreach
  have he : p.state.Evolves p'.state := (hlater.sound hsound).2
  exact ⟨he.readKeks, he.writeKeks⟩

/-- A key that was had from a material is the key that the material was made for. -/
theorem Gave.eq {m : KeyMaterial} {key dek : Bytes} (hs : LedgerInv env strict limit s) (law : env.KmsLaw)
    (hdistinct : env.DrawsDistinct s.world.calls) (hm : MaterialOf env s.drawn key m) (h : Gave env s.drawn m dek) :
    dek = key := by
  cases hm.carries with
  | single hd hw =>
    cases h with
    | single j client _ hun =>
      obtain ⟨i, client0, hi⟩ := hw
      exact law _ _ _ _ _ _ _ _ hi hun
    | double kek keyId use hd' _ _ _ => rw [hd] at hd'; cases hd'
  | double kek0 hd hmade hk _ hdec =>
    cases h with
    | single j client hd' _ => rw [hd] at hd'; cases hd'
    | double kek keyId use _ hk' hmem hdec' =>
      rw [hk, hmade.encoded] at hk'
      obtain rfl := Base64.encode_inj (Option.some.inj hk')
      obtain ⟨use0, hmem0⟩ := hmade.drawn
      rw [hs.drawn_eq hdistinct hmem hmem0, hdec] at hdec'
      cases hdec'
      rfl

/-- However threads interleave, a key that was handed out to one is retrieved by every other, or with the error of a
    call of user code that was made meanwhile. -/
theorem concurrent_round_trip (h : kms.Serves env) (law : env.KmsLaw)
    (hclients : ∀ t, (clients t).Makes fun s r => r.ThroughKnown s ∧ r.OfIssued limit s)
    (hreach : Pool.Reach (pool env kms clients (Ledger.init tokens clock)) p)
    (hdistinct : env.DrawsDistinct p.state.world.calls) (hclock : p.state.world.clock ≤ limit) {key : EncryptionKey}
    (hkey : key ∈ p.state.issued) {r : Retrieval} (hr : r ∈ p.state.retrieved) (hmeta : r.keyMetadata = key.metadata) :
    r.result = .ok key.key ∨ ∃ e x, r.result = .err e ∧ x ∈ r.events p.state ∧ x.error = some e := by
  have hsound : Pool.Sound (sharing env True limit) (fun _ _ _ => True) p :=
    pool_sound h (fun _ => law) (fun t => (hclients t).mono fun _ _ hr => ⟨hr.1, fun _ => hr.2⟩) hreach
  have hinv : LedgerInv env True limit p.state := hsound.inv
  obtain ⟨m, hm⟩ := hinv.issued key hkey
  have hresult := (hinv.retrieved trivial r hr).result
  cases hres : r.result with
  | ok dek =>
    rw [hres] at hresult
    exact Or.inl (congrArg Outcome.ok ((hresult m (hmeta ▸ hm.read)).eq hinv law hdistinct hm.toMaterialOf))
  | err e =>
    rw [hres] at hresult
    obtain ⟨x, hx, hxe⟩ := Or.resolve_right hresult (not_not.mpr hdistinct)
    exact Or.inr ⟨e, x, rfl, hx, hxe⟩
  | panic =>
    rw [hres] at hresult
    exact absurd hclock (not_le.mpr hresult)

end

/-! ## One thread writes, another reads -/

/-- Surroundings whose generator fails when it has counted through a byte. -/
def Env.counting : Env :=
  { Env.sample with fill := fun n len => if n < 256 then Env.sample.fill n len else none }

theorem counting_kmsLaw : Env.counting.KmsLaw := sample_kmsLaw

theorem counting_drawsDistinct (n : Nat) : Env.counting.DrawsDistinct n := by
  intro i j bytes hi hj hdi hdj
  obtain ⟨hli, h1⟩ := hdi
  obtain ⟨hlj, h2⟩ := hdj
  have hi' : i < 256 := by
    by_contra hlt
    simp [Env.counting, hlt] at h1
  have hj' : j < 256 := by
    by_contra hlt
    simp [Env.counting, hlt] at h2
  simp only [Env.counting, if_pos hi'] at h1
  simp only [Env.counting, if_pos hj'] at h2
  exact sample_drawsDistinct (le_refl 256) i j bytes hi' hj' ⟨hli, h1⟩ ⟨hlj, h2⟩

/-- Keys that stay in the caches for good. -/
def keptConfiguration : EncryptionConfiguration := { sampleConfiguration with cacheLifetime := none }

/-- Retrieve the first key that was handed out, through the first reader. -/
def retrieveFirst (s : Ledger) : Request :=
  match s.readers, s.issued with
  | u :: _, key :: _ => .retrieve u key.metadata
  | _, _ => .wait 0

theorem retrieveFirst_eq {s : Ledger} (hreaders : s.readers ≠ []) (hissued : s.issued ≠ []) :
    ∃ u key, u ∈ s.readers ∧ key ∈ s.issued ∧ retrieveFirst s = .retrieve u key.metadata := by
  obtain ⟨u, us, hu⟩ := List.exists_cons_of_ne_nil hreaders
  obtain ⟨key, keys, hkey⟩ := List.exists_cons_of_ne_nil hissued
  refine ⟨u, key, by rw [hu]; exact List.mem_cons_self .., by rw [hkey]; exact List.mem_cons_self .., ?_⟩
  rw [retrieveFirst, hu, hkey]

/-- Two threads. -/
def pair (writer reader : Client) : Bool → Client
  | true => writer
  | false => reader

def sampleReader : Client := .call (fun _ => .decrypt 0 sampleConfig ⟨none⟩) fun _ => .call retrieveFirst fun _ => .stop

def samplePair : Bool → Client :=
  pair (.call (fun _ => .newFactory) fun _ => .call (fun _ => .encrypt 0 sampleConfig keptConfiguration) fun _ => .stop)
    sampleReader

theorem samplePair_makes (limit : Instant) (t : Bool) :
    (samplePair t).Makes fun s r => r.ThroughKnown s ∧ r.OfIssued limit s := by
  cases t with
  | true =>
    exact ⟨fun s => ⟨trivial, trivial⟩, fun _ => ⟨fun s => ⟨trivial, fun d hd => (by cases hd)⟩, fun _ => trivial⟩⟩
  | false =>
    refine ⟨fun s => ⟨trivial, fun d hd => (by cases hd)⟩, fun _ => ⟨fun s => ?_, fun _ => trivial⟩⟩
    by_cases hreaders : s.readers = []
    · rw [retrieveFirst, hreaders]
      exact ⟨trivial, trivial⟩
    by_cases hissued : s.issued = []
    · unfold retrieveFirst
      rw [hissued]
      split <;> rename_i h <;> first | cases h | exact ⟨trivial, trivial⟩
    obtain ⟨u, key, hu, hkey, heq⟩ := retrieveFirst_eq hreaders hissued
    rw [heq]
    exact ⟨hu, key, hkey, rfl⟩

/-- What a request leaves when it is made alone. -/
def Ledger.alone (s : Ledger) (r : Request) : Ledger :=
  ((r.program Env.counting (.readingToken Env.counting)).alone s).2

theorem Ledger.alone_retrieve (s : Ledger) (u : KeyUnwrapper) (keyMetadata : Bytes) :
    (∀ key ∈ s.issued, key ∈ (s.alone (.retrieve u keyMetadata)).issued) ∧
      ∃ r ∈ (s.alone (.retrieve u keyMetadata)).retrieved, r.keyMetadata = keyMetadata := by
  obtain ⟨s', hrun, -, hsame⟩ :=
    (Interleaved.does_retrieveKey (UserKms.readingToken_realises Env.counting) u keyMetadata).andThen
    (fun r => .atomic (fun s' => s'.addRetrieval u keyMetadata s.world.log.length r) fun _ => .done (Reply.key r)) s
  have hafter : s.alone (.retrieve u keyMetadata) = s'.addRetrieval u keyMetadata s.world.log.length
      (u.retrieveKey Env.counting keyMetadata s.world).1 := congrArg Prod.snd hrun
  rw [hafter]
  refine ⟨fun key hkey => ?_, _, List.mem_append_right _ (List.mem_singleton_self _), rfl⟩
  have hfiles : (s'.addRetrieval u keyMetadata s.world.log.length
      (u.retrieveKey Env.counting keyMetadata s.world).1).files = s.files := hsame.files
  rw [Ledger.issued, hfiles]
  exact hkey

def sampleWritten : Ledger :=
  ((Ledger.init (fun _ => "DEFAULT") 0).alone .newFactory).alone (.encrypt 0 sampleConfig keptConfiguration)

def sampleOpened : Ledger := sampleWritten.alone (.decrypt 0 sampleConfig ⟨none⟩)

theorem writer_turn (request : Ledger → Request) (c reader : Client) (s : Ledger) :
    Pool.Reach (pool Env.counting (.readingToken Env.counting) (pair (.call request fun _ => c) reader) s)
      (pool Env.counting (.readingToken Env.counting) (pair c reader) (s.alone (request s))) := by
  have h := @pool_runs_request Bool _ Env.counting _ (pair (.call request fun _ => c) reader)
    (UserKms.readingToken_readsOnly Env.counting) s true _ _ rfl
  have hpair : Function.update (pair (.call request fun _ => c) reader) true c = pair c reader := by
    funext t
    cases t <;> rfl
  rw [hpair] at h
  exact h

theorem reader_turn (request : Ledger → Request) (c writer : Client) (s : Ledger) :
    Pool.Reach (pool Env.counting (.readingToken Env.counting) (pair writer (.call request fun _ => c)) s)
      (pool Env.counting (.readingToken Env.counting) (pair writer c) (s.alone (request s))) := by
  have h := @pool_runs_request Bool _ Env.counting _ (pair writer (.call request fun _ => c))
    (UserKms.readingToken_readsOnly Env.counting) s false _ _ rfl
  have hpair : Function.update (pair writer (.call request fun _ => c)) false c = pair writer c := by
    funext t
    cases t <;> rfl
  rw [hpair] at h
  exact h

/-- After the file is written there is a KEK for its footer, and after that one of its keys is retrieved. -/
theorem samplePair_run : ∃ s s' kek key r,
    Pool.Reach (pool Env.counting (.readingToken Env.counting) samplePair (Ledger.init (fun _ => "DEFAULT") 0))
      (pool Env.counting (.readingToken Env.counting) (pair .stop sampleReader) s) ∧
    Pool.Reach (pool Env.counting (.readingToken Env.counting) (pair .stop sampleReader) s)
      (pool Env.counting (.readingToken Env.counting) (pair .stop .stop) s') ∧
    (s.world.writeCaches 0).data.lookup "kf" = some kek ∧
    key ∈ s'.issued ∧ r ∈ s'.retrieved ∧ r.keyMetadata = key.metadata := by
  have hsome : ((sampleWritten.world.writeCaches 0).data.lookup "kf").isSome = true := by decide +kernel
  have hreaders : sampleOpened.readers.length = 1 := by decide +kernel
  have hissued : sampleOpened.issued.length = 5 := by decide +kernel
  obtain ⟨kek, hkek⟩ := Option.isSome_iff_exists.mp hsome
  obtain ⟨u, key, -, hkey, heq⟩ := retrieveFirst_eq
    (List.ne_nil_of_length_pos (by omega : 0 < sampleOpened.readers.length))
    (List.ne_nil_of_length_pos (by omega : 0 < sampleOpened.issued.length))
  obtain ⟨hstays, r, hr, hmeta⟩ := sampleOpened.alone_retrieve u key.metadata
  rw [← heq] at hstays hr
  exact ⟨sampleWritten, sampleOpened.alone (retrieveFirst sampleOpened), kek, key, r,
    .trans (writer_turn _ _ _ _) (writer_turn _ _ _ _), .trans (reader_turn _ _ _ _) (reader_turn _ _ _ _), hkek,
    hstays key hkey, hr, hmeta⟩

theorem keks_never_lost_sample : ∃ s s' : Ledger, ∃ kek, (s.world.writeCaches 0).data.lookup "kf" = some kek ∧
    (s'.world.writeCaches 0).data.lookup "kf" = some kek := by
  obtain ⟨s, s', kek, _, _, hreach, hlater, hkek, _⟩ := samplePair_run
  exact ⟨s, s', kek, hkek, (keks_never_lost (UserKms.readingToken_serves Env.counting)
    (fun t => (samplePair_makes 0 t).mono fun _ _ h => h.1) hreach hlater).2 0 "kf" kek hkek⟩

theorem concurrent_round_trip_sample : ∃ s : Ledger, ∃ key ∈ s.issued, ∃ r ∈ s.retrieved, r.keyMetadata = key.metadata ∧
    (r.result = .ok key.key ∨ ∃ e x, r.result = .err e ∧ x ∈ r.events s ∧ x.error = some e) := by
  obtain ⟨s, s', _, key, r, hreach, hlater, _, hkey, hr, hmeta⟩ := samplePair_run
  exact ⟨s', key, hkey, r, hr, hmeta, concurrent_round_trip (UserKms.readingToken_serves Env.counting) counting_kmsLaw
    (samplePair_makes s'.world.clock) (.trans hreach hlater) (counting_drawsDistinct _) (le_refl _) hkey hr hmeta⟩

end ParquetKeyManagement
