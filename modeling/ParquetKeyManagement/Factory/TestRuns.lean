/-
  ParquetKeyManagement.Factory.TestRuns — runs of the library on the KMS it ships for tests.

  What a test client wrapped, every test client unwraps. So in the runs of
  `retrieveKey_round_trip` nothing that the KMS is given back is ever refused, and what is left
  is the lifetime: the test KMS does not fail, and its clients do not panic.
  - `test_kms_round_trip`: a reader retrieves every key issued so far exactly when its lifetime
    does not overflow, for any master keys.
  - `test_kms_counts`: the log of such a run replays on the factory and the clients it returned,
    each of them returned before it is used, and leaves in the factory's counters what the tests
    read off them.
-/

import ParquetKeyManagement.Factory.Failures
import ParquetKeyManagement.Keys.KekCalls
import ParquetKeyManagement.Kms.TestKms

namespace ParquetKeyManagement

open Effect

/-- Clients can be created, and what one wrapped every other unwraps. -/
structure Env.Works (env : Env) : Prop where
  creates : ∀ i config, env.createClient i config = .ok ()
  unwraps : ∀ i j client client' keyBytes masterKeyId wrapped, env.wrapKey i client keyBytes masterKeyId = .ok wrapped →
    env.unwrapKey j client' wrapped masterKeyId = .ok keyBytes

theorem Env.Works.kmsLaw {env : Env} (h : env.Works) : env.KmsLaw := by
  intro i j client client' key masterKeyId wrapped key' hw hu
  rw [h.unwraps i j client client' key masterKeyId wrapped hw] at hu
  cases hu
  rfl

/-! ## The test KMS -/

/-- What a client answers. User code is not modelled to panic: a panic is counted as an error here, and
    `TestKmsClientFactory.Handles` rules it out. -/
def answer {α : Type} : Outcome ParquetError α → Except ParquetError α
  | .ok a => .ok a
  | .err e => .error e
  | .panic => .error (.general "panic")

/-- Surroundings whose clients are those of a test factory. -/
def Env.testing (env : Env) (f : TestKmsClientFactory) : Env :=
  { env with
    createClient := fun _ _ => .ok ()
    wrapKey := fun i _ keyBytes masterKeyId =>
      answer ((⟨f.keyMap⟩ : TestKmsClient).wrapKey env i keyBytes masterKeyId f).1
    unwrapKey := fun _ _ wrapped masterKeyId =>
      answer ((⟨f.keyMap⟩ : TestKmsClient).unwrapKey env wrapped masterKeyId f).1 }

theorem answer_ok {α : Type} {r : Outcome ParquetError α} {a : α} (h : answer r = .ok a) : r = .ok a := by
  cases r with
  | ok b => cases h; rfl
  | err e => cases h
  | panic => cases h

theorem testing_works (env : Env) (f : TestKmsClientFactory) : (env.testing f).Works where
  creates _ _ := rfl
  unwraps i j client client' keyBytes masterKeyId wrapped h := by
    have hw : ((⟨f.keyMap⟩ : TestKmsClient).wrapKey env i keyBytes masterKeyId f).1 = .ok wrapped := answer_ok h
    show answer ((⟨f.keyMap⟩ : TestKmsClient).unwrapKey env wrapped masterKeyId f).1 = .ok keyBytes
    rw [TestKmsClient.unwrapKey_wrapKey hw f]
    rfl

/-! ## Issued keys come back -/

section

variable {env : Env} {w : World} {key : EncryptionKey} {m : KeyMaterial} {u : KeyUnwrapper} {n : Nat}
  {s : System} {r : Request}

/-- What the KMS is asked for an issued key, it wrapped. -/
theorem IssuedAs.wrapped (h : IssuedAs env n key m) {wrapped : String} (hw : KeyUnwrapper.kmsWrapped m = some wrapped) :
    ∃ keyBytes, WrappedByKms env keyBytes m.masterKeyId wrapped := by
  unfold KeyUnwrapper.kmsWrapped at hw
  cases h.holds with
  | single hd hwrapped =>
    rw [hd] at hw
    cases hw
    exact ⟨key.key, hwrapped⟩
  | double kek hd hgood _ hkek _ =>
    rw [hd, if_pos rfl, hkek] at hw
    cases hw
    exact ⟨kek.key, hgood.wrapped⟩

theorem IssuedAs.opens (h : IssuedAs env n key m) (works : env.Works) (hdistinct : env.DrawsDistinct n)
    (hinv : KekInv env n w) (hw : Intact w) (ho : ¬ u.Overflows env key.metadata w) :
    (u.retrieveKey env key.metadata w).1 = .ok key.key := by
  have halong := u.retrieveKey_along env m h.read h.internalStorage w
  have hinv' : KekInv env n (u.retrieveKey env key.metadata w).2 :=
    path_keeps (I := KekInv env n) (fun _ _ hi hm => hm.kekInv works.kmsLaw h hi) halong.path hinv
  rcases (h.retrieves_iff works.kmsLaw hdistinct hinv hw).mpr ho with hok | ⟨⟨e, he⟩, _⟩
  · exact hok
  · exfalso
    rcases halong.err e he with ⟨id, url, hid, hurl, hempty | hempty⟩ | hrefused
    · exact h.kmsInstanceId id hid (String.isEmpty_iff.mp hempty)
    · exact h.kmsInstanceUrl url hurl (String.isEmpty_iff.mp hempty)
    · obtain ⟨wrapped, hasked, _, ⟨i, config, e', hfail⟩ | ⟨j, client', e', hfail⟩⟩ :=
        h.refused_by_kms hdistinct hinv' hrefused
      · rw [works.creates i config] at hfail
        cases hfail
      · obtain ⟨keyBytes, i, client, hwrapped⟩ := h.wrapped hasked
        rw [works.unwraps i j client client' keyBytes m.masterKeyId wrapped hwrapped] at hfail
        cases hfail

theorem IssuedInv.opens (hinv : IssuedInv env s) (works : env.Works) (hdistinct : env.DrawsDistinct s.world.calls)
    (hkey : key ∈ s.issued) (ho : ¬ u.Overflows env key.metadata s.world) :
    (u.retrieveKey env key.metadata s.world).1 = .ok key.key := by
  obtain ⟨m, hm⟩ := hinv.issued key hkey
  exact hm.opens works hdistinct hinv.keks hinv.intact ho

end

/-- On the test KMS, any reader retrieves any key issued so far exactly when its lifetime does not overflow. -/
theorem test_kms_round_trip {env : Env} {f : TestKmsClientFactory} {s : System}
    (h : System.Reach (env.testing f) (fun s r => r.RoundTrips (env.testing f) s) s)
    (hdistinct : (env.testing f).DrawsDistinct s.world.calls) {key : EncryptionKey} (hkey : key ∈ s.issued)
    (u : KeyUnwrapper) :
    (u.retrieveKey (env.testing f) key.metadata s.world).1 = .ok key.key ↔
      ¬ u.Overflows (env.testing f) key.metadata s.world := by
  have works := testing_works env f
  have hinv := issuedInv works.kmsLaw h
  constructor
  · intro hok ho
    have hpanic := (u.retrieveKey_panic_iff (env.testing f) key.metadata hinv.intact).mpr (Or.inl ho)
    rw [hpanic] at hok
    cases hok
  · exact hinv.opens works hdistinct hkey

/-- Surroundings with the default master keys. -/
def Env.defaultKeys : Env := Env.sample.testing TestKmsClientFactory.withDefaultKeys

/-- A file is written, and a reader opened, by one factory. -/
def sampleTesting : System :=
  (((System.init (fun _ => "DEFAULT") 0).exec Env.defaultKeys .newFactory).exec Env.defaultKeys
    (.encrypt 0 sampleConfig sampleConfiguration)).exec Env.defaultKeys (.decrypt 0 sampleConfig ⟨none⟩)

theorem sampleTesting_reach :
    System.Reach Env.defaultKeys (fun s r => r.RoundTrips Env.defaultKeys s) sampleTesting :=
  (((System.Reach.init _ 0).step .newFactory trivial trivial).step (.encrypt 0 sampleConfig sampleConfiguration)
    (by decide +kernel : 0 < _) (Outcome.ne_panic (by decide +kernel))).step (.decrypt 0 sampleConfig ⟨none⟩)
    (by decide +kernel : 0 < _) (Outcome.ne_panic (by decide +kernel))

theorem sampleTesting_issued : sampleTesting.issued.length = 5 := by decide +kernel

theorem defaultKeys_drawsDistinct {n : Nat} (hn : n ≤ 256) : Env.defaultKeys.DrawsDistinct n := sample_drawsDistinct hn

theorem test_kms_round_trip_sample :
    sampleTesting.issued.length = 5 ∧ ∀ key ∈ sampleTesting.issued,
      (sampleUnwrapper.retrieveKey Env.defaultKeys key.metadata sampleTesting.world).1 = .ok key.key := by
  refine ⟨sampleTesting_issued, fun key hkey => ?_⟩
  exact (test_kms_round_trip sampleTesting_reach (defaultKeys_drawsDistinct (by decide +kernel)) hkey
    sampleUnwrapper).mpr (sampleUnwrapper.not_overflows rfl)

/-! ## What the calls leave in the log -/

/-- The calls of user code so far were answered by the surroundings, and unwrapping never failed. -/
structure KmsServed (env : Env) (w : World) : Prop where
  answered : ∀ x ∈ w.log, x.AnsweredBy env
  unwrapped : ∀ client wrapped masterKeyId result, .unwrapKey client wrapped masterKeyId result ∈ w.log →
    ∃ keyBytes, result = .ok keyBytes

section

variable {env : Env} {w w' : World} {m : ManagerId} {config : KmsConnectionConfig} {enc : EncryptionConfiguration}
  {s : System} {r : Request}

theorem Answers.answered {α : Type} {own : ParquetError → World → Prop} {x : Call α} (h : Answers env own x w)
    {y : KmsEvent} (hy : y ∈ (x w).2.log) : y ∈ w.log ∨ y.AnsweredBy env := by
  have hunfailing : Unfailing env w (x w).2 → y ∈ w.log ∨ y.AnsweredBy env := by
    intro hu
    obtain ⟨es, hes, hall⟩ := hu.log
    rw [hes] at hy
    exact (List.mem_append.mp hy).imp id fun h1 => (hall y h1).1
  cases hx : (x w).1 with
  | ok a => exact hunfailing (h.unfailing fun e => by rw [hx]; simp)
  | panic => exact hunfailing (h.unfailing fun e => by rw [hx]; simp)
  | err e =>
    rcases h.error e hx with ⟨es, z, hes, hall, hz, _⟩ | ⟨hu, _⟩
    · rw [hes, List.append_assoc] at hy
      rcases List.mem_append.mp hy with h1 | h1
      · exact Or.inl h1
      · rcases List.mem_append.mp h1 with h2 | h2
        · exact Or.inr (hall y h2).1
        · rw [List.mem_singleton.mp h2]; exact Or.inr hz
    · exact hunfailing hu

theorem EncryptMove.log_unwraps {ws : World} (h : EncryptMove env m config enc ws w w') {client : KmsClient}
    {wrapped masterKeyId : String} {result : Except ParquetError Bytes}
    (hin : .unwrapKey client wrapped masterKeyId result ∈ w'.log) :
    .unwrapKey client wrapped masterKeyId result ∈ w.log := by
  cases h with
  | registry h => exact h.log_kept rfl hin
  | writer k _ _ h =>
    cases h with
    | manager h => exact h.log_kept rfl hin
    | wrap _ _ _ _ =>
      rcases List.mem_append.mp hin with h1 | h1
      · exact h1
      · cases List.mem_singleton.mp h1
    | _ => exact hin

/-- A call that asks for no unwrapping keeps what is known of the log. -/
theorem KmsServed.after {α : Type} {own : ParquetError → World → Prop} {x : Call α} {move : World → World → Prop}
    (h : KmsServed env w) (ha : Answers env own x w) (hpath : Relation.ReflTransGen move w (x w).2)
    (hkeeps : ∀ a b, move a b → ∀ client wrapped masterKeyId result,
      KmsEvent.unwrapKey client wrapped masterKeyId result ∈ b.log →
        .unwrapKey client wrapped masterKeyId result ∈ a.log) :
    KmsServed env (x w).2 := by
  refine ⟨fun y hy => (ha.answered hy).elim (h.answered y) id, fun client wrapped masterKeyId result hin => ?_⟩
  have hold : KmsEvent.unwrapKey client wrapped masterKeyId result ∈ (x w).2.log →
      .unwrapKey client wrapped masterKeyId result ∈ w.log :=
    path_keeps (I := fun v : World => .unwrapKey client wrapped masterKeyId result ∈ v.log →
      .unwrapKey client wrapped masterKeyId result ∈ w.log)
      (fun a b hi hm hin => hi (hkeeps a b hm client wrapped masterKeyId result hin)) hpath id
  exact h.unwrapped client wrapped masterKeyId result (hold hin)

theorem kmsServed_after (hinv : IssuedInv env s) (works : env.Works) (hdistinct : env.DrawsDistinct s.world.calls)
    (hlen : KekLengths s.world) (hr : r.RoundTrips env s) (h : KmsServed env s.world) :
    KmsServed env (s.exec env r).world := by
  have hsame : (s.exec env r).world.log = s.world.log → KmsServed env (s.exec env r).world := by
    intro hl
    exact ⟨by rw [hl]; exact h.answered, by rw [hl]; exact h.unwrapped⟩
  have hpath := System.exec_path env s r
  cases r with
  | newFactory =>
    refine hsame (path_keeps (I := fun v => v.log = s.world.log) (fun a b ha hm => ?_) hpath rfl)
    cases hm with
    | clock _ _ => exact ha
    | newManager _ _ _ _ _ => exact ha
  | refresh config keyAccessToken => exact hsame rfl
  | wait elapsed => exact hsame rfl
  | encrypt m config enc =>
    have hsurf : Surfaces env (NotWritten env enc s.world) s.world
        (CryptoFactory.fileEncryptionProperties env m config enc)
        s.world fun _ _ => True := CryptoFactory.fileEncryptionProperties_surfaces m config enc hlen
    refine h.after hsurf.answers hpath fun a b hm client wrapped masterKeyId result hin => ?_
    cases hm with
    | encrypt hm => exact hm.log_unwraps hin
  | decrypt m config dec =>
    have hsurf : Surfaces env (fun _ _ => False) s.world (KeyUnwrapper.new env m config dec) s.world fun _ _ => True :=
      KeyUnwrapper.new_surfaces m config dec
    refine h.after hsurf.answers hpath fun a b hm client wrapped masterKeyId result hin => ?_
    cases hm with
    | registry hm => exact hm.log_kept rfl hin
    | newConfig _ _ _ _ => exact hin
  | retrieve u keyMetadata =>
    obtain ⟨⟨key, hkey, rfl⟩, ho⟩ := hr
    have hok := hinv.opens works hdistinct hkey ho
    have hsurf : Surfaces env (fun e _ => NotRead env key.metadata e) s.world (u.retrieveKey env key.metadata) s.world
        fun _ _ => True := KeyUnwrapper.retrieveKey_surfaces u key.metadata
    have ha := hsurf.answers
    obtain ⟨es, hes, hall⟩ := (ha.unfailing fun e he => by rw [hok] at he; cases he).log
    refine ⟨fun x hx => (ha.answered hx).elim (h.answered x) id, fun client wrapped masterKeyId result hin => ?_⟩
    change KmsEvent.unwrapKey client wrapped masterKeyId result ∈ (u.retrieveKey env key.metadata s.world).2.log at hin
    rw [hes] at hin
    rcases List.mem_append.mp hin with h1 | h1
    · exact h.unwrapped client wrapped masterKeyId result h1
    · have hnone := (hall _ h1).2
      cases result with
      | ok keyBytes => exact ⟨keyBytes, rfl⟩
      | error e => cases hnone

theorem kmsServed (works : env.Works) (h : System.Reach env (fun s r => r.RoundTrips env s) s)
    (hdistinct : env.DrawsDistinct s.world.calls) : KmsServed env s.world := by
  induction h with
  | init tokens clock => exact ⟨fun x hx => (by cases hx), fun client wrapped masterKeyId result hin => (by cases hin)⟩
  | @step s r hreach _ hr ih =>
    have hd := hdistinct.mono (System.exec_grows env s r).calls
    exact kmsServed_after (issuedInv works.kmsLaw hreach) works hd (kekLengths hreach) hr (ih hd)

end

/-! ## The test factory's side -/

namespace TestKmsClientFactory

/-- A factory, and what it has returned for the clients of the library. -/
structure Serving where
  factory : TestKmsClientFactory
  made : List (KmsClient × TestKmsClient)

/-- How a call of user code was handled, when it answered as the log has it: wrapping and unwrapping are done by
    what the factory returned for the client. -/
inductive Handles (env : Env) (f : Serving) : KmsEvent → Serving → Prop
  | createClient (config : KmsConnectionConfigDetails) (client : KmsClient) {k : TestKmsClient}
    {f' : TestKmsClientFactory} :
    createClient config f.factory = (.ok k, f') →
    Handles env f (.createClient config (.ok client)) ⟨f', f.made ++ [(client, k)]⟩
  | wrapKey (i : Nat) {client : KmsClient} {k : TestKmsClient} {keyBytes : Bytes} {masterKeyId wrapped : String}
    {f' : TestKmsClientFactory} : (client, k) ∈ f.made →
    k.wrapKey env i keyBytes masterKeyId f.factory = (.ok wrapped, f') →
    Handles env f (.wrapKey client keyBytes masterKeyId (.ok wrapped)) { f with factory := f' }
  | refuse (i : Nat) {client : KmsClient} {k : TestKmsClient} {keyBytes : Bytes}
    {masterKeyId : String} {e : ParquetError} {f' : TestKmsClientFactory} : (client, k) ∈ f.made →
    k.wrapKey env i keyBytes masterKeyId f.factory = (.err e, f') →
    Handles env f (.wrapKey client keyBytes masterKeyId (.error e)) { f with factory := f' }
  | unwrapKey {client : KmsClient} {k : TestKmsClient} {keyBytes : Bytes} {masterKeyId wrapped : String}
    {f' : TestKmsClientFactory} : (client, k) ∈ f.made →
    k.unwrapKey env wrapped masterKeyId f.factory = (.ok keyBytes, f') →
    Handles env f (.unwrapKey client wrapped masterKeyId (.ok keyBytes)) { f with factory := f' }

/-- The calls of a log, in their order. -/
inductive Replays (env : Env) (f : Serving) : List KmsEvent → Serving → Prop
  | nil : Replays env f [] f
  | snoc {es : List KmsEvent} {x : KmsEvent} {f' f'' : Serving} : Replays env f es f' → Handles env f' x f'' →
    Replays env f (es ++ [x]) f''

/-- What a factory has counted since it was `f`. -/
structure Counts (f : TestKmsClientFactory) (es : List KmsEvent) (f' : TestKmsClientFactory) : Prop where
  keyMap : f'.keyMap = f.keyMap
  invocations : f'.invocations = f.invocations ++ es.filterMap KmsEvent.requested
  keysWrapped : f'.keysWrapped = f.keysWrapped + es.countP KmsEvent.wraps
  keysUnwrapped : f'.keysUnwrapped = f.keysUnwrapped + es.countP KmsEvent.unwraps

/-- What is known of a factory that has handled the calls `es` since it was `f`. -/
structure Served (f : TestKmsClientFactory) (es : List KmsEvent) (f' : Serving) : Prop where
  counts : Counts f es f'.factory
  keys : ∀ client k, (client, k) ∈ f'.made → k = ⟨f.keyMap⟩
  made : ∀ config client, .createClient config (.ok client) ∈ es → ∃ k, (client, k) ∈ f'.made

section

variable {env : Env} {f : TestKmsClientFactory} {f' f'' : Serving} {es : List KmsEvent} {x : KmsEvent}

/-- A client that was made answers, at any moment, what the surroundings do. -/
theorem handles_of_answered (h : Served f es f') (ha : x.AnsweredBy (env.testing f))
    (hmade : ∀ client, x.usedClient = some client → ∃ k, (client, k) ∈ f'.made)
    (hunwrapped : ∀ client wrapped masterKeyId result, x = .unwrapKey client wrapped masterKeyId result →
      ∃ keyBytes, result = .ok keyBytes) : ∃ f'', Handles env f' x f'' := by
  cases x with
  | createClient config result =>
    obtain ⟨_, hresult⟩ := ha
    cases result with
    | ok client => exact ⟨_, .createClient config client rfl⟩
    | error e => cases hresult
  | wrapKey client keyBytes masterKeyId result =>
    obtain ⟨i, rfl⟩ := ha
    obtain ⟨k, hk⟩ := hmade client rfl
    obtain rfl := h.keys client k hk
    simp only [Env.testing]
    rcases (⟨f.keyMap⟩ : TestKmsClient).wrapKey_cases env i keyBytes masterKeyId with ⟨wrapped, hrun⟩ | ⟨e, hrun⟩
    · rw [hrun f]
      exact ⟨_, .wrapKey i hk (hrun f'.factory)⟩
    · rw [hrun f]
      exact ⟨_, .refuse i hk (hrun f'.factory)⟩
  | unwrapKey client wrapped masterKeyId result =>
    obtain ⟨keyBytes, rfl⟩ := hunwrapped _ _ _ _ rfl
    obtain ⟨_, hresult⟩ := ha
    obtain ⟨k, hk⟩ := hmade client rfl
    obtain rfl := h.keys client k hk
    exact ⟨_, .unwrapKey hk (TestKmsClient.unwrapKey_ok (answer_ok hresult) f'.factory)⟩

theorem Counts.refl (f : TestKmsClientFactory) : Counts f [] f := ⟨rfl, by simp, by simp, by simp⟩

/-- One more call of user code. -/
theorem Counts.handles (h : Counts f es f'.factory) (hx : Handles env f' x f'') : Counts f (es ++ [x]) f''.factory := by
  have hcount : ∀ p : KmsEvent → Bool, (es ++ [x]).countP p = es.countP p + if p x then 1 else 0 := by
    intro p
    rw [List.countP_append, List.countP_singleton]
  cases hx with
  | createClient config client hrun =>
    cases hrun
    constructor
    · exact h.keyMap
    · simp [h.invocations, KmsEvent.requested]
    · rw [hcount]; exact h.keysWrapped
    · rw [hcount]; exact h.keysUnwrapped
  | @wrapKey i client k keyBytes masterKeyId wrapped _ _ hrun =>
    rcases k.wrapKey_cases env i keyBytes masterKeyId with ⟨w, hw⟩ | ⟨e, hw⟩
    · rw [hw f'.factory] at hrun
      cases hrun
      constructor
      · exact h.keyMap
      · simp [countWrapped, h.invocations, KmsEvent.requested]
      · rw [hcount]; simp [countWrapped, h.keysWrapped, KmsEvent.wraps, Nat.add_assoc]
      · rw [hcount]; exact h.keysUnwrapped
    · rw [hw f'.factory] at hrun
      cases hrun
  | @refuse i client k keyBytes masterKeyId e _ _ hrun =>
    rcases k.wrapKey_cases env i keyBytes masterKeyId with ⟨w, hw⟩ | ⟨e', hw⟩
    · rw [hw f'.factory] at hrun
      cases hrun
    · rw [hw f'.factory] at hrun
      cases hrun
      constructor
      · exact h.keyMap
      · simp [h.invocations, KmsEvent.requested]
      · rw [hcount]; exact h.keysWrapped
      · rw [hcount]; exact h.keysUnwrapped
  | unwrapKey _ hrun =>
    have hok := TestKmsClient.unwrapKey_ok (congrArg Prod.fst hrun) f'.factory
    rw [hok] at hrun
    cases hrun
    constructor
    · exact h.keyMap
    · simp [countUnwrapped, h.invocations, KmsEvent.requested]
    · rw [hcount]; exact h.keysWrapped
    · rw [hcount]; simp [countUnwrapped, h.keysUnwrapped, KmsEvent.unwraps, Nat.add_assoc]

theorem Served.handles (h : Served f es f') (hx : Handles env f' x f'') : Served f (es ++ [x]) f'' := by
  have hcounts := h.counts.handles hx
  cases hx with
  | @createClient config client k f1 hrun =>
    obtain rfl : k = ⟨f.keyMap⟩ := by
      cases hrun
      exact congrArg TestKmsClient.mk h.counts.keyMap
    refine ⟨hcounts, fun client' k' hk' => ?_, fun config' client' hin => ?_⟩
    · rcases List.mem_append.mp hk' with hold | hnew
      · exact h.keys client' k' hold
      · cases List.mem_singleton.mp hnew
        rfl
    · rcases List.mem_append.mp hin with hold | hnew
      · obtain ⟨k', hk'⟩ := h.made config' client' hold
        exact ⟨k', List.mem_append_left _ hk'⟩
      · cases List.mem_singleton.mp hnew
        exact ⟨_, List.mem_append_right _ (List.mem_singleton.mpr rfl)⟩
  | wrapKey i hk hrun => exact ⟨hcounts, h.keys, fun config client hin => h.made config client (by simpa using hin)⟩
  | refuse i hk hrun => exact ⟨hcounts, h.keys, fun config client hin => h.made config client (by simpa using hin)⟩
  | unwrapKey hk hrun => exact ⟨hcounts, h.keys, fun config client hin => h.made config client (by simpa using hin)⟩

theorem exists_replay (es : List KmsEvent) (ha : ∀ x ∈ es, x.AnsweredBy (env.testing f))
    (hunwrapped : ∀ client wrapped masterKeyId result, .unwrapKey client wrapped masterKeyId result ∈ es →
      ∃ keyBytes, result = .ok keyBytes) (hfirst : CreatedFirst es) :
    ∃ f', Replays env ⟨f, []⟩ es f' ∧ Served f es f' := by
  induction es using List.reverseRecOn with
  | nil => exact ⟨⟨f, []⟩, .nil, .refl f, fun client k hk => (by cases hk), fun config client hin => (by cases hin)⟩
  | append_singleton es x ih =>
    obtain ⟨f', hreplay, hserved⟩ := ih (fun y hy => ha y (List.mem_append_left _ hy))
      (fun client wrapped masterKeyId result hin => hunwrapped client wrapped masterKeyId result
        (List.mem_append_left _ hin))
      hfirst.of_append
    have hlast : x ∈ es ++ [x] := List.mem_append_right _ (List.mem_singleton.mpr rfl)
    obtain ⟨f'', hx⟩ := handles_of_answered hserved (ha x hlast)
      (fun client hclient => hserved.made client.config client (hfirst es x [] rfl client hclient))
      fun client wrapped masterKeyId result he => hunwrapped client wrapped masterKeyId result (he ▸ hlast)
    exact ⟨f'', hreplay.snoc hx, hserved.handles hx⟩

end

end TestKmsClientFactory

/-- In every such run each call of user code is one the test factory would have answered the same way, a client is
    created before it is used, no key it is given to unwrap is refused, and the factory's counters are those of the
    log. -/
theorem test_kms_counts {env : Env} {f : TestKmsClientFactory} {s : System}
    (h : System.Reach (env.testing f) (fun s r => r.RoundTrips (env.testing f) s) s)
    (hdistinct : (env.testing f).DrawsDistinct s.world.calls) :
    CreatedFirst s.world.log ∧ ∃ f', TestKmsClientFactory.Replays env ⟨f, []⟩ s.world.log f' ∧
      TestKmsClientFactory.Counts f s.world.log f'.factory := by
  have hserved := kmsServed (testing_works env f) h hdistinct
  obtain ⟨f', hreplay, hf'⟩ :=
    TestKmsClientFactory.exists_replay s.world.log hserved.answered hserved.unwrapped (createdFirst h)
  exact ⟨createdFirst h, f', hreplay, hf'.counts⟩

/-- Three master keys, one KEK wrapped for each by one client. -/
theorem test_kms_counts_sample :
    ∃ f', TestKmsClientFactory.Replays Env.sample ⟨.withDefaultKeys, []⟩ sampleTesting.world.log f' ∧
      f'.factory.invocations.map KmsConnectionConfigDetails.keyAccessToken = ["DEFAULT"] ∧ f'.factory.keysWrapped = 3 ∧
      f'.factory.keysUnwrapped = 0 := by
  obtain ⟨_, f', hreplay, hcounts⟩ :=
    test_kms_counts sampleTesting_reach (defaultKeys_drawsDistinct (by decide +kernel))
  refine ⟨f', hreplay, ?_, ?_, ?_⟩
  · rw [hcounts.invocations]
    decide +kernel
  · rw [hcounts.keysWrapped]
    decide +kernel
  · rw [hcounts.keysUnwrapped]
    decide +kernel

end ParquetKeyManagement
