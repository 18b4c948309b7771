/-
  ParquetKeyManagement.Factory.Completion — requests of any number of threads all return.

  Any requests, to any number of factories, readers and configurations, are interleaved at
  every lock of the library. Locks are taken in one order: KEK caches, then a reader's
  configuration, then a token, then the registry's caches (`libraryOrder`); the mutex of a
  KEK cache and that of the client cache are held over calls of user code.
  - `requests_never_deadlock`: threads are not all blocked, if user code takes no lock of the
    library, or reads tokens and nobody refreshes one.
  - `requests_return`: in every run of finitely many threads that goes on while it can, each
    call returns.
  - `history_interleaves`: every sequential history is a run of the threads.
-/

import ParquetKeyManagement.Factory.Programs
import ParquetKeyManagement.Factory.RoundTrip
import ParquetKeyManagement.Support.Traces

namespace ParquetKeyManagement

open Effect Locks

/-! ## The order -/

/-- The lock of a token's cell. -/
def LibraryLock.IsToken (l : LibraryLock) : Prop := ∃ cell, l = .token cell

/-- The order that locks are taken in. -/
def LibraryLock.rank : LibraryLock → Nat
  | .kekReads _ | .kekWrites _ => 0
  | .config _ => 1
  | .token _ => 2
  | .lastCleanup _ _ | .cache _ _ => 3

/-- Tokens are only ever read if nobody refreshes one. -/
def libraryOrder (tokensFixed : Bool) : LockOrder LibraryLock where
  rank := LibraryLock.rank
  height := 4
  rank_lt l := by cases l <;> simp [LibraryLock.rank]
  readOnly
    | .token _ => tokensFixed
    | _ => false

variable {O : LockOrder LibraryLock} {held : List (LibraryLock × Mode)}

/-- The guards are of locks below the rank, but for locks that are only read. -/
def Below (O : LockOrder LibraryLock) (held : List (LibraryLock × Mode)) (n : Nat) : Prop :=
  ∀ g ∈ held, O.readOnly g.1 = false → O.rank g.1 < n

theorem Below.mono {n n' : Nat} (h : Below O held n) (hn : n ≤ n') : Below O held n' :=
  fun g hg hread => lt_of_lt_of_le (h g hg hread) hn

theorem Below.cons {n : Nat} {l : LibraryLock} {mode : Mode} (h : Below O held n) (hl : O.rank l < n) :
    Below O ((l, mode) :: held) n := by
  intro g hg hread
  rcases List.mem_cons.mp hg with rfl | hg
  · exact hl
  · exact h g hg hread

theorem Below.allows {n : Nat} {l : LibraryLock} {mode : Mode} (h : Below O held n) (hn : n ≤ O.rank l)
    (hmode : O.readOnly l = true → mode = .shared) : O.Allows held l mode :=
  ⟨hmode, fun _ g hg hread => lt_of_lt_of_le (h g hg hread) hn⟩

/-! ## User code -/

/-- User code takes only locks of `R`, for reading, and gives them back. -/
structure UserKms.ReadsOnly (kms : UserKms) (R : LibraryLock → Prop) : Prop where
  createClient : ∀ config, Program.ReadsOnly R [] (kms.createClient config)
  wrapKey : ∀ client keyBytes masterKeyId, Program.ReadsOnly R [] (kms.wrapKey client keyBytes masterKeyId)
  unwrapKey : ∀ client wrapped masterKeyId, Program.ReadsOnly R [] (kms.unwrapKey client wrapped masterKeyId)

/-- User code may run under any guards. -/
structure UserKms.Ordered (kms : UserKms) (O : LockOrder LibraryLock) : Prop where
  createClient : ∀ held config, (kms.createClient config).Ordered O held
  wrapKey : ∀ held client keyBytes masterKeyId, (kms.wrapKey client keyBytes masterKeyId).Ordered O held
  unwrapKey : ∀ held client wrapped masterKeyId, (kms.unwrapKey client wrapped masterKeyId).Ordered O held

namespace UserKms

theorem ReadsOnly.ordered {kms : UserKms} {R : LibraryLock → Prop} (h : kms.ReadsOnly R)
    (hR : ∀ l, R l → O.readOnly l = true) : kms.Ordered O where
  createClient _ config := Program.ReadsOnly.ordered hR (h.createClient config)
  wrapKey _ client keyBytes masterKeyId := Program.ReadsOnly.ordered hR (h.wrapKey client keyBytes masterKeyId)
  unwrapKey _ client wrapped masterKeyId := Program.ReadsOnly.ordered hR (h.unwrapKey client wrapped masterKeyId)

theorem ofEnv_readsOnly (env : Env) (R : LibraryLock → Prop) : (ofEnv env).ReadsOnly R where
  createClient _ := fun _ => rfl
  wrapKey _ _ _ := fun _ => rfl
  unwrapKey _ _ _ := fun _ => rfl

theorem readingToken_readsOnly (env : Env) : (readingToken env).ReadsOnly LibraryLock.IsToken :=
  { ofEnv_readsOnly env _ with createClient := fun _ => ⟨⟨_, rfl⟩, rfl, fun _ => ⟨rfl, _, rfl, rfl⟩⟩ }

/-- A bridge to asynchronous code takes no other locks. -/
theorem ReadsOnly.bridge {kms : UserKms} {R : LibraryLock → Prop} (h : kms.ReadsOnly R) (r : ReenterAsync) :
    (bridge r kms).ReadsOnly R := by
  have hreenter : ∀ {α : Type} {p : Run α}, Program.ReadsOnly R [] p → Program.ReadsOnly R [] (r.reenter p) := by
    intro α p hp
    cases r with
    | asyncStd => exact hp
    | smol => exact hp
    | tokio multiThreaded =>
      cases multiThreaded with
      | true => exact hp
      | false => exact rfl
  exact ⟨fun config => hreenter (h.createClient config), fun _ _ _ => hreenter (h.wrapKey _ _ _),
    fun _ _ _ => hreenter (h.unwrapKey _ _ _)⟩

end UserKms

/-! ## The library keeps to the order -/

namespace Interleaved

variable {env : Env} {kms : UserKms} {tokensFixed : Bool}

section

variable {held : List (LibraryLock × Mode)}

theorem call_ordered {α : Type} (x : Call α) : (call x).Ordered O held := .ofCall _

theorem clearExpired_ordered (hb : Below (libraryOrder tokensFixed) held 3) (m : ManagerId) (c : CacheName)
    (cleanupInterval : Duration) : (clearExpired env m c cleanupInterval).Ordered (libraryOrder tokensFixed) held := by
  refine .bind (.holding (hb.allows (le_refl _) fun h => by cases h) (call_ordered _)) fun due => ?_
  cases due with
  | true => exact .holding (hb.allows (le_refl _) fun h => by cases h) (call_ordered _)
  | false => exact .pure ()

theorem clearExpiredEntries_ordered (hb : Below (libraryOrder tokensFixed) held 3) (m : ManagerId)
    (cleanupInterval : Option Duration) :
    (clearExpiredEntries env m cleanupInterval).Ordered (libraryOrder tokensFixed) held := by
  cases cleanupInterval with
  | none => exact .pure ()
  | some d =>
    exact (clearExpired_ordered hb m .kmsClients d).bind fun _ => (clearExpired_ordered hb m .kekReadCaches d).bind
      fun _ => clearExpired_ordered hb m .kekWriteCaches d

theorem getOrCreate_ordered {κ ν : Type} [DecidableEq κ] (hb : Below (libraryOrder tokensFixed) held 3) {m : ManagerId}
    {c : CacheName} {place : Place World (ExpiringCache κ ν)} {key : κ} {lifetime : Option Duration} {creator : Run ν}
    (hcreator : ∀ held, creator.Ordered (libraryOrder tokensFixed) held) :
    (getOrCreate env (.cache m c) place key lifetime creator).Ordered (libraryOrder tokensFixed) held := by
  refine .mutex (hb.allows (le_refl _) fun h => by cases h) (.bind (call_ordered _) fun found => ?_)
  cases found with
  | some value => exact .pure value
  | none => exact (hcreator _).bind fun value => call_ordered _

theorem getClient_ordered (hkms : kms.Ordered (libraryOrder tokensFixed)) (hb : Below (libraryOrder tokensFixed) held 2)
    (m : ManagerId) (config : KmsConnectionConfig) (lifetime : Option Duration) :
    (getClient env kms m config lifetime).Ordered (libraryOrder tokensFixed) held := by
  have hb3 := hb.mono (show 2 ≤ 3 by decide)
  refine (clearExpiredEntries_ordered hb3 m lifetime).bind fun _ => ?_
  refine .holding (hb.allows (le_refl _) fun _ => rfl) (.bind (call_ordered _) fun token => ?_)
  exact getOrCreate_ordered (hb3.cons (by exact Nat.lt_succ_self 2)) fun held => hkms.createClient held config

theorem readToken_ordered (hb : Below (libraryOrder tokensFixed) held 2) (config : KmsConnectionConfig) :
    (readToken config).Ordered (libraryOrder tokensFixed) held :=
  .holding (hb.allows (le_refl _) fun _ => rfl) (call_ordered _)

theorem getKekReadCache_ordered (hb : Below (libraryOrder tokensFixed) held 2) (m : ManagerId)
    (config : KmsConnectionConfig) (lifetime : Option Duration) :
    (getKekReadCache env m config lifetime).Ordered (libraryOrder tokensFixed) held := by
  have hb3 := hb.mono (show 2 ≤ 3 by decide)
  refine (clearExpiredEntries_ordered hb3 m lifetime).bind fun _ => (readToken_ordered hb config).bind fun token => ?_
  exact .unwrap (getOrCreate_ordered hb3 fun held => call_ordered _)

theorem getKekWriteCache_ordered (hb : Below (libraryOrder tokensFixed) held 2) (m : ManagerId)
    (config : KmsConnectionConfig) (lifetime : Option Duration) :
    (getKekWriteCache env m config lifetime).Ordered (libraryOrder tokensFixed) held := by
  have hb3 := hb.mono (show 2 ≤ 3 by decide)
  refine (clearExpiredEntries_ordered hb3 m lifetime).bind fun _ => (readToken_ordered hb config).bind fun token => ?_
  exact .unwrap (getOrCreate_ordered hb3 fun held => call_ordered _)

theorem generateKeyEncryptionKey_ordered (hkms : kms.Ordered (libraryOrder tokensFixed))
    (hb : Below (libraryOrder tokensFixed) held 2) (m : ManagerId) (config : KmsConnectionConfig)
    (lifetime : Option Duration) (masterKeyId : String) :
    (generateKeyEncryptionKey env kms m config lifetime masterKeyId).Ordered (libraryOrder tokensFixed) held := by
  refine (call_ordered _).bind fun key => .bind (.ofCall _) fun keyId => ?_
  refine (getClient_ordered hkms hb m config lifetime).bind fun client => ?_
  exact (hkms.wrapKey held client key masterKeyId).bind fun wrappedKey => .pure _

theorem getWriteKek_ordered (hkms : kms.Ordered (libraryOrder tokensFixed))
    (hb : Below (libraryOrder tokensFixed) held 1) (k : KeyWrapper) (masterKeyId : String) :
    (getWriteKek env kms k masterKeyId).Ordered (libraryOrder tokensFixed) held := by
  refine .bind (call_ordered _) fun keks => ?_
  cases keks.lookup masterKeyId with
  | some kek => exact .pure kek
  | none =>
    refine .bind ?_ fun kek => (call_ordered _).bind fun _ => .pure kek
    exact generateKeyEncryptionKey_ordered hkms (hb.mono (by decide)) _ _ _ _

/-- The mutex of the KEKs is held over the wrapping of a new one. -/
theorem wrap_ordered (hkms : kms.Ordered (libraryOrder tokensFixed)) (k : KeyWrapper) (key : Bytes)
    (masterKeyId : String)
    (b : KeyMaterialBuilder) : (wrap env kms k key masterKeyId b).Ordered (libraryOrder tokensFixed) [] := by
  have hb : Below (libraryOrder tokensFixed) [] 0 := fun g hg => by cases hg
  unfold wrap
  split
  · refine .mutex (hb.allows (le_refl _) fun h => by cases h) ?_
    refine (getWriteKek_ordered hkms ((hb.mono (Nat.zero_le 1)).cons (by exact Nat.one_pos)) k masterKeyId).bind
      fun kek => ?_
    exact (call_ordered _).bind fun wrappedDek => call_ordered _
  · refine (getClient_ordered hkms (hb.mono (by decide)) ..).bind fun client => ?_
    exact (hkms.wrapKey [] client key masterKeyId).bind fun wrapped => call_ordered _

theorem generateKey_ordered (hkms : kms.Ordered (libraryOrder tokensFixed)) (k : KeyWrapper) (masterKeyId : String)
    (isFooterKey : Bool) : (generateKey env kms k masterKeyId isFooterKey).Ordered (libraryOrder tokensFixed) [] := by
  refine (call_ordered _).bind fun key => .bind ?_ fun metadata => .pure _
  exact (wrap_ordered hkms k key masterKeyId _).bind fun m => (call_ordered _).bind fun text => .pure _

theorem addColumns_ordered (hkms : kms.Ordered (libraryOrder tokensFixed)) (k : KeyWrapper) (masterKeyId : String)
    (columnPaths : List String) (b : FileEncryptionProperties) :
    (addColumns env kms k masterKeyId columnPaths b).Ordered (libraryOrder tokensFixed) [] := by
  induction columnPaths generalizing b with
  | nil => exact .pure b
  | cons c columnPaths ih => exact (generateKey_ordered hkms k masterKeyId false).bind fun key => ih _

theorem addColumnKeys_ordered (hkms : kms.Ordered (libraryOrder tokensFixed)) (k : KeyWrapper)
    (es : List (Sigma fun _ : String => List String)) (b : FileEncryptionProperties) :
    (addColumnKeys env kms k es b).Ordered (libraryOrder tokensFixed) [] := by
  induction es generalizing b with
  | nil => exact .pure b
  | cons e es ih => exact (addColumns_ordered hkms k e.1 e.2 b).bind fun b' => ih b'

theorem fileEncryptionProperties_ordered (hkms : kms.Ordered (libraryOrder tokensFixed)) (m : ManagerId)
    (config : KmsConnectionConfig) (enc : EncryptionConfiguration) :
    (fileEncryptionProperties env kms m config enc).Ordered (libraryOrder tokensFixed) [] := by
  have hb : Below (libraryOrder tokensFixed) [] 2 := fun g hg => by cases hg
  unfold fileEncryptionProperties
  split
  · exact .finish _
  · split
    · exact .finish _
    · refine .bind ((getKekWriteCache_ordered hb m config _).bind fun a => .pure _) fun k => ?_
      refine (generateKey_ordered hkms k _ true).bind fun footerKey => (call_ordered _).bind fun order => ?_
      exact addColumnKeys_ordered hkms k _ _

theorem fileDecryptionProperties_ordered (m : ManagerId) (config : KmsConnectionConfig)
    (dec : DecryptionConfiguration) :
    (fileDecryptionProperties env m config dec).Ordered (libraryOrder tokensFixed) [] := by
  have hb : Below (libraryOrder tokensFixed) [] 2 := fun g hg => by cases hg
  exact (getKekReadCache_ordered hb m config _).bind fun a => (call_ordered _).bind fun slot => .pure _

theorem unwrapWithKms_ordered (hkms : kms.Ordered (libraryOrder tokensFixed))
    (hb : Below (libraryOrder tokensFixed) held 2) (u : KeyUnwrapper) (wrapped masterKeyId : String) :
    (unwrapWithKms env kms u wrapped masterKeyId).Ordered (libraryOrder tokensFixed) held := by
  refine (call_ordered _).bind fun config => (getClient_ordered hkms hb _ config _).bind fun client => ?_
  exact hkms.unwrapKey held client wrapped masterKeyId

theorem unwrapDek_ordered (hkms : kms.Ordered (libraryOrder tokensFixed)) (u : KeyUnwrapper) (m : KeyMaterial) :
    (unwrapDek env kms u m).Ordered (libraryOrder tokensFixed) [] := by
  have hb : Below (libraryOrder tokensFixed) [] 0 := fun g hg => by cases hg
  unfold unwrapDek
  split
  · split
    · refine .mutex (hb.allows (le_refl _) fun h => by cases h) (.bind ?_ fun kek => ?_)
      · refine (call_ordered _).bind fun keks => ?_
        have hb1 : Below (libraryOrder tokensFixed) [(LibraryLock.kekReads u.kekCache, Mode.exclusive)] 1 :=
          (hb.mono (Nat.zero_le 1)).cons (by exact Nat.one_pos)
        split
        · exact .pure _
        · refine .holding (hb1.allows (le_refl _) fun h => by cases h) (.bind ?_ fun kek => ?_)
          · exact unwrapWithKms_ordered hkms ((hb1.mono (by decide)).cons (by exact Nat.lt_succ_self 1)) u _ _
          · exact (call_ordered _).bind fun _ => .pure kek
      · exact (call_ordered _).bind fun decoded => call_ordered _
    · exact .finish _
  · have hb1 := hb.mono (Nat.zero_le 1)
    refine .holding (hb1.allows (le_refl _) fun h => by cases h) ?_
    exact unwrapWithKms_ordered hkms ((hb1.mono (by decide)).cons (by exact Nat.lt_succ_self 1)) u _ _

theorem retrieveKey_ordered (hkms : kms.Ordered (libraryOrder tokensFixed)) (u : KeyUnwrapper) (keyMetadata : Bytes) :
    (retrieveKey env kms u keyMetadata).Ordered (libraryOrder tokensFixed) [] := by
  have hb : Below (libraryOrder tokensFixed) [] 1 := fun g hg => by cases hg
  refine (call_ordered _).bind fun m => ?_
  split
  · exact .finish _
  · refine .bind ?_ fun _ => unwrapDek_ordered hkms u m
    unfold updateKmsConfig
    split
    · exact .holding (hb.allows (le_refl _) fun h => by cases h) (call_ordered _)
    · exact .pure ()

end

end Interleaved

/-! ## Requests and threads -/

def Request.IsRefresh : Request → Prop
  | .refresh _ _ => True
  | _ => False

def Client.NeverRefreshes : Client → Prop
  | .stop => True
  | .call request next => (∀ s, ¬ (request s).IsRefresh) ∧ ∀ reply, (next reply).NeverRefreshes

section

variable {env : Env} {kms : UserKms} {tokensFixed : Bool}

theorem andThen_ordered {α ρ : Type} {p : Run α} {f : Outcome ParquetError α → Program LibraryLock Ledger ρ}
    (hp : p.Ordered O []) (hf : ∀ r, (f r).Ordered O [] []) : (p.andThen f).Ordered O [] [] :=
  Program.Ordered.bind hp hf

theorem refresh_ordered (config : KmsConnectionConfig) (token : String) :
    ((Request.refresh config token).program env kms).Ordered (libraryOrder false) [] [] :=
  andThen_ordered (.holding ⟨fun h => (by cases h), fun _ g hg => (by cases hg)⟩ (.ofCall _)) fun _ => rfl

theorem Request.program_ordered (hkms : kms.Ordered (libraryOrder tokensFixed)) {r : Request}
    (hr : tokensFixed = true → ¬ r.IsRefresh) : (r.program env kms).Ordered (libraryOrder tokensFixed) [] [] := by
  cases r with
  | newFactory =>
    refine andThen_ordered (.bind ?_ fun k => .ofCall _) fun r => rfl
    exact .bind (.ofCall _) fun c1 => .bind (.ofCall _) fun c2 => .bind (.ofCall _) fun c3 => .pure _
  | refresh config token =>
    cases tokensFixed with
    | true => exact absurd trivial (hr rfl)
    | false => exact refresh_ordered config token
  | wait elapsed => exact fun _ => rfl
  | encrypt m config enc =>
    exact andThen_ordered (Interleaved.fileEncryptionProperties_ordered hkms m config enc) fun r _ => rfl
  | decrypt m config dec =>
    exact andThen_ordered (Interleaved.fileDecryptionProperties_ordered m config dec) fun r _ => rfl
  | retrieve u keyMetadata =>
    exact fun _ => andThen_ordered (Interleaved.retrieveKey_ordered hkms u keyMetadata) fun r _ => rfl

theorem Client.program_ordered (hkms : kms.Ordered (libraryOrder tokensFixed)) {c : Client}
    (hc : tokensFixed = true → c.NeverRefreshes) : (c.program env kms).Ordered (libraryOrder tokensFixed) [] [] := by
  induction c with
  | stop => rfl
  | call request next ih =>
    intro s
    refine Program.Ordered.bind (Request.program_ordered hkms fun h => (hc h).1 s) fun reply => ?_
    exact ih reply fun h => (hc h).2 reply

end

/-! ## Up to the mutex -/

namespace Interleaved

variable (env : Env) (kms : UserKms) (m : ManagerId) (config : KmsConnectionConfig) (enc : EncryptionConfiguration)

/-- `file_encryption_properties` until a key is wrapped: the wrapper is made, and the footer's key drawn. -/
def beginFile : Run (KeyWrapper × Bytes) := do
  let keyWrapper ← newKeyWrapper env m config enc
  let key ← call (fill env CryptoFactory.dekLen)
  pure (keyWrapper, key)

/-- The rest of it. -/
def endFile (x : KeyWrapper × Bytes) : Run FileEncryptionProperties := do
  let metadata ← getKeyMetadata env kms x.1 x.2 enc.footerKeyId true
  let order ← call (iterationOrder env)
  addColumnKeys env kms x.1 (HashMap.inOrder order enc.columnKeyIds) ⟨⟨x.2, metadata⟩, enc.plaintextFooter, ∅⟩

theorem fileEncryptionProperties_split (hi : enc.internalKeyMaterial = true) (hl : enc.dataKeyLengthBits = 128) :
    fileEncryptionProperties env kms m config enc = beginFile env m config enc >>= endFile env kms enc := by
  unfold fileEncryptionProperties
  rw [if_neg (not_not.mpr hi), if_neg (not_not.mpr hl)]
  unfold beginFile generateKey
  simp only [Routine.bind_assoc]
  rfl

/-- What a writer does after its call has begun. -/
def recordFile (r : Outcome ParquetError (KeyWrapper × Bytes)) : Program LibraryLock Ledger Reply :=
  Routine.andThen (Routine.orElse (endFile env kms enc) r) fun r =>
    .atomic (fun s => s.addFile m config enc r) fun _ => .done (.encryption r)

theorem encrypt_program (hi : enc.internalKeyMaterial = true) (hl : enc.dataKeyLengthBits = 128) :
    (Request.encrypt m config enc).program env kms =
      Program.bind (beginFile env m config enc) (recordFile env kms m config enc) := by
  have hsplit := fileEncryptionProperties_split env kms m config enc hi hl
  exact (congrArg (fun x => Routine.andThen x _) hsplit).trans (Program.bind_assoc _ _ _)

variable {env kms m config enc}

theorem beginFile_ordered {tokensFixed : Bool} :
    (beginFile env m config enc).Ordered (libraryOrder tokensFixed) [] := by
  have hb : Below (libraryOrder tokensFixed) [] 2 := fun g hg => by cases hg
  refine .bind ((getKekWriteCache_ordered hb m config _).bind fun a => .pure _) fun k => ?_
  exact (call_ordered _).bind fun key => .pure _

theorem recordFile_ordered {tokensFixed : Bool} (hkms : kms.Ordered (libraryOrder tokensFixed))
    (r : Outcome ParquetError (KeyWrapper × Bytes)) :
    (recordFile env kms m config enc r).Ordered (libraryOrder tokensFixed) [] [] := by
  refine andThen_ordered ?_ fun r s => rfl
  cases r with
  | ok x =>
    have hmetadata : (getKeyMetadata env kms x.1 x.2 enc.footerKeyId true).Ordered (libraryOrder tokensFixed) [] :=
      (wrap_ordered hkms x.1 x.2 enc.footerKeyId _).bind fun _ => (call_ordered _).bind fun _ => .pure _
    exact hmetadata.bind fun _ => (call_ordered _).bind fun _ => addColumnKeys_ordered hkms x.1 _ _
  | err e => exact .finish _
  | panic => exact .finish _

/-- Where a double-wrapping call begins to wrap, it asks for the mutex of its wrapper's cache. -/
theorem recordFile_asks {x : KeyWrapper × Bytes} (hd : x.1.encryptionConfiguration.doubleWrapping = true) :
    ∃ next, recordFile env kms m config enc (.ok x) = .acquire (.kekWrites x.1.masterKeyToKek) .exclusive next := by
  have hwrap : ∀ b, wrap env kms x.1 x.2 enc.footerKeyId b = doubleWrap env kms x.1 x.2 enc.footerKeyId b :=
    fun _ => if_pos hd
  simp only [recordFile, Routine.orElse, endFile, getKeyMetadata, hwrap]
  exact ⟨_, rfl⟩

end Interleaved

/-! ## Any number of threads -/

section

variable {τ : Type} [DecidableEq τ] {env : Env} {kms : UserKms} {clients : τ → Client}

/-- Threads that run the clients' programs. -/
def pool (env : Env) (kms : UserKms) (clients : τ → Client) (s : Ledger) : Pool τ LibraryLock Ledger Unit :=
  Pool.init s fun t => (clients t).program env kms

/-- User code takes no lock of the library, or reads tokens only and none is refreshed. -/
def TokensApart (kms : UserKms) (clients : τ → Client) : Prop :=
  kms.ReadsOnly (fun _ => False) ∨ (kms.ReadsOnly LibraryLock.IsToken ∧ ∀ t, (clients t).NeverRefreshes)

omit [DecidableEq τ] in
theorem TokensApart.ordered (h : TokensApart kms clients) (env : Env) (s : Ledger) :
    ∃ O, ∀ t, ((pool env kms clients s).pc t).Ordered O := by
  rcases h with h | ⟨h, hrefresh⟩
  · refine ⟨libraryOrder false, Pool.init_ordered fun t => ?_⟩
    exact Client.program_ordered (h.ordered fun l hl => hl.elim) fun hfixed => by cases hfixed
  · refine ⟨libraryOrder true, Pool.init_ordered fun t => ?_⟩
    refine Client.program_ordered (h.ordered fun l hl => ?_) fun _ => hrefresh t
    obtain ⟨cell, rfl⟩ := hl
    rfl

/-- However the requests of any number of threads interleave, the threads are never all blocked. -/
theorem requests_never_deadlock (h : TokensApart kms clients) {s : Ledger} {p : Pool τ LibraryLock Ledger Unit}
    (hreach : Pool.Reach (pool env kms clients s) p) : ¬ Deadlocked threads p.pc fun t => (p.pc t).Finished := by
  obtain ⟨O, ho⟩ := h.ordered env s
  exact Pool.not_deadlocked (hreach.ordered ho)

/-- Two threads write a file each. -/
def sampleWriters (_ : Bool) : Client :=
  .call (fun _ => .encrypt 0 sampleConfig sampleConfiguration) fun _ => .stop

theorem sampleWriters_tokensApart : TokensApart (.readingToken Env.sample) sampleWriters :=
  Or.inr ⟨UserKms.readingToken_readsOnly _, fun _ => ⟨fun _ h => h, fun _ => trivial⟩⟩

/-- How a writer's call begins. -/
def sampleBegun (s : Ledger) : Outcome ParquetError (KeyWrapper × Bytes) × Ledger :=
  (Interleaved.beginFile Env.sample 0 sampleConfig sampleConfiguration).alone s

/-- While no other is in a lock, a writer can run until it asks for the mutex of its wrapper's cache. -/
theorem sampleWriter_asks {p : Pool Bool LibraryLock Ledger Unit} (t : Bool) (hheld : ∀ t, (p.pc t).held = [])
    (hrest : (p.pc t).rest = (sampleWriters t).program Env.sample (.readingToken Env.sample))
    (hbegun : ((sampleBegun p.state).1.toOption.map fun x =>
      (x.1.masterKeyToKek, x.1.encryptionConfiguration.doubleWrapping)) = some (0, true)) :
    ∃ p', Pool.Reach p p' ∧ p'.state = (sampleBegun p.state).2 ∧
      ∃ next, p'.pc = Function.update p.pc t ⟨[], .acquire (.kekWrites 0) .exclusive next⟩ := by
  have hprogram : (p.pc t).rest = Program.bind (.atomic id fun _ => Interleaved.beginFile Env.sample 0 sampleConfig
      sampleConfiguration) fun r => Program.bind
        (Interleaved.recordFile Env.sample (.readingToken Env.sample) 0 sampleConfig
        sampleConfiguration r) fun _ => .done () := by
    rw [hrest]
    refine congrArg (Program.atomic id) (funext fun _ => ?_)
    refine (congrArg (fun x => Program.bind x _) (Interleaved.encrypt_program _ _ _ _ _ rfl rfl)).trans ?_
    exact Program.bind_assoc _ _ _
  have hordered :
    (Program.atomic id fun _ => Interleaved.beginFile Env.sample 0 sampleConfig sampleConfiguration).Ordered
      (libraryOrder true) (p.pc t).held [] := by
    rw [hheld]
    exact fun _ => Interleaved.beginFile_ordered
  have hreach : Pool.Reach p
      ⟨(sampleBegun p.state).2, Function.update p.pc t ⟨[], Program.bind (Interleaved.recordFile Env.sample
      (.readingToken Env.sample) 0 sampleConfig sampleConfiguration (sampleBegun p.state).1) fun _ => .done ()⟩⟩ := by
    refine Pool.runs_alone hordered (fun g hg => ?_) (fun t' _ => hheld t') hprogram
    rw [hheld] at hg
    cases hg
  rcases hr : (sampleBegun p.state).1 with x | e | _
  · rw [hr] at hbegun hreach
    obtain ⟨hcache, hdouble⟩ := Prod.mk.inj (Option.some.inj hbegun)
    obtain ⟨next, hnext⟩ : ∃ next, Interleaved.recordFile Env.sample (.readingToken Env.sample) 0 sampleConfig
        sampleConfiguration (.ok x) = .acquire (.kekWrites x.1.masterKeyToKek) .exclusive next :=
      Interleaved.recordFile_asks hdouble
    rw [hnext, hcache] at hreach
    exact ⟨_, hreach, rfl, _, rfl⟩
  · rw [hr] at hbegun
    cases hbegun
  · rw [hr] at hbegun
    cases hbegun

/-- One of two writers has the mutex of the cache that both write keys through, and the other asks for it. -/
theorem requests_never_deadlock_sample : ∃ p, Pool.Reach (pool Env.sample (.readingToken Env.sample) sampleWriters
      (Ledger.init (fun _ => "DEFAULT") 0)) p ∧ (.kekWrites 0, .exclusive) ∈ (p.pc true).held ∧
    (p.pc false).wants = some (.kekWrites 0, .exclusive) ∧ ¬ Deadlocked threads p.pc fun t => (p.pc t).Finished := by
  obtain ⟨p1, hreach1, hstate1, next1, hpc1⟩ :=
    sampleWriter_asks (p := pool Env.sample (.readingToken Env.sample) sampleWriters
    (Ledger.init (fun _ => "DEFAULT") 0)) true (fun _ => rfl) rfl (by decide +kernel)
  have hheld1 : ∀ t, (p1.pc t).held = [] := by
    rw [hpc1]
    intro t
    cases t <;> rfl
  obtain ⟨p2, hreach2, _, next2, hpc2⟩ := sampleWriter_asks (p := p1) false hheld1 (by rw [hpc1]; rfl)
    (by rw [hstate1]; decide +kernel)
  rw [hpc1] at hpc2
  -- nobody has the mutex yet, and one of the two takes it
  have hadmits : Admits threads p2.pc (.kekWrites 0) .exclusive := by
    rw [hpc2]
    intro t mode hg
    cases t <;> cases hg
  have hstep : p2.Step true _ := .acquire (.kekWrites 0) .exclusive next1 (by rw [hpc2]; rfl) hadmits
  have hreach := (hreach1.trans hreach2).tail ⟨true, hstep⟩
  refine ⟨_, hreach, ?_, ?_, requests_never_deadlock sampleWriters_tokensApart hreach⟩
  · simp only [Function.update_self]
    exact List.mem_cons_self ..
  · rw [hpc2]
    rfl

/-- In every run of finitely many threads that goes on while it can, each call returns. -/
theorem requests_return [Finite τ] (h : TokensApart kms clients) {s : Ledger}
    {run : Nat → Pool τ LibraryLock Ledger Unit}
    (h0 : run 0 = pool env kms clients s) (hrun : Pool.Maximal run) : ∃ n, ∀ t, ((run n).pc t).Finished := by
  obtain ⟨O, ho⟩ := h.ordered env s
  exact hrun.finishes fun t => by rw [h0]; exact ho t

theorem requests_return_sample : ∃ run : Nat → Pool Bool LibraryLock Ledger Unit,
    run 0 = pool Env.sample (.readingToken Env.sample) sampleWriters (Ledger.init (fun _ => "DEFAULT") 0) ∧
    ∃ n, ∀ t, ((run n).pc t).Finished := by
  obtain ⟨run, h0, hrun⟩ := Pool.exists_maximal
    (pool Env.sample (.readingToken Env.sample) sampleWriters (Ledger.init (fun _ => "DEFAULT") 0))
  exact ⟨run, h0, requests_return sampleWriters_tokensApart h0 hrun⟩

/-! ## Sequential histories -/

/-- Make the requests one after another, and go on with what they were answered. -/
def Client.ofList : List Request → (List Reply → Client) → Client
  | [], next => next []
  | r :: rs, next => .call (fun _ => r) fun reply => ofList rs fun replies => next (reply :: replies)

/-- What a history's requests are answered, each with the thread that makes it. -/
def System.replies (env : Env) : System → List (τ × Request) → List (τ × Reply)
  | _, [] => []
  | sys, (t, r) :: plan => (t, r.reply env sys.world) :: (sys.exec env r).replies env plan

/-- What is one thread's, in its order. -/
def ofThread {β : Type} (t : τ) (xs : List (τ × β)) : List β := (xs.filter fun x => x.1 = t).map Prod.snd

/-- A part of a program of a request keeps to some order. -/
theorem Request.exists_ordered (env : Env) (h : kms.ReadsOnly LibraryLock.IsToken) (r : Request) :
    ∃ O, (r.program env kms).Ordered O [] [] := by
  have hkms : kms.Ordered (libraryOrder true) := h.ordered fun l hl => by
    obtain ⟨cell, rfl⟩ := hl
    rfl
  by_cases hr : r.IsRefresh
  · cases r with
    | refresh config token => exact ⟨_, refresh_ordered config token⟩
    | _ => exact hr.elim
  · exact ⟨_, Request.program_ordered hkms fun _ => hr⟩

/-- While no thread is in a request, one of them can make its next one, and does what the request does alone. -/
theorem pool_runs_request (hreads : kms.ReadsOnly LibraryLock.IsToken) {s : Ledger} {t : τ} {request : Ledger → Request}
    {next : Reply → Client} (hc : clients t = .call request next) :
    Pool.Reach (pool env kms clients s) (pool env kms
      (Function.update clients t (next (((request s).program env kms).alone s).1))
        (((request s).program env kms).alone s).2) := by
  obtain ⟨O, ho⟩ := (request s).exists_ordered env hreads
  -- the request is chosen in one step, and then made
  have hchoose : (pool env kms clients s).Step t ⟨s, Function.update (pool env kms clients s).pc t
      ⟨[], ((request s).program env kms).bind fun reply => (next reply).program env kms⟩⟩ := by
    refine Pool.Step.atomic (s := pool env kms clients s) id (fun s => ((request s).program env kms).bind fun reply =>
      (next reply).program env kms) ?_
    show (clients t).program env kms = _
    rw [hc]
    rfl
  have hpool : ∀ c s', pool env kms (Function.update clients t c) s' = ⟨s', Function.update (Function.update
      (pool env kms clients s).pc t
      ⟨[], ((request s).program env kms).bind fun reply => (next reply).program env kms⟩) t
      ⟨[], c.program env kms⟩⟩ := by
    intro c s'
    rw [Function.update_idem]
    exact congrArg (Pool.mk s') (Function.comp_update (fun c => Point.mk [] (Client.program env kms c)) clients t c)
  rw [hpool]
  refine .head ⟨t, hchoose⟩ ?_
  refine Pool.runs_alone (O := O) (p := (request s).program env kms) (f := fun reply => (next reply).program env kms)
    ?_ (fun g hg => ?_) (fun t' hne => ?_) ?_
  · simpa only [Function.update_self] using ho
  · simp only [Function.update_self] at hg
    cases hg
  · simp only [Function.update_of_ne hne]
    rfl
  · simp only [Function.update_self]

/-- Every history of whole requests is a run of the threads that make them, in which each is answered what the request
    is answered in the history: whatever the threads do next, they go on with these answers. -/
theorem history_interleaves (h : kms.Realises env) (hreads : kms.ReadsOnly LibraryLock.IsToken)
    (plan : List (τ × Request)) (next : τ → List Reply → Client) {s : Ledger} {sys : System} (hs : s.Shows sys) :
    ∃ s', Pool.Reach (pool env kms (fun t => Client.ofList (ofThread t plan) (next t)) s)
        (pool env kms (fun t => next t (ofThread t (sys.replies env plan))) s') ∧
      s'.Shows (plan.foldl (fun sys x => sys.exec env x.2) sys) := by
  induction plan generalizing s sys next with
  | nil => exact ⟨s, .refl, hs⟩
  | cons x plan ih =>
    obtain ⟨t, r⟩ := x
    obtain ⟨s1, hrun, hs1⟩ := r.alone_program h hs
    -- the thread goes on with the answer; the others wait
    have hfirst := @pool_runs_request τ _ env kms
      (fun t' => Client.ofList (ofThread t' ((t, r) :: plan)) (next t')) hreads s t
      (fun _ => r) (fun reply => Client.ofList (ofThread t plan) fun replies => next t (reply :: replies)) (by
        simp [ofThread, Client.ofList])
    rw [hrun] at hfirst
    obtain ⟨s', hreach, hs'⟩ := ih (Function.update next t fun replies => next t (r.reply env sys.world :: replies)) hs1
    refine ⟨s', ?_, hs'⟩
    have hclients : Function.update (fun t' => Client.ofList (ofThread t' ((t, r) :: plan)) (next t')) t
          (Client.ofList (ofThread t plan) fun replies => next t (r.reply env sys.world :: replies)) =
        fun t' => Client.ofList (ofThread t' plan)
          (Function.update next t (fun replies => next t (r.reply env sys.world :: replies)) t') := by
      funext t'
      by_cases hne : t' = t
      · subst hne
        rw [Function.update_self, Function.update_self]
      · rw [Function.update_of_ne hne, Function.update_of_ne hne]
        simp [ofThread, Ne.symm hne]
    have hnext : (fun t' => Function.update next t (fun replies => next t (r.reply env sys.world :: replies)) t'
          (ofThread t' ((sys.exec env r).replies env plan))) =
        fun t' => next t' (ofThread t' (sys.replies env ((t, r) :: plan))) := by
      funext t'
      by_cases hne : t' = t
      · subst hne
        rw [Function.update_self]
        simp [ofThread, System.replies]
      · rw [Function.update_of_ne hne]
        simp [ofThread, System.replies, Ne.symm hne]
    rw [hclients] at hfirst
    rw [hnext] at hreach
    exact .trans hfirst hreach

/-- Once it has a reader, a thread retrieves a file's footer key through it. -/
def retrieveFooter (replies : List Reply) : Client :=
  match replies with
  | [_, .decryption (.ok u)] => .call (fun s => match s.files with
    | f :: _ => .retrieve u f.properties.footerKey.metadata
    | [] => .wait 0) fun _ => .stop
  | _ => .stop

/-- One thread writes a file, after the other has made the factory and before it opens a reader. -/
theorem history_interleaves_sample : ∃ s', Pool.Reach (pool Env.sample (.readingToken Env.sample)
      (fun t : Bool => Client.ofList (ofThread t [(true, .newFactory),
        (false, .encrypt 0 sampleConfig sampleConfiguration), (true, .decrypt 0 sampleConfig ⟨none⟩)]) retrieveFooter)
      (Ledger.init (fun _ => "DEFAULT") 0))
      (pool Env.sample (.readingToken Env.sample) (fun t : Bool => retrieveFooter (ofThread t
        ((System.init (fun _ => "DEFAULT") 0).replies Env.sample [(true, .newFactory),
          (false, .encrypt 0 sampleConfig sampleConfiguration), (true, .decrypt 0 sampleConfig ⟨none⟩)]))) s') ∧
    s'.Shows sampleWriting :=
  history_interleaves (UserKms.readingToken_realises _) (UserKms.readingToken_readsOnly _) _ _ ⟨rfl, rfl, rfl⟩

end

end ParquetKeyManagement
