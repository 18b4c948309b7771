/-
  ParquetKeyManagement.Factory.SafeRegistry — the registry keeps to the contract of the threads.

  The sections of the registry are calm, so whatever else runs in between, an expiring cache
  only ever returns what its values are known to be (`getOrCreate_safe`), and an error of
  `getClient` is one that the client factory returned (`getClient_safe`). A KEK cache that a
  thread is given exists. What a thread may write to one while it holds its mutex is said
  once for writing and once for reading (`LedgerInv.setWriteCache`, `LedgerInv.setReadCache`).
-/

import ParquetKeyManagement.Factory.SharedKeys

namespace ParquetKeyManagement

open Effect Locks

/-! ## User code -/

/-- The program makes the call, and may hold read guards of tokens over it. -/
inductive UnderTokens {α : Type} (x : Call α) : Run α → Prop
  | call : UnderTokens x (call x)
  | holding (cell : TokenCell) {P : Run α} : UnderTokens x P → UnderTokens x (Routine.holding (.token cell) .shared P)

/-- The KMS is the one of the surroundings, whatever tokens it reads. -/
structure UserKms.Serves (kms : UserKms) (env : Env) : Prop where
  createClient : ∀ config, UnderTokens (ParquetKeyManagement.createClient env config) (kms.createClient config)
  wrapKey : ∀ client keyBytes masterKeyId,
    UnderTokens (ParquetKeyManagement.wrapKey env client keyBytes masterKeyId) (kms.wrapKey client keyBytes masterKeyId)
  unwrapKey : ∀ client wrapped masterKeyId,
    UnderTokens (ParquetKeyManagement.unwrapKey env client wrapped masterKeyId)
      (kms.unwrapKey client wrapped masterKeyId)

namespace UserKms

theorem ofEnv_serves (env : Env) : (ofEnv env).Serves env := ⟨fun _ => .call, fun _ _ _ => .call, fun _ _ _ => .call⟩

theorem readingToken_serves (env : Env) : (readingToken env).Serves env :=
  { ofEnv_serves env with createClient := fun config => .holding config.keyAccessToken .call }

end UserKms

section

variable {env : Env} {kms : UserKms}

theorem UnderTokens.ordered {α : Type} {x : Call α} {P : Run α} (h : UnderTokens x P)
    (held : List (LibraryLock × Mode)) :
    P.Ordered (libraryOrder true) held := by
  induction h generalizing held with
  | call => exact .ofCall _
  | holding cell _ ih => exact .holding ⟨fun _ => rfl, fun hread => by cases hread⟩ (ih _)

theorem UserKms.Serves.ordered (h : kms.Serves env) : kms.Ordered (libraryOrder true) where
  createClient held config := (h.createClient config).ordered held
  wrapKey held client keyBytes masterKeyId := (h.wrapKey client keyBytes masterKeyId).ordered held
  unwrapKey held client wrapped masterKeyId := (h.unwrapKey client wrapped masterKeyId).ordered held

end

/-! ## The registry -/

section

variable {env : Env} {kms : UserKms} {strict : Prop} {limit : Instant} {held : List (LibraryLock × Mode)} {s : Ledger}

/-- Facts that the evolution of the state keeps outlive a guard. -/
theorem ends_evolves {α : Type} {p : α → Ledger → Prop} {q : ParquetError → Ledger → Prop} {d : Ledger → Prop}
    (hp : ∀ a s s', s.Evolves s' → p a s → p a s') (hq : ∀ e s s', s.Evolves s' → q e s → q e s')
    (hd : ∀ s s', s.Evolves s' → d s → d s') {r : Outcome ParquetError α} {s s' : Ledger} (h : Ends p q d r s)
    (he : s.Evolves s') : Ends p q d r s' := by
  cases r with
  | ok a => exact hp a s s' he h
  | err e => exact hq e s s' he h
  | panic => exact hd s s' he h

/-- A poisoned mutex tells that the limit has passed. -/
theorem LedgerInv.late (h : LedgerInv env strict limit s) (hp : s.world.Poisoned) : Late strict limit s := by
  intro hstrict
  by_contra hlimit
  exact h.intact hstrict (not_lt.mp hlimit) hp

/-- A section that cannot fail. -/
theorem section_safe {α : Type} {x : Call α} {p : α → World → Prop} (hp : ∀ a w w', w.Grows w' → p a w → p a w')
    (hx : ∀ w, CachesInv w → s.world.Grows w → Along Calm x w p (fun _ _ => False) fun _ => False) :
    (call x).Safe (sharing env strict limit) held s (fun a s' => p a s'.world) (fun _ _ => False)
      (Late strict limit) := by
  refine (call_safe (p := fun a s' => p a s'.world) (q := fun _ _ => False) (d := fun _ => False)
    (fun s' hr => hx s'.world hr.inv.caches hr.evolves.world) fun r s' s'' hr h => ?_).mono
    (fun _ _ h => h) (fun _ _ h => h)
    fun _ h => h.elim
  exact ends_evolves (fun a _ _ he h => hp a _ _ he.world h) (fun _ _ _ _ h => h) (fun _ _ _ h => h) h hr.evolves

theorem calm_cleanupDue (m : ManagerId) (c : CacheName) (cleanupInterval : Duration) (w : World) :
    Along Calm (c.cleanupDue env m cleanupInterval) w (fun _ _ => True) (fun _ _ => False) fun _ => False := by
  cases c with
  | kmsClients => exact ExpiringCache.cleanupDue_along env ((clientsRegistered m).moves none) cleanupInterval w
  | kekReadCaches => exact ExpiringCache.cleanupDue_along env ((readsRegistered m).moves none) cleanupInterval w
  | kekWriteCaches => exact ExpiringCache.cleanupDue_along env ((writesRegistered m).moves none) cleanupInterval w

theorem calm_removeExpired (m : ManagerId) (c : CacheName) (w : World) :
    Along Calm (c.removeExpired env m) w (fun _ _ => True) (fun _ _ => False) World.Poisoned := by
  cases c with
  | kmsClients =>
    exact (ExpiringCache.lockedRemove_along env ((clientsRegistered m).moves none) w).mono (fun _ _ h => h)
      (fun _ _ h => h) (clientsRegistered m).poisoned
  | kekReadCaches =>
    exact (ExpiringCache.lockedRemove_along env ((readsRegistered m).moves none) w).mono (fun _ _ h => h)
      (fun _ _ h => h) (readsRegistered m).poisoned
  | kekWriteCaches =>
    exact (ExpiringCache.lockedRemove_along env ((writesRegistered m).moves none) w).mono (fun _ _ h => h)
      (fun _ _ h => h) (writesRegistered m).poisoned

/-- A section that panics only if a mutex is poisoned. -/
theorem poisonable_safe {α : Type} {x : Call α}
    (hx : ∀ w, Along Calm x w (fun _ _ => True) (fun _ _ => False) World.Poisoned) :
    (call x).Safe (sharing env strict limit) held s (fun _ _ => True) (fun _ _ => False) (Late strict limit) := by
  refine call_safe (fun s' hr => ⟨(hx s'.world).path, fun _ _ => trivial, (hx s'.world).err, fun hp => ?_⟩)
    fun r s' s'' hr h => ?_
  · have hcalm := Calm.of_path (hx s'.world).path
    exact (hcalm.ledgerInv hr.inv).late ((hx s'.world).panic hp)
  · exact ends_evolves (fun _ _ _ _ h => h) (fun _ _ _ _ h => h) (fun _ _ he h => h.evolves he) h hr.evolves

/-! The calls of user code -/

/-- The KMS unwrapped the key. -/
def UnwrappedByKms (env : Env) (wrapped masterKeyId : String) (key : Bytes) : Prop :=
  ∃ j client, env.unwrapKey j client wrapped masterKeyId = .ok key

theorem UnderTokens.safe {α : Type} {x : Call α} {P : Run α} {p : α → Ledger → Prop} {q : ParquetError → Ledger → Prop}
    (h : UnderTokens x P) (hp : ∀ a s s', s.Evolves s' → p a s → p a s') (hq : ∀ e s s', s.Evolves s' → q e s → q e s')
    (hx : ∀ s', s.Evolves s' → Along Calm x s'.world (fun a w => p a { s' with world := w })
      (fun e w => q e { s' with world := w }) fun _ => False) :
    P.Safe (sharing env strict limit) held s p q (Late strict limit) := by
  have hkeep : ∀ {r : Outcome ParquetError α} {s s' : Ledger}, Ends p q (Late strict limit) r s → s.Evolves s' →
      Ends p q (Late strict limit) r s' := ends_evolves hp hq fun _ _ he h => h.evolves he
  induction h generalizing held s with
  | call =>
    refine call_safe (fun s' hr => ?_) fun r s' s'' hr h => hkeep h hr.evolves
    exact (hx s' hr.evolves).mono (fun _ _ h => h) (fun _ _ h => h) fun _ h => h.elim
  | holding cell _ ih =>
    refine .holding (fun s' hr => ih fun s'' he => ?_) fun r s' s'' h hr => hkeep h hr.evolves
    exact hx s'' (Ledger.Evolves.trans hr.evolves he)

theorem createClient_safe (h : kms.Serves env) (config : KmsConnectionConfig) {n : Nat} (hn : n ≤ s.world.log.length) :
    (kms.createClient config).Safe (sharing env strict limit) held s (fun _ _ => True)
      (fun e s' => s'.world.FailedWith n e) (Late strict limit) := by
  refine (h.createClient config).safe (fun _ _ _ _ h => h) (fun _ _ _ he h => h.grows he.world) fun s' he => ?_
  have hn' : n ≤ s'.world.log.length := hn.trans he.world.log.length_le
  cases hr : env.createClient s'.world.calls (config.details s'.world) with
  | ok _ =>
    refine Along.of_ok (t := s'.world.record (.createClient (config.details s'.world)
      (.ok ⟨s'.world.calls, config.details s'.world⟩))) (a := ⟨s'.world.calls, config.details s'.world⟩) ?_
      (.single (calm_record _ _)) trivial
    simp only [ParquetKeyManagement.createClient, hr]
  | error e =>
    refine Along.of_err (t := s'.world.record (.createClient (config.details s'.world) (.error e))) (e := e) ?_
      (.single (calm_record _ _)) (s'.world.failedWith_record hn' rfl)
    simp only [ParquetKeyManagement.createClient, hr]

theorem wrapKey_safe (h : kms.Serves env) (client : KmsClient) (keyBytes : Bytes) (masterKeyId : String) :
    (kms.wrapKey client keyBytes masterKeyId).Safe (sharing env strict limit) held s
      (fun wrapped _ => WrappedByKms env keyBytes masterKeyId wrapped) (fun _ _ => True) (Late strict limit) := by
  refine (h.wrapKey client keyBytes masterKeyId).safe (fun _ _ _ _ h => h) (fun _ _ _ _ h => h) fun s' _ => ?_
  cases hr : env.wrapKey s'.world.calls client keyBytes masterKeyId with
  | ok wrapped =>
    refine Along.of_ok (t := s'.world.record (.wrapKey client keyBytes masterKeyId (.ok wrapped))) (a := wrapped) ?_
      (.single (calm_record _ _)) ⟨_, client, hr⟩
    simp only [ParquetKeyManagement.wrapKey, hr]
  | error e =>
    refine Along.of_err (t := s'.world.record (.wrapKey client keyBytes masterKeyId (.error e))) (e := e) ?_
      (.single (calm_record _ _)) trivial
    simp only [ParquetKeyManagement.wrapKey, hr]

theorem unwrapKey_safe (h : kms.Serves env) (client : KmsClient) (wrapped masterKeyId : String) {n : Nat}
    (hn : n ≤ s.world.log.length) :
    (kms.unwrapKey client wrapped masterKeyId).Safe (sharing env strict limit) held s
      (fun key _ => UnwrappedByKms env wrapped masterKeyId key) (fun e s' => s'.world.FailedWith n e)
      (Late strict limit) := by
  refine (h.unwrapKey client wrapped masterKeyId).safe (fun _ _ _ _ h => h) (fun _ _ _ he h => h.grows he.world)
    fun s' he => ?_
  have hn' : n ≤ s'.world.log.length := hn.trans he.world.log.length_le
  cases hr : env.unwrapKey s'.world.calls client wrapped masterKeyId with
  | ok key =>
    refine Along.of_ok (t := s'.world.record (.unwrapKey client wrapped masterKeyId (.ok key))) (a := key) ?_
      (.single (calm_record _ _)) ⟨_, client, hr⟩
    simp only [ParquetKeyManagement.unwrapKey, hr]
  | error e =>
    refine Along.of_err (t := s'.world.record (.unwrapKey client wrapped masterKeyId (.error e))) (e := e) ?_
      (.single (calm_record _ _)) (s'.world.failedWith_record hn' rfl)
    simp only [ParquetKeyManagement.unwrapKey, hr]

namespace Interleaved

theorem clearExpired_safe (hs : LedgerInv env strict limit s) (m : ManagerId) (c : CacheName)
    (cleanupInterval : Duration) :
    (clearExpired env m c cleanupInterval).Safe (sharing env strict limit) held s (fun _ _ => True) (fun _ _ => False)
      (Late strict limit) := by
  have hout : ∀ {α : Type} {r : Outcome ParquetError α} {s' s'' : Ledger},
      Ends (fun _ _ => True) (fun _ _ => False) (Late strict limit) r s' → (sharing env strict limit).Rely held s' s'' →
      Ends (fun _ _ => True) (fun _ _ => False) (Late strict limit) r s'' :=
    fun h hr => ends_evolves (fun _ _ _ _ h => h) (fun _ _ _ _ h => h) (fun _ _ he h => h.evolves he) h hr.evolves
  refine .bind hs (.holding (fun s' hr => ?_) fun r s' s'' h hr => hout h hr) fun due s' hs' _ _ => ?_
  · exact section_safe (p := fun _ _ => True) (fun _ _ _ _ h => h) fun w _ _ => calm_cleanupDue m c cleanupInterval w
  cases due with
  | true => exact .holding (fun s' hr => poisonable_safe (calm_removeExpired m c)) fun r s' s'' h hr => hout h hr
  | false => exact .pure fun _ _ => trivial

theorem clearExpiredEntries_safe (hs : LedgerInv env strict limit s) (m : ManagerId)
    (cleanupInterval : Option Duration) :
    (clearExpiredEntries env m cleanupInterval).Safe (sharing env strict limit) held s (fun _ _ => True)
      (fun _ _ => False) (Late strict limit) := by
  cases cleanupInterval with
  | none => exact .pure fun _ _ => trivial
  | some d =>
    refine .bind hs (clearExpired_safe hs m .kmsClients d) fun _ s1 hs1 _ _ => ?_
    refine .bind hs1 (clearExpired_safe hs1 m .kekReadCaches d) fun _ s2 hs2 _ _ => ?_
    exact clearExpired_safe hs2 m .kekWriteCaches d

/-- What `get_or_create` returns is what the cache's values are known to be, if what the creator makes is. -/
theorem getOrCreate_safe {κ ν : Type} [DecidableEq κ] {l : LibraryLock}
    {place : Place World (ExpiringCache κ ν)} {key : κ}
    {lifetime : Option Duration} {creator : Run ν} {Known : κ → ν → World → Prop} {q : ParquetError → Ledger → Prop}
    (R : RegistryCache place Known) (hfits : strict → Fits limit lifetime)
    (hq : ∀ e s s', s.Evolves s' → q e s → q e s')
    (hcreator : ∀ s', LedgerInv env strict limit s' → s.Evolves s' →
      creator.Safe (sharing env strict limit) ((l, .exclusive) :: held) s' (fun v s'' => Known key v s''.world) q
        (Late strict limit)) :
    (getOrCreate env l place key lifetime creator).Safe (sharing env strict limit) held s
      (fun v s' => Known key v s'.world) q (Late strict limit) := by
  have hout : ∀ {r : Outcome ParquetError ν} {s' s'' : Ledger},
      Ends (fun v s => Known key v s.world) q (Late strict limit) r s' → s'.Evolves s'' →
      Ends (fun v s => Known key v s.world) q (Late strict limit) r s'' :=
    ends_evolves (fun v _ _ he h => R.grows key v _ _ he.world h) hq fun _ _ he h => h.evolves he
  refine .mutex (d := Late strict limit) (fun s' hs' hp => hs'.late (R.poisoned _ hp)) (fun s' hr _ => ?_)
    (fun s' hs' hlate => ?_) (fun s' s'' h hr => h.evolves hr.evolves) fun r s' s'' _ h hr => hout h hr.evolves
  · refine .bind (p := fun found s' => ∀ v, found = some v → Known key v s'.world) hr.inv ?_
      fun found s1 hs1 he1 hfound => ?_
    · -- looking the entry up
      refine (section_safe (p := fun found w => ∀ v, found = some v → Known key v w)
        (fun found w w' hg h v hv => R.grows key v _ _ hg (h v hv)) fun w hw _ => ?_).mono (fun _ _ h => h)
        (fun _ _ h => h.elim) fun _ h => h
      refine (ExpiringCache.findValid_along env (R.moves lifetime) w).with_path.mono (fun found w' h v hv => ?_)
        (fun _ _ h => h) fun _ h => h
      obtain ⟨e, hl, rfl, _⟩ := h.1 v hv
      exact R.entries w' key e ((Calm.of_path h.2).caches hw) hl
    cases found with
    | some v => exact .pure fun s2 hr2 => R.grows key v _ _ hr2.evolves.world (hfound v rfl)
    | none =>
      refine .bind hs1 (hcreator s1 hs1 (hr.evolves.trans he1)) fun v s2 hs2 _ hv => ?_
      -- storing what was made
      refine call_safe (fun s3 hr3 => ?_) fun r s' s'' hr h => hout h hr.evolves
      have hv3 := R.grows key v _ _ hr3.evolves.world hv
      refine (ExpiringCache.store_along env (R.moves lifetime) hv3).with_path.mono (fun v' w' h => ?_) (fun _ _ h => h)
        fun w' h hstrict => ?_
      · obtain ⟨⟨rfl, _⟩, path⟩ := h
        exact R.grows key v' _ _ (Calm.of_path path).grows hv3
      · obtain ⟨d, hd, hlim⟩ := h
        exact Nat.lt_of_add_lt_add_right (lt_of_lt_of_le (hfits hstrict d hd) hlim)
  · exact ⟨(R.poison s'.world).guar_late hs' hlate, hlate.evolves (R.poison s'.world).evolves⟩

variable {m : ManagerId} {config : KmsConnectionConfig} {lifetime : Option Duration}

/-- An error of `getClient` is one of the client factory. -/
theorem getClient_safe (h : kms.Serves env) (hs : LedgerInv env strict limit s) (hfits : strict → Fits limit lifetime)
    {n : Nat} (hn : n ≤ s.world.log.length) :
    (getClient env kms m config lifetime).Safe (sharing env strict limit) held s (fun _ _ => True)
      (fun e s' => s'.world.FailedWith n e) (Late strict limit) := by
  refine .bind hs ((clearExpiredEntries_safe hs m lifetime).mono (fun _ _ h => h) (fun _ _ h => h.elim) fun _ h => h)
    fun _ s1 hs1 he1 _ => ?_
  refine .holding (p := fun _ _ => True) (q := fun e s' => s'.world.FailedWith n e)
    (d := Late strict limit) (fun s2 hr2 => ?_)
    fun r s' s'' h hr => ends_evolves (fun _ _ _ _ h => h) (fun _ _ _ he h => h.grows he.world)
      (fun _ _ he h => h.evolves he) h hr.evolves
  have hn2 : n ≤ s2.world.log.length := hn.trans (he1.trans hr2.evolves).world.log.length_le
  refine .bind hr2.inv ((section_safe (p := fun _ _ => True) (fun _ _ _ _ h => h) fun w _ _ => .read trivial).mono
    (fun _ _ h => h) (fun _ _ h => h.elim) fun _ h => h) fun token s3 hs3 he3 _ => ?_
  refine getOrCreate_safe (clientsRegistered m) hfits (fun _ _ _ he h => h.grows he.world) fun s4 hs4 he4 => ?_
  exact createClient_safe h config (hn2.trans (he3.trans he4).world.log.length_le)

theorem readToken_safe : (readToken config).Safe (sharing env strict limit) held s (fun _ _ => True) (fun _ _ => False)
    (Late strict limit) := by
  refine .holding (fun s' hr => section_safe (p := fun _ _ => True) (fun _ _ _ _ h => h) fun w _ _ => .read trivial)
    fun r s' s'' h hr => ends_evolves (fun _ _ _ _ h => h) (fun _ _ _ _ h => h)
      (fun _ _ he h => h.evolves he) h hr.evolves

theorem getKekReadCache_safe (hs : LedgerInv env strict limit s) (hfits : strict → Fits limit lifetime) :
    (getKekReadCache env m config lifetime).Safe (sharing env strict limit) held s
      (fun a s' => a < s'.world.nextReadCache) (fun _ _ => False) (Late strict limit) := by
  refine .bind hs (clearExpiredEntries_safe hs m lifetime) fun _ s1 hs1 _ _ => ?_
  refine .bind hs1 readToken_safe fun token s2 hs2 _ _ => ?_
  refine .unwrap hs2 (getOrCreate_safe (readsRegistered m) hfits (fun _ _ _ _ h => h) fun s3 hs3 _ => ?_)
  refine section_safe (p := fun a w => a < w.nextReadCache)
    (fun a _ _ hg h => lt_of_lt_of_le h hg.nextReadCache) fun w hw _ => ?_
  exact .of_ok rfl (.single (calm_allocReadCache hw (m, token))) (Nat.lt_succ_self _)

theorem getKekWriteCache_safe (hs : LedgerInv env strict limit s) (hfits : strict → Fits limit lifetime) :
    (getKekWriteCache env m config lifetime).Safe (sharing env strict limit) held s
      (fun a s' => a < s'.world.nextWriteCache) (fun _ _ => False) (Late strict limit) := by
  refine .bind hs (clearExpiredEntries_safe hs m lifetime) fun _ s1 hs1 _ _ => ?_
  refine .bind hs1 readToken_safe fun token s2 hs2 _ _ => ?_
  refine .unwrap hs2 (getOrCreate_safe (writesRegistered m) hfits (fun _ _ _ _ h => h) fun s3 hs3 _ => ?_)
  refine section_safe (p := fun a w => a < w.nextWriteCache)
    (fun a _ _ hg h => lt_of_lt_of_le h hg.nextWriteCache) fun w hw _ => ?_
  exact .of_ok rfl (.single (calm_allocWriteCache hw (m, token))) (Nat.lt_succ_self _)

end Interleaved

/-! ## Writes of KEKs -/

/-- The KEK's id is drawn, by a use of the generator that is recorded with it. -/
theorem LedgerInv.draw (h : LedgerInv env strict limit s) {key keyId : Bytes} (hdrew : env.Drew s.world.calls keyId) :
    (sharing env strict limit).Guar held s
      { s with world := s.world.tick 0, drawn := s.drawn ++ [⟨key, keyId, s.world.calls⟩] } := by
  have hsub : s.drawn ⊆ s.drawn ++ [⟨key, keyId, s.world.calls⟩] := List.subset_append_left ..
  have hw := (calm_tick s.world 0).ledgerInv h
  have he : s.Evolves { s with world := s.world.tick 0, drawn := s.drawn ++ [⟨key, keyId, s.world.calls⟩] } :=
    { (calm_tick s.world 0).evolves with drawn := hsub }
  -- the use is later than all that are recorded
  have hlater : ∀ d ∈ s.drawn, d.use ≠ s.world.calls := fun d hd => Nat.ne_of_lt (h.uses d hd).1
  refine .of_same ⟨hw.caches, fun d hd => ?_, fun d hd d' hd' huse => ?_, hw.readers, ?_, ?_, ?_, ?_, hw.intact⟩ he
    fun l => ?_
  · rcases List.mem_append.mp hd with hd | hd
    · exact hw.uses d hd
    · cases List.mem_singleton.mp hd
      exact ⟨Nat.lt_succ_self _, hdrew⟩
  · rcases List.mem_append.mp hd with hd | hd <;> rcases List.mem_append.mp hd' with hd' | hd'
    · exact h.once d hd d' hd' huse
    · cases List.mem_singleton.mp hd'
      exact absurd huse (hlater d hd)
    · cases List.mem_singleton.mp hd
      exact absurd huse.symm (hlater d' hd')
    · cases List.mem_singleton.mp hd
      cases List.mem_singleton.mp hd'
      rfl
  · exact fun a masterKeyId kek hl => (hw.writeKeks a masterKeyId kek hl).mono hsub
  · intro k hk
    obtain ⟨m, hm⟩ := hw.issued k hk
    exact ⟨m, hm.mono hsub⟩
  · exact fun hstrict a kekId kek hl => (hw.readKeks hstrict a kekId kek hl).mono hsub
  · exact fun hstrict r hr => (h.retrieved hstrict r hr).evolves he
  · cases l with
    | kekReads a => rfl
    | kekWrites a => rfl
    | _ => trivial

/-! ## A cache of KEKs -/

section

variable {α : Type} {caches : Nat → Mutex (HashMap String α)} {a a' : Nat} {c : Mutex (HashMap String α)}
  {keyId : String} {kek : α}

/-- A write to one of the caches that keeps its entries keeps those of all. -/
theorem update_kept (hkept : ∀ keyId kek, (caches a).data.lookup keyId = some kek → c.data.lookup keyId = some kek)
    (hl : (caches a').data.lookup keyId = some kek) : (Function.update caches a c a').data.lookup keyId = some kek := by
  by_cases hne : a' = a
  · subst hne
    rw [Function.update_self]
    exact hkept keyId kek hl
  · rwa [Function.update_of_ne hne]

/-- An entry was there, or it is one of those that the write adds. -/
theorem update_new {P : String → α → Prop}
    (hnew : ∀ keyId kek, c.data.lookup keyId = some kek → (caches a).data.lookup keyId = some kek ∨ P keyId kek)
    (hl : (Function.update caches a c a').data.lookup keyId = some kek) :
    (caches a').data.lookup keyId = some kek ∨ P keyId kek := by
  by_cases hne : a' = a
  · subst hne
    rw [Function.update_self] at hl
    exact hnew keyId kek hl
  · rw [Function.update_of_ne hne] at hl
    exact Or.inl hl

theorem update_flag (h : c.poisoned = (caches a).poisoned) :
    (Function.update caches a c a').poisoned = (caches a').poisoned := by
  by_cases hne : a' = a
  · subst hne
    rw [Function.update_self, h]
  · rw [Function.update_of_ne hne]

end

/-- A write to a cache of KEKs for writing, under its mutex: what was there stays, and what is new was made. -/
theorem LedgerInv.setWriteCache (h : LedgerInv env strict limit s) {a : KekWriteCache}
    {c : Mutex (HashMap String KeyEncryptionKey)}
    (hheld : (.kekWrites a, .exclusive) ∈ held) (ha : a < s.world.nextWriteCache)
    (hkept : ∀ masterKeyId kek, (s.world.writeCaches a).data.lookup masterKeyId = some kek →
      c.data.lookup masterKeyId = some kek)
    (hnew : ∀ masterKeyId kek, c.data.lookup masterKeyId = some kek →
      (s.world.writeCaches a).data.lookup masterKeyId = some kek ∨ MadeKek env s.drawn masterKeyId kek)
    (hflag : strict → s.world.clock ≤ limit → c.poisoned = false) :
    (sharing env strict limit).Guar held s { s with world := (writeCachePlace a).set c s.world } := by
  have hother : ∀ a', a' ≠ a → ((writeCachePlace a).set c s.world).writeCaches a' = s.world.writeCaches a' :=
    fun a' hne => Function.update_of_ne hne ..
  have he : s.Evolves { s with world := (writeCachePlace a).set c s.world } :=
    { Ledger.Evolves.refl s with
      world := { World.Grows.refl s.world with }
      writeKeks := fun _ _ _ hl => update_kept hkept hl }
  refine ⟨⟨⟨h.caches.readRegistry, h.caches.writeRegistry, h.caches.readFresh, fun a' ha' => ?_⟩,
    h.uses, h.once, h.readers,
    fun a' masterKeyId kek hl => ?_, h.issued, h.readKeks, fun hstrict r hr => (h.retrieved hstrict r hr).evolves he,
    fun hstrict hlimit => ?_⟩, he, fun l hl => ?_⟩
  · have hne : a' ≠ a := Nat.ne_of_gt (lt_of_lt_of_le ha ha')
    exact (hother a' hne).trans (h.caches.writeFresh a' ha')
  · rcases update_new hnew hl with h1 | h1
    · exact h.writeKeks a' masterKeyId kek h1
    · exact h1
  · have hi := h.intact hstrict hlimit
    have hclean : (s.world.writeCaches a).poisoned = false :=
      Bool.eq_false_iff.mpr fun hp => hi (Or.inr (Or.inr ⟨a, hp⟩))
    exact intact_of_flags (w := s.world) (keepsLocks_of_eq rfl) (fun _ => rfl)
      (fun _ => update_flag ((hflag hstrict hlimit).trans hclean.symm)) hi
  · cases l with
    | kekReads a' => rfl
    | kekWrites a' => exact hother a' fun hne => hl (hne ▸ hheld)
    | _ => trivial

/-- A write to a cache of KEKs for reading, under its mutex. -/
theorem LedgerInv.setReadCache (h : LedgerInv env strict limit s) {a : KekReadCache} {c : Mutex (HashMap String Bytes)}
    (hheld : (.kekReads a, .exclusive) ∈ held) (ha : a < s.world.nextReadCache)
    (hkept : ∀ kekId kek, (s.world.readCaches a).data.lookup kekId = some kek → c.data.lookup kekId = some kek)
    (hnew : strict → ∀ kekId kek, c.data.lookup kekId = some kek →
      (s.world.readCaches a).data.lookup kekId = some kek ∨ IsDrawn s.drawn kekId kek)
    (hflag : strict → s.world.clock ≤ limit → c.poisoned = false) :
    (sharing env strict limit).Guar held s { s with world := (readCachePlace a).set c s.world } := by
  have hother : ∀ a', a' ≠ a → ((readCachePlace a).set c s.world).readCaches a' = s.world.readCaches a' :=
    fun a' hne => Function.update_of_ne hne ..
  have he : s.Evolves { s with world := (readCachePlace a).set c s.world } :=
    { Ledger.Evolves.refl s with
      world := { World.Grows.refl s.world with }
      readKeks := fun _ _ _ hl => update_kept hkept hl }
  refine ⟨⟨⟨h.caches.readRegistry, h.caches.writeRegistry, fun a' ha' => ?_, h.caches.writeFresh⟩,
    h.uses, h.once, h.readers,
    h.writeKeks, h.issued, fun hstrict a' kekId kek hl => ?_, fun hstrict r hr => (h.retrieved hstrict r hr).evolves he,
    fun hstrict hlimit => ?_⟩, he, fun l hl => ?_⟩
  · have hne : a' ≠ a := Nat.ne_of_gt (lt_of_lt_of_le ha ha')
    exact (hother a' hne).trans (h.caches.readFresh a' ha')
  · rcases update_new (hnew hstrict) hl with h1 | h1
    · exact h.readKeks hstrict a' kekId kek h1
    · exact h1
  · have hi := h.intact hstrict hlimit
    exact intact_of_flags (w := s.world) (keepsLocks_of_eq rfl)
      (fun _ => update_flag ((hflag hstrict hlimit).trans (hi.readCache a).symm)) (fun _ => rfl) hi
  · cases l with
    | kekReads a' => exact hother a' fun hne => hl (hne ▸ hheld)
    | kekWrites a' => rfl
    | _ => trivial

end

end ParquetKeyManagement
