/-
  ParquetKeyManagement.Kms.TokenRefresh — the cache of clients is sound while tokens are
  refreshed.

  A `get_client` reads the token under a guard that it keeps until it ends, so no refresh of
  that cell falls in between: the token it files a client under is the one its configuration
  held all the time, the factory's call included (`HeldToken`). From this, over every interleaving:
  - `clients_sound`: what is stored under a token was created, for its instance, by a call of
    the factory during which the configuration's token was no other, and what `get_client`
    returns was stored under the token its configuration held until the call ended.
-/

import ParquetKeyManagement.Kms.Sections

namespace ParquetKeyManagement

open Effect Locks

/-! ## The invariant -/

namespace Machine

variable {env : Env} {m : ManagerId} {τ : Type} [DecidableEq τ] {s s' : Machine τ} {t : τ}

section

variable (s)

/-- From the moment `n` to `n'` the cell held this token. -/
def HeldToken (cell : TokenCell) (token : String) (n n' : Nat) : Prop :=
  n ≤ n' ∧ n' ≤ s.moment ∧ ∀ i, n ≤ i → i ≤ n' → s.tokensAt i cell = token

/-- The client is of a factory call on a configuration with the key's instance id, which held
    the key's token as long as the call lasted. -/
def Created (key : ClientKey) (client : KmsClient) : Prop :=
  client.config.keyAccessToken = key.keyAccessToken ∧
    ∃ call ∈ s.factoryCalls, call.client = client ∧ call.kmsConnectionConfig.kmsInstanceId = key.kmsInstanceId ∧
      s.HeldToken call.kmsConnectionConfig.keyAccessToken key.keyAccessToken call.started call.ended

/-- What the thread holds a guard for is still what it read. -/
def ThreadSound : Pc → Prop
  | .atGetOrCreate call token since => s.HeldToken call.cell token since s.moment
  | .inGetOrCreate call token since => s.HeldToken call.cell token since s.moment
  | .atFactory call token since started =>
    s.HeldToken call.cell token since s.moment ∧ s.HeldToken call.cell token started s.moment
  | .inFactory call token since started =>
    s.HeldToken call.cell token since s.moment ∧ s.HeldToken call.cell token started s.moment
  | .created call token since result =>
    s.HeldToken call.cell token since s.moment ∧ ∀ client, result = .ok client → s.Created (call.key token) client
  | .returning call token since result =>
    s.HeldToken call.cell token since s.moment ∧ ∀ client, result = .ok client → (call.key token, client) ∈ s.stored
  | _ => True

/-- The client was stored under the token that the configuration held as long as the call had
    it, and under its instance id. -/
def ReturnSound (r : ClientReturn) : Prop :=
  ∀ client, r.result = .ok client → ∃ token,
    s.HeldToken r.kmsConnectionConfig.keyAccessToken token r.readAt r.ended ∧
      (ClientKey.mk token r.kmsConnectionConfig.kmsInstanceId, client) ∈ s.stored

variable (m)

structure Sound : Prop where
  tokens : s.tokensAt s.moment = s.world.tokens
  cached : ∀ key v, (s.world.clients m).lookup key = some v → (key, v.value) ∈ s.stored
  stored : ∀ key client, (key, client) ∈ s.stored → s.Created key client
  threads : ∀ t, s.ThreadSound (s.pc t)
  returned : ∀ r ∈ s.returned, s.ReturnSound r

end

/-! ## What time does to it -/

/-- The past stays as it was. -/
structure Later (s s' : Machine τ) : Prop where
  moment : s.moment ≤ s'.moment
  tokensAt : ∀ i ≤ s.moment, s'.tokensAt i = s.tokensAt i
  factoryCalls : s.factoryCalls ⊆ s'.factoryCalls
  stored : s.stored ⊆ s'.stored

/-- Meanwhile nothing was written to the cell. -/
def Unwritten (s s' : Machine τ) (cell : TokenCell) : Prop :=
  ∀ i, s.moment < i → i ≤ s'.moment → s'.tokensAt i cell = s.tokensAt s.moment cell

omit [DecidableEq τ]

theorem Later.heldToken (h : Later s s') {cell : TokenCell} {token : String} {n n' : Nat}
    (hheld : s.HeldToken cell token n n') : s'.HeldToken cell token n n' := by
  obtain ⟨hle, hmoment, hall⟩ := hheld
  refine ⟨hle, hmoment.trans h.moment, fun i h1 h2 => ?_⟩
  rw [h.tokensAt i (h2.trans hmoment)]
  exact hall i h1 h2

theorem Later.heldToken_now (h : Later s s') {cell : TokenCell} {token : String} {n : Nat}
    (hheld : s.HeldToken cell token n s.moment) (hcell : Unwritten s s' cell) :
    s'.HeldToken cell token n s'.moment := by
  refine ⟨hheld.1.trans h.moment, le_refl _, fun i h1 h2 => ?_⟩
  by_cases hi : i ≤ s.moment
  · exact (h.heldToken hheld).2.2 i h1 hi
  · rw [hcell i (not_le.mp hi) h2]
    exact hheld.2.2 s.moment hheld.1 (le_refl _)

theorem Later.created (h : Later s s') {key : ClientKey} {client : KmsClient} (hc : s.Created key client) :
    s'.Created key client := by
  obtain ⟨htoken, call, hcall, hclient, hid, hheld⟩ := hc
  exact ⟨htoken, call, h.factoryCalls hcall, hclient, hid, h.heldToken hheld⟩

theorem Later.returnSound (h : Later s s') {r : ClientReturn} (hr : s.ReturnSound r) : s'.ReturnSound r := by
  intro client hresult
  obtain ⟨token, hheld, hstored⟩ := hr client hresult
  exact ⟨token, h.heldToken hheld, h.stored hstored⟩

/-- A thread stays sound while the cells it holds guards of are not written. -/
theorem Later.threadSound (h : Later s s') {p : Pc}
    (hcells : ∀ cell, (LockName.token cell, Mode.shared) ∈ p.guards → Unwritten s s' cell) (hp : s.ThreadSound p) :
    s'.ThreadSound p := by
  cases p with
  | atGetOrCreate call token since => exact h.heldToken_now hp (hcells _ (by simp [Pc.guards]))
  | inGetOrCreate call token since => exact h.heldToken_now hp (hcells _ (by simp [Pc.guards]))
  | atFactory call token since started =>
    have hcell := hcells call.cell (by simp [Pc.guards])
    exact ⟨h.heldToken_now hp.1 hcell, h.heldToken_now hp.2 hcell⟩
  | inFactory call token since started =>
    have hcell := hcells call.cell (by simp [Pc.guards])
    exact ⟨h.heldToken_now hp.1 hcell, h.heldToken_now hp.2 hcell⟩
  | created call token since result =>
    exact ⟨h.heldToken_now hp.1 (hcells _ (by simp [Pc.guards])), fun client hr => h.created (hp.2 client hr)⟩
  | returning call token since result =>
    exact ⟨h.heldToken_now hp.1 (hcells _ (by simp [Pc.guards])), fun client hr => h.stored (hp.2 client hr)⟩
  | _ => trivial

theorem Later.of_moment (hmoment : s'.moment = s.moment) (htokensAt : s'.tokensAt = s.tokensAt)
    (hcalls : s.factoryCalls ⊆ s'.factoryCalls) (hstored : s.stored ⊆ s'.stored) : Later s s' :=
  ⟨hmoment.ge, fun i _ => by rw [htokensAt], hcalls, hstored⟩

theorem Unwritten.of_moment (hmoment : s'.moment = s.moment) (cell : TokenCell) : Unwritten s s' cell := by
  intro i h1 h2
  omega

/-- A thread with a guard reads what the cell holds now. -/
theorem Sound.heldToken_now (h : s.Sound m) (cell : TokenCell) :
    s.HeldToken cell (s.world.tokens cell) s.moment s.moment := by
  refine ⟨le_refl _, le_refl _, fun i h1 h2 => ?_⟩
  rw [le_antisymm h2 h1, h.tokens]

variable [DecidableEq τ]

/-- What a step of a thread to `p` has to do. -/
theorem Sound.update {p : Pc} (h : s.Sound m) (hlater : Later s s') (hpc : s'.pc = Function.update s.pc t p)
    (hcells : ∀ t' ≠ t, ∀ cell, (LockName.token cell, Mode.shared) ∈ (s.pc t').guards → Unwritten s s' cell)
    (htokens : s'.tokensAt s'.moment = s'.world.tokens)
    (hcached : ∀ key v, (s'.world.clients m).lookup key = some v →
      (s.world.clients m).lookup key = some v ∨ (key, v.value) ∈ s'.stored)
    (hstored : ∀ key client, (key, client) ∈ s'.stored → (key, client) ∈ s.stored ∨ s'.Created key client)
    (hreturned : ∀ r ∈ s'.returned, r ∈ s.returned ∨ s'.ReturnSound r) (hp : s'.ThreadSound p) : s'.Sound m where
  tokens := htokens
  cached key v hl := by
    rcases hcached key v hl with h1 | h1
    · exact hlater.stored (h.cached key v h1)
    · exact h1
  stored key client hmem := by
    rcases hstored key client hmem with h1 | h1
    · exact hlater.created (h.stored key client h1)
    · exact h1
  threads t' := by
    rw [hpc]
    by_cases ht : t' = t
    · subst ht
      rw [Function.update_self]
      exact hp
    · rw [Function.update_of_ne ht]
      exact hlater.threadSound (hcells t' ht) (h.threads t')
  returned r hr := by
    rcases hreturned r hr with h1 | h1
    · exact hlater.returnSound (h.returned r h1)
    · exact h1

/-- A section that adds nothing to the cache of clients. -/
theorem Sound.goto {w : World} {p : Pc} (h : s.Sound m) (hmove : ClientMove m NoClient s.world w)
    (hp : s.ThreadSound p) : Machine.Sound m ({ s with world := w }.goto t p) := by
  refine h.update (.of_moment rfl rfl (List.Subset.refl _) (List.Subset.refl _)) rfl
    (fun _ _ cell _ => .of_moment rfl cell) ?_ ?_ (fun _ _ h => Or.inl h) (fun _ h => Or.inl h) hp
  · exact h.tokens.trans hmove.tokens.symm
  · exact fun key v hl => (hmove.clients key v hl).imp_right False.elim

/-! ## Each step keeps it -/

omit [DecidableEq τ] in
theorem threadSound_start (op : ThreadCall) : s.ThreadSound op.start := by
  cases op with
  | getClient call => obtain ⟨config, _ | cleanupInterval⟩ := call <;> trivial
  | refreshKeyAccessToken config token => trivial

omit [DecidableEq τ] in
theorem threadSound_afterClear (call : GetClient) (interval : Duration) (c : CacheName) :
    s.ThreadSound (call.afterClear interval c) := by
  cases c <;> trivial

omit [DecidableEq τ] in
theorem Sound.acquired (h : s.Sound m) {p : Pc} (hp : s.ThreadSound p) : s.ThreadSound (s.acquired p) := by
  cases p with
  | atReadToken call => exact h.heldToken_now call.cell
  | atGetOrCreate call token since => exact hp
  | atFactory call token since started => exact hp
  | atLastCleanup call interval c => trivial
  | atClear call interval c => trivial
  | atRefresh config token => trivial
  | _ => exact hp

theorem Sound.lastCleanup (h : s.Sound m) (call : GetClient) (interval : Duration) (c : CacheName) :
    (s.lastCleanup env m t call interval c).Sound m := by
  refine h.goto (.of_path (cleanupDue_along env m s.world c interval).path) ?_
  split
  · trivial
  · exact threadSound_afterClear call interval c

theorem Sound.clear (h : s.Sound m) (call : GetClient) (interval : Duration) (c : CacheName) :
    (s.clear env m t call interval c).Sound m := by
  refine h.goto (.of_path (removeExpired_along env m s.world c).path) ?_
  split
  · exact threadSound_afterClear call interval c
  · trivial

/-- A client that is found was stored before. -/
theorem Sound.getOrCreate (h : s.Sound m) {call : GetClient} {token : String} {since : Nat}
    (hheld : s.HeldToken call.cell token since s.moment) : (s.getOrCreate env m t call token since).Sound m := by
  unfold Machine.getOrCreate
  split
  · exact h.goto (.refl _) ⟨hheld, fun client hr => by cases hr⟩
  · have hfind := findValid_along env m s.world (call.key token)
    refine h.goto (.of_path hfind.path) ?_
    split
    · rename_i client hr
      refine ⟨hheld, fun client' hr' => ?_⟩
      cases hr'
      obtain ⟨v, hl, rfl⟩ := hfind.ok _ hr client rfl
      exact h.cached _ v hl
    · refine ⟨hheld, le_refl _, le_refl _, fun i h1 h2 => ?_⟩
      exact hheld.2.2 i (hheld.1.trans h1) h2

/-- The factory reads the token that was read before. -/
theorem Sound.factory (h : s.Sound m) {call : GetClient} {token : String} {since started : Nat}
    (hheld : s.HeldToken call.cell token since s.moment) (hstarted : s.HeldToken call.cell token started s.moment) :
    (s.factory env t call token since started).Sound m := by
  obtain ⟨hmove, hclient⟩ := createClient_move env m s.world call.kmsConnectionConfig
  have hcalls : s.factoryCalls ⊆ (s.factory env t call token since started).factoryCalls := by
    unfold Machine.factory
    simp only [Machine.goto]
    split
    · exact List.subset_append_left _ _
    · exact List.Subset.refl _
  refine h.update (.of_moment rfl rfl hcalls (List.Subset.refl _)) rfl (fun _ _ cell _ => .of_moment rfl cell)
    (h.tokens.trans hmove.tokens.symm) (fun key v hl => (hmove.clients key v hl).imp_right False.elim)
    (fun _ _ h => Or.inl h) (fun _ h => Or.inl h) ⟨hheld, fun client hr => ?_⟩
  have htoken : s.world.tokens call.cell = token := by
    rw [← h.tokens]
    exact hheld.2.2 s.moment hheld.1 (le_refl _)
  refine ⟨?_, FactoryCall.mk call.kmsConnectionConfig client started s.moment, ?_, rfl, rfl, hstarted⟩
  · rw [hclient client hr]
    exact htoken
  · unfold Machine.factory
    simp only [Machine.goto, hr]
    exact List.mem_append_right _ (List.mem_singleton.mpr rfl)

/-- What is stored was created. -/
theorem Sound.storeClient (h : s.Sound m) {call : GetClient} {token : String} {since : Nat}
    {result : Outcome ParquetError KmsClient} (hheld : s.HeldToken call.cell token since s.moment)
    (hcreated : ∀ client, result = .ok client → s.Created (call.key token) client) :
    (s.storeClient env m t call token since result).Sound m := by
  obtain ⟨hmove, hresult⟩ := storeResult_move env m s.world (call.key token) call.cacheLifetime result
  have hsubset : s.stored ⊆ (s.storeClient env m t call token since result).stored := by
    unfold Machine.storeClient
    simp only [Machine.goto]
    split
    · exact List.subset_append_left _ _
    · exact List.Subset.refl _
  have hlater : Later s (s.storeClient env m t call token since result) :=
    .of_moment rfl rfl (List.Subset.refl _) hsubset
  -- what the section returns has been stored
  have hmem : ∀ client, (held (cacheLock (clientCachePlace m))
      (Eff.ofOutcome result >>= ExpiringCache.store env (clientCachePlace m) (call.key token) call.cacheLifetime)
        s.world).1 = .ok client →
      (call.key token, client) ∈ (s.storeClient env m t call token since result).stored := by
    intro client hr
    unfold Machine.storeClient
    simp only [Machine.goto, hr]
    exact List.mem_append_right _ (List.mem_singleton.mpr rfl)
  refine h.update hlater rfl (fun _ _ cell _ => .of_moment rfl cell) (h.tokens.trans hmove.tokens.symm)
    (fun key v hl => ?_) (fun key client hin => ?_) (fun _ h => Or.inl h) ⟨hheld, hmem⟩
  · rcases hmove.clients key v hl with h1 | ⟨rfl, hr⟩
    · exact Or.inl h1
    · exact Or.inr (hmem v.value hr)
  · unfold Machine.storeClient at hin
    simp only [Machine.goto] at hin
    split at hin
    · rename_i client' hr
      rcases List.mem_append.mp hin with hin | hin
      · exact Or.inl hin
      · cases List.mem_singleton.mp hin
        exact Or.inr (hlater.created (hcreated client (hresult client hr).1))
    · exact Or.inl hin

theorem Sound.finish (h : s.Sound m) {call : GetClient} {token : String} {since : Nat}
    {result : Outcome ParquetError KmsClient} (hheld : s.HeldToken call.cell token since s.moment)
    (hstored : ∀ client, result = .ok client → (call.key token, client) ∈ s.stored) :
    (s.finish t call since result).Sound m := by
  refine h.update (.of_moment rfl rfl (List.Subset.refl _) (List.Subset.refl _)) rfl
    (fun _ _ cell _ => .of_moment rfl cell) h.tokens (fun _ _ h => Or.inl h) (fun _ _ h => Or.inl h) (fun r hr => ?_)
    trivial
  rcases List.mem_append.mp hr with hr | hr
  · exact Or.inl hr
  · obtain rfl := List.mem_singleton.mp hr
    exact Or.inr fun client hresult => ⟨token, hheld, hstored client hresult⟩

/-- A token is written while nobody else holds a guard of its cell. -/
theorem Sound.refresh (h : s.Sound m) {config : KmsConnectionConfig} {token : String}
    (hothers : ∀ t' ≠ t, (LockName.token config.keyAccessToken, Mode.shared) ∉ (s.pc t').guards) :
    (s.refresh t config token).Sound m := by
  have hlater : Later s (s.refresh t config token) := by
    refine ⟨Nat.le_succ _, fun i hi => ?_, List.Subset.refl _, List.Subset.refl _⟩
    exact Function.update_of_ne (Nat.lt_succ_of_le hi).ne _ _
  refine h.update hlater rfl (fun t' ht cell hguard i h1 h2 => ?_) (Function.update_self ..) (fun _ _ h => Or.inl h)
    (fun _ _ h => Or.inl h) (fun _ h => Or.inl h) trivial
  have hcell : cell ≠ config.keyAccessToken := by
    intro heq
    subst heq
    exact hothers t' ht hguard
  obtain rfl : i = s.moment + 1 := le_antisymm h2 h1
  show Function.update s.tokensAt (s.moment + 1) _ (s.moment + 1) cell = _
  rw [Function.update_self, h.tokens]
  exact Function.update_of_ne hcell _ _

/-- A step keeps the invariant, when no cell is held by a writer and a reader at once. -/
theorem Step.sound (hstep : s.Step env m t s') (hexclusion : Exclusion discipline s.pc) (h : s.Sound m) :
    s'.Sound m := by
  have hthread := h.threads t
  cases hstep with
  | start op todo hidle htodo =>
    have hs : Machine.Sound m { s with todo := Function.update s.todo t todo } :=
      ⟨h.tokens, h.cached, h.stored, h.threads, h.returned⟩
    exact hs.goto (.refl _) (threadSound_start op)
  | acquire l mode hwants hadmits => exact h.goto (.refl _) (h.acquired hthread)
  | advance hidle hwants =>
    unfold Machine.advance
    cases hpc : s.pc t with
    | inLastCleanup call interval c => exact h.lastCleanup call interval c
    | inClear call interval c => exact h.clear call interval c
    | inGetOrCreate call token since =>
      rw [hpc] at hthread
      exact h.getOrCreate hthread
    | inFactory call token since started =>
      rw [hpc] at hthread
      exact h.factory hthread.1 hthread.2
    | created call token since result =>
      rw [hpc] at hthread
      exact h.storeClient hthread.1 hthread.2
    | returning call token since result =>
      rw [hpc] at hthread
      exact h.finish hthread.1 hthread.2
    | inRefresh config token =>
      refine h.refresh fun t' ht hguard => ht ?_
      refine (hexclusion t t' (.token config.keyAccessToken) .shared ?_ hguard).symm
      show _ ∈ (s.pc t).guards
      rw [hpc]
      exact List.mem_singleton.mpr rfl
    | _ => exact h

theorem sound {P : Machine τ → τ → Prop} (h : Reach env m P s) : s.Sound m := by
  induction h with
  | init w todo hclients =>
    refine ⟨rfl, fun key v hl => ?_, fun _ _ h => ?_, fun _ => trivial, fun _ h => ?_⟩
    · change (w.clients m).lookup key = some v at hl
      rw [hclients] at hl
      cases hl
    · cases h
    · cases h
  | step t hreach hstep _ ih => exact hstep.sound (exclusion hreach) ih

theorem getOrCreate_stored (call : GetClient) (token : String) (since : Nat) :
    (s.getOrCreate env m t call token since).stored = s.stored := by
  unfold Machine.getOrCreate
  split
  · rfl
  · rfl

theorem storeClient_stored (call : GetClient) (token : String) (since : Nat) (result : Outcome ParquetError KmsClient) :
    (s.storeClient env m t call token since result).stored = s.stored ∨
      ∃ key client, (s.storeClient env m t call token since result).stored = s.stored ++ [(key, client)] ∧
        Cached m key client (s.storeClient env m t call token since result).world := by
  obtain ⟨_, hresult⟩ := storeResult_move env m s.world (call.key token) call.cacheLifetime result
  cases hr : (held (cacheLock (clientCachePlace m))
      (Eff.ofOutcome result >>= ExpiringCache.store env (clientCachePlace m) (call.key token) call.cacheLifetime)
        s.world).1 with
  | ok client =>
    refine Or.inr ⟨call.key token, client, ?_, (hresult client hr).2⟩
    simp only [Machine.storeClient, Machine.goto, hr]
  | err e =>
    refine Or.inl ?_
    simp only [Machine.storeClient, Machine.goto, hr]
  | panic =>
    refine Or.inl ?_
    simp only [Machine.storeClient, Machine.goto, hr]

/-- The history of what was stored is that of the cache: a step adds to it what is in the cache
    under its key when the step ends. -/
theorem Step.stored (hstep : s.Step env m t s') :
    s'.stored = s.stored ∨ ∃ key client, s'.stored = s.stored ++ [(key, client)] ∧ Cached m key client s'.world := by
  cases hstep with
  | start op todo hidle htodo => exact Or.inl rfl
  | acquire l mode hwants hadmits => exact Or.inl rfl
  | advance hidle hwants =>
    unfold Machine.advance
    cases s.pc t with
    | inGetOrCreate call token since => exact Or.inl (getOrCreate_stored call token since)
    | created call token since result => exact storeClient_stored call token since result
    | _ => exact Or.inl rfl

/-- In every state of every run: a cached client was stored under its key; a stored one is of a
    factory call on a configuration with the key's instance id, whose token was the key's as
    long as that call lasted; and a client that a `get_client` returned was stored under the
    token its configuration had from when the call read it until it ended, and under its
    instance id. To have been stored is to have been cached when the call that stored it
    released the cache. -/
theorem clients_sound {P : Machine τ → τ → Prop} (h : Reach env m P s) :
    (∀ key v, (s.world.clients m).lookup key = some v → (key, v.value) ∈ s.stored) ∧
      (∀ t s', s.Step env m t s' → s'.stored = s.stored ∨
        ∃ key client, s'.stored = s.stored ++ [(key, client)] ∧ Cached m key client s'.world) ∧
      (∀ key client, (key, client) ∈ s.stored → s.Created key client) ∧
      ∀ r ∈ s.returned, ∀ client, r.result = .ok client → ∃ token,
        s.HeldToken r.kmsConnectionConfig.keyAccessToken token r.readAt r.ended ∧
          (ClientKey.mk token r.kmsConnectionConfig.kmsInstanceId, client) ∈ s.stored :=
  ⟨(sound h).cached, fun _ _ hstep => hstep.stored, (sound h).stored, (sound h).returned⟩

/-- A client is returned, and then the token it was stored under is replaced. -/
theorem clients_sound_sample :
    ∃ (s : Machine Bool) (client : KmsClient), s.world.tokens 0 = "NEW" ∧
      s.returned = [ClientReturn.mk sampleConfig (.ok client) 0 0] ∧
      ∃ token, s.HeldToken 0 token 0 0 ∧ (ClientKey.mk token "instance", client) ∈ s.stored := by
  have h0 : Reach Env.sample 0 (fun _ _ => True) sampleThreads := .init _ _ rfl
  have h1 := h0.step false (.start (.getClient sampleCall) [] rfl rfl) trivial
  have h2 := h1.step false (.acquire (.token 0) .shared rfl fun t => by cases t <;> decide) trivial
  have h3 :=
    h2.step false (.acquire (.cache .kmsClients) .exclusive rfl fun t mode => by cases t <;> cases mode <;> decide)
    trivial
  have h4 := h3.step false (.advance (fun h => by cases h) rfl) trivial
  have h5 := h4.step false (.acquire (.token 0) .shared rfl fun t => by cases t <;> decide) trivial
  have h6 := h5.step false (.advance (fun h => by cases h) rfl) trivial
  have h7 := h6.step false (.advance (fun h => by cases h) rfl) trivial
  have h8 := h7.step false (.advance (fun h => by cases h) rfl) trivial
  have h9 := h8.step true (.start (.refreshKeyAccessToken sampleConfig "NEW") [] rfl rfl) trivial
  have h10 := h9.step true (.acquire (.token 0) .exclusive rfl fun t mode => by cases t <;> cases mode <;> decide)
    trivial
  have h11 := h10.step true (.advance (fun h => by cases h) rfl) trivial
  exact ⟨_, _, rfl, rfl, (clients_sound h11).2.2.2 _ (List.mem_singleton.mpr rfl) _ rfl⟩

end Machine

end ParquetKeyManagement
