/-
  ParquetKeyManagement.Kms.Deadlock — when creating a client and refreshing its token
  deadlock.

  `get_client` holds the read guard of its token while the client factory reads the token
  again. A refresh that waits for the write lock in between may hold up that second read, and
  is itself held up by the first one's guard; the cache of clients stays locked. So the two
  must be kept `Apart`: no refresh begins to wait while the factory has yet to read its token,
  and the factory is not called while a refresh waits.
  - `getClient_deadlock_free`: nothing else can deadlock.
  - `not_apart`, `stuck`: whenever they meet, neither of the two calls ever ends, if waiting
    writers do hold up readers.
  - `getClient_deadlocks`: the shortest run into it.
-/

import ParquetKeyManagement.Kms.Threads

namespace ParquetKeyManagement

open Effect Locks

/-! ## An order of waiting -/

/-- Blocked threads wait for threads of lower rank. -/
def Pc.rank : Pc → Nat
  | .atReadToken _ => 4
  | .atRefresh _ _ => 3
  | .atGetOrCreate _ _ _ => 2
  | .atClear _ _ _ => 2
  | .atFactory _ _ _ _ => 1
  | .atLastCleanup _ _ _ => 1
  | _ => 0

/-- The highest rank at which the lock is held. -/
def LockName.rank : LockName → Nat
  | .lastCleanup _ => 0
  | .cache _ => 1
  | .token _ => 2

theorem Pc.rank_le_of_guard {p : Pc} {l : LockName} {mode : Mode} (h : (l, mode) ∈ p.guards) : p.rank ≤ l.rank := by
  cases p with
  | atGetOrCreate call token since =>
    obtain rfl : l = .token call.cell := congrArg Prod.fst (List.mem_singleton.mp h)
    exact le_refl _
  | atFactory call token since started =>
    rcases List.mem_cons.mp h with h | h
    · cases h
      exact le_refl _
    · obtain rfl : l = .token call.cell := congrArg Prod.fst (List.mem_singleton.mp h)
      exact Nat.le_succ _
  | inLastCleanup call interval c => exact Nat.zero_le _
  | inClear call interval c => exact Nat.zero_le _
  | inGetOrCreate call token since => exact Nat.zero_le _
  | inFactory call token since started => exact Nat.zero_le _
  | created call token since result => exact Nat.zero_le _
  | returning call token since result => exact Nat.zero_le _
  | inRefresh config token => exact Nat.zero_le _
  | _ => cases h

theorem Pc.lt_rank_of_wants {p : Pc} {l : LockName} (h : p.wants = some (l, .exclusive)) : l.rank < p.rank := by
  cases p with
  | atLastCleanup call interval c => cases h; exact Nat.zero_lt_one
  | atClear call interval c => cases h; exact Nat.one_lt_two
  | atGetOrCreate call token since => cases h; exact Nat.one_lt_two
  | atRefresh config token => cases h; exact Nat.lt_succ_self _
  | _ => cases h

/-- Only a refresh asks for a token's cell exclusively. -/
theorem Pc.of_wants_token {p : Pc} {cell : TokenCell} (h : p.wants = some (.token cell, .exclusive)) :
    ∃ config token, p = .atRefresh config token ∧ config.keyAccessToken = cell := by
  cases p with
  | atRefresh config token => cases h; exact ⟨config, token, rfl, rfl⟩
  | _ => cases h

/-- A token's cell is asked for shared before it is read, and in the factory. -/
theorem Pc.of_wants_shared {p : Pc} {l : LockName} (h : p.wants = some (l, .shared)) :
    ∃ call, l = .token call.cell ∧
    (p = .atReadToken call ∨ ∃ token since started, p = .atFactory call token since started) := by
  cases p with
  | atReadToken call => cases h; exact ⟨call, rfl, Or.inl rfl⟩
  | atFactory call token since started => cases h; exact ⟨call, rfl, Or.inr ⟨token, since, started, rfl⟩⟩
  | _ => cases h

namespace Machine

variable (env : Env) {τ : Type} [DecidableEq τ] (m : ManagerId) (s : Machine τ)

/-! ## Keeping the two apart -/

/-- A client factory has been called, and has yet to read the token in the cell. -/
def FactoryPending (cell : TokenCell) : Prop :=
  ∃ t call token since started, s.pc t = .atFactory call token since started ∧ call.cell = cell

/-- A refresh waits for the cell. -/
def RefreshPending (cell : TokenCell) : Prop := Awaited discipline s.pc (.token cell)

/-- The cache of clients is fine, and holds no valid client for the call. -/
def NoValidClient (call : GetClient) (token : String) : Prop :=
  ((cacheLock (clientCachePlace m)).get s.world).poisoned = false ∧
    ∀ client, (ExpiringCache.findValid env (clientCachePlace m) (call.key token) s.world).1 ≠ .ok (some client)

/-- What must not happen in the next step of `t`: that a refresh begins to wait while a factory
    has yet to read the token, or a factory is called while a refresh waits. -/
structure Apart (t : τ) : Prop where
  refresh : ∀ config token todo, s.pc t = .idle → s.todo t = .refreshKeyAccessToken config token :: todo →
    ¬ s.FactoryPending config.keyAccessToken
  factory : ∀ call token since, s.pc t = .inGetOrCreate call token since → s.NoValidClient env m call token →
    ¬ s.RefreshPending call.cell

/-- No factory has to read a token that a refresh waits for. -/
def Calm : Prop := ∀ cell, s.FactoryPending cell → ¬ s.RefreshPending cell

section

variable {env m s} {s' : Machine τ} {t : τ}

theorem getOrCreate_missing {call call' : GetClient} {token token' : String} {since since' started : Nat}
    (h : (s.getOrCreate env m t call token since).pc t = .atFactory call' token' since' started) :
    s.NoValidClient env m call token := by
  unfold getOrCreate at h
  by_cases hp : ((cacheLock (clientCachePlace m)).get s.world).poisoned = true
  · rw [if_pos hp, goto_pc_self] at h
    cases h
  · rw [if_neg hp] at h
    refine ⟨Bool.eq_false_iff.mpr hp, fun client hfound => ?_⟩
    simp only [hfound, goto_pc_self] at h
    cases h

theorem getOrCreate_of_noValidClient {call : GetClient} {token : String} {since : Nat}
    (h : s.NoValidClient env m call token) :
    (s.getOrCreate env m t call token since).pc t = .atFactory call token since s.moment := by
  unfold getOrCreate
  rw [if_neg (by simp [h.1]), goto_pc_self]
  split
  · rename_i client hfound
    exact absurd hfound (h.2 client)
  · rfl

/-- A thread is at the factory after it found no valid client. -/
theorem Step.atFactory (h : s.Step env m t s') {call : GetClient} {token : String} {since started : Nat}
    (hpc : s'.pc t = .atFactory call token since started) :
    s.pc t = .inGetOrCreate call token since ∧ s.NoValidClient env m call token := by
  cases h with
  | start op todo hidle htodo =>
    rw [goto_pc_self] at hpc
    have hguards := guards_start op
    rw [hpc] at hguards
    cases hguards
  | acquire l mode hwants hadmits =>
    rw [goto_pc_self] at hpc
    have hguards := guards_acquired (s := s) hwants
    cases hp : s.pc t with
    | atReadToken call => rw [hp] at hpc; cases hpc
    | atGetOrCreate call token since => rw [hp] at hpc; cases hpc
    | atFactory call token since started => rw [hp] at hpc; cases hpc
    | atLastCleanup call interval c => rw [hp] at hpc; cases hpc
    | atClear call interval c => rw [hp] at hpc; cases hpc
    | atRefresh config token => rw [hp] at hpc; cases hpc
    | _ => rw [hp] at hwants; cases hwants
  | advance hidle hwants =>
    obtain ⟨p, hleads, hupdate, _⟩ := advance_leads env m hidle hwants
    have hp : p = .atFactory call token since started := by
      rw [← hpc, hupdate, Function.update_self]
    subst hp
    have hfrom := hleads.of_atFactory
    refine ⟨hfrom, ?_⟩
    unfold Machine.advance at hpc
    rw [hfrom] at hpc
    exact getOrCreate_missing hpc

/-- A thread waits to refresh after it began to. -/
theorem Step.atRefresh (h : s.Step env m t s') {cell : TokenCell}
    (hpc : (s'.pc t).wants = some (.token cell, .exclusive)) :
    s.pc t = .idle ∧ ∃ config token todo, s.todo t = .refreshKeyAccessToken config token :: todo ∧
      config.keyAccessToken = cell := by
  obtain ⟨config, token, hpc, hcell⟩ := Pc.of_wants_token hpc
  cases h with
  | start op todo hidle htodo =>
    rw [goto_pc_self] at hpc
    cases op with
    | getClient call =>
      obtain ⟨c, _ | cleanupInterval⟩ := call <;> cases hpc
    | refreshKeyAccessToken config' token' =>
      cases hpc
      exact ⟨hidle, config, token, todo, htodo, hcell⟩
  | acquire l mode hwants hadmits =>
    rw [goto_pc_self] at hpc
    have hguards := guards_acquired (s := s) hwants
    rw [hpc] at hguards
    cases hguards
  | advance hidle hwants =>
    obtain ⟨p, hleads, hupdate, _⟩ := advance_leads env m hidle hwants
    have hp : p = .atRefresh config token := by
      rw [← hpc, hupdate, Function.update_self]
    subst hp
    exact absurd hleads Pc.Leads.not_atRefresh

theorem Step.calm (h : s.Step env m t s') (hapart : s.Apart env m t) (hcalm : s.Calm) : s'.Calm := by
  rintro cell ⟨t0, call, token, since, started, hfactory, rfl⟩ ⟨t1, hrefresh⟩
  change (s'.pc t1).wants = _ at hrefresh
  by_cases h0 : t0 = t
  · subst h0
    obtain ⟨hpc, hnone⟩ := h.atFactory hfactory
    -- the refresh waited already
    have h1 : t1 ≠ t0 := by
      intro heq
      subst heq
      rw [hfactory] at hrefresh
      cases hrefresh
    rw [h.pc_of_ne h1] at hrefresh
    exact hapart.factory call token since hpc hnone ⟨t1, hrefresh⟩
  · rw [h.pc_of_ne h0] at hfactory
    by_cases h1 : t1 = t
    · subst h1
      obtain ⟨hidle, config, token', todo, htodo, hcell⟩ := h.atRefresh hrefresh
      exact hapart.refresh config token' todo hidle htodo ⟨t0, call, token, since, started, hfactory, hcell.symm⟩
    · rw [h.pc_of_ne h1] at hrefresh
      exact hcalm call.cell ⟨t0, call, token, since, started, hfactory, rfl⟩ ⟨t1, hrefresh⟩

theorem calm (h : Reach env m (fun s t => s.Apart env m t) s) : s.Calm := by
  induction h with
  | init w todo _ => rintro cell ⟨t, call, token, since, started, hpc, _⟩; cases hpc
  | step t _ hstep hapart ih => exact hstep.calm hapart ih

/-! ## No deadlock -/

/-- As long as refreshes and client factories are kept apart, some unfinished thread is not
    blocked. -/
theorem getClient_deadlock_free (h : Reach env m (fun s t => s.Apart env m t) s) :
    ¬ Deadlocked discipline s.pc s.Finished := by
  refine not_deadlocked Pc.rank fun t hblocked => ?_
  obtain ⟨l, mode, hwants, hwhy⟩ := blocked_iff.mp hblocked
  change (s.pc t).wants = some (l, mode) at hwants
  have hholder : ∀ t' mode', (l, mode') ∈ (s.pc t').guards → ¬ s.Finished t' ∧ (s.pc t').rank ≤ l.rank := by
    intro t' mode' hguard
    refine ⟨fun hdone => ?_, Pc.rank_le_of_guard hguard⟩
    rw [hdone.1] at hguard
    cases hguard
  cases mode with
  | exclusive =>
    rcases hwhy with ⟨t', mode', hguard, _⟩ | ⟨hshared, _⟩
    · obtain ⟨hdone, hrank⟩ := hholder t' mode' hguard
      exact ⟨t', hdone, lt_of_le_of_lt hrank (Pc.lt_rank_of_wants hwants)⟩
    · cases hshared
  | shared =>
    obtain ⟨call, rfl, hpc | ⟨token, since, started, hpc⟩⟩ := Pc.of_wants_shared hwants
    · rw [hpc]
      rcases hwhy with ⟨t', mode', hguard, _⟩ | ⟨_, t', hwaits⟩
      · obtain ⟨hdone, hrank⟩ := hholder t' mode' hguard
        exact ⟨t', hdone, lt_of_le_of_lt hrank (show 2 < 4 by decide)⟩
      · obtain ⟨config, token, hrefresh, _⟩ := Pc.of_wants_token hwaits
        refine ⟨t', fun hdone => ?_, ?_⟩
        · rw [hdone.1] at hrefresh
          cases hrefresh
        · rw [hrefresh]
          exact show 3 < 4 by decide
    · exfalso
      rcases hwhy with ⟨t', mode', hguard, hmode⟩ | ⟨_, hwaits⟩
      · -- the thread's own read guard keeps writers out
        rw [hmode rfl] at hguard
        have hown : (LockName.token call.cell, Mode.shared) ∈ (s.pc t).guards := by
          rw [hpc]
          exact List.mem_cons_of_mem _ (List.mem_singleton.mpr rfl)
        obtain rfl := exclusion h t' t _ _ hguard hown
        change _ ∈ (s.pc t').guards at hguard
        rw [hpc] at hguard
        simp [Pc.guards] at hguard
      · exact calm h call.cell ⟨t, call, token, since, started, hpc, rfl⟩ hwaits

/-! ## Without keeping them apart -/

/-- A step that does not keep them apart brings a factory and a refresh together. -/
theorem not_apart (h : s.Step env m t s') (hn : ¬ s.Apart env m t) :
    ∃ t0 t1 call token since started, s'.pc t0 = .atFactory call token since started ∧
      (s'.pc t1).wants = some (.token call.cell, .exclusive) := by
  by_cases hr : ∃ config token todo, s.pc t = .idle ∧ s.todo t = .refreshKeyAccessToken config token :: todo ∧
      s.FactoryPending config.keyAccessToken
  · obtain ⟨config, token, todo, hidle, htodo, t0, call, token', since, started, hpc, hcell⟩ := hr
    have hne : t0 ≠ t := by
      intro heq
      subst heq
      rw [hidle] at hpc
      cases hpc
    refine ⟨t0, t, call, token', since, started, (h.pc_of_ne hne).trans hpc, ?_⟩
    cases h with
    | start op todo' _ htodo' =>
      rw [htodo] at htodo'
      cases htodo'
      rw [goto_pc_self, hcell]
      rfl
    | acquire l mode hwants _ => rw [hidle] at hwants; cases hwants
    | advance hne _ => exact absurd hidle hne
  · by_cases hf : ∃ call token since, s.pc t = .inGetOrCreate call token since ∧ s.NoValidClient env m call token ∧
        s.RefreshPending call.cell
    · obtain ⟨call, token, since, hpc, hnone, t1, hwaits⟩ := hf
      have hne : t1 ≠ t := by
        intro heq
        subst heq
        change (s.pc t1).wants = _ at hwaits
        rw [hpc] at hwaits
        cases hwaits
      refine ⟨t, t1, call, token, since, s.moment, ?_, ?_⟩
      · cases h with
        | start op todo hidle _ => rw [hpc] at hidle; cases hidle
        | acquire l mode hwants _ => rw [hpc] at hwants; cases hwants
        | advance _ _ =>
          unfold Machine.advance
          rw [hpc]
          exact getOrCreate_of_noValidClient hnone
      · rw [h.pc_of_ne hne]
        exact hwaits
    · exfalso
      refine hn ⟨fun config token todo hidle htodo hpending => hr ⟨config, token, todo, hidle, htodo, hpending⟩, ?_⟩
      exact fun call token since hpc hnone hpending => hf ⟨call, token, since, hpc, hnone, hpending⟩

omit [DecidableEq τ] in
/-- A factory and a refresh that have met block each other. -/
theorem both_blocked {t0 t1 : τ} {call : GetClient} {token : String} {since started : Nat}
    (h0 : s.pc t0 = .atFactory call token since started) (h1 : (s.pc t1).wants = some (.token call.cell, .exclusive)) :
    Blocked discipline s.pc t0 ∧ Blocked discipline s.pc t1 := by
  constructor
  · refine ⟨.token call.cell, .shared, ?_, Or.inr ⟨rfl, t1, h1⟩⟩
    show (s.pc t0).wants = _
    rw [h0]
    rfl
  · refine blocked_iff.mpr ⟨.token call.cell, .exclusive, h1, Or.inl ⟨t0, .shared, ?_, fun h => h.symm⟩⟩
    show _ ∈ (s.pc t0).guards
    rw [h0]
    exact List.mem_cons_of_mem _ (List.mem_singleton.mpr rfl)

/-- Steps with locks that hold up readers while a writer waits. -/
def UnblockedStep (env : Env) (m : ManagerId) (s s' : Machine τ) : Prop :=
  ∃ t, ¬ Blocked discipline s.pc t ∧ s.Step env m t s'

/-- Where a factory has yet to read a token that a refresh waits for, neither call ever ends. -/
theorem stuck {t0 t1 : τ} {call : GetClient} {token : String} {since started : Nat}
    (h : Relation.ReflTransGen (UnblockedStep env m) s s') (h0 : s.pc t0 = .atFactory call token since started)
    (h1 : (s.pc t1).wants = some (.token call.cell, .exclusive)) : s'.pc t0 = s.pc t0 ∧ s'.pc t1 = s.pc t1 := by
  induction h with
  | refl => exact ⟨rfl, rfl⟩
  | tail _ hstep ih =>
    obtain ⟨t, hfree, hstep⟩ := hstep
    obtain ⟨ih0, ih1⟩ := ih
    obtain ⟨hb0, hb1⟩ := both_blocked (ih0.trans h0) (by rw [ih1, h1])
    have hne0 : t0 ≠ t := fun h => hfree (h ▸ hb0)
    have hne1 : t1 ≠ t := fun h => hfree (h ▸ hb1)
    exact ⟨(hstep.pc_of_ne hne0).trans ih0, (hstep.pc_of_ne hne1).trans ih1⟩

end

/-! ## Two threads -/

/-- The first thread is in the client factory, and the second has not begun. -/
theorem sample_atFactory :
    ∃ s : Machine Bool, Reach Env.sample 0 (fun s t => s.Apart Env.sample 0 t) s ∧
      s.pc false = .atFactory sampleCall "DEFAULT" 0 0 ∧ s.pc true = .idle ∧
      s.todo true = [.refreshKeyAccessToken sampleConfig "NEW"] := by
  -- while the second thread is idle, nothing the first one does can meet a refresh
  have hapart : ∀ s : Machine Bool, s.pc true = .idle → (∀ config token todo, s.pc false = .idle →
      s.todo false ≠ .refreshKeyAccessToken config token :: todo) → s.Apart Env.sample 0 false := by
    intro s htrue htodo
    refine ⟨fun config token todo hidle h => absurd h (htodo config token todo hidle), ?_⟩
    rintro call token since hpc _ ⟨t, hwaits⟩
    change (s.pc t).wants = _ at hwaits
    cases t
    · rw [hpc] at hwaits
      cases hwaits
    · rw [htrue] at hwaits
      cases hwaits
  have h0 : Reach Env.sample 0 (fun s t => s.Apart Env.sample 0 t) sampleThreads := .init _ _ rfl
  have h1 := h0.step false (.start (.getClient sampleCall) [] rfl rfl) (hapart _ rfl (by simp [sampleThreads, init]))
  have h2 := h1.step false (.acquire (.token 0) .shared rfl fun t => by cases t <;> decide)
    (hapart _ rfl fun _ _ _ h => by cases h)
  have h3 :=
    h2.step false (.acquire (.cache .kmsClients) .exclusive rfl fun t mode => by cases t <;> cases mode <;> decide)
    (hapart _ rfl fun _ _ _ h => by cases h)
  have h4 := h3.step false (.advance (fun h => by cases h) rfl) (hapart _ rfl fun _ _ _ h => by cases h)
  exact ⟨_, h4, rfl, rfl, rfl⟩

/-- With the factory called and no refresh waiting, nothing is deadlocked. -/
theorem getClient_deadlock_free_sample :
    ∃ s : Machine Bool, s.pc false = .atFactory sampleCall "DEFAULT" 0 0 ∧
      ¬ Deadlocked discipline s.pc s.Finished := by
  obtain ⟨s, h, hpc, _⟩ := sample_atFactory
  exact ⟨s, hpc, getClient_deadlock_free h⟩

/-- If it begins to refresh the token there, both threads wait for each other. -/
theorem getClient_deadlocks :
    ∃ s : Machine Bool, Reach Env.sample 0 (fun _ _ => True) s ∧ Deadlocked discipline s.pc s.Finished := by
  obtain ⟨s, h, hfactory, hidle, htodo⟩ := sample_atFactory
  have hreach := (h.mono fun _ _ _ => trivial).step (P := fun _ _ => True) true (.start _ _ hidle htodo) trivial
  refine ⟨_, hreach, ?_⟩
  have hpc : ({ s with todo := Function.update s.todo true [] }.goto true
      (.atRefresh sampleConfig "NEW") : Machine Bool).pc false = .atFactory sampleCall "DEFAULT" 0 0 :=
    (goto_pc_of_ne _ _ _ Bool.false_ne_true).trans hfactory
  have hwants : (({ s with todo := Function.update s.todo true [] }.goto true
      (.atRefresh sampleConfig "NEW") : Machine Bool).pc true).wants = some (.token sampleCall.cell, .exclusive) := by
    rw [goto_pc_self]
    rfl
  obtain ⟨hblocked, hblocked'⟩ := both_blocked hpc hwants
  refine ⟨⟨false, fun hdone => ?_⟩, fun t _ => ?_⟩
  · have := hdone.1.symm.trans hpc
    cases this
  · cases t
    · exact hblocked
    · exact hblocked'

end Machine

end ParquetKeyManagement
