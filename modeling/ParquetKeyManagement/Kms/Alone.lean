/-
  ParquetKeyManagement.Kms.Alone — a thread that nobody disturbs does, section by section,
  what its call does in one piece.

  While no other thread holds a lock, every lock a thread asks for is admitted, and its call
  ends in the state, and with the result, of `KmsManager.getClient` (`getClient_alone`) or of
  `refreshKeyAccessToken` (`refresh_alone`). So the sections that the threads are
  interleaved at are those of the sequential functions, and nothing is lost between them.
-/

import ParquetKeyManagement.Kms.Sections

namespace ParquetKeyManagement

open Effect Locks

/-- The rest of a section depends on what it did so far through its result. -/
theorem held_bind {α β γ : Type} (place : Place World (Mutex γ)) (x : Call α) (f : α → Call β) (w : World) :
    held place (x >>= f) w = held place (Eff.ofOutcome (x w).1 >>= f) (x w).2 := by
  unfold held
  rw [bind_run x, bind_run (Eff.ofOutcome _)]
  rcases x w with ⟨a | e | _, w'⟩ <;> rfl

/-- `clear_expired` of one of the caches. -/
def CacheName.clearExpired (env : Env) (m : ManagerId) : CacheName → Duration → Call Unit
  | .kmsClients => ExpiringCache.clearExpired env (clientCachePlace m)
  | .kekReadCaches => ExpiringCache.clearExpired env (readCachesPlace m)
  | .kekWriteCaches => ExpiringCache.clearExpired env (writeCachesPlace m)

theorem CacheName.clearExpired_eq (env : Env) (m : ManagerId) (c : CacheName) (interval : Duration) :
    c.clearExpired env m interval = (do
      let due ← c.cleanupDue env m interval
      if due then c.removeExpired env m else pure ()) := by
  cases c with
  | kmsClients => exact ExpiringCache.clearExpired_eq env (clientCachePlace m) interval
  | kekReadCaches => exact ExpiringCache.clearExpired_eq env (readCachesPlace m) interval
  | kekWriteCaches => exact ExpiringCache.clearExpired_eq env (writeCachesPlace m) interval

namespace Machine

variable {env : Env} {m : ManagerId} {τ : Type} [DecidableEq τ] {s s' : Machine τ} {t : τ}

/-- No other thread holds a lock. -/
def Undisturbed (s : Machine τ) (t : τ) : Prop := ∀ t' ≠ t, (s.pc t').guards = []

theorem Step.undisturbed (hstep : s.Step env m t s') (h : s.Undisturbed t) : s'.Undisturbed t := by
  intro t' ht
  rw [hstep.pc_of_ne ht]
  exact h t' ht

omit [DecidableEq τ] in
/-- A lock that the thread does not hold itself is admitted. -/
theorem Undisturbed.admits (h : s.Undisturbed t) {l : LockName} (mode : Mode)
    (hown : ∀ mode', (l, mode') ∈ (s.pc t).guards → mode = .shared ∧ mode' = .shared) :
    Admits discipline s.pc l mode := by
  have hall : ∀ t' mode', (l, mode') ∈ (s.pc t').guards → mode = .shared ∧ mode' = .shared := by
    intro t' mode' hguard
    by_cases ht : t' = t
    · subst ht
      exact hown mode' hguard
    · rw [h t' ht] at hguard
      cases hguard
  cases mode with
  | exclusive =>
    intro t' mode' hguard
    cases (hall t' mode' hguard).1
  | shared =>
    intro t' hguard
    cases (hall t' .exclusive hguard).2

/-- The thread's steps lead to the end of its call, with this outcome. A call that panics returns
    nothing. -/
def Ends (env : Env) (m : ManagerId) (s : Machine τ) (t : τ) (call : GetClient)
    (out : Outcome ParquetError KmsClient × World) : Prop :=
  ∃ s', Relation.ReflTransGen (fun a b => a.Step env m t b) s s' ∧ s'.pc t = .idle ∧ s'.world = out.2 ∧
    (out.1 = .panic ∨ s'.returned = s.returned ++ [ClientReturn.mk call.kmsConnectionConfig out.1 s.moment s.moment])

variable {call : GetClient} {token : String} {since started : Nat} {result : Outcome ParquetError KmsClient}
  {out : Outcome ParquetError KmsClient × World}

theorem Ends.of_step (hstep : s.Step env m t s') (hreturned : s'.returned = s.returned) (hmoment : s'.moment = s.moment)
    (h : s'.Ends env m t call out) : s.Ends env m t call out := by
  obtain ⟨s'', hsteps, hpc, hworld, hout⟩ := h
  rw [hreturned, hmoment] at hout
  exact ⟨s'', .head hstep hsteps, hpc, hworld, hout⟩

theorem Step.of_advance {p : Pc} (hpc : s.pc t = p) (hidle : p ≠ .idle) (hwants : p.wants = none)
    (hadvance : s.advance env m t = s') : s.Step env m t s' := by
  subst hpc
  subst hadvance
  exact .advance hidle hwants

theorem Ends.of_acquire {l : LockName} {mode : Mode} (hwants : (s.pc t).wants = some (l, mode))
    (hadmits : Admits discipline s.pc l mode) (h : (s.goto t (s.acquired (s.pc t))).Ends env m t call out) :
    s.Ends env m t call out :=
  .of_step (.acquire l mode hwants hadmits) rfl rfl h

theorem Ends.of_advance {p : Pc} (hpc : s.pc t = p) (hidle : p ≠ .idle) (hwants : p.wants = none)
    (hadvance : s.advance env m t = s') (hreturned : s'.returned = s.returned) (hmoment : s'.moment = s.moment)
    (h : s'.Ends env m t call out) : s.Ends env m t call out :=
  .of_step (.of_advance hpc hidle hwants hadvance) hreturned hmoment h

/-- The thread is given the lock that it asks for, if it does not hold it itself. -/
theorem Ends.of_free_acquire {p : Pc} {l : LockName} {mode : Mode} (hfree : s.Undisturbed t) (hpc : s.pc t = p)
    (hwants : p.wants = some (l, mode)) (hguards : ∀ mode', (l, mode') ∉ p.guards)
    (h : (s.goto t (s.acquired p)).Undisturbed t → (s.goto t (s.acquired p)).Ends env m t call out) :
    s.Ends env m t call out := by
  subst hpc
  have hadmits : Admits discipline s.pc l mode := hfree.admits mode fun mode' hguard => absurd hguard (hguards mode')
  have hacquire : s.Step env m t _ := .acquire l mode hwants hadmits
  exact .of_acquire hwants hadmits (h (hacquire.undisturbed hfree))

/-! ## From the last section to the first -/

theorem ends_returning (hpc : s.pc t = .returning call token s.moment result) :
    s.Ends env m t call (result, s.world) := by
  have hstep : s.Step env m t _ := .of_advance hpc Pc.noConfusion rfl rfl
  unfold Machine.advance at hstep
  rw [hpc] at hstep
  exact ⟨_, .single hstep, goto_pc_self .., rfl, Or.inr rfl⟩

theorem ends_created (hpc : s.pc t = .created call token s.moment result) :
    s.Ends env m t call (held (cacheLock (clientCachePlace m)) (Eff.ofOutcome result >>=
      ExpiringCache.store env (clientCachePlace m) (call.key token) call.cacheLifetime) s.world) := by
  have hadvance : s.advance env m t = s.storeClient env m t call token s.moment result := by
    unfold Machine.advance
    rw [hpc]
  exact .of_advance hpc Pc.noConfusion rfl hadvance rfl rfl (ends_returning (goto_pc_self ..))

theorem ends_inFactory (hpc : s.pc t = .inFactory call token s.moment started) :
    s.Ends env m t call (held (cacheLock (clientCachePlace m)) (createClient env call.kmsConnectionConfig >>=
      ExpiringCache.store env (clientCachePlace m) (call.key token) call.cacheLifetime) s.world) := by
  have hadvance : s.advance env m t = s.factory env t call token s.moment started := by
    unfold Machine.advance
    rw [hpc]
  rw [held_bind]
  exact .of_advance hpc Pc.noConfusion rfl hadvance rfl rfl (ends_created (goto_pc_self ..))

theorem ends_atFactory (hfree : s.Undisturbed t) (hpc : s.pc t = .atFactory call token s.moment started) :
    s.Ends env m t call (held (cacheLock (clientCachePlace m)) (createClient env call.kmsConnectionConfig >>=
      ExpiringCache.store env (clientCachePlace m) (call.key token) call.cacheLifetime) s.world) := by
  have hadmits : Admits discipline s.pc (.token call.cell) .shared := by
    refine hfree.admits .shared fun mode hguard => ⟨rfl, ?_⟩
    rw [hpc] at hguard
    simpa [Pc.guards] using hguard
  refine .of_acquire (by rw [hpc]; rfl) hadmits (@ends_inFactory env m τ _ _ t call token started ?_)
  rw [hpc]
  exact goto_pc_self ..

/-- The search and the factory, with the mutex held from one to the other. -/
theorem ends_inGetOrCreate (hfree : s.Undisturbed t) (hpc : s.pc t = .inGetOrCreate call token s.moment) :
    s.Ends env m t call (ExpiringCache.getOrCreate env (clientCachePlace m) (call.key token) call.cacheLifetime
      (createClient env call.kmsConnectionConfig) s.world) := by
  have hadvance : s.advance env m t = s.getOrCreate env m t call token s.moment := by
    unfold Machine.advance
    rw [hpc]
  have hstep : s.Step env m t (s.getOrCreate env m t call token s.moment) := .of_advance hpc Pc.noConfusion rfl hadvance
  have hfree' := hstep.undisturbed hfree
  unfold ExpiringCache.getOrCreate
  by_cases hp : ((cacheLock (clientCachePlace m)).get s.world).poisoned = true
  · have heq : s.getOrCreate env m t call token s.moment = s.goto t (.returning call token s.moment .panic) := by
      unfold Machine.getOrCreate
      rw [if_pos hp]
    rw [heq] at hadvance
    rw [lock_poisoned hp]
    exact .of_advance hpc Pc.noConfusion rfl hadvance rfl rfl (ends_returning (goto_pc_self ..))
  · have hfind := findValid_along env m s.world (call.key token)
    rw [lock_eq_held (Bool.eq_false_iff.mpr hp), ExpiringCache.lookupOrCreate_eq, held_bind]
    unfold Machine.getOrCreate at hadvance hfree'
    rw [if_neg hp] at hadvance hfree'
    cases hr : (ExpiringCache.findValid env (clientCachePlace m) (call.key token) s.world).1 with
    | err e => exact (hfind.err e hr).elim
    | panic => exact (hfind.panic hr).elim
    | ok found =>
      simp only [hr] at hadvance hfree'
      cases found with
      | some client => exact .of_advance hpc Pc.noConfusion rfl hadvance rfl rfl (ends_returning (goto_pc_self ..))
      | none => exact .of_advance hpc Pc.noConfusion rfl hadvance rfl rfl (ends_atFactory hfree' (goto_pc_self ..))

theorem ends_atGetOrCreate (hfree : s.Undisturbed t) (hpc : s.pc t = .atGetOrCreate call token s.moment) :
    s.Ends env m t call (ExpiringCache.getOrCreate env (clientCachePlace m) (call.key token) call.cacheLifetime
      (createClient env call.kmsConnectionConfig) s.world) := by
  exact .of_free_acquire hfree hpc rfl (by simp [Pc.guards]) fun hfree' => ends_inGetOrCreate hfree' (goto_pc_self ..)

theorem ends_atReadToken (hfree : s.Undisturbed t) (hpc : s.pc t = .atReadToken call) :
    s.Ends env m t call ((keyAccessToken call.kmsConnectionConfig >>= fun token =>
      ExpiringCache.getOrCreate env (clientCachePlace m) (call.key token) call.cacheLifetime
        (createClient env call.kmsConnectionConfig)) s.world) := by
  exact .of_free_acquire hfree hpc rfl (by simp [Pc.guards]) fun hfree' => ends_atGetOrCreate hfree' (goto_pc_self ..)

/-! ## Clearing the caches -/

section

/-- From where a cache is cleared, the call ends as this does. -/
def GoesOn (env : Env) (m : ManagerId) (t : τ) (call : GetClient) (p : Pc) (k : Call KmsClient) : Prop :=
  ∀ s : Machine τ, s.Undisturbed t → s.pc t = p → s.Ends env m t call (k s.world)

variable {interval : Duration} {c : CacheName} {k : Call KmsClient}

theorem ends_idle (hpc : s.pc t = .idle) : s.Ends env m t call (.panic, s.world) :=
  ⟨s, .refl, hpc, rfl, Or.inl rfl⟩

theorem ends_inClear (hk : GoesOn env m t call (call.afterClear interval c) k) (hfree : s.Undisturbed t)
    (hpc : s.pc t = .inClear call interval c) :
    s.Ends env m t call ((c.removeExpired env m >>= fun _ => k) s.world) := by
  have hadvance : s.advance env m t = s.clear env m t call interval c := by
    unfold Machine.advance
    rw [hpc]
  have hstep : s.Step env m t (s.clear env m t call interval c) := .of_advance hpc Pc.noConfusion rfl hadvance
  have hfree' := hstep.undisturbed hfree
  have hremove := removeExpired_along env m s.world c
  refine .of_advance hpc Pc.noConfusion rfl hadvance rfl rfl ?_
  unfold clear at hfree' ⊢
  rcases hr : c.removeExpired env m s.world with ⟨_ | e | _, w⟩
  · rw [bind_ok hr]
    rw [hr] at hfree'
    exact hk _ hfree' (goto_pc_self ..)
  · exact (hremove.run_err hr).elim
  · rw [bind_panic hr]
    exact ends_idle (goto_pc_self ..)

theorem ends_atClear (hk : GoesOn env m t call (call.afterClear interval c) k) (hfree : s.Undisturbed t)
    (hpc : s.pc t = .atClear call interval c) :
    s.Ends env m t call ((c.removeExpired env m >>= fun _ => k) s.world) := by
  exact .of_free_acquire hfree hpc rfl (by simp [Pc.guards]) fun hfree' => ends_inClear hk hfree' (goto_pc_self ..)

theorem ends_inLastCleanup (hk : GoesOn env m t call (call.afterClear interval c) k) (hfree : s.Undisturbed t)
    (hpc : s.pc t = .inLastCleanup call interval c) :
    s.Ends env m t call ((c.clearExpired env m interval >>= fun _ => k) s.world) := by
  have hadvance : s.advance env m t = s.lastCleanup env m t call interval c := by
    unfold Machine.advance
    rw [hpc]
  have hstep : s.Step env m t (s.lastCleanup env m t call interval c) := .of_advance hpc Pc.noConfusion rfl hadvance
  have hfree' := hstep.undisturbed hfree
  have hdue := cleanupDue_along env m s.world c interval
  refine .of_advance hpc Pc.noConfusion rfl hadvance rfl rfl ?_
  unfold lastCleanup at hfree' ⊢
  rw [CacheName.clearExpired_eq, bind_assoc]
  rcases hr : c.cleanupDue env m interval s.world with ⟨due | e | _, w⟩
  · rw [bind_ok hr]
    rw [hr] at hfree'
    cases due with
    | true => exact ends_atClear hk hfree' (goto_pc_self ..)
    | false => exact hk _ hfree' (goto_pc_self ..)
  · exact (hdue.run_err hr).elim
  · exact (hdue.run_panic hr).elim

theorem ends_atLastCleanup (hk : GoesOn env m t call (call.afterClear interval c) k) :
    GoesOn env m t call (.atLastCleanup call interval c) (c.clearExpired env m interval >>= fun _ => k) := by
  intro s hfree hpc
  exact .of_free_acquire hfree hpc rfl (by simp [Pc.guards]) fun hfree' =>
    ends_inLastCleanup hk hfree' (goto_pc_self ..)

end

/-! ## The calls -/

theorem goesOn_start : GoesOn env m t call call.start
    (KmsManager.getClient env m call.kmsConnectionConfig call.cacheLifetime) := by
  have hread : GoesOn env m t call (.atReadToken call) _ := fun s hfree hpc => ends_atReadToken hfree hpc
  obtain ⟨config, _ | interval⟩ := call
  · exact hread
  · -- the three caches are cleared one after the other
    have hwrite : GoesOn env m t _ (.atLastCleanup _ interval .kekWriteCaches) _ := ends_atLastCleanup hread
    have hboth : GoesOn env m t _ (.atLastCleanup _ interval .kekReadCaches) _ := ends_atLastCleanup hwrite
    have hall : GoesOn env m t _ (.atLastCleanup _ interval .kmsClients) _ := ends_atLastCleanup hboth
    unfold KmsManager.getClient KmsManager.clearExpiredEntries
    simp only [bind_assoc]
    exact hall

/-- A `get_client` that nobody disturbs leaves the state and returns the result of
    `KmsManager.getClient`. -/
theorem getClient_alone {todo : List ThreadCall} (hfree : s.Undisturbed t) (hpc : s.pc t = .idle)
    (htodo : s.todo t = .getClient call :: todo) :
    s.Ends env m t call (KmsManager.getClient env m call.kmsConnectionConfig call.cacheLifetime s.world) := by
  have hstep : s.Step env m t _ := .start _ _ hpc htodo
  exact .of_step hstep rfl rfl (goesOn_start _ (hstep.undisturbed hfree) (goto_pc_self ..))

/-- And a refresh those of `refreshKeyAccessToken`. -/
theorem refresh_alone {config : KmsConnectionConfig} {todo : List ThreadCall} (hfree : s.Undisturbed t)
    (hpc : s.pc t = .idle) (htodo : s.todo t = .refreshKeyAccessToken config token :: todo) :
    ∃ s', Relation.ReflTransGen (fun a b => a.Step env m t b) s s' ∧ s'.pc t = .idle ∧
      s'.world = (refreshKeyAccessToken config token s.world).2 := by
  have hstart : s.Step env m t _ := .start _ _ hpc htodo
  have hfree' := hstart.undisturbed hfree
  generalize hs1 : ({ s with todo := Function.update s.todo t todo }.goto t
    (ThreadCall.refreshKeyAccessToken config token).start : Machine τ) = s1 at hstart hfree'
  have hpc1 : s1.pc t = .atRefresh config token := by rw [← hs1]; exact goto_pc_self ..
  have hworld : s1.world = s.world := by rw [← hs1]; rfl
  have hadmits : Admits discipline s1.pc (.token config.keyAccessToken) .exclusive := by
    refine hfree'.admits .exclusive fun mode hguard => ?_
    rw [hpc1] at hguard
    cases hguard
  have hacquire : s1.Step env m t _ := .acquire _ _ (by rw [hpc1]; rfl) hadmits
  rw [hpc1] at hacquire
  have hpc2 : (s1.goto t (.inRefresh config token)).pc t = .inRefresh config token := goto_pc_self ..
  have hadvance : (s1.goto t (.inRefresh config token)).Step env m t _ :=
    .advance (by rw [hpc2]; exact Pc.noConfusion) (by rw [hpc2]; rfl)
  unfold Machine.advance at hadvance
  rw [hpc2] at hadvance
  refine ⟨_, .head hstart (.head hacquire (.single hadvance)), goto_pc_self .., ?_⟩
  rw [← hworld]
  rfl

end Machine

end ParquetKeyManagement
