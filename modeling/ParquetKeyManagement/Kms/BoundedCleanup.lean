/-
  ParquetKeyManagement.Kms.BoundedCleanup — expired secrets are dropped in bounded time.

  `clear_expired` is skipped while the last cleanup, whoever asked for it, is more recent than the
  caller's interval. What carries the bound is that every entry expires after the last cleanup
  (`Tidy`): a cleanup that is due leaves no other, storing an entry gives it an expiration from the
  clock on, and a skipped one is less than the interval after the last.
  - `settled_step`: every operation of a manager keeps this for each of its caches, unless the
    cache's mutex is poisoned.
  - `bounded_cleanup`: in a run none of whose calls stores past the last instant, a cleanup with an
    interval leaves only entries that expired less than the interval before its reading of the
    clock. No operation of any run drops an entry that has not expired.
  - `poisoned_cleanup_unbounded`: after such a call, a cleanup that is due is stamped before it
    panics on the mutex, and the next one is skipped.
-/

import ParquetKeyManagement.Kms.Lifetimes

namespace ParquetKeyManagement

open Effect

variable (env : Env) {κ ν : Type}

/-- What the next reading of the clock gives. -/
def reading (w : World) : Instant := w.clock + env.elapsed w.calls

theorem now_reading (w : World) : now env w = (.ok (reading env w), w.tick (env.elapsed w.calls)) := rfl

namespace ExpiringCache

variable [DecidableEq κ] {place : Place World (ExpiringCache κ ν)} {w w' : World} {key : κ} {lifetime : Option Duration}
  {creator : Call ν}

/-! ## What a cleanup leaves -/

/-- Every entry expires after the last cleanup. -/
structure Tidy (place : Place World (ExpiringCache κ ν)) (w : World) : Prop where
  clock : (place.get w).lastCleanup ≤ w.clock
  entries : ∀ k e x, ((entries place).get w).lookup k = some e → e.expirationTime = some x →
    (place.get w).lastCleanup ≤ x

/-- Every entry that is expired at `t` expired less than `interval` before. -/
def ExpiredWithin (place : Place World (ExpiringCache κ ν)) (interval : Duration) (t : Instant) (w : World) : Prop :=
  ∀ k e x, ((entries place).get w).lookup k = some e → e.expirationTime = some x → x ≤ t → t - x < interval.nanos

omit [DecidableEq κ] in
theorem Untouched.poisoned (h : Untouched place w w') :
    ((cacheLock place).get w').poisoned = ((cacheLock place).get w).poisoned :=
  congrArg (fun c => c.cache.poisoned) h.same

theorem Tidy.untouched (h : Tidy place w) (hsame : Untouched place w w') : Tidy place w' := by
  refine ⟨by rw [hsame.same]; exact h.clock.trans hsame.clock, fun k e x hl hx => ?_⟩
  rw [hsame.entries] at hl
  rw [hsame.same]
  exact h.entries k e x hl hx

theorem ExpiredWithin.untouched {interval : Duration} {t : Instant} (h : ExpiredWithin place interval t w)
    (hsame : Untouched place w w') : ExpiredWithin place interval t w' := by
  intro k e x hl
  rw [hsame.entries] at hl
  exact h k e x hl

omit [DecidableEq κ] in
theorem isValid_reading (A : Apart place) (e : ExpiringCacheValue ν) (w : World) :
    ∃ valid w1, e.isValid env w = (.ok valid, w1) ∧ Untouched place w w1 ∧
      (valid = true → ∀ x, e.expirationTime = some x → w.clock < x) := by
  unfold ExpiringCacheValue.isValid
  cases he : e.expirationTime with
  | none => exact ⟨true, w, rfl, .refl w, fun _ x hx => by cases hx⟩
  | some expirationTime =>
    refine ⟨_, _, rfl, ⟨A.get_tick w _, Nat.le_add_right _ _⟩, fun hvalid x hx => ?_⟩
    cases hx
    exact Nat.lt_of_le_of_lt (Nat.le_add_right _ _) (of_decide_eq_true hvalid)

omit [DecidableEq κ] in
/-- The entries that are not to be removed expire after the cleanup began. -/
theorem toRemove_spec (A : Apart place) (es : List (Sigma fun _ : κ => ExpiringCacheValue ν)) (w : World) :
    ∃ ks w1, toRemove env es w = (.ok ks, w1) ∧ Untouched place w w1 ∧
      ∀ e ∈ es, e.1 ∉ ks → ∀ x, e.2.expirationTime = some x → w.clock < x := by
  induction es generalizing w with
  | nil => exact ⟨[], w, rfl, .refl w, fun e he => by cases he⟩
  | cons e es ih =>
    obtain ⟨valid, w1, hrun, hsame, hvalid⟩ := isValid_reading env A e.2 w
    obtain ⟨rest, w2, hrest, hsame', hexpires⟩ := ih w1
    refine ⟨if valid then rest else e.1 :: rest, w2, ?_, hsame.trans hsame', fun e' he' hkept x hx => ?_⟩
    · rw [toRemove, bind_ok hrun, bind_ok hrest]
      rfl
    · rcases List.mem_cons.mp he' with rfl | he'
      · cases valid with
        | true => exact hvalid rfl x hx
        | false => exact absurd (List.mem_cons_self ..) hkept
      · refine Nat.lt_of_le_of_lt hsame.clock (hexpires e' he' (fun hmem => hkept ?_) x hx)
        cases valid with
        | true => exact hmem
        | false => exact List.mem_cons_of_mem _ hmem

/-- What removing the expired entries leaves. -/
theorem removeExpired_spec (A : Apart place) (w : World) :
    ∃ w', removeExpired env place w = (.ok (), w') ∧ w.clock ≤ w'.clock ∧
      (place.get w').lastCleanup = (place.get w).lastCleanup ∧
      ((cacheLock place).get w').poisoned = ((cacheLock place).get w).poisoned ∧
      ∀ k e x, ((entries place).get w').lookup k = some e → e.expirationTime = some x → w.clock < x := by
  let w1 := w.tick 0
  have h1 : Untouched place w w1 := ⟨A.get_tick w 0, Nat.le_add_right _ _⟩
  obtain ⟨ks, w2, hrun, h2, hexpires⟩ :=
    toRemove_spec env A (HashMap.inOrder (env.order w.calls) ((entries place).get w)) w1
  refine ⟨(entries place).modify (HashMap.eraseAll ks) w2, ?_, ?_, ?_, ?_, fun k e x hl hx => ?_⟩
  · unfold removeExpired
    rw [bind_ok (read_run _ _), bind_ok (show iterationOrder env w = (.ok (env.order w.calls), w1) from rfl),
      bind_ok hrun]
    rfl
  · rw [A.clock_modify]
    exact h1.clock.trans h2.clock
  · have hsame : (place.get ((entries place).modify (HashMap.eraseAll ks) w2)).lastCleanup =
        (place.get w2).lastCleanup := by
      simp [entries, cacheLock, mutexData, Place.comp, Place.modify]
    rw [hsame, (h1.trans h2).same]
  · have hsame : ((cacheLock place).get ((entries place).modify (HashMap.eraseAll ks) w2)).poisoned =
        ((cacheLock place).get w2).poisoned := by simp [entries, cacheLock, mutexData, Place.comp, Place.modify]
    rw [hsame, (h1.trans h2).poisoned]
  · rw [Place.get_modify, (h1.trans h2).entries, HashMap.lookup_eraseAll] at hl
    by_cases hk : k ∈ ks
    · rw [if_pos hk] at hl
      cases hl
    · rw [if_neg hk] at hl
      exact Nat.lt_of_le_of_lt h1.clock
        (hexpires ⟨k, e⟩ (HashMap.mem_inOrder.mpr (HashMap.mem_entries_iff.mpr hl)) hk x hx)

/-- A cleanup leaves only entries that expired less than its interval ago. -/
theorem clearExpired_spec (A : Apart place) (interval : Duration) (hlock : ((cacheLock place).get w).poisoned = false)
    (h : Tidy place w) :
    ∃ w', clearExpired env place interval w = (.ok (), w') ∧ ((cacheLock place).get w').poisoned = false ∧
      Tidy place w' ∧ ExpiredWithin place interval (reading env w) w' := by
  let w1 := w.tick (env.elapsed w.calls)
  have h1 : Untouched place w w1 := ⟨A.get_tick w _, Nat.le_add_right _ _⟩
  by_cases hc : reading env w - (place.get w).lastCleanup < interval.nanos
  · -- the last cleanup is recent, and every entry expires after it
    refine ⟨w1, ?_, ?_, h.untouched h1, fun k e x hl hx _ => ?_⟩
    · unfold clearExpired
      rw [bind_ok (read_run _ _), bind_ok (now_reading env w), if_pos hc]
      rfl
    · rw [h1.poisoned, hlock]
    · rw [h1.entries] at hl
      exact Nat.lt_of_le_of_lt (Nat.sub_le_sub_left (h.entries k e x hl hx) _) hc
  · let w2 := place.modify (fun c => { c with lastCleanup := reading env w }) w1
    have hclock : w2.clock = reading env w := A.clock_set _ _
    have hlock2 : ((cacheLock place).get w2).poisoned = false := by
      have hsame : ((cacheLock place).get w2).poisoned = ((cacheLock place).get w1).poisoned := by
        simp [w2, cacheLock, Place.comp, Place.modify]
      rw [hsame, h1.poisoned, hlock]
    obtain ⟨w3, hrun, hlater, hstamp, hkept, hexpires⟩ := removeExpired_spec env A w2
    have hstamped : (place.get w3).lastCleanup = reading env w := by
      rw [hstamp]
      simp [w2]
    rw [hclock] at hlater hexpires
    refine ⟨w3, ?_, by rw [hkept, hlock2], ⟨by rw [hstamped]; exact hlater, fun k e x hl hx => ?_⟩,
      fun k e x hl hx hle => ?_⟩
    · rw [clearExpired_eq]
      have hdue : cleanupDue env place interval w = (.ok true, w2) := by
        unfold cleanupDue
        rw [bind_ok (read_run _ _), bind_ok (now_reading env w), if_neg hc]
        rfl
      rw [bind_ok hdue, if_pos rfl, lock_not_panic hlock2 (by rw [hrun]; exact fun h => by cases h), hrun]
    · rw [hstamped]
      exact Nat.le_of_lt (hexpires k e x hl hx)
    · exact absurd (hexpires k e x hl hx) (Nat.not_lt.mpr hle)

/-! ## What the other operations leave -/

/-- The time of the last cleanup stays. -/
def KeepsStamp (place : Place World (ExpiringCache κ ν)) (w w' : World) : Prop :=
  (place.get w').lastCleanup = (place.get w).lastCleanup

omit [DecidableEq κ] in
theorem keepsStamp_tick (A : Apart place) (w : World) (n : Nat) : KeepsStamp place w (w.tick n) := by
  unfold KeepsStamp
  rw [A.get_tick]

omit [DecidableEq κ] in
theorem isValid_stamp (A : Apart place) (e : ExpiringCacheValue ν) (w : World) :
    Relation.ReflTransGen (KeepsStamp place) w (e.isValid env w).2 := by
  unfold ExpiringCacheValue.isValid
  cases e.expirationTime with
  | none => exact .refl
  | some _ => exact .single (keepsStamp_tick A w _)

omit [DecidableEq κ] in
theorem new_stamp (A : Apart place) (v : ν) (lifetime : Option Duration) (w : World) :
    Relation.ReflTransGen (KeepsStamp place) w (ExpiringCacheValue.new env v lifetime w).2 := by
  cases lifetime with
  | none => exact .refl
  | some d =>
    have hnow : Relation.ReflTransGen (KeepsStamp place) w (now env w).2 := .single (keepsStamp_tick A w _)
    refine bind_path (bind_path hnow fun t w1 => ?_) fun _ _ => .refl
    cases t.checkedAdd d with
    | none => exact .refl
    | some _ => exact .refl

/-- Looking up and storing are no cleanup. -/
theorem getOrCreate_stamp (A : Apart place) (hcreator : ∀ w, KeepsStamp place w (creator w).2) (key : κ)
    (lifetime : Option Duration) (w : World) : KeepsStamp place w (getOrCreate env place key lifetime creator w).2 := by
  have hbody : Relation.ReflTransGen (KeepsStamp place) w (lookupOrCreate env place key lifetime creator w).2 := by
    rw [lookupOrCreate_eq]
    refine bind_path (bind_path .refl fun cache w1 => ?_) fun found w1 => ?_
    · cases cache.lookup key with
      | none => exact .refl
      | some entry => exact bind_path (isValid_stamp env A entry w1) fun _ _ => .refl
    · cases found with
      | some _ => exact .refl
      | none =>
        refine bind_path (.single (hcreator w1)) fun v w2 =>
          bind_path (new_stamp env A v lifetime w2) fun entry w3 => ?_
        refine bind_path (.single ?_) fun _ _ => .refl
        simp [KeepsStamp, modify_run, entries, cacheLock, mutexData, Place.comp, Place.modify]
  have hkept : KeepsStamp place w (lookupOrCreate env place key lifetime creator w).2 :=
    path_keeps (I := KeepsStamp place w) (fun _ _ h h' => h'.trans h) hbody rfl
  rcases lock_state (cacheLock place) (lookupOrCreate env place key lifetime creator) w with he | he | he
  · rw [getOrCreate, he]
    rfl
  · rw [getOrCreate, he]
    exact hkept
  · rw [getOrCreate, he]
    refine Eq.trans ?_ hkept
    simp [poison, cacheLock, Place.comp, Place.modify]

theorem Tidy.getOrCreate (h : Tidy place w) (A : Apart place) (C : Creator place creator)
    (hcreator : ∀ w, KeepsStamp place w (creator w).2) (key : κ) (lifetime : Option Duration) :
    Tidy place (getOrCreate env place key lifetime creator w).2 := by
  have hstamp := getOrCreate_stamp env A hcreator key lifetime w
  obtain ⟨ran, _, hcase⟩ := getOrCreate_cases env A C key lifetime w
  cases hrun : ExpiringCache.getOrCreate env place key lifetime creator w with | mk r w' =>
  rw [hrun] at hcase hstamp
  have hsame : (ExpiringCache.entries place).get w' = (ExpiringCache.entries place).get w → w.clock ≤ w'.clock →
      Tidy place w' := by
    intro hentries hclock
    refine ⟨by rw [hstamp]; exact h.clock.trans hclock, fun k e x hl hx => ?_⟩
    rw [hentries] at hl
    rw [hstamp]
    exact h.entries k e x hl hx
  cases hcase with
  | hit _ _ _ _ hclock hentries => exact hsame hentries hclock
  | failed _ _ _ _ _ hclock _ hlater hentries => exact hsame hentries (hclock.trans hlater)
  | panicked _ _ hclock hentries => exact hsame hentries hclock
  | created w1 w2 _ v _ _ hclock _ hlater hentries =>
    have hstart : (place.get w').lastCleanup ≤ w'.clock := by
      rw [hstamp]
      exact h.clock.trans (hclock.trans hlater)
    refine ⟨hstart, fun k e x hl hx => ?_⟩
    rw [hentries] at hl
    by_cases hk : k = key
    · subst hk
      rw [AList.lookup_insert] at hl
      cases hl
      -- the new entry expires no earlier than now
      obtain ⟨d, _, rfl⟩ := Option.map_eq_some_iff.mp hx
      exact hstart.trans (Nat.le_add_right _ _)
    · rw [AList.lookup_insert_ne hk] at hl
      rw [hstamp]
      exact h.entries k e x hl hx

/-- The cache's mutex is poisoned, or every entry expires after the last cleanup. -/
def Settled (place : Place World (ExpiringCache κ ν)) (w : World) : Prop :=
  ((cacheLock place).get w).poisoned = true ∨ Tidy place w

theorem Settled.tidy (h : Settled place w) (hlock : ((cacheLock place).get w).poisoned = false) :
    Tidy place w := by
  cases h with
  | inl hpoisoned => rw [hlock] at hpoisoned; cases hpoisoned
  | inr htidy => exact htidy

/-- A whole operation on the cache, or anything that leaves it alone. -/
inductive WholeOp (place : Place World (ExpiringCache κ ν)) : World → World → Prop
  | clear (interval : Duration) (w : World) : WholeOp place w (clearExpired env place interval w).2
  | get (key : κ) (lifetime : Option Duration) (creator : Call ν) (w : World) : Creator place creator →
    (∀ w, KeepsStamp place w (creator w).2) →
    WholeOp place w (ExpiringCache.getOrCreate env place key lifetime creator w).2
  | other (w w' : World) : Untouched place w w' → WholeOp place w w'

/-- A cleanup does not mend a poisoned mutex. -/
theorem clearExpired_poisoned (A : Apart place) (interval : Duration) (h : ((cacheLock place).get w).poisoned = true) :
    ((cacheLock place).get (clearExpired env place interval w).2).poisoned = true := by
  have M : Moves place none (fun _ _ _ => True)
      fun a b => ((cacheLock place).get b).poisoned = ((cacheLock place).get a).poisoned :=
    ⟨fun _ _ hw => hw.poisoned, fun w n => congrArg (fun c => c.cache.poisoned) (A.get_tick w n), A.get_tick,
      fun _ _ _ _ h => h, fun _ _ _ _ h => h⟩
  exact path_keeps (I := fun w' => ((cacheLock place).get w').poisoned = true) (fun _ _ hp he => he.trans hp)
    (clearExpired_along env M interval w).path h

/-- The step, for one cache. -/
theorem WholeOp.settled (A : Apart place) (hop : WholeOp env place w w') (h : Settled place w) : Settled place w' := by
  cases hlock : ((cacheLock place).get w).poisoned with
  | true =>
    left
    cases hop with
    | clear interval w => exact clearExpired_poisoned env A interval hlock
    | get key lifetime creator w _ _ =>
      unfold ExpiringCache.getOrCreate
      rw [lock_poisoned hlock]
      exact hlock
    | other w w' hsame => rw [hsame.poisoned, hlock]
  | false =>
    have ht : Tidy place w := h.tidy hlock
    right
    cases hop with
    | clear interval w =>
      obtain ⟨w', hrun, _, htidy, _⟩ := clearExpired_spec env A interval hlock ht
      rw [hrun]
      exact htidy
    | get key lifetime creator w C hcreator => exact ht.getOrCreate env A C hcreator key lifetime
    | other w w' hsame => exact ht.untouched hsame

/-! ## What is kept -/

/-- No entry goes that has not expired. -/
structure KeepsValid (place : Place World (ExpiringCache κ ν)) (w w' : World) : Prop where
  clock : w.clock ≤ w'.clock
  kept : ∀ k e, ((entries place).get w).lookup k = some e → ¬ e.ExpiredAt w'.clock →
    ((entries place).get w').lookup k = some e

theorem KeepsValid.trans {w'' : World} (h : KeepsValid place w w') (h' : KeepsValid place w' w'') :
    KeepsValid place w w'' := by
  refine ⟨h.clock.trans h'.clock, fun k e hl hvalid => ?_⟩
  exact h'.kept k e (h.kept k e hl fun hexpired => hvalid (hexpired.mono h'.clock)) hvalid

theorem KeepsValid.of_path {move : World → World → Prop} (hm : ∀ a b, move a b → KeepsValid place a b)
    (path : Relation.ReflTransGen move w w') : KeepsValid place w w' :=
  path_keeps (I := KeepsValid place w) (fun _ _ h h' => h.trans (hm _ _ h')) path ⟨le_refl _, fun _ _ hl _ => hl⟩

theorem CacheOp.keepsValid {P : κ → Prop} (hop : CacheOp env place P w w') (A : Apart place) :
    KeepsValid place w w' := by
  obtain ⟨hclock, hentry⟩ := hop.effect env A
  refine ⟨hclock, fun k e hl hvalid => ?_⟩
  cases hentry k with
  | same hsame => exact hsame.trans hl
  | removed _ hexpired => exact absurd (hexpired e hl) hvalid
  | replaced _ hexpired => exact absurd (hexpired e hl) hvalid

theorem clearExpired_keepsValid (A : Apart place) (interval : Duration) (w : World) :
    KeepsValid place w (clearExpired env place interval w).2 :=
  .of_path (fun _ _ hop => hop.keepsValid env A) (clearExpired_ops env interval (fun _ => False) w)

theorem WholeOp.keepsValid (A : Apart place) (hop : WholeOp env place w w') : KeepsValid place w w' := by
  cases hop with
  | clear interval w => exact clearExpired_keepsValid env A interval w
  | get key lifetime creator w C _ =>
    exact (CacheOp.get key lifetime creator w trivial C : CacheOp env place (fun _ => True) _ _).keepsValid env A
  | other w w' hsame => exact (hsame.op env fun _ => False).keepsValid env A

end ExpiringCache

open ExpiringCache

/-! ## The caches of a manager -/

namespace KmsManager

variable (m : ManagerId)

/-- What the operations of a manager are made of goes along `R`. -/
structure Steps (R : World → World → Prop) : Prop where
  clearClients : ∀ d w, Relation.ReflTransGen R w (clearExpired env (clientCachePlace m) d w).2
  clearReadCaches : ∀ d w, Relation.ReflTransGen R w (clearExpired env (readCachesPlace m) d w).2
  clearWriteCaches : ∀ d w, Relation.ReflTransGen R w (clearExpired env (writeCachesPlace m) d w).2
  clients : ∀ key lifetime config w,
    Relation.ReflTransGen R w (getOrCreate env (clientCachePlace m) key lifetime (createClient env config) w).2
  readCaches : ∀ key lifetime token w,
    Relation.ReflTransGen R w (getOrCreate env (readCachesPlace m) key lifetime (newReadCache m token) w).2
  writeCaches : ∀ key lifetime token w,
    Relation.ReflTransGen R w (getOrCreate env (writeCachesPlace m) key lifetime (newWriteCache m token) w).2

section

variable {env m} {R : World → World → Prop} (S : Steps env m R)
include S

theorem Steps.clear (interval : Option Duration) (w : World) :
    Relation.ReflTransGen R w (clearExpiredEntries env m interval w).2 :=
  clearExpiredEntries_path env m interval w S.clearClients S.clearReadCaches S.clearWriteCaches

theorem Steps.call (c : ManagerCall) (w : World) : Relation.ReflTransGen R w (c.run env m w).2 := by
  cases c with
  | getClient config lifetime =>
    rw [ManagerCall.run, discard_world]
    exact bind_path (S.clear lifetime w) fun _ w1 => bind_path .refl fun token w2 => S.clients _ lifetime config w2
  | getKekReadCache config lifetime =>
    rw [ManagerCall.run, discard_world]
    refine bind_path (S.clear lifetime w) fun _ w1 => bind_path .refl fun token w2 => ?_
    rw [unwrap_state]
    exact S.readCaches _ lifetime token w2
  | getKekWriteCache config lifetime =>
    rw [ManagerCall.run, discard_world]
    refine bind_path (S.clear lifetime w) fun _ w1 => bind_path .refl fun token w2 => ?_
    rw [unwrap_state]
    exact S.writeCaches _ lifetime token w2

end

theorem createClient_stamp (config : KmsConnectionConfig) (w : World) :
    KeepsStamp (clientCachePlace m) w (createClient env config w).2 := by
  unfold createClient
  cases env.createClient w.calls (config.details w) <;> rfl

theorem clientSteps : Steps env m (WholeOp env (clientCachePlace m)) where
  clearClients d w := .single (.clear d w)
  clearReadCaches d w := .single (.other _ _
    (clearExpired_other env (clientCache_apart m) (readCaches_apart m) clientCache_readCaches d w))
  clearWriteCaches d w := .single (.other _ _
    (clearExpired_other env (clientCache_apart m) (writeCaches_apart m) clientCache_writeCaches d w))
  clients key lifetime config w := .single
    (.get key lifetime _ w (createClient_creator env m config) (createClient_stamp env m config))
  readCaches key lifetime token w := .single (.other _ _
    (getOrCreate_other env (clientCache_apart m) (readCaches_apart m) clientCache_readCaches key lifetime
      (newReadCache_other m token fun _ _ => rfl) w))
  writeCaches key lifetime token w := .single (.other _ _
    (getOrCreate_other env (clientCache_apart m) (writeCaches_apart m) clientCache_writeCaches key lifetime
      (newWriteCache_other m token fun _ _ => rfl) w))

theorem readSteps : Steps env m (WholeOp env (readCachesPlace m)) where
  clearClients d w := .single (.other _ _
    (clearExpired_other env (readCaches_apart m) (clientCache_apart m) readCaches_clientCache d w))
  clearReadCaches d w := .single (.clear d w)
  clearWriteCaches d w := .single (.other _ _
    (clearExpired_other env (readCaches_apart m) (writeCaches_apart m) readCaches_writeCaches d w))
  clients key lifetime config w := .single (.other _ _
    (getOrCreate_other env (readCaches_apart m) (clientCache_apart m) readCaches_clientCache key lifetime
      (createClient_other env config fun _ _ => rfl) w))
  readCaches key lifetime token w := .single
    (.get key lifetime _ w (newReadCache_creator m token) fun _ => rfl)
  writeCaches key lifetime token w := .single (.other _ _
    (getOrCreate_other env (readCaches_apart m) (writeCaches_apart m) readCaches_writeCaches key lifetime
      (newWriteCache_other m token fun _ _ => rfl) w))

theorem writeSteps : Steps env m (WholeOp env (writeCachesPlace m)) where
  clearClients d w := .single (.other _ _
    (clearExpired_other env (writeCaches_apart m) (clientCache_apart m) writeCaches_clientCache d w))
  clearReadCaches d w := .single (.other _ _
    (clearExpired_other env (writeCaches_apart m) (readCaches_apart m) writeCaches_readCaches d w))
  clearWriteCaches d w := .single (.clear d w)
  clients key lifetime config w := .single (.other _ _
    (getOrCreate_other env (writeCaches_apart m) (clientCache_apart m) writeCaches_clientCache key lifetime
      (createClient_other env config fun _ _ => rfl) w))
  readCaches key lifetime token w := .single (.other _ _
    (getOrCreate_other env (writeCaches_apart m) (readCaches_apart m) writeCaches_readCaches key lifetime
      (newReadCache_other m token fun _ _ => rfl) w))
  writeCaches key lifetime token w := .single
    (.get key lifetime _ w (newWriteCache_creator m token) fun _ => rfl)

/-! ## Runs of a manager -/

/-- A manager that was just made: its caches are empty, and were cleaned when they were made. -/
structure JustMade (k : KmsManager) (now : Instant) : Prop where
  clients : k.kmsClientCache.cache = Mutex.new ∅ ∧ k.kmsClientCache.lastCleanup ≤ now
  readCaches : k.kekReadCaches.cache = Mutex.new ∅ ∧ k.kekReadCaches.lastCleanup ≤ now
  writeCaches : k.kekWriteCaches.cache = Mutex.new ∅ ∧ k.kekWriteCaches.lastCleanup ≤ now

theorem new_justMade (w : World) : ∃ k w', KmsManager.new env w = (.ok k, w') ∧ JustMade k w'.clock := by
  refine ⟨_, _, rfl, ⟨rfl, ?_⟩, ⟨rfl, ?_⟩, ⟨rfl, le_refl _⟩⟩
  · exact (Nat.le_add_right _ _).trans (Nat.le_add_right _ _)
  · exact Nat.le_add_right _ _

/-- Runs of a manager from when it was made, with its calls and cleanups, in any order and with any lifetimes, and
    between them anything that does not touch the manager, such as time passing. A call satisfies `P`. -/
inductive RegistryRun (P : World → ManagerCall → Prop) : World → Prop
  | start (w : World) : JustMade (w.managers m) w.clock → RegistryRun P w
  | call {w : World} (c : ManagerCall) : RegistryRun P w → P w c → RegistryRun P (c.run env m w).2
  | clear {w : World} (interval : Option Duration) : RegistryRun P w →
    RegistryRun P (clearExpiredEntries env m interval w).2
  | between {w w' : World} : RegistryRun P w → w'.managers m = w.managers m → w.clock ≤ w'.clock → RegistryRun P w'

/-- Each of the manager's caches is settled. -/
structure ManagerSettled (w : World) : Prop where
  clients : Settled (clientCachePlace m) w
  readCaches : Settled (readCachesPlace m) w
  writeCaches : Settled (writeCachesPlace m) w

variable {m} {w w' : World} {P : World → ManagerCall → Prop}

theorem settled_of_empty {place : Place World (ExpiringCache κ ν)} [DecidableEq κ]
    (h : (place.get w).cache = Mutex.new ∅ ∧ (place.get w).lastCleanup ≤ w.clock) : Settled place w := by
  refine Or.inr ⟨h.2, fun k e x hl _ => ?_⟩
  rw [show (entries place).get w = ∅ from congrArg Mutex.data h.1] at hl
  cases hl

/-- The step: whatever the manager does, each of its caches stays settled. -/
theorem settled_step (h : ManagerSettled m w)
    (hclients : Relation.ReflTransGen (WholeOp env (clientCachePlace m)) w w')
    (hread : Relation.ReflTransGen (WholeOp env (readCachesPlace m)) w w')
    (hwrite : Relation.ReflTransGen (WholeOp env (writeCachesPlace m)) w w') : ManagerSettled m w' := by
  refine ⟨?_, ?_, ?_⟩
  · exact path_keeps (fun _ _ hs hop => hop.settled env (clientCache_apart m) hs) hclients h.clients
  · exact path_keeps (fun _ _ hs hop => hop.settled env (readCaches_apart m) hs) hread h.readCaches
  · exact path_keeps (fun _ _ hs hop => hop.settled env (writeCaches_apart m) hs) hwrite h.writeCaches

/-- The run. -/
theorem RegistryRun.settled (h : RegistryRun env m P w) : ManagerSettled m w := by
  induction h with
  | start w hnew =>
    exact ⟨settled_of_empty hnew.clients, settled_of_empty hnew.readCaches, settled_of_empty hnew.writeCaches⟩
  | call c _ _ ih =>
    exact settled_step env ih ((clientSteps env m).call c _) ((readSteps env m).call c _) ((writeSteps env m).call c _)
  | clear interval _ ih =>
    exact settled_step env ih ((clientSteps env m).clear interval _) ((readSteps env m).clear interval _)
      ((writeSteps env m).clear interval _)
  | between _ hsame hclock ih =>
    refine settled_step env ih (.single (.other _ _ ⟨?_, hclock⟩)) (.single (.other _ _ ⟨?_, hclock⟩))
      (.single (.other _ _ ⟨?_, hclock⟩))
    · exact congrArg KmsManager.kmsClientCache hsame
    · exact congrArg KmsManager.kekReadCaches hsame
    · exact congrArg KmsManager.kekWriteCaches hsame

/-- No mutex is poisoned unless a call stores past the limit. -/
theorem RegistryRun.locks (h : RegistryRun env m (fun w c => ¬ c.StoresPastLimit env m w) w) :
    ¬ w.ManagerPoisoned m := by
  induction h with
  | start w hnew =>
    unfold World.ManagerPoisoned
    rw [hnew.clients.1, hnew.readCaches.1, hnew.writeCaches.1]
    simp [Mutex.new]
  | call c _ hc ih => exact fun hp => hc ((managerCall_step env m c ih).2.mp hp)
  | clear interval _ ih =>
    obtain ⟨w1, hrun, hw1⟩ := clearExpiredEntries_ok env m interval ih
    rw [hrun]
    exact hw1
  | between _ hsame _ ih => unfold World.ManagerPoisoned at ih ⊢; rwa [hsame]

/-! ## The bound -/

/-- The state in which the KEK caches for reading are cleaned, after the clients. -/
def afterClients (env : Env) (m : ManagerId) (interval : Duration) (w : World) : World :=
  (clearExpired env (clientCachePlace m) interval w).2

/-- The state in which the KEK caches for writing are cleaned. -/
def afterReadCaches (env : Env) (m : ManagerId) (interval : Duration) (w : World) : World :=
  (clearExpired env (readCachesPlace m) interval (afterClients env m interval w)).2

/-- A cleanup with an interval that finishes leaves only entries that expired less than the interval before it read the
    clock for their cache. -/
def CleansWithin (m : ManagerId) (interval : Duration) (w : World) : Prop :=
  ∀ w', clearExpiredEntries env m (some interval) w = (.ok (), w') →
    ExpiredWithin (clientCachePlace m) interval (reading env w) w' ∧
    ExpiredWithin (readCachesPlace m) interval (reading env (afterClients env m interval w)) w' ∧
    ExpiredWithin (writeCachesPlace m) interval (reading env (afterReadCaches env m interval w)) w'

theorem clearExpiredEntries_within (h : ManagerSettled m w) (hlocks : ¬ w.ManagerPoisoned m) (interval : Duration) :
    (∃ w', clearExpiredEntries env m (some interval) w = (.ok (), w')) ∧ CleansWithin env m interval w := by
  obtain ⟨hl1, hl2, hl3⟩ := unpoisoned_of_not hlocks
  have t1 := h.clients.tidy hl1
  have t2 := h.readCaches.tidy hl2
  have t3 := h.writeCaches.tidy hl3
  -- one cache after the other; the ones that are not cleaned stay as they are
  obtain ⟨w1, hrun1, _, _, hwithin1⟩ := clearExpired_spec env (clientCache_apart m) interval hl1 t1
  have hr1 := clearExpired_other env (readCaches_apart m) (clientCache_apart m) readCaches_clientCache interval w
  have hw1 := clearExpired_other env (writeCaches_apart m) (clientCache_apart m) writeCaches_clientCache interval w
  rw [hrun1] at hr1 hw1
  obtain ⟨w2, hrun2, _, _, hwithin2⟩ := clearExpired_spec env (readCaches_apart m) interval
    (hr1.poisoned.trans hl2) (t2.untouched hr1)
  have hc2 := clearExpired_other env (clientCache_apart m) (readCaches_apart m) clientCache_readCaches interval w1
  have hw2 := clearExpired_other env (writeCaches_apart m) (readCaches_apart m) writeCaches_readCaches interval w1
  rw [hrun2] at hc2 hw2
  obtain ⟨w3, hrun3, _, _, hwithin3⟩ := clearExpired_spec env (writeCaches_apart m) interval
    ((hw1.trans hw2).poisoned.trans hl3) (t3.untouched (hw1.trans hw2))
  have hc3 := clearExpired_other env (clientCache_apart m) (writeCaches_apart m) clientCache_writeCaches interval w2
  have hr3 := clearExpired_other env (readCaches_apart m) (writeCaches_apart m) readCaches_writeCaches interval w2
  rw [hrun3] at hc3 hr3
  have hrun : clearExpiredEntries env m (some interval) w = (.ok (), w3) := by
    rw [clearExpiredEntries, bind_ok hrun1, bind_ok hrun2]
    exact hrun3
  have hafter1 : afterClients env m interval w = w1 := by rw [afterClients, hrun1]
  have hafter2 : afterReadCaches env m interval w = w2 := by rw [afterReadCaches, hafter1, hrun2]
  refine ⟨⟨w3, hrun⟩, fun w' hrun' => ?_⟩
  rw [hrun] at hrun'
  cases hrun'
  rw [hafter1, hafter2]
  exact ⟨hwithin1.untouched (hc2.trans hc3), hwithin2.untouched hr3, hwithin3⟩

end KmsManager

open KmsManager

/-- Whatever happens from `w` to `w'`, no entry of the manager's caches goes that has not expired. -/
def KeepsSecrets (m : ManagerId) (w w' : World) : Prop :=
  KeepsValid (clientCachePlace m) w w' ∧ KeepsValid (readCachesPlace m) w w' ∧ KeepsValid (writeCachesPlace m) w w'

theorem keepsSecrets_of_ops {m : ManagerId} {w w' : World}
    (hclients : Relation.ReflTransGen (WholeOp env (clientCachePlace m)) w w')
    (hread : Relation.ReflTransGen (WholeOp env (readCachesPlace m)) w w')
    (hwrite : Relation.ReflTransGen (WholeOp env (writeCachesPlace m)) w w') : KeepsSecrets m w w' := by
  refine ⟨?_, ?_, ?_⟩
  · exact .of_path (fun _ _ hop => hop.keepsValid env (clientCache_apart m)) hclients
  · exact .of_path (fun _ _ hop => hop.keepsValid env (readCaches_apart m)) hread
  · exact .of_path (fun _ _ hop => hop.keepsValid env (writeCaches_apart m)) hwrite

/-- As long as no call has stored an entry that would expire past the last instant, a cleanup finishes and leaves only
    entries that expired less than its interval before. No call and no cleanup ever drops an entry that has not
    expired, and none has when its own cache has been cleaned. -/
theorem bounded_cleanup (m : ManagerId) :
    (∀ w, RegistryRun env m (fun w c => ¬ c.StoresPastLimit env m w) w → ∀ interval,
      (∃ w', clearExpiredEntries env m (some interval) w = (.ok (), w')) ∧ CleansWithin env m interval w) ∧
    ∀ w, (∀ c : ManagerCall, KeepsSecrets m w (c.run env m w).2) ∧
      (∀ interval, KeepsSecrets m w (clearExpiredEntries env m interval w).2) ∧
      ∀ interval, KeepsValid (clientCachePlace m) w (clearExpired env (clientCachePlace m) interval w).2 ∧
        KeepsValid (readCachesPlace m) w (clearExpired env (readCachesPlace m) interval w).2 ∧
        KeepsValid (writeCachesPlace m) w (clearExpired env (writeCachesPlace m) interval w).2 := by
  refine ⟨fun w h interval => clearExpiredEntries_within env (h.settled env) (h.locks env) interval,
    fun w => ⟨?_, ?_, ?_⟩⟩
  · intro c
    exact keepsSecrets_of_ops env ((clientSteps env m).call c w) ((readSteps env m).call c w)
      ((writeSteps env m).call c w)
  · intro interval
    exact keepsSecrets_of_ops env ((clientSteps env m).clear interval w) ((readSteps env m).clear interval w)
      ((writeSteps env m).clear interval w)
  · intro interval
    exact ⟨clearExpired_keepsValid env (clientCache_apart m) interval w,
      clearExpired_keepsValid env (readCaches_apart m) interval w,
      clearExpired_keepsValid env (writeCaches_apart m) interval w⟩

def tenSeconds : Duration := Duration.fromSecs 10

/-- A client was cached for a second, and five seconds have passed. -/
def afterExpiry : World :=
  ((ManagerCall.getClient sampleConfig (some second)).run Env.sample 0 (World.init (fun _ => "DEFAULT") 0)).2.tick
    (Duration.fromSecs 5).nanos

/-- A cleanup every ten seconds is not due yet, and leaves the client, which expired four seconds ago. -/
theorem bounded_cleanup_sample : reading Env.sample afterExpiry = (Duration.fromSecs 5).nanos ∧
    ∃ w', clearExpiredEntries Env.sample 0 (some tenSeconds) afterExpiry = (.ok (), w') ∧
      (((entries (clientCachePlace 0)).get w').lookup ⟨"DEFAULT", "instance"⟩).any
        (fun e => e.expirationTime == some second.nanos) = true ∧
      ExpiredWithin (clientCachePlace 0) tenSeconds (reading Env.sample afterExpiry) w' := by
  have h0 : RegistryRun Env.sample 0 (fun w c => ¬ c.StoresPastLimit Env.sample 0 w)
      (World.init (fun _ => "DEFAULT") 0) :=
    .start _ ⟨⟨rfl, le_refl _⟩, ⟨rfl, le_refl _⟩, rfl, le_refl _⟩
  have hsafe : ¬ (ManagerCall.getClient sampleConfig (some second)).StoresPastLimit Env.sample 0
      (World.init (fun _ => "DEFAULT") 0) := by
    rw [← (managerCall_step Env.sample 0 _ (by decide)).1]
    decide +kernel
  have hrun : RegistryRun Env.sample 0 (fun w c => ¬ c.StoresPastLimit Env.sample 0 w) afterExpiry :=
    (h0.call _ hsafe).between rfl (Nat.le_add_right _ _)
  obtain ⟨⟨w', hclear⟩, hwithin⟩ := (bounded_cleanup Env.sample 0).1 _ hrun tenSeconds
  have hstays :
    (((entries (clientCachePlace 0)).get (clearExpiredEntries Env.sample 0 (some tenSeconds) afterExpiry).2).lookup
      ⟨"DEFAULT", "instance"⟩).any (fun e => e.expirationTime == some second.nanos) = true := by decide +kernel
  rw [hclear] at hstays
  exact ⟨by decide +kernel, w', hclear, hstays, (hwithin w' hclear).1⟩

/-! ## After a panic -/

/-- A second instance of the same KMS. -/
def otherInstance : KmsConnectionConfig := ⟨"https://kms", "other", 0, ∅⟩

/-- A client is cached for a second, and storing another with the longest lifetime panics. -/
def afterOverflow : World :=
  ((ManagerCall.getClient otherInstance longestLifetime).run Env.sample 0
    ((ManagerCall.getClient sampleConfig (some second)).run Env.sample 0 (World.init (fun _ => "DEFAULT") 0)).2).2

/-- A thousand seconds later a call stamps its cleanup and panics; another five seconds pass. -/
def afterStamp : World :=
  ((ManagerCall.getClient sampleConfig (some tenSeconds)).run Env.sample 0
    (afterOverflow.tick (Duration.fromSecs 1000).nanos)).2.tick (Duration.fromSecs 5).nanos

theorem afterStamp_run : RegistryRun Env.sample 0 (fun _ _ => True) afterStamp := by
  have h0 : RegistryRun Env.sample 0 (fun _ _ => True) (World.init (fun _ => "DEFAULT") 0) :=
    .start _ ⟨⟨rfl, le_refl _⟩, ⟨rfl, le_refl _⟩, rfl, le_refl _⟩
  have h1 := (h0.call (.getClient sampleConfig (some second)) trivial).call
    (.getClient otherInstance longestLifetime) trivial
  have h2 : RegistryRun Env.sample 0 (fun _ _ => True) (afterOverflow.tick (Duration.fromSecs 1000).nanos) :=
    h1.between rfl (Nat.le_add_right _ _)
  exact (h2.call (.getClient sampleConfig (some tenSeconds)) trivial).between rfl (Nat.le_add_right _ _)

/-- The cleanup after it is skipped and finishes, and a client that expired a thousand seconds before stays. -/
theorem poisoned_cleanup_unbounded : RegistryRun Env.sample 0 (fun _ _ => True) afterStamp ∧
    ¬ CleansWithin Env.sample 0 tenSeconds afterStamp := by
  refine ⟨afterStamp_run, fun h => ?_⟩
  have hok : (clearExpiredEntries Env.sample 0 (some tenSeconds) afterStamp).1.isOk = true := by decide +kernel
  obtain ⟨_, w', hrun⟩ := exists_ok hok
  have hclients := (h w' hrun).1
  have hentry : (((entries (clientCachePlace 0)).get
      (clearExpiredEntries Env.sample 0 (some tenSeconds) afterStamp).2).lookup ⟨"DEFAULT", "instance"⟩).any
        (fun e => e.expirationTime == some second.nanos) = true := by decide +kernel
  rw [hrun] at hentry
  obtain ⟨e, hl, hx⟩ := (Option.any_eq_true _ _).mp hentry
  have ht : reading Env.sample afterStamp = (Duration.fromSecs 1005).nanos := by decide +kernel
  have hbound := hclients _ e second.nanos hl (by simpa using hx)
  rw [ht] at hbound
  exact absurd (hbound (by decide)) (by decide)

end ParquetKeyManagement
