/-
  ParquetKeyManagement.Kms.Frame — what asking the registry for a client leaves alone.

  `get_client` writes its manager's caches, reads the clock and may call the client factory.
  The tokens, the KEK caches and the configurations that readers hold stay as they are, and
  the KMS is not asked for a key (`RegistryOnly`).
  - `getClient_frame`: whatever `get_client` ends in, it is `RegistryOnly`.
  - `wrapKey_cases`, `unwrapKey_cases`: a request to the KMS is served, and logged so, or it
    fails and is `RegistryOnly` too.
-/

import ParquetKeyManagement.Kms.Registry

namespace ParquetKeyManagement

open Effect

variable (env : Env)

/-- A key was wrapped or unwrapped. -/
def KmsEvent.served : KmsEvent → Bool
  | .wrapKey _ _ _ (.ok _) | .unwrapKey _ _ _ (.ok _) => true
  | _ => false

/-- Only the registry, the clock and the log were written, and the KMS served no key. -/
structure RegistryOnly (w w' : World) : Prop where
  tokens : w'.tokens = w.tokens
  readCaches : w'.readCaches = w.readCaches
  writeCaches : w'.writeCaches = w.writeCaches
  configs : w'.configs = w.configs
  log : ∃ es, w'.log = w.log ++ es ∧ ∀ e ∈ es, e.served = false

namespace RegistryOnly

variable {w w' w'' : World}

theorem of_log (ht : w'.tokens = w.tokens) (hr : w'.readCaches = w.readCaches) (hw : w'.writeCaches = w.writeCaches)
    (hc : w'.configs = w.configs) (hl : w'.log = w.log) : RegistryOnly w w' :=
  ⟨ht, hr, hw, hc, [], by rw [hl, List.append_nil], fun e he => by cases he⟩

theorem refl (w : World) : RegistryOnly w w := of_log rfl rfl rfl rfl rfl

theorem trans (h : RegistryOnly w w') (h' : RegistryOnly w' w'') : RegistryOnly w w'' := by
  obtain ⟨es, hes, hserved⟩ := h.log
  obtain ⟨es', hes', hserved'⟩ := h'.log
  refine ⟨h'.tokens.trans h.tokens, h'.readCaches.trans h.readCaches, h'.writeCaches.trans h.writeCaches,
    h'.configs.trans h.configs, es ++ es', ?_, fun e he => ?_⟩
  · rw [hes', hes, List.append_assoc]
  · rcases List.mem_append.mp he with h1 | h1
    · exact hserved e h1
    · exact hserved' e h1

theorem of_path (path : Relation.ReflTransGen RegistryOnly w w') : RegistryOnly w w' :=
  path_keeps (I := RegistryOnly w) (fun _ _ h h' => h.trans h') path (refl w)

/-- A call that is `RegistryOnly` whatever it ends in. -/
theorem of_along {α : Type} {x : Call α} {p : α → World → Prop} {q : ParquetError → World → Prop} {d : World → Prop}
    (h : Along RegistryOnly x w p q d) : RegistryOnly w (x w).2 := of_path h.path

theorem tick (w : World) (n : Nat) : RegistryOnly w (w.tick n) := of_log rfl rfl rfl rfl rfl

theorem record (w : World) {e : KmsEvent} (he : e.served = false) : RegistryOnly w (w.record e) :=
  ⟨rfl, rfl, rfl, rfl, [e], rfl, fun e' h => by rw [List.mem_singleton.mp h]; exact he⟩

theorem setManager (w : World) (m : ManagerId) (k : KmsManager) : RegistryOnly w (w.setManager m k) :=
  of_log rfl rfl rfl rfl rfl

end RegistryOnly

/-! ## The registry -/

section

variable (m : ManagerId) (lifetime : Option Duration)

/-- A cache that is part of a manager. -/
theorem RegistryOnly.moves {κ ν : Type} [DecidableEq κ] {place : Place World (ExpiringCache κ ν)}
    (hset : ∀ c w, ∃ k, place.set c w = w.setManager m k) (htick : ∀ w n, place.get (w.tick n) = place.get w) :
    ExpiringCache.Moves place lifetime (fun _ _ _ => True) RegistryOnly where
  write a b h := by
    obtain ⟨c, rfl⟩ := h.eq_set
    obtain ⟨k, hk⟩ := hset c a
    rw [hk]
    exact .setManager a m k
  tick := RegistryOnly.tick
  get_tick := htick
  fresh_tick _ _ _ _ h := h
  fresh_set _ _ _ _ h := h

theorem RegistryOnly.clientMoves :
    ExpiringCache.Moves (clientCachePlace m) lifetime (fun _ _ _ => True) RegistryOnly :=
  moves m lifetime (fun _ _ => ⟨_, rfl⟩) fun _ _ => rfl

theorem RegistryOnly.readMoves :
    ExpiringCache.Moves (readCachesPlace m) lifetime (fun _ _ _ => True) RegistryOnly :=
  moves m lifetime (fun _ _ => ⟨_, rfl⟩) fun _ _ => rfl

theorem RegistryOnly.writeMoves :
    ExpiringCache.Moves (writeCachesPlace m) lifetime (fun _ _ _ => True) RegistryOnly :=
  moves m lifetime (fun _ _ => ⟨_, rfl⟩) fun _ _ => rfl

namespace KmsManager

theorem clearExpiredEntries_frame (cleanupInterval : Option Duration) (w : World) :
    Along RegistryOnly (clearExpiredEntries env m cleanupInterval) w (fun _ _ => True) (fun _ _ => False)
      (fun _ => True) := by
  unfold clearExpiredEntries
  cases cleanupInterval with
  | none => exact Along.pure trivial
  | some d =>
    refine Along.bind ((ExpiringCache.clearExpired_along env (RegistryOnly.clientMoves m none) d w).mono
      (fun _ _ h => h) (fun _ _ h => h) fun _ _ => trivial) fun _ w1 _ _ => ?_
    refine Along.bind ((ExpiringCache.clearExpired_along env (RegistryOnly.readMoves m none) d w1).mono
      (fun _ _ h => h) (fun _ _ h => h) fun _ _ => trivial) fun _ w2 _ _ => ?_
    exact (ExpiringCache.clearExpired_along env (RegistryOnly.writeMoves m none) d w2).mono
      (fun _ _ h => h) (fun _ _ h => h) fun _ _ => trivial

end KmsManager

end

theorem createClient_frame (config : KmsConnectionConfig) (w : World) :
    Along RegistryOnly (createClient env config) w (fun _ _ => True) (fun _ _ => True) (fun _ => False) := by
  cases hr : env.createClient w.calls (config.details w) with
  | ok _ =>
    have hmove := RegistryOnly.record w
      (rfl : (KmsEvent.createClient (config.details w) (.ok ⟨w.calls, config.details w⟩)).served = false)
    refine Along.of_ok (a := ⟨w.calls, config.details w⟩) ?_ (.single hmove) trivial
    simp only [createClient, hr]
  | error e =>
    have hmove := RegistryOnly.record w (rfl : (KmsEvent.createClient (config.details w) (.error e)).served = false)
    refine Along.of_err (e := e) ?_ (.single hmove) trivial
    simp only [createClient, hr]

namespace KmsManager

variable (m : ManagerId) (config : KmsConnectionConfig) (lifetime : Option Duration)

theorem getClient_frame (w : World) :
    Along RegistryOnly (getClient env m config lifetime) w (fun _ _ => True) (fun _ _ => True) (fun _ => True) := by
  unfold getClient
  refine Along.bind ((clearExpiredEntries_frame env m lifetime w).mono (fun _ _ h => h) (fun _ _ h => h.elim)
    fun _ h => h) fun _ w1 _ _ => ?_
  refine Along.bind (Along.read (p := fun _ _ => True) trivial) fun token w2 _ _ => ?_
  exact (ExpiringCache.getOrCreate_along env (RegistryOnly.clientMoves m lifetime)
    (fun w _ => .setManager w m _) fun w' _ => createClient_frame env config w').mono (fun _ _ _ => trivial)
      (fun _ _ h => h) fun _ _ => trivial

end KmsManager

/-! ## Requests to the KMS -/

/-- The KMS served the request with `a`, and nothing but the log shows it. -/
def Served {α : Type} (r : Outcome ParquetError α × World) (w : World) (event : Except ParquetError α → KmsEvent) :
    Prop :=
  (∃ a, r = (.ok a, w.record (event (.ok a)))) ∨ ∃ e, r.1 = .err e ∧ RegistryOnly w r.2

theorem wrapKey_cases (client : KmsClient) (keyBytes : Bytes) (masterKeyIdentifier : String) (w : World) :
    Served (wrapKey env client keyBytes masterKeyIdentifier w) w (.wrapKey client keyBytes masterKeyIdentifier) := by
  cases hr : env.wrapKey w.calls client keyBytes masterKeyIdentifier with
  | ok wrapped =>
    refine Or.inl ⟨wrapped, ?_⟩
    simp only [wrapKey, hr]
  | error e =>
    refine Or.inr ⟨e, ?_⟩
    simp only [wrapKey, hr]
    exact ⟨trivial, .record w rfl⟩

theorem unwrapKey_cases (client : KmsClient) (wrappedKey masterKeyIdentifier : String) (w : World) :
    Served (unwrapKey env client wrappedKey masterKeyIdentifier w) w
      (.unwrapKey client wrappedKey masterKeyIdentifier) := by
  cases hr : env.unwrapKey w.calls client wrappedKey masterKeyIdentifier with
  | ok key =>
    refine Or.inl ⟨key, ?_⟩
    simp only [unwrapKey, hr]
  | error e =>
    refine Or.inr ⟨e, ?_⟩
    simp only [unwrapKey, hr]
    exact ⟨trivial, .record w rfl⟩

end ParquetKeyManagement
