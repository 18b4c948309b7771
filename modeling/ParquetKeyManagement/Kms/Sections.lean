/-
  ParquetKeyManagement.Kms.Sections — what each section of a thread does to the cache of
  clients, and how it can end.

  No section writes a token. Clearing and searching add no client (`ClientMove m NoClient`),
  and storing adds what it returns under its key, where it is then found, unless it panics
  (`storeResult_move`).
-/

import ParquetKeyManagement.Kms.Threads

namespace ParquetKeyManagement

open Effect Locks

/-! ## What a section does to the clients -/

/-- Tokens are kept, and clients are removed, or added as `new` says. -/
structure ClientMove (m : ManagerId) (new : ClientKey → KmsClient → Prop) (w w' : World) : Prop where
  tokens : w'.tokens = w.tokens
  clients : ∀ key v, (w'.clients m).lookup key = some v → (w.clients m).lookup key = some v ∨ new key v.value

/-- No client is new. -/
def NoClient : ClientKey → KmsClient → Prop := fun _ _ => False

namespace ClientMove

variable {m : ManagerId} {new : ClientKey → KmsClient → Prop} {w w' w'' : World}

theorem refl (w : World) : ClientMove m new w w := ⟨rfl, fun _ _ h => Or.inl h⟩

theorem of_clients (ht : w'.tokens = w.tokens) (hc : w'.clients m = w.clients m) : ClientMove m new w w' :=
  ⟨ht, fun _ _ h => Or.inl (hc ▸ h)⟩

theorem trans (h : ClientMove m new w w') (h' : ClientMove m new w' w'') : ClientMove m new w w'' := by
  refine ⟨h'.tokens.trans h.tokens, fun key v hl => ?_⟩
  rcases h'.clients key v hl with h1 | h1
  · exact h.clients key v h1
  · exact Or.inr h1

theorem weaken (h : ClientMove m NoClient w w') : ClientMove m new w w' :=
  ⟨h.tokens, fun key v hl => (h.clients key v hl).imp_right False.elim⟩

theorem of_path (path : Relation.ReflTransGen (ClientMove m new) w w') : ClientMove m new w w' :=
  path_keeps (I := ClientMove m new w) (fun _ _ h h' => h.trans h') path (refl w)

theorem clientMoves (lifetime : Option Duration) :
    ExpiringCache.Moves (clientCachePlace m) lifetime (fun key client _ => new key client) (ClientMove m new) where
  write a b h := by
    refine ⟨?_, fun key v hl => (CacheMove.write h).lookup hl⟩
    obtain ⟨c, rfl⟩ := h.eq_set
    rfl
  tick w n := of_clients rfl rfl
  get_tick _ _ := rfl
  fresh_tick _ _ _ _ h := h
  fresh_set _ _ _ _ h := h

theorem set_manager {k : KmsManager} (h : k.kmsClientCache = (w.managers m).kmsClientCache) :
    ClientMove m new w (w.setManager m k) := by
  refine of_clients rfl ?_
  show (Function.update w.managers m k m).kmsClientCache.cache.data = _
  rw [Function.update_self, h]
  rfl

theorem readMoves : ExpiringCache.Moves (readCachesPlace m) none (fun _ _ _ => True) (ClientMove m new) where
  write a b h := by
    obtain ⟨c, rfl⟩ := h.eq_set
    exact set_manager rfl
  tick w n := of_clients rfl rfl
  get_tick _ _ := rfl
  fresh_tick _ _ _ _ h := h
  fresh_set _ _ _ _ h := h

theorem writeMoves : ExpiringCache.Moves (writeCachesPlace m) none (fun _ _ _ => True) (ClientMove m new) where
  write a b h := by
    obtain ⟨c, rfl⟩ := h.eq_set
    exact set_manager rfl
  tick w n := of_clients rfl rfl
  get_tick _ _ := rfl
  fresh_tick _ _ _ _ h := h
  fresh_set _ _ _ _ h := h

end ClientMove

section

variable (env : Env) (m : ManagerId) (w : World)

theorem cleanupDue_along (c : CacheName) (interval : Duration) :
    Along (ClientMove m NoClient) (c.cleanupDue env m interval) w (fun _ _ => True) (fun _ _ => False)
      fun _ => False := by
  cases c with
  | kmsClients => exact ExpiringCache.cleanupDue_along env (ClientMove.clientMoves none) interval w
  | kekReadCaches => exact ExpiringCache.cleanupDue_along env ClientMove.readMoves interval w
  | kekWriteCaches => exact ExpiringCache.cleanupDue_along env ClientMove.writeMoves interval w

theorem removeExpired_along (c : CacheName) :
    Along (ClientMove m NoClient) (c.removeExpired env m) w (fun _ _ => True) (fun _ _ => False) fun _ => True := by
  cases c with
  | kmsClients =>
    exact (ExpiringCache.lockedRemove_along env (ClientMove.clientMoves none) w).mono (fun _ _ h => h) (fun _ _ h => h)
      fun _ _ => trivial
  | kekReadCaches =>
    exact (ExpiringCache.lockedRemove_along env ClientMove.readMoves w).mono (fun _ _ h => h) (fun _ _ h => h)
      fun _ _ => trivial
  | kekWriteCaches =>
    exact (ExpiringCache.lockedRemove_along env ClientMove.writeMoves w).mono (fun _ _ h => h) (fun _ _ h => h)
      fun _ _ => trivial

/-- What is found is cached. -/
theorem findValid_along (key : ClientKey) :
    Along (ClientMove m NoClient) (ExpiringCache.findValid env (clientCachePlace m) key) w
      (fun found _ => ∀ client, found = some client → ∃ v, (w.clients m).lookup key = some v ∧ v.value = client)
      (fun _ _ => False) fun _ => False := by
  have h := @ExpiringCache.findValid_along env _ _ _ _ none _ _ (@ClientMove.clientMoves m NoClient none) key w
  refine h.with_path.mono (fun found w' hfound client hclient => ?_) (fun _ _ h => h) fun _ h => h
  obtain ⟨v, hl, hv, _⟩ := hfound.1 client hclient
  rcases (ClientMove.of_path hfound.2).clients key v hl with h1 | h1
  · exact ⟨v, h1, hv⟩
  · exact h1.elim

/-- The factory was given the configuration with the token of the moment. -/
theorem createClient_move (config : KmsConnectionConfig) :
    ClientMove m NoClient w (createClient env config w).2 ∧
      ∀ client, (createClient env config w).1 = .ok client → client.config = config.details w := by
  unfold createClient
  cases env.createClient w.calls (config.details w) with
  | ok _ =>
    refine ⟨.of_clients rfl rfl, fun client h => ?_⟩
    cases h
    rfl
  | error e =>
    refine ⟨.of_clients rfl rfl, fun client h => ?_⟩
    cases h

theorem newEntry_move (client : KmsClient) (lifetime : Option Duration) :
    ClientMove m NoClient w (ExpiringCacheValue.new env client lifetime w).2 ∧
      ∀ entry, (ExpiringCacheValue.new env client lifetime w).1 = .ok entry → entry.value = client := by
  unfold ExpiringCacheValue.new
  cases lifetime with
  | none =>
    refine ⟨.refl w, fun entry h => ?_⟩
    cases h
    rfl
  | some d =>
    simp only [expirationAfter, now, bind_run]
    cases (w.tick (env.elapsed w.calls)).clock.checkedAdd d with
    | none =>
      refine ⟨.of_clients rfl rfl, fun entry h => ?_⟩
      cases h
    | some e =>
      refine ⟨.of_clients rfl rfl, fun entry h => ?_⟩
      cases h
      rfl

omit env in
theorem clients_eq : w.clients m = (ExpiringCache.entries (clientCachePlace m)).get w := rfl

omit env in
theorem clients_poison : (poison (cacheLock (clientCachePlace m)) w).clients m = w.clients m := by
  show (Function.update w.managers m _ m).kmsClientCache.cache.data = _
  rw [Function.update_self]
  rfl

/-- The client is in the cache under the key. -/
def Cached (m : ManagerId) (key : ClientKey) (client : KmsClient) (w : World) : Prop :=
  ∃ v, (w.clients m).lookup key = some v ∧ v.value = client

/-- A client that is stored is returned, and is in the cache then. -/
theorem store_move (key : ClientKey) (lifetime : Option Duration) (client : KmsClient) :
    let r := held (cacheLock (clientCachePlace m)) (ExpiringCache.store env (clientCachePlace m) key lifetime client) w
    ClientMove m (fun key' client' => key' = key ∧ r.1 = .ok client') w r.2 ∧
      ∀ client', r.1 = .ok client' → client' = client ∧ Cached m key client' r.2 := by
  have hnew := newEntry_move env m w client lifetime
  rcases hentry : ExpiringCacheValue.new env client lifetime w with ⟨entry | e | _, w1⟩
  · rw [hentry] at hnew
    have hrun : ExpiringCache.store env (clientCachePlace m) key lifetime client w =
        (.ok client, (ExpiringCache.entries (clientCachePlace m)).modify (fun cache => cache.insert key entry) w1) :=
      bind_ok hentry
    simp only [held_ok hrun]
    refine ⟨hnew.1.weaken.trans ⟨rfl, fun key' v hl => ?_⟩, fun client' h => ?_⟩
    · rw [clients_eq, Place.get_modify] at hl
      by_cases hkey : key' = key
      · subst hkey
        rw [AList.lookup_insert] at hl
        cases hl
        exact Or.inr ⟨rfl, by rw [hnew.2 entry rfl]⟩
      · rw [AList.lookup_insert_ne hkey] at hl
        exact Or.inl hl
    · cases h
      refine ⟨rfl, entry, ?_, hnew.2 entry rfl⟩
      rw [clients_eq, Place.get_modify, AList.lookup_insert]
  · rw [hentry] at hnew
    have hrun : ExpiringCache.store env (clientCachePlace m) key lifetime client w = (.err e, w1) := bind_err hentry
    simp only [held_err hrun]
    exact ⟨hnew.1.weaken, fun client' h => by cases h⟩
  · rw [hentry] at hnew
    have hrun : ExpiringCache.store env (clientCachePlace m) key lifetime client w = (.panic, w1) := bind_panic hentry
    simp only [held_panic hrun]
    exact ⟨hnew.1.weaken.trans (.of_clients rfl (clients_poison m w1)), fun client' h => by cases h⟩

/-- What is stored is what the factory returned, and what it returned is returned or lost. -/
theorem storeResult_move (key : ClientKey) (lifetime : Option Duration) (result : Outcome ParquetError KmsClient) :
    let r := held (cacheLock (clientCachePlace m))
      (Eff.ofOutcome result >>= ExpiringCache.store env (clientCachePlace m) key lifetime) w
    ClientMove m (fun key' client => key' = key ∧ r.1 = .ok client) w r.2 ∧
      ∀ client, r.1 = .ok client → result = .ok client ∧ Cached m key client r.2 := by
  cases result with
  | ok client =>
    obtain ⟨hmove, hclient⟩ := store_move env m w key lifetime client
    refine ⟨hmove, fun client' h => ?_⟩
    obtain ⟨rfl, hcached⟩ := hclient client' h
    exact ⟨rfl, hcached⟩
  | err e => exact ⟨.refl w, fun client h => by cases h⟩
  | panic => exact ⟨.of_clients rfl (clients_poison m w), fun client h => by cases h⟩

end

end ParquetKeyManagement
