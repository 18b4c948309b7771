/-
  ParquetKeyManagement.Factory.KekMemo — wrappers and unwrappers produce each KEK once.

  A write cache maps master key IDs to KEKs, and one is produced when the KMS wraps it; a read
  cache maps KEK IDs to KEKs, and one is produced when the KMS unwraps it. Under the cache's
  mutex a call looks its key up, and stores what it has produced before it gives the mutex back
  (`Memoizes`), however many locks it takes in between, and wherever it fails.
  - `getKeyMetadata_once`, `withWrapper_once`: a wrapper's calls, for its own cache; what they
    return names a KEK that is in it.
  - `retrieveKey_once`: an unwrapper's.
-/

import ParquetKeyManagement.Factory.Footprints
import ParquetKeyManagement.Factory.SafeCalls
import ParquetKeyManagement.Support.Memo

namespace ParquetKeyManagement

open Effect Locks Memo

/-! ## KEK caches -/

/-- A cache of KEKs at `m` behind the lock `l`, and the keys for which KEKs are produced from a state to another. -/
structure KeksAt {ν : Type} (l : LibraryLock) (m : Place Ledger (Mutex (HashMap String ν)))
    (yields : Ledger → Ledger → List String) : Prop where
  keks : l.IsKeks
  same : ∀ s s', l.Same s s' → m.get s' = m.get s
  aside : ∀ s s', s.Aside s' → m.get s' = m.get s
  record : ∀ (s : Ledger) e, m.get { s with world := s.world.record e } = m.get s
  unserved : ∀ s s', s.Unserved s' → yields s s' = []
  set_log : ∀ c s, (m.set c s).world.log = s.world.log

/-- A wrapper's cache; a KEK is produced when the KMS wraps one. -/
theorem writeKeksAt (a : KekWriteCache) :
    KeksAt (.kekWrites a) (worldPlace.comp (writeCachePlace a)) Ledger.wrappedUntil where
  keks := trivial
  same _ _ h := h
  aside _ _ h := congrFun h.writeCaches a
  record _ _ := rfl
  unserved _ _ h := h.wrappedUntil
  set_log _ _ := rfl

/-- An unwrapper's, for a KEK that it was asked for. -/
theorem readKeksAt (c : KekReadCache) (kekId : String) :
    KeksAt (.kekReads c) (worldPlace.comp (readCachePlace c)) fun s s' => List.replicate (s.unwrapsUntil s') kekId where
  keks := trivial
  same _ _ h := h
  aside _ _ h := congrFun h.readCaches c
  record _ _ := rfl
  unserved _ _ h := by rw [h.unwrapsUntil]; rfl
  set_log _ _ := rfl

section

variable {env : Env} {kms : UserKms} {strict : Prop} {limit : Instant} {held : List (LibraryLock × Mode)} {s : Ledger}
  {l : LibraryLock} {ν α : Type} {m : Place Ledger (Mutex (HashMap String ν))} {yields : Ledger → Ledger → List String}
  {allowed : String → Prop} {g : Account String} {x : Run α}
  {q : Outcome ParquetError α → Account String → Ledger → Prop}

/-- The routine produces KEKs for keys that are missing in the cache only, and stores them. -/
abbrev Once (env : Env) (strict : Prop) (limit : Instant) (l : LibraryLock)
    (m : Place Ledger (Mutex (HashMap String ν))) (yields : Ledger → Ledger → List String)
    (allowed : String → Prop) (held : List (LibraryLock × Mode)) (x : Run α) (g : Account String) (s : Ledger)
    (q : Outcome ParquetError α → Account String → Ledger → Prop) : Prop :=
  x.Memoizes (sharing env strict limit) l (m.comp mutexData) yields allowed held g s q

namespace KeksAt

variable (K : KeksAt l m yields)
include K

theorem data_same (s s' : Ledger) (h : (sharing env strict limit).Same l s s') :
    (m.comp mutexData).get s' = (m.comp mutexData).get s := congrArg Mutex.data (K.same s s' h)

theorem data_aside {s s' : Ledger} (h : s.Aside s') :
    (m.comp mutexData).get s' = (m.comp mutexData).get s ∧ yields s s' = [] :=
  ⟨congrArg Mutex.data (K.aside s s' h), K.unserved s s' h.unserved⟩

theorem refl (s : Ledger) : yields s s = [] := K.unserved s s (.refl s)

theorem yields_set (c : Mutex (HashMap String ν)) (s : Ledger) : yields s (m.set c s) = [] :=
  K.unserved _ _ (.of_log (K.set_log c s))

/-- What asks the KMS for nothing may be done under the mutex too. -/
theorem aside_once (hx : x.Writes OffKeks AsideSteps []) : Once env strict limit l m yields allowed held x g s
    fun _ g' s' => g' = g ∧ ((l, .exclusive) ∈ held → (m.comp mutexData).get s' = (m.comp mutexData).get s) :=
  .of_writes hx (fun _ h => h K.keks) K.data_same fun _ _ _ h => K.data_aside h

/-- What never takes the mutex. -/
theorem outside {ρ : Type} {A : LibraryLock → Mode → Prop} {R : List (LibraryLock × Mode) → Ledger → Ledger → Prop}
    {p : Program LibraryLock Ledger ρ} (hp : p.Writes A R [] []) (hA : ∀ mode, ¬ A l mode) :
    p.Memoizes (sharing env strict limit) l (m.comp mutexData) yields allowed [] (fun _ g' _ => g' = g) g [] s :=
  hp.memoizes_outside hA K.data_same

theorem settled_off {A : LibraryLock → Mode → Prop} (hx : x.Writes A AnySteps []) (hA : ∀ mode, ¬ A l mode)
    (howed : g.owed = none) : Once env strict limit l m yields allowed [] x g s (Settled fun _ _ => True) := by
  refine Routine.Memoizes.mono (K.outside hx hA) fun r g' s' h => ⟨?_, fun _ _ => trivial⟩
  rw [h]
  exact howed

/-- What is done under the mutex. -/
theorem mutex_once {q' : Outcome ParquetError α → Account String → Ledger → Prop} (howed : g.owed = none)
    (hx : ∀ g' s', g'.owed = none → (sharing env strict limit).Rely held s s' →
      Once env strict limit l m yields allowed ((l, .exclusive) :: held) x g' s' fun r g' s' =>
        g'.owed = none ∧ q r g' s')
    (hpanic : ∀ g' s', g'.owed = none → q' .panic g' s')
    (hout : ∀ r g' s' s'', g'.owed = none → q r g' s' →
      (sharing env strict limit).Rely held s' s'' → q' r g' s'') :
    Once env strict limit l m yields allowed held (Routine.mutex l m x) g s q' := by
  refine .mutex howed K.refl (fun s => ⟨?_, K.yields_set _ s⟩) hx hpanic hout
  show (m.get (poison m s)).data = (m.get s).data
  unfold poison
  rw [Place.get_modify]

/-- The KMS serves a key that is missing in the cache. -/
theorem kms_once {y : Call α} {event : Except ParquetError α → KmsEvent} {key : String} (hP : UnderTokens y x)
    (hserved : ∀ w, Served (y w) w event)
    (hyields : ∀ (s : Ledger) v, yields s { s with world := s.world.record (event (.ok v)) } = [key])
    (hl : (l, .exclusive) ∈ held) (hallowed : allowed key) (howed : g.owed = none)
    (hmissing : key ∉ (m.comp mutexData).get s) :
    Once env strict limit l m yields allowed held x g s (Owes key) := by
  have hnot : ∀ cell, LibraryLock.token cell ≠ l := fun cell he => by
    have := K.keks
    rw [← he] at this
    exact this
  induction hP generalizing held s with
  | call =>
    refine .ofCall hl fun s1 hr1 => ?_
    have hmissing1 : key ∉ (m.comp mutexData).get s1 := by
      rw [K.data_same _ _ (hr1.same _ hl)]
      exact hmissing
    change ∃ owed, Posting _ yields allowed g.owed s1 owed { s1 with world := (y s1.world).2 } ∧
      ∀ s'', _ → Owes key (y s1.world).1 { g with owed } s''
    rcases hserved s1.world with ⟨v, hv⟩ | ⟨e, he, hframe⟩
    · rw [hv, howed]
      exact ⟨some key, .produce key hallowed hmissing1 (congrArg Mutex.data (K.record s1 _)) (hyields s1 v),
        fun _ _ => rfl⟩
    · rw [he]
      have haside : s1.Aside { s1 with world := (y s1.world).2 } := hframe
      exact ⟨g.owed, .quiet (K.data_aside haside).1 (K.data_aside haside).2, fun _ _ => howed⟩
  | holding cell _ ih =>
    refine .holding (q := Owes key) (hnot cell) (fun s' hr => ih (List.mem_cons_of_mem _ hl) ?_)
      fun r _ _ _ h _ => ?_
    · rw [K.data_same _ _ (hr.same _ hl)]
      exact hmissing
    · cases r <;> exact h

/-- What comes before the KMS is asked. -/
theorem bind_aside {β : Type} {f : α → Run β} {key : String} (hs : LedgerInv env strict limit s)
    (hx : x.Writes OffKeks AsideSteps []) (hl : (l, .exclusive) ∈ held) (howed : g.owed = none)
    (hmissing : key ∉ (m.comp mutexData).get s)
    (hf : ∀ v s', LedgerInv env strict limit s' → key ∉ (m.comp mutexData).get s' →
      Once env strict limit l m yields allowed held (f v) g s' (Owes key)) :
    Once env strict limit l m yields allowed held (x >>= f) g s (Owes key) := by
  refine .bind hs (K.aside_once hx) (fun _ g' _ _ h => ?_) (fun g' _ _ h => ?_) fun v g' s1 hs1 _ h1 => ?_
  · rw [h.1]
    exact howed
  · rw [h.1]
    exact howed
  · obtain ⟨rfl, hsame⟩ := h1 s1 (.refl hs1)
    refine hf v s1 hs1 ?_
    rw [hsame hl]
    exact hmissing

/-- What leaves nothing owed. -/
theorem settled_aside (hx : x.Writes OffKeks AsideSteps []) (howed : g.owed = none) :
    Once env strict limit l m yields allowed held x g s (Settled fun _ _ => True) := by
  refine (K.aside_once hx).mono fun r g' s' h => ⟨?_, fun _ _ => trivial⟩
  rw [h.1]
  exact howed

/-- Look the KEK up, or have it made and store it. -/
theorem getOrMake_once {key : String} {make : Run ν} (hs : LedgerInv env strict limit s) (hl : (l, .exclusive) ∈ held)
    (howed : g.owed = none) (hmake : ∀ s', LedgerInv env strict limit s' → key ∉ (m.comp mutexData).get s' →
      Once env strict limit l m yields allowed held make g s'
        (Settled fun v s => ((m.comp mutexData).get s).lookup key = some v)) :
    Once env strict limit l m yields allowed held (getOrMake (m.comp mutexData) key make) g s
      (Settled fun v s => ((m.comp mutexData).get s).lookup key = some v) :=
  getOrMake_memoizes hs hl howed K.refl K.data_same fun s' hs' _ => hmake s' hs'

theorem makeAndStore_once {key : String} {produce : Run ν} (hs : LedgerInv env strict limit s)
    (hl : (l, .exclusive) ∈ held) (hproduce : Once env strict limit l m yields allowed held produce g s (Owes key)) :
    Once env strict limit l m yields allowed held (makeAndStore (m.comp mutexData) key produce) g s
      (Settled fun v s => ((m.comp mutexData).get s).lookup key = some v) :=
  makeAndStore_memoizes hs hl K.data_same (fun s _ => K.yields_set _ s) hproduce

end KeksAt

end

/-! ## Wrapping -/

/-- The material names the KEK that the cache has for its master key. -/
def KeyMaterial.NamesKek (m : KeyMaterial) (a : KekWriteCache) (masterKeyId : String) (s : Ledger) : Prop :=
  ∃ kek, (s.world.writeCaches a).data.lookup masterKeyId = some kek ∧ KeyWrapper.Names masterKeyId kek m

theorem KeyMaterial.NamesKek.evolves {m : KeyMaterial} {a : KekWriteCache} {masterKeyId : String} {s s' : Ledger}
    (h : m.NamesKek a masterKeyId s) (he : s.Evolves s') : m.NamesKek a masterKeyId s' := by
  obtain ⟨kek, hl, hnames⟩ := h
  exact ⟨kek, he.writeKeks a masterKeyId kek hl, hnames⟩

/-- The master keys a file uses: the footer's, and those with a non-empty column list. -/
def EncryptionConfiguration.usedIds (enc : EncryptionConfiguration) : List String :=
  enc.footerKeyId :: (enc.columnKeyIds.entries.filter fun e => !e.2.isEmpty).map fun e => e.1

theorem EncryptionConfiguration.mem_usedIds {enc : EncryptionConfiguration} (order : IterationOrder) {x : String} :
    x ∈ enc.usedIds ↔ x = enc.footerKeyId ∨ ∃ e ∈ HashMap.inOrder order enc.columnKeyIds, e.2 ≠ [] ∧ e.1 = x := by
  simp only [usedIds, List.mem_cons, List.mem_map, List.mem_filter, HashMap.mem_inOrder, and_assoc,
    Bool.not_eq_true', List.isEmpty_eq_false_iff]

namespace Interleaved

section

variable {env : Env} {kms : UserKms} {strict : Prop} {limit : Instant} {s : Ledger} {allowed : String → Prop}
  {g : Account String} {k : KeyWrapper} {masterKeyId : String}

/-- The wrapper's calls, for its own cache. -/
abbrev WritesOnce {α : Type} (env : Env) (strict : Prop) (limit : Instant) (a : KekWriteCache) (allowed : String → Prop)
    (held : List (LibraryLock × Mode)) (x : Run α) (g : Account String) (s : Ledger)
    (q : Outcome ParquetError α → Account String → Ledger → Prop) : Prop :=
  Once env strict limit (.kekWrites a) (worldPlace.comp (writeCachePlace a)) Ledger.wrappedUntil allowed held x g s q

theorem getWriteKek_eq (k : KeyWrapper) (masterKeyId : String) : getWriteKek env kms k masterKeyId =
    getOrMake ((worldPlace.comp (writeCachePlace k.masterKeyToKek)).comp mutexData) masterKeyId
      (makeAndStore ((worldPlace.comp (writeCachePlace k.masterKeyToKek)).comp mutexData) masterKeyId
        (generateKeyEncryptionKey env kms k.kmsManager k.kmsConnectionConfig k.encryptionConfiguration.cacheLifetime
          masterKeyId)) := by
  unfold getWriteKek getOrMake
  refine congrArg₂ (fun (x : Run _) f => x >>= f) rfl (funext fun keks => ?_)
  cases keks.lookup masterKeyId with
  | some kek => rfl
  | none => rfl

theorem getWriteKek_once (h : kms.Serves env) (hs : LedgerInv env strict limit s) (howed : g.owed = none)
    (hallowed : allowed masterKeyId) :
    WritesOnce env strict limit k.masterKeyToKek allowed [(.kekWrites k.masterKeyToKek, .exclusive)]
      (getWriteKek env kms k masterKeyId) g s
      (Settled fun kek s => (s.world.writeCaches k.masterKeyToKek).data.lookup masterKeyId = some kek) := by
  have K := writeKeksAt k.masterKeyToKek
  have hl : (LibraryLock.kekWrites k.masterKeyToKek, Mode.exclusive) ∈
      [(LibraryLock.kekWrites k.masterKeyToKek, Mode.exclusive)] :=
    List.mem_singleton.mpr rfl
  rw [getWriteKek_eq]
  refine K.getOrMake_once hs hl howed fun s1 hs1 hmissing => K.makeAndStore_once hs1 hl ?_
  -- only the last call is to the KMS
  refine K.bind_aside hs1 (fill_aside kekLen) hl howed hmissing fun key s2 hs2 hmissing2 => ?_
  refine K.bind_aside hs2 (drawKeyId_aside key) hl howed hmissing2 fun keyId s3 hs3 hmissing3 => ?_
  refine K.bind_aside hs3 (getClient_aside h _ _ _) hl howed hmissing3 fun client s4 hs4 hmissing4 => ?_
  refine .bind hs4
    (K.kms_once (h.wrapKey client key masterKeyId) (wrapKey_cases env client key masterKeyId) (fun s v => ?_)
    hl hallowed howed hmissing4) (fun _ _ _ _ h => h) (fun _ _ _ h => h) fun wrappedKey g' s5 _ _ h5 => .finish h5
  · unfold Ledger.wrappedUntil
    rw [Ledger.eventsUntil_record]
    rfl

theorem doubleWrap_once (h : kms.Serves env) (howed : g.owed = none) (hallowed : allowed masterKeyId) (key : Bytes)
    (b : KeyMaterialBuilder) :
    WritesOnce env strict limit k.masterKeyToKek allowed [] (doubleWrap env kms k key masterKeyId b) g s
      (Settled fun m s => m.NamesKek k.masterKeyToKek masterKeyId s) := by
  have K := writeKeksAt k.masterKeyToKek
  have hl : (LibraryLock.kekWrites k.masterKeyToKek, Mode.exclusive) ∈
      [(LibraryLock.kekWrites k.masterKeyToKek, Mode.exclusive)] :=
    List.mem_singleton.mpr rfl
  refine K.mutex_once (q := fun r _ s => ∀ m, r = .ok m → m.NamesKek k.masterKeyToKek masterKeyId s) howed
    (fun g1 s1 howed1 hr1 => ?_) (fun _ _ howed' => ⟨howed', fun _ he => by cases he⟩)
    fun r g' s' s'' howed' hm hr => ⟨howed', fun m he => (hm m he).evolves hr.evolves⟩
  refine .bind_settled hr1.inv (getWriteKek_once h hr1.inv howed1 hallowed) fun kek g2 s2 hs2 _ howed2 hkek => ?_
  refine .bind_settled hs2 (K.settled_aside (encrypt_aside key kek.keyId kek.key) howed2)
    fun wrappedDek g3 s3 hs3 he3 howed3 _ => ?_
  cases hb : (b.withDoubleWrappedKey masterKeyId kek.encodedKeyId kek.wrappedKey wrappedDek).build with
  | error e =>
    exact .ofCall hl fun s4 _ => ⟨g3.owed, .quiet rfl (K.refl s4), fun _ _ => ⟨howed3, fun m hm => by cases hm⟩⟩
  | ok m =>
    refine .ofCall hl fun s4 hr4 => ⟨g3.owed, .quiet rfl (K.refl s4), fun s5 hr5 => ⟨howed3, fun m' hm => ?_⟩⟩
    cases hm
    have he : s2.Evolves s5 := he3.trans (hr4.evolves.trans hr5.evolves)
    exact ⟨kek, he.writeKeks _ _ _ (hkek s2 (.refl hs2)), KeyWrapper.names_of_build hb⟩

/-- The metadata read as a material that names the KEK of the cache. -/
def NamesStored (env : Env) (a : KekWriteCache) (masterKeyId : String) (metadata : Bytes) (s : Ledger) : Prop :=
  ∃ m, KeyUnwrapper.readMaterial env metadata = .ok m ∧ m.NamesKek a masterKeyId s

theorem NamesStored.evolves {a : KekWriteCache} {metadata : Bytes} {s s' : Ledger}
    (h : NamesStored env a masterKeyId metadata s) (he : s.Evolves s') : NamesStored env a masterKeyId metadata s' := by
  obtain ⟨m, hread, hm⟩ := h
  exact ⟨m, hread, hm.evolves he⟩

section

variable (h : kms.Serves env) (hd : k.encryptionConfiguration.doubleWrapping = true)
include h hd

theorem getKeyMetadata_once (hs : LedgerInv env strict limit s) (howed : g.owed = none) (hallowed : allowed masterKeyId)
    (key : Bytes) (isFooterKey : Bool) :
    WritesOnce env strict limit k.masterKeyToKek allowed [] (getKeyMetadata env kms k key masterKeyId isFooterKey) g s
      (Settled (NamesStored env k.masterKeyToKek masterKeyId)) := by
  unfold getKeyMetadata wrap
  rw [if_pos hd]
  refine .bind_settled hs (doubleWrap_once h howed hallowed key _) fun m g1 s1 hs1 _ howed1 hm => ?_
  obtain ⟨text, htext⟩ := m.serialize_ok env
  rw [htext]
  refine .bind_settled (P := fun t s => t = text ∧ m.NamesKek k.masterKeyToKek masterKeyId s) hs1 ?_
    fun t g2 s2 _ _ howed2 ht => .finish fun s3 hr3 => ⟨howed2, fun metadata he => ?_⟩
  · refine .ofCall_outside (fun hg => by cases hg) fun s2 hr2 s3 hr3 => ⟨howed1, fun t ht => ⟨?_, ?_⟩⟩
    · cases ht
      rfl
    · exact hm s3 (hr2.trans hr3)
  · obtain ⟨rfl, hm3⟩ := ht s3 hr3
    cases he
    obtain ⟨kek, hl, hnames⟩ := hm3
    exact ⟨m, (KeyWrapper.readMaterial_intoBytes env _).trans
      (KeyMaterial.deserialize_serialize env hnames.keyMaterialType htext), kek, hl, hnames⟩

theorem generateKey_once (hs : LedgerInv env strict limit s) (howed : g.owed = none) (hallowed : allowed masterKeyId)
    (isFooterKey : Bool) :
    WritesOnce env strict limit k.masterKeyToKek allowed [] (generateKey env kms k masterKeyId isFooterKey) g s
      (Settled fun key => NamesStored env k.masterKeyToKek masterKeyId key.metadata) := by
  refine .bind_settled hs ((writeKeksAt _).settled_aside (fill_aside _) howed) fun key g1 s1 hs1 _ howed1 _ => ?_
  refine .bind_settled hs1 (getKeyMetadata_once h hd hs1 howed1 hallowed key isFooterKey)
    fun metadata g2 s2 _ _ howed2 hm => ?_
  refine .finish fun s3 hr3 => ⟨howed2, fun key' he => ?_⟩
  cases he
  exact hm s3 hr3

end

/-- Every key of the properties names a KEK that is in the cache, for one of the master keys. -/
def AllNamed (env : Env) (a : KekWriteCache) (allowed : String → Prop) (b : FileEncryptionProperties) (s : Ledger) :
    Prop :=
  ∀ key ∈ b.keys, ∃ masterKeyId, allowed masterKeyId ∧ NamesStored env a masterKeyId key.metadata s

/-- There is a KEK for the master key. -/
def HasKek (a : KekWriteCache) (masterKeyId : String) (s : Ledger) : Prop := masterKeyId ∈ (s.world.writeCaches a).data

section

variable {a : KekWriteCache} {s' : Ledger}

theorem AllNamed.evolves {b : FileEncryptionProperties} (h : AllNamed env a allowed b s) (he : s.Evolves s') :
    AllNamed env a allowed b s' := fun key hkey => (h key hkey).imp fun _ hm => ⟨hm.1, hm.2.evolves he⟩

theorem HasKek.evolves (h : HasKek a masterKeyId s) (he : s.Evolves s') : HasKek a masterKeyId s' := by
  obtain ⟨kek, hkek⟩ := Option.isSome_iff_exists.mp (AList.lookup_isSome.mpr h)
  exact AList.lookup_isSome.mp (by rw [he.writeKeks a masterKeyId kek hkek]; rfl)

theorem NamesStored.hasKek {metadata : Bytes} (h : NamesStored env a masterKeyId metadata s) :
    HasKek a masterKeyId s := by
  obtain ⟨_, _, kek, hkek, _⟩ := h
  exact AList.lookup_isSome.mp (by rw [hkek]; rfl)

end

section

variable (h : kms.Serves env) (hd : k.encryptionConfiguration.doubleWrapping = true)
include h hd

theorem addColumns_once (hs : LedgerInv env strict limit s) (howed : g.owed = none) {columnPaths : List String}
    (hallowed : columnPaths ≠ [] → allowed masterKeyId) {b : FileEncryptionProperties}
    (hb : AllNamed env k.masterKeyToKek allowed b s) :
    WritesOnce env strict limit k.masterKeyToKek allowed [] (addColumns env kms k masterKeyId columnPaths b) g s
      (Settled fun b s => AllNamed env k.masterKeyToKek allowed b s ∧
        (columnPaths ≠ [] → HasKek k.masterKeyToKek masterKeyId s)) := by
  induction columnPaths generalizing b g s with
  | nil =>
    refine .finish fun s1 hr1 => ⟨howed, fun b' he => ⟨?_, fun hn => absurd rfl hn⟩⟩
    cases he
    exact hb.evolves hr1.evolves
  | cons c columnPaths ih =>
    refine .bind_settled hs (generateKey_once h hd hs howed (hallowed (List.cons_ne_nil _ _)) false)
      fun key g1 s1 hs1 he1 howed1 hkey => ?_
    have hkey1 := hkey s1 (.refl hs1)
    refine (Routine.Memoizes.evolves (ih hs1 howed1 (fun _ => hallowed (List.cons_ne_nil _ _)) fun x hx => ?_)).mono
      fun r g2 s2 hr => ⟨hr.1.1, fun b' he => ⟨(hr.1.2 b' he).1, fun _ => hkey1.hasKek.evolves hr.2⟩⟩
    rcases mem_keys_withColumn hx with hx | rfl
    · exact (hb x hx).imp fun _ hm => ⟨hm.1, hm.2.evolves he1⟩
    · exact ⟨masterKeyId, hallowed (List.cons_ne_nil _ _), hkey1⟩

theorem addColumnKeys_once (hs : LedgerInv env strict limit s) (howed : g.owed = none)
    {es : List (Sigma fun _ : String => List String)} (hallowed : ∀ e ∈ es, e.2 ≠ [] → allowed e.1)
    {b : FileEncryptionProperties} (hb : AllNamed env k.masterKeyToKek allowed b s) :
    WritesOnce env strict limit k.masterKeyToKek allowed [] (addColumnKeys env kms k es b) g s
      (Settled fun b s => AllNamed env k.masterKeyToKek allowed b s ∧ ∀ e ∈ es, e.2 ≠ [] →
        HasKek k.masterKeyToKek e.1 s) := by
  induction es generalizing b g s with
  | nil =>
    refine .finish fun s1 hr1 => ⟨howed, fun b' he => ⟨?_, fun e he => by cases he⟩⟩
    cases he
    exact hb.evolves hr1.evolves
  | cons e es ih =>
    refine .bind_settled hs (addColumns_once h hd hs howed (hallowed e (List.mem_cons_self ..)) hb)
      fun b1 g1 s1 hs1 _ howed1 hb1 => ?_
    obtain ⟨hnamed1, hhas1⟩ := hb1 s1 (.refl hs1)
    refine (Routine.Memoizes.evolves
      (ih hs1 howed1 (fun e' he' => hallowed e' (List.mem_cons_of_mem _ he')) hnamed1)).mono
      fun r g2 s2 hr => ⟨hr.1.1, fun b' hb' => ⟨(hr.1.2 b' hb').1, fun e' he' hne => ?_⟩⟩
    rcases List.mem_cons.mp he' with rfl | he'
    · exact (hhas1 hne).evolves hr.2
    · exact (hr.1.2 b' hb').2 e' he' hne

/-- A file's keys name KEKs that are in the cache, which has one for each master key that is used. -/
theorem withWrapper_once (hs : LedgerInv env strict limit s) (howed : g.owed = none) {enc : EncryptionConfiguration}
    (hallowed : ∀ x ∈ enc.usedIds, allowed x) :
    WritesOnce env strict limit k.masterKeyToKek allowed [] (withWrapper env kms enc k) g s
      (Settled fun p s => AllNamed env k.masterKeyToKek allowed p s ∧ ∀ x ∈ enc.usedIds,
        HasKek k.masterKeyToKek x s) := by
  have hfooter : enc.footerKeyId ∈ enc.usedIds := List.mem_cons_self ..
  refine .bind_settled hs (generateKey_once h hd hs howed (hallowed _ hfooter) true)
    fun footerKey g1 s1 hs1 _ howed1 hkey => ?_
  have hkey1 := hkey s1 (.refl hs1)
  refine .bind_settled hs1 ((writeKeksAt _).settled_aside (call_writes fun s => RegistryOnly.tick s.world 0) howed1)
    fun order g2 s2 hs2 he2 howed2 _ => ?_
  refine (Routine.Memoizes.evolves (addColumnKeys_once h hd hs2 howed2 (fun e he hne => ?_) fun key hkey => ?_)).mono
    fun r g3 s3 hr => ⟨hr.1.1, fun p hp => ⟨(hr.1.2 p hp).1, fun x hx => ?_⟩⟩
  · exact hallowed _ ((enc.mem_usedIds order).mpr (Or.inr ⟨e, he, hne, rfl⟩))
  · -- the footer's key is the only one yet
    obtain rfl : key = footerKey := by simpa [FileEncryptionProperties.keys] using hkey
    exact ⟨_, hallowed _ hfooter, hkey1.evolves he2⟩
  · rcases (enc.mem_usedIds order).mp hx with rfl | ⟨e, he, hne, rfl⟩
    · exact hkey1.hasKek.evolves (he2.trans hr.2)
    · exact (hr.1.2 p hp).2 e he hne

end

end

/-! ## Unwrapping -/

section

variable {env : Env} {kms : UserKms} {strict : Prop} {limit : Instant} {s : Ledger} {allowed : String → Prop}
  {g : Account String} {u : KeyUnwrapper} {kekId : String}

/-- The unwrapper's calls for a KEK, for its own cache. -/
abbrev ReadsOnce {α : Type} (env : Env) (strict : Prop) (limit : Instant) (c : KekReadCache) (kekId : String)
    (allowed : String → Prop) (held : List (LibraryLock × Mode)) (x : Run α) (g : Account String) (s : Ledger)
    (q : Outcome ParquetError α → Account String → Ledger → Prop) : Prop :=
  Once env strict limit (.kekReads c) (worldPlace.comp (readCachePlace c))
    (fun s s' => List.replicate (s.unwrapsUntil s') kekId) allowed held x g s q

theorem getReadKek_eq (u : KeyUnwrapper) (masterKeyId kekId wrappedKek : String) :
    getReadKek env kms u masterKeyId kekId wrappedKek =
      getOrMake ((worldPlace.comp (readCachePlace u.kekCache)).comp mutexData) kekId
        (Routine.holding (.config u.kmsConnectionConfig) .shared
          (makeAndStore ((worldPlace.comp (readCachePlace u.kekCache)).comp mutexData) kekId
            (unwrapWithKms env kms u wrappedKek masterKeyId))) := by
  unfold getReadKek getOrMake
  refine congrArg₂ (fun (x : Run _) f => x >>= f) rfl (funext fun keks => ?_)
  cases keks.lookup kekId with
  | some kek => rfl
  | none => rfl

theorem unwrapWithKms_once (h : kms.Serves env) (hs : LedgerInv env strict limit s) {held : List (LibraryLock × Mode)}
    (hl : (.kekReads u.kekCache, .exclusive) ∈ held) (howed : g.owed = none) (hallowed : allowed kekId)
    (hmissing : kekId ∉ ((worldPlace.comp (readCachePlace u.kekCache)).comp mutexData).get s)
    (wrapped masterKeyId : String) :
    ReadsOnce env strict limit u.kekCache kekId allowed held (unwrapWithKms env kms u wrapped masterKeyId) g s
      (Owes kekId) := by
  have K := readKeksAt u.kekCache kekId
  refine K.bind_aside hs (call_writes fun s => .refl s) hl howed hmissing fun config s1 hs1 hmissing1 => ?_
  refine K.bind_aside hs1 (getClient_aside h _ config _) hl howed hmissing1 fun client s2 hs2 hmissing2 => ?_
  refine K.kms_once (h.unwrapKey client wrapped masterKeyId)
    (unwrapKey_cases env client wrapped masterKeyId) (fun s v => ?_) hl hallowed howed hmissing2
  unfold Ledger.unwrapsUntil
  rw [Ledger.eventsUntil_record]
  rfl

/-- The KEK that the metadata name is looked up, or unwrapped and stored. -/
theorem unwrapDoubleWrappedKey_once (h : kms.Serves env) (howed : g.owed = none) (hallowed : allowed kekId)
    (wrappedDek masterKeyId wrappedKek : String) :
    ReadsOnce env strict limit u.kekCache kekId allowed []
      (unwrapDoubleWrappedKey env kms u wrappedDek masterKeyId kekId wrappedKek) g s (Settled fun _ _ => True) := by
  have K := readKeksAt u.kekCache kekId
  have hl : (LibraryLock.kekReads u.kekCache, Mode.exclusive) ∈ [(LibraryLock.kekReads u.kekCache, Mode.exclusive)] :=
    List.mem_singleton.mpr rfl
  refine K.mutex_once (q := fun _ _ _ => True) howed (fun g1 s1 howed1 hr1 => ?_)
    (fun _ _ howed' => ⟨howed', fun _ _ => trivial⟩) fun _ _ _ _ howed' _ _ => ⟨howed', fun _ _ => trivial⟩
  refine Routine.Memoizes.mono (q := Settled fun _ _ => True) ?_ fun _ _ _ h => ⟨h.1, trivial⟩
  rw [getReadKek_eq]
  refine .bind_settled hr1.inv (K.getOrMake_once hr1.inv hl howed1 fun s2 hs2 hmissing => ?_)
    fun kek g2 s2 hs2 _ howed2 _ => ?_
  · refine .holding (q := Settled fun v s =>
      (((worldPlace.comp (readCachePlace u.kekCache)).comp mutexData).get s).lookup kekId = some v)
      (fun he => by cases he) (fun s3 hr3 => ?_) fun r g' s' s'' h3 hr => ⟨h3.1, fun v hv => ?_⟩
    · refine K.makeAndStore_once hr3.inv (List.mem_cons_of_mem _ hl)
        (unwrapWithKms_once h hr3.inv (List.mem_cons_of_mem _ hl) howed1 hallowed ?_ wrappedKek masterKeyId)
      rw [K.data_same _ _ (hr3.same _ hl)]
      exact hmissing
    · exact (congrArg (AList.lookup kekId) (K.data_same _ _ (hr.same _ hl))).trans (h3.2 v hv)
  · refine .bind_settled hs2 (K.settled_aside (ofExcept_aside _) howed2) fun decoded g3 s3 _ _ howed3 _ => ?_
    exact K.settled_aside (call_writes fun s => .refl s) howed3

/-- A retrieval under double wrapping produces the KEK that its metadata name. -/
theorem retrieveKey_once (h : kms.Serves env) (hs : LedgerInv env strict limit s) (howed : g.owed = none)
    (hallowed : allowed kekId) {keyMetadata : Bytes} (hnamed : KeyUnwrapper.namedKek env keyMetadata = some kekId) :
    ReadsOnce env strict limit u.kekCache kekId allowed [] (retrieveKey env kms u keyMetadata) g s
      (Settled fun _ _ => True) := by
  obtain ⟨m, hread, hm⟩ := Option.bind_eq_some_iff.mp hnamed
  obtain ⟨hd, wrappedKek, hw, hk⟩ := m.namedKek_eq_some.mp hm
  have hmaterial : KeyUnwrapper.readMaterial env keyMetadata = .ok m := by
    cases hr : KeyUnwrapper.readMaterial env keyMetadata with
    | ok m' => rw [hr] at hread; cases hread; rfl
    | error e => rw [hr] at hread; cases hread
  unfold retrieveKey
  rw [hmaterial]
  refine .bind_settled (P := fun m' _ => m' = m) hs (.ofCall_outside (fun hg => by cases hg) fun s1 _ s2 _ =>
    ⟨howed, fun m' he => by cases he; rfl⟩) fun m' g1 s1 hs1 _ howed1 hm' => ?_
  obtain rfl := hm' s1 (.refl hs1)
  split
  · exact .finish fun _ _ => ⟨howed1, fun _ _ => trivial⟩
  refine .bind_settled hs1 ((readKeksAt u.kekCache kekId).settled_off (updateKmsConfig_unserved u m').any
    (fun _ h => h trivial) howed1) fun _ g2 s2 _ _ howed2 _ => ?_
  unfold unwrapDek
  rw [if_pos hd, hk, hw]
  exact unwrapDoubleWrappedKey_once h howed2 hallowed _ _ _

end

end Interleaved

end ParquetKeyManagement
