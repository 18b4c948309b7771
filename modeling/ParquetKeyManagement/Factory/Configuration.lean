/-
  ParquetKeyManagement.Factory.Configuration — encryption and decryption configurations and
  their builders (`crypto_factory.rs`).

  `build` refuses a configuration that names a column twice, under one master key or under
  two, and what it returns carries that it does not (`columnsUnique`). The loop that checks
  visits the keys in an order of the map's, which decides the error's text but not the
  outcome (`build_ok_iff`); nor do the order and the splitting of the calls (`build_accepts`).
-/

import Mathlib.Data.List.Induction
import ParquetKeyManagement.Kms.Connection

namespace ParquetKeyManagement

/-! ## Encryption -/

/-- Every column named in a map from master key ids to columns, with repetitions. -/
def namedColumns (columnKeyIds : HashMap String (List String)) : List String :=
  columnKeyIds.entries.flatMap fun e => e.2

structure EncryptionConfiguration where
  footerKeyId : String
  columnKeyIds : HashMap String (List String)
  plaintextFooter : Bool
  doubleWrapping : Bool
  cacheLifetime : Option Duration
  internalKeyMaterial : Bool
  dataKeyLengthBits : UInt32
  columnsUnique : (namedColumns columnKeyIds).Nodup

structure EncryptionConfigurationBuilder where
  footerKeyId : String
  columnKeyIds : HashMap String (List String)
  plaintextFooter : Bool
  doubleWrapping : Bool
  cacheLifetime : Option Duration
  internalKeyMaterial : Bool
  dataKeyLengthBits : UInt32

namespace EncryptionConfigurationBuilder

def new (footerKeyId : String) : EncryptionConfigurationBuilder where
  footerKeyId := footerKeyId
  columnKeyIds := ∅
  plaintextFooter := false
  doubleWrapping := true
  cacheLifetime := some (Duration.fromSecs 600)
  internalKeyMaterial := true
  dataKeyLengthBits := 128

def addColumnKey (b : EncryptionConfigurationBuilder) (masterKeyId : String) (columnPaths : List String) :
    EncryptionConfigurationBuilder :=
  { b with
    columnKeyIds :=
      b.columnKeyIds.insert masterKeyId ((b.columnKeyIds.lookup masterKeyId).getD [] ++ columnPaths) }

def setPlaintextFooter (b : EncryptionConfigurationBuilder) (plaintextFooter : Bool) : EncryptionConfigurationBuilder :=
  { b with plaintextFooter }

def setDoubleWrapping (b : EncryptionConfigurationBuilder) (doubleWrapping : Bool) : EncryptionConfigurationBuilder :=
  { b with doubleWrapping }

def setCacheLifetime (b : EncryptionConfigurationBuilder) (cacheLifetime : Option Duration) :
    EncryptionConfigurationBuilder :=
  { b with cacheLifetime }

/-- The loop over the columns of one master key. -/
def checkColumns (masterKeyId : String) (seenColumns : HashMap String String) :
    List String → Except ParquetError (HashMap String String)
  | [] => .ok seenColumns
  | colName :: columns =>
    match seenColumns.lookup colName with
    | some prevId =>
      if prevId = masterKeyId then
        .error (.general (s!"Invalid encryption configuration. Column '{colName}' is repeated multiple times " ++
          s!"for master key id '{masterKeyId}'"))
      else
        .error (.general (s!"Invalid encryption configuration. Column '{colName}' is configured to use multiple " ++
          s!"master key ids: '{masterKeyId}' and '{prevId}'"))
    | none => checkColumns masterKeyId (seenColumns.insert colName masterKeyId) columns

/-- The loop over the master keys. -/
def checkKeys (seenColumns : HashMap String String) :
    List (Sigma fun _ : String => List String) → Except ParquetError (HashMap String String)
  | [] => .ok seenColumns
  | e :: es =>
    match checkColumns e.1 seenColumns e.2 with
    | .ok seenColumns => checkKeys seenColumns es
    | .error e => .error e

theorem checkColumns_ok_iff {masterKeyId : String} {columns : List String} {seen : HashMap String String} :
    (∃ seen', checkColumns masterKeyId seen columns = .ok seen') ↔ columns.Nodup ∧ ∀ c ∈ columns, c ∉ seen := by
  induction columns generalizing seen with
  | nil => simp [checkColumns]
  | cons c columns ih =>
    unfold checkColumns
    cases hc : seen.lookup c with
    | some prevId =>
      have hm : c ∈ seen := AList.lookup_isSome.mp (by rw [hc]; rfl)
      simp only
      split <;> simp [hm]
    | none =>
      have hm : c ∉ seen := AList.lookup_eq_none.mp hc
      simp only [ih, AList.mem_insert, not_or, List.nodup_cons, List.forall_mem_cons]
      constructor
      · intro h
        obtain ⟨h1, h2⟩ := h
        exact ⟨⟨fun hc' => (h2 c hc').1 rfl, h1⟩, hm, fun x hx => (h2 x hx).2⟩
      · intro h
        obtain ⟨⟨h1, h2⟩, _, h3⟩ := h
        exact ⟨h2, fun x hx => ⟨fun e => h1 (e ▸ hx), h3 x hx⟩⟩

theorem checkColumns_mem {masterKeyId : String} {columns : List String} {seen seen' : HashMap String String}
    (h : checkColumns masterKeyId seen columns = .ok seen') {c : String} : c ∈ seen' ↔ c ∈ columns ∨ c ∈ seen := by
  induction columns generalizing seen with
  | nil => cases h; simp
  | cons x columns ih =>
    unfold checkColumns at h
    cases hx : seen.lookup x with
    | some prevId => rw [hx] at h; simp only at h; split at h <;> cases h
    | none =>
      rw [hx] at h
      rw [ih h, AList.mem_insert, List.mem_cons]
      tauto

theorem checkKeys_ok_iff {es : List (Sigma fun _ : String => List String)} {seen : HashMap String String} :
    (∃ seen', checkKeys seen es = .ok seen') ↔
      (es.flatMap fun e => e.2).Nodup ∧ ∀ c ∈ es.flatMap (fun e => e.2), c ∉ seen := by
  induction es generalizing seen with
  | nil => simp [checkKeys]
  | cons e es ih =>
    unfold checkKeys
    have hiff := @checkColumns_ok_iff e.1 e.2 seen
    cases hc : checkColumns e.1 seen e.2 with
    | error x =>
      have hn : ¬ (e.2.Nodup ∧ ∀ c ∈ e.2, c ∉ seen) := fun h => by obtain ⟨s, hs⟩ := hiff.mpr h; rw [hc] at hs; cases hs
      simp only [List.flatMap_cons, List.nodup_append, List.mem_append]
      constructor
      · rintro ⟨_, h⟩; cases h
      · rintro ⟨⟨h1, _⟩, h2⟩; exact absurd ⟨h1, fun c hc => h2 c (Or.inl hc)⟩ hn
    | ok seen' =>
      obtain ⟨h1, h2⟩ := hiff.mp ⟨seen', hc⟩
      simp only [ih, List.flatMap_cons, List.nodup_append, List.mem_append, checkColumns_mem hc, not_or]
      constructor
      · intro hboth
        obtain ⟨h3, h4⟩ := hboth
        refine ⟨⟨h1, h3, fun a ha b hb e => (h4 b hb).1 (e ▸ ha)⟩, ?_⟩
        rintro c (hc' | hc')
        · exact h2 c hc'
        · exact (h4 c hc').2
      · intro hboth
        obtain ⟨⟨_, h3, h4⟩, h5⟩ := hboth
        exact ⟨h3, fun c hc' => ⟨fun hc'' => h4 c hc'' c hc' rfl, h5 c (Or.inr hc')⟩⟩

theorem namedColumns_inOrder (order : IterationOrder) (m : HashMap String (List String)) :
    ((HashMap.inOrder order m).flatMap fun e => e.2).Perm (namedColumns m) :=
  (HashMap.inOrder_perm order m).flatMap_right _

/-- Finalizes the encryption configuration to be used. -/
def build (order : IterationOrder) (b : EncryptionConfigurationBuilder) : Except ParquetError EncryptionConfiguration :=
  match h : checkKeys ∅ (HashMap.inOrder order b.columnKeyIds) with
  | .error e => .error e
  | .ok _ => .ok { b with columnsUnique := (namedColumns_inOrder order _).nodup_iff.mp (checkKeys_ok_iff.mp ⟨_, h⟩).1 }

theorem build_ok_iff {order : IterationOrder} {b : EncryptionConfigurationBuilder} :
    (∃ c, b.build order = .ok c) ↔ (namedColumns b.columnKeyIds).Nodup := by
  rw [← (namedColumns_inOrder order _).nodup_iff]
  unfold build
  constructor
  · intro hexists
    obtain ⟨c, h⟩ := hexists
    split at h
    · cases h
    · exact (checkKeys_ok_iff.mp ⟨_, ‹_›⟩).1
  · intro hn
    obtain ⟨seen, hs⟩ := (@checkKeys_ok_iff _ ∅).mpr ⟨hn, fun c _ => AList.notMem_empty c⟩
    split
    · rename_i he; rw [hs] at he; cases he
    · exact ⟨_, rfl⟩

/-- A built configuration is the builder it came from. -/
def Matches (b : EncryptionConfigurationBuilder) (c : EncryptionConfiguration) : Prop :=
  b = ⟨c.footerKeyId, c.columnKeyIds, c.plaintextFooter, c.doubleWrapping, c.cacheLifetime, c.internalKeyMaterial,
    c.dataKeyLengthBits⟩

theorem build_matches {order : IterationOrder} {b : EncryptionConfigurationBuilder} {c : EncryptionConfiguration}
    (h : b.build order = .ok c) : b.Matches c := by
  unfold build at h
  split at h
  · cases h
  · cases h; rfl

/-- What `build` returns, when it does, is determined by the builder. -/
theorem Matches.build_ok {order : IterationOrder} {b : EncryptionConfigurationBuilder} {c : EncryptionConfiguration}
    (h : b.Matches c) : b.build order = .ok c := by
  have hn := c.columnsUnique
  obtain ⟨c', hc'⟩ := (@build_ok_iff order b).mpr (by rw [h]; exact hn)
  rw [hc']
  have he := (build_matches hc').symm.trans h
  cases c
  cases c'
  cases he
  rfl

end EncryptionConfigurationBuilder

def EncryptionConfiguration.builder (footerKeyId : String) : EncryptionConfigurationBuilder :=
  EncryptionConfigurationBuilder.new footerKeyId

/-- A call of one of the builder's setters. -/
inductive BuilderCall where
  | addColumnKey (masterKeyId : String) (columnPaths : List String)
  | setPlaintextFooter (plaintextFooter : Bool)
  | setDoubleWrapping (doubleWrapping : Bool)
  | setCacheLifetime (cacheLifetime : Option Duration)

namespace BuilderCall

def apply (b : EncryptionConfigurationBuilder) : BuilderCall → EncryptionConfigurationBuilder
  | .addColumnKey masterKeyId columnPaths => b.addColumnKey masterKeyId columnPaths
  | .setPlaintextFooter plaintextFooter => b.setPlaintextFooter plaintextFooter
  | .setDoubleWrapping doubleWrapping => b.setDoubleWrapping doubleWrapping
  | .setCacheLifetime cacheLifetime => b.setCacheLifetime cacheLifetime

/-- The builder after a sequence of calls. -/
def applyAll (footerKeyId : String) (calls : List BuilderCall) : EncryptionConfigurationBuilder :=
  calls.foldl apply (EncryptionConfiguration.builder footerKeyId)

/-- The columns a call names, with the master key they are to be encrypted with. -/
def named : BuilderCall → List (String × String)
  | .addColumnKey masterKeyId columnPaths => columnPaths.map fun c => (c, masterKeyId)
  | .setPlaintextFooter _ | .setDoubleWrapping _ | .setCacheLifetime _ => []

end BuilderCall

/-- `c` was returned by `build` after some sequence of setter calls. -/
def EncryptionConfiguration.Built (c : EncryptionConfiguration) : Prop :=
  ∃ footerKeyId calls order, (BuilderCall.applyAll footerKeyId calls).build order = .ok c

/-- No setter changes the two options that are not implemented. -/
theorem applyAll_fixed (footerKeyId : String) (calls : List BuilderCall) :
    (BuilderCall.applyAll footerKeyId calls).footerKeyId = footerKeyId ∧
      (BuilderCall.applyAll footerKeyId calls).internalKeyMaterial = true ∧
      (BuilderCall.applyAll footerKeyId calls).dataKeyLengthBits = 128 := by
  induction calls using List.reverseRecOn with
  | nil => exact ⟨rfl, rfl, rfl⟩
  | append_singleton calls call ih =>
    rw [BuilderCall.applyAll, List.foldl_append, List.foldl_cons, List.foldl_nil]
    cases call <;> exact ih

/-- A column is stored under a key exactly when some call named it with that key. -/
theorem applyAll_columns (footerKeyId : String) (calls : List BuilderCall) (k col : String) :
    col ∈ ((BuilderCall.applyAll footerKeyId calls).columnKeyIds.lookup k).getD [] ↔
      (col, k) ∈ calls.flatMap BuilderCall.named := by
  induction calls using List.reverseRecOn with
  | nil => simp [BuilderCall.applyAll, EncryptionConfiguration.builder, EncryptionConfigurationBuilder.new]
  | append_singleton calls call ih =>
    rw [BuilderCall.applyAll, List.foldl_append, List.foldl_cons, List.foldl_nil, List.flatMap_append, List.mem_append,
      ← ih]
    cases call with
    | addColumnKey masterKeyId columnPaths =>
      by_cases e : k = masterKeyId
      · subst e
        simp [BuilderCall.apply, EncryptionConfigurationBuilder.addColumnKey, BuilderCall.applyAll, BuilderCall.named]
      · have e' : masterKeyId ≠ k := fun h => e h.symm
        simp [BuilderCall.apply, EncryptionConfigurationBuilder.addColumnKey, BuilderCall.applyAll, BuilderCall.named,
          AList.lookup_insert_ne e, e']
    | setPlaintextFooter _ => simp [BuilderCall.apply, BuilderCall.named]; rfl
    | setDoubleWrapping _ => simp [BuilderCall.apply, BuilderCall.named]; rfl
    | setCacheLifetime _ => simp [BuilderCall.apply, BuilderCall.named]; rfl

/-- A key's new columns join those named already. -/
theorem namedColumns_add (m : HashMap String (List String)) (k : String) (columns : List String) :
    (namedColumns (m.insert k ((m.lookup k).getD [] ++ columns))).Perm (namedColumns m ++ columns) := by
  unfold namedColumns
  cases hl : m.lookup k with
  | none =>
    rw [AList.entries_insert_of_notMem (AList.lookup_eq_none.mp hl), List.flatMap_cons]
    exact List.perm_append_comm
  | some old =>
    have hk : k ∈ m.entries.keys := AList.lookup_isSome.mp (by rw [hl]; rfl)
    obtain ⟨b, l1, l2, _, he, hkerase⟩ := List.exists_of_kerase hk
    -- the entry erased is the one that was looked up
    have hb : m.lookup k = some b := HashMap.mem_entries_iff.mp (by rw [he]; simp)
    rw [hl] at hb
    cases hb
    rw [AList.entries_insert, hkerase, he, List.perm_iff_count]
    intro c
    simp only [List.flatMap_append, List.flatMap_cons, Option.getD_some, List.count_append]
    omega

/-- The columns stored are those the calls named, with repetitions. -/
theorem applyAll_named (footerKeyId : String) (calls : List BuilderCall) :
    (namedColumns (BuilderCall.applyAll footerKeyId calls).columnKeyIds).Perm
      ((calls.flatMap BuilderCall.named).map Prod.fst) := by
  induction calls using List.reverseRecOn with
  | nil => exact List.Perm.refl _
  | append_singleton calls call ih =>
    rw [BuilderCall.applyAll, List.foldl_append, List.foldl_cons, List.foldl_nil, List.flatMap_append, List.map_append]
    cases call with
    | addColumnKey masterKeyId columnPaths =>
      have hm : (List.flatMap BuilderCall.named [.addColumnKey masterKeyId columnPaths]).map
          Prod.fst = columnPaths := by
        simp [BuilderCall.named, Function.comp_def]
      rw [hm]
      exact (namedColumns_add _ masterKeyId columnPaths).trans (ih.append_right _)
    | setPlaintextFooter _ => rw [List.flatMap_singleton, BuilderCall.named, List.map_nil, List.append_nil]; exact ih
    | setDoubleWrapping _ => rw [List.flatMap_singleton, BuilderCall.named, List.map_nil, List.append_nil]; exact ih
    | setCacheLifetime _ => rw [List.flatMap_singleton, BuilderCall.named, List.map_nil, List.append_nil]; exact ih

/-! ## What is accepted -/

/-- The columns a call adds, under whichever key. -/
def BuilderCall.columnPaths : BuilderCall → List String
  | .addColumnKey _ columnPaths => columnPaths
  | .setPlaintextFooter _ | .setDoubleWrapping _ | .setCacheLifetime _ => []

theorem BuilderCall.named_fst (call : BuilderCall) : call.named.map Prod.fst = call.columnPaths := by
  cases call <;> simp [BuilderCall.named, BuilderCall.columnPaths, Function.comp_def]

theorem flatMap_named_fst (calls : List BuilderCall) :
    (calls.flatMap BuilderCall.named).map Prod.fst = calls.flatMap BuilderCall.columnPaths := by
  rw [List.map_flatMap]
  exact List.flatMap_congr fun call _ => call.named_fst

theorem mem_named_iff {calls : List BuilderCall} {col k : String} :
    (col, k) ∈ calls.flatMap BuilderCall.named ↔
      ∃ columnPaths, BuilderCall.addColumnKey k columnPaths ∈ calls ∧ col ∈ columnPaths := by
  rw [List.mem_flatMap]
  constructor
  · intro h
    obtain ⟨call, hcall, hmem⟩ := h
    cases call with
    | addColumnKey masterKeyId columnPaths =>
      obtain ⟨c, hc, he⟩ := List.mem_map.mp hmem
      cases he
      exact ⟨columnPaths, hcall, hc⟩
    | setPlaintextFooter _ => cases hmem
    | setDoubleWrapping _ => cases hmem
    | setCacheLifetime _ => cases hmem
  · intro h
    obtain ⟨columnPaths, hcall, hcol⟩ := h
    exact ⟨_, hcall, List.mem_map.mpr ⟨col, hcol, rfl⟩⟩

/-- Two sequences of calls that differ in the order of the calls, and in how the columns of a key
are split over them. -/
inductive Regrouped : List BuilderCall → List BuilderCall → Prop where
  | perm {calls calls' : List BuilderCall} : calls.Perm calls' → Regrouped calls calls'
  | split (k : String) (columns columns' : List String) (calls : List BuilderCall) :
    Regrouped (.addColumnKey k (columns ++ columns') :: calls)
      (.addColumnKey k columns :: .addColumnKey k columns' :: calls)
  | symm {calls calls' : List BuilderCall} : Regrouped calls calls' → Regrouped calls' calls
  | trans {calls calls' calls'' : List BuilderCall} :
    Regrouped calls calls' → Regrouped calls' calls'' → Regrouped calls calls''

/-- However they are grouped, the calls name the same columns with the same keys. -/
theorem Regrouped.named_perm {calls calls' : List BuilderCall} (h : Regrouped calls calls') :
    (calls.flatMap BuilderCall.named).Perm (calls'.flatMap BuilderCall.named) := by
  induction h with
  | perm h => exact h.flatMap_right _
  | split k columns columns' calls => simp [BuilderCall.named]
  | symm _ ih => exact ih.symm
  | trans _ _ ih1 ih2 => exact ih1.trans ih2

theorem Regrouped.columnPaths_perm {calls calls' : List BuilderCall} (h : Regrouped calls calls') :
    (calls.flatMap BuilderCall.columnPaths).Perm (calls'.flatMap BuilderCall.columnPaths) := by
  rw [← flatMap_named_fst, ← flatMap_named_fst]
  exact h.named_perm.map _

theorem applyAll_build_ok_iff {footerKeyId : String} {calls : List BuilderCall} {order : IterationOrder} :
    (∃ c, (BuilderCall.applyAll footerKeyId calls).build order = .ok c) ↔
      (calls.flatMap BuilderCall.columnPaths).Nodup := by
  rw [EncryptionConfigurationBuilder.build_ok_iff, (applyAll_named footerKeyId calls).nodup_iff, flatMap_named_fst]

/-- A column is listed under a key exactly when some call added it there. -/
theorem build_columns {footerKeyId : String} {calls : List BuilderCall} {order : IterationOrder}
    {c : EncryptionConfiguration} (h : (BuilderCall.applyAll footerKeyId calls).build order = .ok c) (k col : String) :
    col ∈ (c.columnKeyIds.lookup k).getD [] ↔
      ∃ columnPaths, BuilderCall.addColumnKey k columnPaths ∈ calls ∧ col ∈ columnPaths := by
  have hb := EncryptionConfigurationBuilder.build_matches h
  have hc : (BuilderCall.applyAll footerKeyId calls).columnKeyIds = c.columnKeyIds := by rw [hb]
  rw [← hc, applyAll_columns, mem_named_iff]

/-- No two calls that an accepted configuration comes from add a column under two keys. -/
theorem masterKey_unique {calls : List BuilderCall} (h : (calls.flatMap BuilderCall.columnPaths).Nodup)
    {col k k' : String} (hk : (col, k) ∈ calls.flatMap BuilderCall.named)
    (hk' : (col, k') ∈ calls.flatMap BuilderCall.named) : k = k' := by
  rw [← flatMap_named_fst] at h
  have he := List.inj_on_of_nodup_map h hk hk' rfl
  cases he
  rfl

/-- `build` accepts the calls that name no column twice, whatever the order in which it visits the keys and however the
    calls are ordered and split, and then each column has the one master key it was added to. -/
theorem build_accepts (footerKeyId : String) (calls : List BuilderCall) (order : IterationOrder) :
    ((∃ c, (BuilderCall.applyAll footerKeyId calls).build order = .ok c) ↔
      (calls.flatMap BuilderCall.columnPaths).Nodup) ∧
    (∀ c, (BuilderCall.applyAll footerKeyId calls).build order = .ok c →
      (∀ k col, col ∈ (c.columnKeyIds.lookup k).getD [] ↔
        ∃ columnPaths, BuilderCall.addColumnKey k columnPaths ∈ calls ∧ col ∈ columnPaths) ∧
      ∀ col ∈ calls.flatMap BuilderCall.columnPaths, ∃! k, col ∈ (c.columnKeyIds.lookup k).getD []) ∧
    ∀ calls' order', Regrouped calls calls' →
      ((∃ c, (BuilderCall.applyAll footerKeyId calls).build order = .ok c) ↔
        ∃ c, (BuilderCall.applyAll footerKeyId calls').build order' = .ok c) := by
  refine ⟨applyAll_build_ok_iff, fun c hc => ⟨fun k col => build_columns hc k col, fun col hcol => ?_⟩, ?_⟩
  · have hnodup := applyAll_build_ok_iff.mp ⟨c, hc⟩
    rw [← flatMap_named_fst] at hcol
    obtain ⟨⟨col', k⟩, hk, he⟩ := List.mem_map.mp hcol
    cases he
    refine ⟨k, (build_columns hc k _).mpr (mem_named_iff.mp hk), fun k' hk' => ?_⟩
    exact masterKey_unique hnodup (mem_named_iff.mpr ((build_columns hc k' _).mp hk')) hk
  · intro calls' order' h
    rw [applyAll_build_ok_iff, applyAll_build_ok_iff, h.columnPaths_perm.nodup_iff]

theorem build_accepts_sample :
    (∃ c, (BuilderCall.applyAll "kf" [.addColumnKey "kc" ["a", "b"]]).build .stored = .ok c) ∧
      ∃ c, (BuilderCall.applyAll "kf" [.addColumnKey "kc" ["a"], .addColumnKey "kc" ["b"]]).build .stored = .ok c := by
  have h := build_accepts "kf" [.addColumnKey "kc" ["a", "b"]] .stored
  have hok := h.1.mpr (by decide)
  exact ⟨hok, (h.2.2 _ .stored (.split "kc" ["a"] ["b"] [])).mp hok⟩

/-! ## Decryption -/

structure DecryptionConfiguration where
  cacheLifetime : Option Duration
  deriving DecidableEq

structure DecryptionConfigurationBuilder where
  cacheLifetime : Option Duration

namespace DecryptionConfigurationBuilder

def new : DecryptionConfigurationBuilder := ⟨some (Duration.fromSecs 600)⟩

def setCacheLifetime (_ : DecryptionConfigurationBuilder) (cacheLifetime : Option Duration) :
    DecryptionConfigurationBuilder := { cacheLifetime }

def build (b : DecryptionConfigurationBuilder) : DecryptionConfiguration := ⟨b.cacheLifetime⟩

end DecryptionConfigurationBuilder

end ParquetKeyManagement
