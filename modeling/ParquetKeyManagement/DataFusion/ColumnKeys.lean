/-
  ParquetKeyManagement.DataFusion.ColumnKeys — the text that holds a map from master key ids
  to columns (`serialize_column_keys` and `deserialize_column_keys` of `datafusion.rs`).

  The format is "columnKeyId1:column1,column2;columnKeyId2:column3", and nothing is escaped.
  - `deserialize_serialize`: a map whose ids and columns are free of the characters that
    separate them (`Formattable`) is read back as it was, whatever the iteration order.
  - `deserialize_formattable`: nothing else is ever read.
  - `deserializeColumnKeys_exact_iff`: reading keeps every column of a text exactly when, for
    each master key, the last segment that names it has them all.
-/

import ParquetKeyManagement.Support.Text
import ParquetKeyManagement.Kms.Connection

namespace ParquetKeyManagement

/-- `datafusion_common::DataFusionError`, the variants this library returns. -/
inductive DataFusionError where
  | configuration (message : String)
  /-- A `ParquetError`, converted by `?`. -/
  | parquetError (source : ParquetError)
  deriving DecidableEq, Repr

abbrev ColumnKeys : Type := HashMap String (List String)

/-- One turn of the loop over the map; the flag says that it is the first. -/
def pushColumnKey (acc : String × Bool) (e : Sigma fun _ : String => List String) : String × Bool :=
  let result := if acc.2 then acc.1 else acc.1.push ';'
  ((result ++ e.1).push ':' ++ Text.join ',' e.2, false)

def serializeColumnKeys (order : IterationOrder) (columnKeyIds : ColumnKeys) : String :=
  ((HashMap.inOrder order columnKeyIds).foldl pushColumnKey ("", true)).1

/-- One turn of the loop over the segments of `columnKeyIds`. -/
def insertSegment (columnKeyIds : String) (keys : ColumnKeys) (keyWithCols : String) :
    Except DataFusionError ColumnKeys :=
  if keyWithCols.isEmpty then .ok keys
  else
    match Text.splitOnce ':' keyWithCols with
    | none =>
      .error (.configuration s!"Invalid column_key_ids format in encryption configuration: '{columnKeyIds}'")
    | some (keyId, cols) => .ok (keys.insert keyId ((Text.split ',' cols).filter fun s => ¬ s.isEmpty))

def deserializeColumnKeys (columnKeyIds : String) : Except DataFusionError ColumnKeys :=
  (Text.split ';' columnKeyIds).foldlM (insertSegment columnKeyIds) ∅

/-! ## What can be formatted -/

/-- A column name that the format keeps. -/
def FormattableColumn (column : String) : Prop := column ≠ "" ∧ ',' ∉ column.toList ∧ ';' ∉ column.toList

/-- A master key id that the format keeps. -/
def FormattableKeyId (keyId : String) : Prop := ':' ∉ keyId.toList ∧ ';' ∉ keyId.toList

/-- Every master key id and every column of the map is kept. -/
def Formattable (columnKeyIds : ColumnKeys) : Prop :=
  ∀ keyId columns, columnKeyIds.lookup keyId = some columns →
    FormattableKeyId keyId ∧ ∀ c ∈ columns, FormattableColumn c

instance (column : String) : Decidable (FormattableColumn column) := inferInstanceAs (Decidable (_ ∧ _))

instance (keyId : String) : Decidable (FormattableKeyId keyId) := inferInstanceAs (Decidable (_ ∧ _))

theorem formattable_iff_entries {columnKeyIds : ColumnKeys} :
    Formattable columnKeyIds ↔
      ∀ e ∈ columnKeyIds.entries, FormattableKeyId e.1 ∧ ∀ c ∈ e.2, FormattableColumn c := by
  constructor
  · intro h e he
    exact h e.1 e.2 (HashMap.mem_entries_iff.mp he)
  · intro h keyId columns hl
    exact h ⟨keyId, columns⟩ (HashMap.mem_entries_iff.mpr hl)

instance (columnKeyIds : ColumnKeys) : Decidable (Formattable columnKeyIds) :=
  decidable_of_iff' _ formattable_iff_entries

/-! ## Serializing -/

/-- The segment of one master key. -/
def segment (e : Sigma fun _ : String => List String) : String := e.1.push ':' ++ Text.join ',' e.2

theorem foldl_pushColumnKey (es : List (Sigma fun _ : String => List String)) (result : String) :
    (es.foldl pushColumnKey (result, false)).1 = Text.join ';' (result :: es.map segment) := by
  induction es generalizing result with
  | nil => exact (String.intercalate_singleton ..).symm
  | cons e es ih =>
    have hpush : pushColumnKey (result, false) e = (result.push ';' ++ segment e, false) := by
      simp [pushColumnKey, segment, ← String.toList_inj]
    rw [List.foldl_cons, hpush, ih]
    rw [← String.toList_inj, Text.toList_join, Text.toList_join]
    cases es <;> simp

theorem serializeColumnKeys_eq (order : IterationOrder) (columnKeyIds : ColumnKeys) :
    serializeColumnKeys order columnKeyIds = Text.join ';' ((HashMap.inOrder order columnKeyIds).map segment) := by
  unfold serializeColumnKeys
  cases HashMap.inOrder order columnKeyIds with
  | nil => rfl
  | cons e es =>
    have hpush : pushColumnKey ("", true) e = (segment e, false) := by
      simp [pushColumnKey, segment]
    rw [List.foldl_cons, hpush, foldl_pushColumnKey, List.map_cons]

/-! ## Reading back -/

theorem splitOnce_segment {e : Sigma fun _ : String => List String} (h : FormattableKeyId e.1) :
    Text.splitOnce ':' (segment e) = some (e.1, Text.join ',' e.2) :=
  Text.splitOnce_eq_some_iff.mpr ⟨h.1, by simp [segment]⟩

/-- The columns of a segment. -/
theorem split_columns {columns : List String} (h : ∀ c ∈ columns, FormattableColumn c) :
    ((Text.split ',' (Text.join ',' columns)).filter fun s => ¬ s.isEmpty) = columns := by
  rcases columns with _ | ⟨c, columns⟩
  · simp
  · rw [Text.split_join (fun p hp => (h p hp).2.1) (List.cons_ne_nil _ _)]
    refine List.filter_eq_self.mpr fun p hp => ?_
    simpa using (h p hp).1

theorem insertSegment_segment {e : Sigma fun _ : String => List String} (hk : FormattableKeyId e.1)
    (hc : ∀ c ∈ e.2, FormattableColumn c) (columnKeyIds : String) (keys : ColumnKeys) :
    insertSegment columnKeyIds keys (segment e) = .ok (keys.insert e.1 e.2) := by
  have hne : (segment e).isEmpty = false := by
    rw [Bool.eq_false_iff, Ne, String.isEmpty_iff, ← String.toList_inj]
    simp [segment]
  unfold insertSegment
  rw [if_neg (by simp [hne]), splitOnce_segment hk]
  simp only
  rw [split_columns hc]

theorem foldlM_insertSegment {es : List (Sigma fun _ : String => List String)}
    (h : ∀ e ∈ es, FormattableKeyId e.1 ∧ ∀ c ∈ e.2, FormattableColumn c) (columnKeyIds : String) (keys : ColumnKeys) :
    (es.map segment).foldlM (insertSegment columnKeyIds) keys = .ok (HashMap.insertAll es keys) := by
  induction es generalizing keys with
  | nil => rfl
  | cons e es ih =>
    obtain ⟨hk, hc⟩ := h e (List.mem_cons_self ..)
    rw [List.map_cons, List.foldlM_cons, insertSegment_segment hk hc]
    exact ih (fun e' he' => h e' (List.mem_cons_of_mem _ he')) _

/-- A segment is free of the separator of segments. -/
theorem not_mem_segment {e : Sigma fun _ : String => List String} (hk : FormattableKeyId e.1)
    (hc : ∀ c ∈ e.2, FormattableColumn c) : ';' ∉ (segment e).toList := by
  intro h
  have hmem : ';' ∈ e.1.toList ∨ ';' ∈ (Text.join ',' e.2).toList := by simpa [segment] using h
  rcases hmem with h1 | h1
  · exact hk.2 h1
  · rcases Text.mem_toList_join h1 with h2 | ⟨c, hmem, h2⟩
    · exact absurd h2 (by decide)
    · exact (hc c hmem).2.2 h2

theorem deserialize_serialize {columnKeyIds : ColumnKeys} (h : Formattable columnKeyIds) (order : IterationOrder) :
    deserializeColumnKeys (serializeColumnKeys order columnKeyIds) =
      .ok (HashMap.insertAll (HashMap.inOrder order columnKeyIds) ∅) := by
  have hentries : ∀ e ∈ HashMap.inOrder order columnKeyIds,
      FormattableKeyId e.1 ∧ ∀ c ∈ e.2, FormattableColumn c :=
    fun e he => formattable_iff_entries.mp h e (HashMap.mem_inOrder.mp he)
  unfold deserializeColumnKeys
  rw [serializeColumnKeys_eq]
  cases hes : HashMap.inOrder order columnKeyIds with
  | nil => rfl
  | cons e es =>
    rw [hes] at hentries
    rw [Text.split_join _ (by simp)]
    · exact foldlM_insertSegment hentries _ _
    · intro p hp
      obtain ⟨e', he', rfl⟩ := List.mem_map.mp hp
      exact not_mem_segment (hentries e' he').1 (hentries e' he').2

/-- What is read back looks up what was written. -/
theorem lookup_deserialize_serialize (order : IterationOrder) (columnKeyIds : ColumnKeys) (keyId : String) :
    (HashMap.insertAll (HashMap.inOrder order columnKeyIds) ∅).lookup keyId = columnKeyIds.lookup keyId := by
  rw [HashMap.lookup_insertAll (HashMap.inOrder_nodupKeys order columnKeyIds),
    HashMap.dlookup_inOrder, AList.lookup_empty, Option.or_none]

/-! ## What can be read -/

theorem insertSegment_formattable {columnKeyIds keyWithCols : String} {keys keys' : ColumnKeys}
    (hseg : ';' ∉ keyWithCols.toList) (h : insertSegment columnKeyIds keys keyWithCols = .ok keys')
    (hkeys : Formattable keys) : Formattable keys' := by
  unfold insertSegment at h
  by_cases he : keyWithCols.isEmpty
  · rw [if_pos he] at h
    cases h
    exact hkeys
  · rw [if_neg he] at h
    cases hs : Text.splitOnce ':' keyWithCols with
    | none => rw [hs] at h; cases h
    | some r =>
      obtain ⟨keyId, cols⟩ := r
      rw [hs] at h
      cases h
      obtain ⟨hkey, htext⟩ := Text.splitOnce_eq_some_iff.mp hs
      rw [htext, List.mem_append, List.mem_cons, not_or, not_or] at hseg
      intro keyId' columns hl
      by_cases hk : keyId' = keyId
      · subst hk
        rw [AList.lookup_insert] at hl
        cases hl
        refine ⟨⟨hkey, hseg.1⟩, fun c hc => ?_⟩
        obtain ⟨hc, hne⟩ := List.mem_filter.mp hc
        exact ⟨by simpa using hne, Text.not_mem_of_mem_split hc, fun hd => hseg.2.2 (Text.mem_of_mem_split hc hd)⟩
      · rw [AList.lookup_insert_ne hk] at hl
        exact hkeys keyId' columns hl

theorem foldlM_formattable {columnKeyIds : String} {segments : List String} {keys keys' : ColumnKeys}
    (hseg : ∀ s ∈ segments, ';' ∉ s.toList) (h : segments.foldlM (insertSegment columnKeyIds) keys = .ok keys')
    (hkeys : Formattable keys) : Formattable keys' := by
  induction segments generalizing keys with
  | nil => cases h; exact hkeys
  | cons s segments ih =>
    rw [List.foldlM_cons] at h
    cases hs : insertSegment columnKeyIds keys s with
    | error e => rw [hs] at h; cases h
    | ok keys1 =>
      rw [hs] at h
      exact ih (fun s' hs' => hseg s' (List.mem_cons_of_mem _ hs')) h
        (insertSegment_formattable (hseg s (List.mem_cons_self ..)) hs hkeys)

theorem deserialize_formattable {s : String} {columnKeyIds : ColumnKeys}
    (h : deserializeColumnKeys s = .ok columnKeyIds) : Formattable columnKeyIds := by
  refine foldlM_formattable (fun p hp => Text.not_mem_of_mem_split hp) h fun keyId columns hl => ?_
  cases hl

/-! ## There and back -/

/-- Whatever the iteration order is, a map is read back as it was written exactly when the format
    keeps its key ids and columns; and so is every map that can be read. -/
theorem columnKeys_round_trip_iff (columnKeyIds : ColumnKeys) (order : IterationOrder) :
    ((∃ keys, deserializeColumnKeys (serializeColumnKeys order columnKeyIds) = .ok keys ∧
        ∀ keyId, keys.lookup keyId = columnKeyIds.lookup keyId) ↔ Formattable columnKeyIds) ∧
      ∀ s, deserializeColumnKeys s = .ok columnKeyIds →
        ∃ keys, deserializeColumnKeys (serializeColumnKeys order columnKeyIds) = .ok keys ∧
          ∀ keyId, keys.lookup keyId = columnKeyIds.lookup keyId := by
  have hback : Formattable columnKeyIds →
      ∃ keys, deserializeColumnKeys (serializeColumnKeys order columnKeyIds) = .ok keys ∧
        ∀ keyId, keys.lookup keyId = columnKeyIds.lookup keyId := by
    intro h
    exact ⟨_, deserialize_serialize h order, lookup_deserialize_serialize order columnKeyIds⟩
  refine ⟨⟨?_, hback⟩, fun s h => hback (deserialize_formattable h)⟩
  rintro ⟨keys, hread, hsame⟩ keyId columns hl
  exact deserialize_formattable hread keyId columns ((hsame keyId).trans hl)

/-- A column with a colon in its name comes back, and so does an empty list of columns. -/
theorem columnKeys_round_trip_sample :
    ∃ keys, deserializeColumnKeys (serializeColumnKeys IterationOrder.stored
        (HashMap.insertAll [⟨"kc1", ["a:b", "c"]⟩, ⟨"", []⟩] ∅)) = .ok keys ∧
      ∀ keyId, keys.lookup keyId = (HashMap.insertAll [⟨"kc1", ["a:b", "c"]⟩, ⟨"", []⟩] ∅ : ColumnKeys).lookup keyId :=
  (columnKeys_round_trip_iff _ IterationOrder.stored).1.mpr (by decide)

/-! ## What a text denotes -/

/-- The columns that the rest of a segment lists. -/
def listedColumns (cols : String) : List String := (Text.split ',' cols).filter fun s => ¬ s.isEmpty

/-- The master key id and the columns of every segment that has a colon. -/
def denoted (columnKeyIds : String) : List (Sigma fun _ : String => List String) :=
  (Text.split ';' columnKeyIds).filterMap fun keyWithCols =>
    (Text.splitOnce ':' keyWithCols).map fun r => ⟨r.1, listedColumns r.2⟩

/-- Every segment with something in it names a master key. -/
def EachNamed (columnKeyIds : String) : Prop :=
  ∀ keyWithCols ∈ Text.split ';' columnKeyIds, keyWithCols ≠ "" → ':' ∈ keyWithCols.toList

/-- The map holds the master keys and columns that the text denotes, and no others. -/
structure HoldsDenoted (columnKeyIds : String) (keys : ColumnKeys) : Prop where
  keyIds : ∀ keyId, keyId ∈ keys ↔ ∃ e ∈ denoted columnKeyIds, e.1 = keyId
  columns : ∀ keyId c, (∃ columns, keys.lookup keyId = some columns ∧ c ∈ columns) ↔
    ∃ e ∈ denoted columnKeyIds, e.1 = keyId ∧ c ∈ e.2

/-- The text is refused exactly when a segment names no master key, and otherwise read in full. -/
structure ParsedExactly (columnKeyIds : String) : Prop where
  accepted : (∃ keys, deserializeColumnKeys columnKeyIds = .ok keys) ↔ EachNamed columnKeyIds
  holds : ∀ keys, deserializeColumnKeys columnKeyIds = .ok keys → HoldsDenoted columnKeyIds keys

/-- The last segment of a master key lists every column that any segment lists under it. -/
def LastListsAll (columnKeyIds : String) : Prop :=
  ∀ e ∈ denoted columnKeyIds, ∀ c ∈ e.2,
    ∃ columns, (denoted columnKeyIds).reverse.dlookup e.1 = some columns ∧ c ∈ columns

theorem insertSegment_eq (columnKeyIds keyWithCols : String) (keys : ColumnKeys) :
    insertSegment columnKeyIds keys keyWithCols =
      match Text.splitOnce ':' keyWithCols with
      | some r => .ok (keys.insert r.1 (listedColumns r.2))
      | none => if keyWithCols = "" then .ok keys else
          .error (.configuration s!"Invalid column_key_ids format in encryption configuration: '{columnKeyIds}'") := by
  unfold insertSegment
  by_cases he : keyWithCols = ""
  · subst he
    rfl
  · rw [if_neg (by simpa using he)]
    cases Text.splitOnce ':' keyWithCols with
    | none => simp only [if_neg he]
    | some r => rfl

/-- The loop over segments that have names inserts what they denote. -/
theorem foldlM_denoted {columnKeyIds : String} {segments : List String} (keys : ColumnKeys)
    (h : ∀ s ∈ segments, s ≠ "" → ':' ∈ s.toList) :
    segments.foldlM (insertSegment columnKeyIds) keys =
      .ok (HashMap.insertAll (segments.filterMap fun keyWithCols =>
        (Text.splitOnce ':' keyWithCols).map fun r => ⟨r.1, listedColumns r.2⟩) keys) := by
  induction segments generalizing keys with
  | nil => rfl
  | cons s segments ih =>
    have hrest : ∀ s' ∈ segments, s' ≠ "" → ':' ∈ s'.toList := fun s' hs' => h s' (List.mem_cons_of_mem _ hs')
    rw [List.foldlM_cons, insertSegment_eq]
    cases hs : Text.splitOnce ':' s with
    | some r =>
      rw [List.filterMap_cons_some (by rw [hs]; rfl)]
      exact ih _ hrest
    | none =>
      have hempty : s = "" := by
        by_contra hne
        exact Text.splitOnce_eq_none_iff.mp hs (h s (List.mem_cons_self ..) hne)
      rw [List.filterMap_cons_none (by rw [hs]; rfl)]
      simp only [if_pos hempty]
      exact ih _ hrest

/-- A loop that does not fail saw a name in every segment. -/
theorem named_of_foldlM {columnKeyIds : String} {segments : List String} {keys keys' : ColumnKeys}
    (h : segments.foldlM (insertSegment columnKeyIds) keys = .ok keys') : ∀ s ∈ segments, s ≠ "" → ':' ∈ s.toList := by
  induction segments generalizing keys with
  | nil => intro s hs; cases hs
  | cons s segments ih =>
    rw [List.foldlM_cons, insertSegment_eq] at h
    intro s' hs' hne
    cases hs : Text.splitOnce ':' s with
    | some r =>
      rw [hs] at h
      rcases List.mem_cons.mp hs' with rfl | hs'
      · rw [(Text.splitOnce_eq_some_iff.mp hs).2]
        simp
      · exact ih h s' hs' hne
    | none =>
      rw [hs] at h
      by_cases hempty : s = ""
      · simp only [if_pos hempty] at h
        rcases List.mem_cons.mp hs' with rfl | hs'
        · exact absurd hempty hne
        · exact ih h s' hs' hne
      · simp only [if_neg hempty] at h
        cases h

theorem deserialize_ok_iff (columnKeyIds : String) :
    (∃ keys, deserializeColumnKeys columnKeyIds = .ok keys) ↔ EachNamed columnKeyIds := by
  constructor
  · intro hexists
    obtain ⟨keys, h⟩ := hexists
    exact named_of_foldlM h
  · intro h
    exact ⟨_, foldlM_denoted ∅ h⟩

/-- What is read for a master key is what its last segment lists. -/
theorem lookup_deserialize {columnKeyIds : String} {keys : ColumnKeys}
    (h : deserializeColumnKeys columnKeyIds = .ok keys) (keyId : String) :
    keys.lookup keyId = (denoted columnKeyIds).reverse.dlookup keyId := by
  have hnamed : EachNamed columnKeyIds := (deserialize_ok_iff columnKeyIds).mp ⟨keys, h⟩
  unfold deserializeColumnKeys at h
  rw [foldlM_denoted ∅ hnamed] at h
  cases h
  exact (HashMap.lookup_insertAll_last _ ∅ keyId).trans (Option.or_none ..)

theorem mem_deserialize {columnKeyIds : String} {keys : ColumnKeys}
    (h : deserializeColumnKeys columnKeyIds = .ok keys) (keyId : String) :
    keyId ∈ keys ↔ ∃ e ∈ denoted columnKeyIds, e.1 = keyId := by
  rw [← AList.lookup_isSome, lookup_deserialize h, List.dlookup_isSome, List.mem_keys]
  constructor
  · intro hexists
    obtain ⟨columns, hmem⟩ := hexists
    exact ⟨_, List.mem_reverse.mp hmem, rfl⟩
  · intro hexists
    obtain ⟨e, hmem, rfl⟩ := hexists
    exact ⟨e.2, List.mem_reverse.mpr hmem⟩

theorem holdsDenoted_iff {columnKeyIds : String} {keys : ColumnKeys}
    (h : deserializeColumnKeys columnKeyIds = .ok keys) : HoldsDenoted columnKeyIds keys ↔
    LastListsAll columnKeyIds := by
  constructor
  · intro hholds e he c hc
    obtain ⟨columns, hl, hmem⟩ := (hholds.columns e.1 c).mpr ⟨e, he, rfl, hc⟩
    exact ⟨columns, (lookup_deserialize h e.1).symm.trans hl, hmem⟩
  · intro hlast
    refine ⟨mem_deserialize h, fun keyId c => ⟨?_, ?_⟩⟩
    · intro hexists
      obtain ⟨columns, hl, hmem⟩ := hexists
      rw [lookup_deserialize h] at hl
      exact ⟨⟨keyId, columns⟩, List.mem_reverse.mp (List.of_mem_dlookup hl), rfl, hmem⟩
    · intro hexists
      obtain ⟨e, he, rfl, hc⟩ := hexists
      obtain ⟨columns, hl, hmem⟩ := hlast e he c hc
      exact ⟨columns, (lookup_deserialize h e.1).trans hl, hmem⟩

/-- A text is refused exactly when a segment names no master key. It is read in full exactly when
    it is refused, or for each master key the last segment that names it lists every column
    that is listed under it. -/
theorem deserializeColumnKeys_exact_iff (columnKeyIds : String) :
    ((∃ keys, deserializeColumnKeys columnKeyIds = .ok keys) ↔ EachNamed columnKeyIds) ∧
      (ParsedExactly columnKeyIds ↔ (EachNamed columnKeyIds → LastListsAll columnKeyIds)) := by
  have haccepted := deserialize_ok_iff columnKeyIds
  refine ⟨haccepted, fun hparsed hnamed => ?_, fun hlast => ⟨haccepted, fun keys h => ?_⟩⟩
  · obtain ⟨keys, h⟩ := haccepted.mpr hnamed
    exact (holdsDenoted_iff h).mp (hparsed.holds keys h)
  · exact (holdsDenoted_iff h).mpr (hlast (haccepted.mp ⟨keys, h⟩))

/-- Of two segments for one master key the columns of the first are lost. -/
theorem deserializeColumnKeys_loses_column :
    (deserializeColumnKeys "kc:a;kc:b").toOption.map (fun keys => keys.entries) = some [⟨"kc", ["b"]⟩] ∧
      ¬ ParsedExactly "kc:a;kc:b" := by
  have hread : (deserializeColumnKeys "kc:a;kc:b").toOption.map (fun keys => keys.entries) = some [⟨"kc", ["b"]⟩] := by
    decide +kernel
  refine ⟨hread, fun hparsed => ?_⟩
  have hdenoted : denoted "kc:a;kc:b" = [⟨"kc", ["a"]⟩, ⟨"kc", ["b"]⟩] := by decide +kernel
  cases h : deserializeColumnKeys "kc:a;kc:b" with
  | error e => rw [h] at hread; cases hread
  | ok keys =>
    rw [h] at hread
    have hkeys : keys.entries = [⟨"kc", ["b"]⟩] := Option.some.inj hread
    obtain ⟨columns, hl, hmem⟩ := ((hparsed.holds keys h).columns "kc" "a").mpr
      ⟨⟨"kc", ["a"]⟩, by simp [hdenoted], rfl, List.mem_singleton.mpr rfl⟩
    unfold AList.lookup at hl
    rw [hkeys] at hl
    cases hl
    simp at hmem

end ParquetKeyManagement
