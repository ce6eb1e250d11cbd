import Mathlib.Data.List.Induction
import Mathlib.Data.List.Sort
import SnapshotStaging.Column
import SnapshotStaging.Proofs.Json.Places

/-!
# Columns suit their values

The counts of a field say how many of its values are of a kind. A count of values that are not null is the number
of all of these only if it counts every one, so no mixture of kinds passes for a uniform one: the counts decide as
the values do (`select_of`), and every value suits the type (`select_suits`). The statistics of records hold one
entry for each field that has a scalar value, with the counts of its values, so every such field has exactly one
column.

Main result `infer_spec`: for a member of a record, the column of its field and its type.
-/

namespace SnapshotStaging

namespace ColumnType

/-- A value that a column can store as it is. -/
def Suits (type : ColumnType) (v : Json) : Prop :=
  match type, v with
  | .bigint, .int _ => True
  | .boolean, .bool _ => True
  | .numeric, .int _ => True
  | .numeric, .float _ => True
  | .timestamp, .str s => Shape.isDateTime s = true
  | .reference, .str s => Shape.isUuid s = true
  | .text, _ => True
  | _, _ => False

end ColumnType

/-! ## What the counts count -/

namespace Counts

def isBoolean : Json → Bool
  | .bool _ => true
  | _ => false

def isInteger : Json → Bool
  | .int _ => true
  | _ => false

def isFloating : Json → Bool
  | .float _ => true
  | _ => false

def isNumber (v : Json) : Bool := isInteger v || isFloating v

def isString : Json → Bool
  | .str _ => true
  | _ => false

def isUuid : Json → Bool
  | .str s => Shape.isUuid s
  | _ => false

def isDateTime : Json → Bool
  | .str s => Shape.isDateTime s
  | _ => false

/-- The counts of values. -/
def of (vs : List Json) : Counts := vs.foldl add {}

theorem of_append_singleton (vs : List Json) (v : Json) : of (vs ++ [v]) = (of vs).add v := by
  rw [of, List.foldl_append]
  rfl

/-- Each count is the number of values of its kind. -/
theorem of_eq (vs : List Json) : of vs =
    { total := vs.length, null := vs.countP Json.isNull, boolean := vs.countP isBoolean,
      number := vs.countP isNumber, integer := vs.countP isInteger, floating := vs.countP isFloating,
      string := vs.countP isString, uuid := vs.countP isUuid, dateTime := vs.countP isDateTime } := by
  induction vs using List.reverseRecOn with
  | nil => rfl
  | append_singleton vs v ih =>
    rw [of_append_singleton, ih]
    cases v with
    | str s =>
      by_cases huuid : Shape.isUuid s = true <;> by_cases htime : Shape.isDateTime s = true <;>
        simp [add, tick, Json.isNull, isBoolean, isNumber, isInteger, isFloating, isString, isUuid, isDateTime,
          huuid, htime]
    | _ =>
      simp [add, Json.isNull, isBoolean, isNumber, isInteger, isFloating, isString, isUuid, isDateTime]

theorem nonNull_of (vs : List Json) : (of vs).nonNull = vs.countP fun v => !v.isNull := by
  have hnot : (vs.countP fun v => decide ¬ v.isNull = true) = vs.countP fun v => !v.isNull := by
    refine congrArg (List.countP · vs) (funext fun v => ?_)
    cases v.isNull <;> rfl
  have hlength := List.length_eq_countP_add_countP Json.isNull (l := vs)
  rw [hnot] at hlength
  rw [of_eq]
  simp only [nonNull]
  omega

variable {vs : List Json}

/-- The values that are not null. -/
def present (vs : List Json) : List Json := vs.filter fun v => !v.isNull

theorem nonNull_eq_length (vs : List Json) : (of vs).nonNull = (present vs).length := by
  rw [nonNull_of, present, List.countP_eq_length_filter]

/-- A count is the number of all values that are not null exactly when each of these is counted. -/
theorem eq_nonNull_iff (vs : List Json) (p : Json → Bool) {n : Int} (hn : n = vs.countP p)
    (hp : ∀ v, p v = true → v.isNull = false) : n = (of vs).nonNull ↔ (present vs).all p = true := by
  have hpresent : vs.countP p = (present vs).countP p := by
    rw [present, List.countP_filter]
    refine List.countP_congr fun v _ => ?_
    by_cases hv : p v = true
    · simp [hv, hp v hv]
    · simp [hv]
  rw [hn, hpresent, nonNull_eq_length, Int.natCast_inj, List.countP_eq_length, List.all_eq_true]

theorem nonNull_nonpos_iff : (of vs).nonNull ≤ 0 ↔ present vs = [] := by
  rw [nonNull_eq_length, ← List.length_eq_zero_iff]
  omega

theorem floating_pos_iff : 0 < (of vs).floating ↔ (present vs).any isFloating = true := by
  have hfloating (v : Json) : (!v.isNull && isFloating v) = isFloating v := by cases v <;> rfl
  rw [of_eq, present, List.any_filter, List.any_eq_true]
  simp only [hfloating, Int.natCast_pos, List.countP_pos_iff]

/-- Numbers are integers unless one is floating. -/
theorem all_isInteger_iff (vs : List Json) :
    vs.all isInteger = true ↔ vs.all isNumber = true ∧ ¬ vs.any isFloating = true := by
  simp only [List.all_eq_true, List.any_eq_true, not_exists, not_and, ← forall₂_and]
  refine forall₂_congr fun v _ => ?_
  cases v <;> simp [isNumber, isInteger, isFloating]

end Counts

/-- The type that the values of a field call for. Those that are not null decide; where there are none, or they are
of several kinds, it is text. -/
def ColumnType.ofValues (field : String) (vs : List Json) : ColumnType :=
  let present := Counts.present vs
  if present = [] then .text
  else if present.all Counts.isBoolean then .boolean
  else if present.all Counts.isInteger then .bigint
  else if present.all Counts.isNumber && present.any Counts.isFloating then .numeric
  else if present.all Counts.isUuid && FieldName.namesReference field then .reference
  else if present.all Counts.isDateTime then .timestamp
  else .text

namespace Counts

variable {vs : List Json}

/-- **The counts decide as the values do.** -/
theorem select_of (vs : List Json) (field : String) :
    ColumnType.select (of vs) field = ColumnType.ofValues field vs := by
  have hboolean := eq_nonNull_iff vs isBoolean (n := (of vs).boolean) (by rw [of_eq])
    (by intro v; cases v <;> simp [isBoolean, Json.isNull])
  have hnumber := eq_nonNull_iff vs isNumber (n := (of vs).number) (by rw [of_eq])
    (by intro v; cases v <;> simp [isNumber, isInteger, isFloating, Json.isNull])
  have hstring := eq_nonNull_iff vs isString (n := (of vs).string) (by rw [of_eq])
    (by intro v; cases v <;> simp [isString, Json.isNull])
  have huuid := eq_nonNull_iff vs isUuid (n := (of vs).uuid) (by rw [of_eq])
    (by intro v; cases v <;> simp [isUuid, Json.isNull])
  have htime := eq_nonNull_iff vs isDateTime (n := (of vs).dateTime) (by rw [of_eq])
    (by intro v; cases v <;> simp [isDateTime, Json.isNull])
  simp only [ColumnType.select, ColumnType.ofValues, nonNull_nonpos_iff, hboolean, hnumber, hstring,
    floating_pos_iff, huuid, htime]
  generalize present vs = vs
  have hinteger := all_isInteger_iff vs
  by_cases hnumber : vs.all isNumber = true
  · by_cases hfloating : vs.any isFloating = true <;> simp [hnumber, hfloating, hinteger]
  · by_cases hstring : vs.all isString = true
    · simp [hnumber, hstring, hinteger]
    · -- what has a shape is a string
      have hshaped {p : Json → Bool} (hp : ∀ v, p v = true → isString v = true) : ¬ vs.all p = true := by
        intro h
        rw [List.all_eq_true] at h hstring
        exact hstring fun v hv => hp v (h v hv)
      have huuid : ¬ vs.all isUuid = true := hshaped fun v => by cases v <;> simp [isUuid, isString]
      have htime : ¬ vs.all isDateTime = true := hshaped fun v => by cases v <;> simp [isDateTime, isString]
      simp [hnumber, hstring, huuid, htime, hinteger]

/-- The type that is selected for values suits each of them. -/
theorem select_suits {v : Json} (hv : v ∈ vs) (hnull : v.isNull = false) (field : String) :
    (ColumnType.select (of vs) field).Suits v := by
  have hpresent : v ∈ present vs := List.mem_filter.2 ⟨hv, by simp [hnull]⟩
  rw [select_of, ColumnType.ofValues]
  generalize present vs = vs at hpresent
  have hall {p : Json → Bool} (h : vs.all p = true) : p v = true := List.all_eq_true.1 h v hpresent
  split_ifs with hnone hboolean hinteger hnumber huuid htime
  · trivial
  · have hkind := hall hboolean
    cases v <;> trivial
  · have hkind := hall hinteger
    cases v <;> trivial
  · have hkind := hall (Bool.and_eq_true_iff.1 hnumber).1
    cases v <;> trivial
  · have hkind := hall (Bool.and_eq_true_iff.1 huuid).1
    cases v with
    | str s => exact hkind
    | _ => cases hkind
  · have hkind := hall htime
    cases v with
    | str s => exact hkind
    | _ => cases hkind
  · trivial

end Counts

/-! ## Statistics -/

namespace Statistics

/-- The members of a record. -/
def membersOf : Json → List (String × Json)
  | .obj members => members
  | _ => []

/-- The scalar values of a field among members. -/
def valuesOf (field : String) (members : List (String × Json)) : List Json :=
  (members.filter fun m => m.1 = field && !m.2.isContainer).map Prod.snd

theorem mem_valuesOf {records : List Json} {field : String} {v : Json} :
    v ∈ valuesOf field (records.flatMap membersOf) ↔
      (∃ record ∈ records, (field, v) ∈ membersOf record) ∧ v.isContainer = false := by
  simp [valuesOf]

theorem mem_membersOf {record : Json} {name : String} {v : Json} (h : record.member? name = some v) :
    (name, v) ∈ membersOf record := by
  cases record with
  | obj members => exact Json.mem_of_find? h
  | _ => cases h

/-- There is one entry for each field with a value, and its counts are those of all its values. -/
structure Tracks (fields : List (String × Counts)) (members : List (String × Json)) : Prop where
  nodup : (fields.map Prod.fst).Nodup
  mem_iff : ∀ f c, (f, c) ∈ fields ↔ valuesOf f members ≠ [] ∧ c = Counts.of (valuesOf f members)

theorem valuesOf_append (field : String) (members : List (String × Json)) (m : String × Json) :
    valuesOf field (members ++ [m]) =
      if m.1 = field && !m.2.isContainer then valuesOf field members ++ [m.2] else valuesOf field members := by
  by_cases h : (m.1 = field && !m.2.isContainer) = true <;> simp [valuesOf, h]

theorem map_fst_addTo (field : String) (v : Json) (fields : List (String × Counts)) :
    (addTo field v fields).map Prod.fst =
      if field ∈ fields.map Prod.fst then fields.map Prod.fst else fields.map Prod.fst ++ [field] := by
  induction fields with
  | nil => simp [addTo]
  | cons entry rest ih =>
    obtain ⟨f, c⟩ := entry
    by_cases hf : f = field
    · simp [addTo, hf]
    · have hf' : field ≠ f := fun h => hf h.symm
      simp only [addTo, hf, if_false, List.map_cons, ih, List.mem_cons, hf', false_or]
      split <;> rfl

/-- One more value changes the entry of its field, or is the first of its field. -/
theorem mem_addTo {fields : List (String × Counts)} (h : (fields.map Prod.fst).Nodup) {field f : String}
    {v : Json} {c : Counts} : (f, c) ∈ addTo field v fields ↔
      if f = field then (∃ c', (f, c') ∈ fields ∧ c = c'.add v) ∨ f ∉ fields.map Prod.fst ∧ c = Counts.add {} v
      else (f, c) ∈ fields := by
  induction fields with
  | nil => by_cases hf : f = field <;> simp [addTo, hf]
  | cons entry rest ih =>
    obtain ⟨g, d⟩ := entry
    obtain ⟨hg, hrest⟩ := List.nodup_cons.1 h
    by_cases hfield : g = field
    · subst hfield
      by_cases hf : f = g
      · subst hf
        have hnone (c' : Counts) : (f, c') ∉ rest := fun hc => hg (List.mem_map.2 ⟨_, hc, rfl⟩)
        simp [addTo, hnone]
      · simp [addTo, hf]
    · by_cases hf : f = field
      · subst hf
        have hne : f ≠ g := fun heq => hfield heq.symm
        simp [addTo, hfield, ih hrest, hne]
      · simp [addTo, hfield, ih hrest, hf]

theorem Tracks.add {fields : List (String × Counts)} {members : List (String × Json)} (h : Tracks fields members)
    {field : String} {v : Json} (hv : v.isContainer = false) :
    Tracks (addTo field v fields) (members ++ [(field, v)]) where
  nodup := by
    rw [map_fst_addTo]
    split
    · exact h.nodup
    · next hnone =>
      refine List.nodup_append.2 ⟨h.nodup, List.pairwise_singleton _ _, fun a ha b hb heq => hnone ?_⟩
      rwa [← List.mem_singleton.1 hb, ← heq]
  mem_iff f c := by
    rw [mem_addTo h.nodup, valuesOf_append]
    by_cases hf : f = field
    · subst hf
      have hname : f ∈ fields.map Prod.fst ↔ valuesOf f members ≠ [] := by
        simp [h.mem_iff]
      have hself : (decide (f = f) && !v.isContainer) = true := by simp [hv]
      rw [if_pos rfl, if_pos hself, hname, Counts.of_append_singleton]
      by_cases hvalues : valuesOf f members = []
      · simp [h.mem_iff, hvalues, Counts.of]
      · simp [h.mem_iff, hvalues]
    · have hf' : field ≠ f := fun heq => hf heq.symm
      simp [hf, hf', h.mem_iff]

/-- A container counts for nothing. -/
theorem Tracks.skip {fields : List (String × Counts)} {members : List (String × Json)} (h : Tracks fields members)
    {m : String × Json} (hm : m.2.isContainer = true) : Tracks fields (members ++ [m]) := by
  refine ⟨h.nodup, fun f c => ?_⟩
  rw [valuesOf_append, if_neg (by simp [hm]), h.mem_iff]

theorem Tracks.foldl_addMember {s : Statistics} {before : List (String × Json)} (h : Tracks s.fields before)
    (members : List (String × Json)) : Tracks (members.foldl addMember s).fields (before ++ members) := by
  induction members generalizing s before with
  | nil => simpa using h
  | cons m rest ih =>
    have hnext : Tracks (s.addMember m).fields (before ++ [m]) := by
      unfold addMember
      by_cases hm : m.2.isContainer = true
      · rw [if_pos hm]
        exact h.skip hm
      · rw [if_neg hm]
        exact h.add (by simpa using hm)
    simpa using ih hnext

theorem records_foldl_addMember (s : Statistics) (members : List (String × Json)) :
    (members.foldl addMember s).records = s.records := by
  induction members generalizing s with
  | nil => rfl
  | cons m rest ih =>
    rw [List.foldl_cons, ih, addMember]
    split <;> rfl

/-- The statistics of records. -/
def ofRecords (records : List Json) : Statistics := records.foldl addRecord {}

theorem ofRecords_append (records later : List Json) :
    ofRecords (records ++ later) = later.foldl addRecord (ofRecords records) := by
  rw [ofRecords, List.foldl_append]
  rfl

theorem addRecord_eq (s : Statistics) (record : Json) :
    s.addRecord record = (membersOf record).foldl addMember { s with records := s.records + 1 } := by
  cases record <;> rfl

/-- The statistics of records count them and track their members. -/
theorem ofRecords_spec (records : List Json) : (ofRecords records).records = records.length ∧
    Tracks (ofRecords records).fields (records.flatMap membersOf) := by
  induction records using List.reverseRecOn with
  | nil => exact ⟨rfl, .nil, fun f c => by simp [ofRecords, valuesOf]⟩
  | append_singleton records record ih =>
    obtain ⟨hcount, htracks⟩ := ih
    rw [ofRecords_append, List.foldl_cons, List.foldl_nil, addRecord_eq, records_foldl_addMember,
      List.flatMap_append, List.flatMap_singleton]
    have hbefore : Tracks { ofRecords records with records := (ofRecords records).records + 1 }.fields
        (records.flatMap membersOf) := htracks
    exact ⟨by simp [hcount], hbefore.foldl_addMember _⟩

/-! ## The fields by name -/

variable {s s' : Statistics}

theorem pairwise_sorted (s : Statistics) : s.sorted.Pairwise fun a b => a.1 ≤ b.1 := by
  have hsorted := @List.pairwise_mergeSort _ (fun a b : String × Counts => decide (a.1 ≤ b.1))
    (fun _ _ _ hab hbc => by simpa using String.le_trans (by simpa using hab) (by simpa using hbc))
    (fun a b => by simpa using String.le_total a.1 b.1) s.fields
  simpa [sorted] using hsorted

/-- The order of names is the only order of fields that are there once. -/
theorem sorted_eq_of_perm (h : s.fields.Perm s'.fields) (hnodup : (s.fields.map Prod.fst).Nodup) :
    s.sorted = s'.sorted := by
  have hboth : s.sorted.Perm s'.sorted :=
    (List.mergeSort_perm ..).trans (h.trans (List.mergeSort_perm ..).symm)
  refine hboth.eq_of_pairwise ?_ (pairwise_sorted s) (pairwise_sorted s')
  intro a b ha hb hab hba
  have ha : a ∈ s.fields := (List.mergeSort_perm ..).mem_iff.1 ha
  have hb : b ∈ s.fields := h.mem_iff.2 ((List.mergeSort_perm ..).mem_iff.1 hb)
  exact List.inj_on_of_nodup_map hnodup ha hb (String.le_antisymm hab hba)

/-- Fields that are there once are sorted by insertion as well. -/
theorem sorted_eq_insertionSort (h : (s.fields.map Prod.fst).Nodup) :
    s.sorted = s.fields.insertionSort fun a b => a.1 ≤ b.1 := by
  have htotal : Std.Total fun a b : String × Counts => a.1 ≤ b.1 := ⟨fun a b => String.le_total a.1 b.1⟩
  have htrans : IsTrans (String × Counts) fun a b => a.1 ≤ b.1 := ⟨fun _ _ _ => String.le_trans⟩
  have hpairwise := List.pairwise_insertionSort (fun a b : String × Counts => a.1 ≤ b.1) s.fields
  have hperm := (List.perm_insertionSort (fun a b : String × Counts => a.1 ≤ b.1) s.fields).symm
  refine (@sorted_eq_of_perm s ⟨s.records, _⟩ hperm h).trans ?_
  exact List.mergeSort_of_pairwise (hpairwise.imp fun hab => decide_eq_true hab)

end Statistics

/-! ## Columns -/

namespace Column

theorem map_source_ofFields (select : Counts → String → ColumnType) (taken : List String)
    (fields : List (String × Counts)) : (ofFields select taken fields).map Column.source = fields.map Prod.fst := by
  induction fields generalizing taken with
  | nil => rfl
  | cons entry rest ih =>
    obtain ⟨f, c⟩ := entry
    rw [ofFields, List.map_cons, ih]
    rfl

theorem type_of_mem_ofFields {select : Counts → String → ColumnType} {taken : List String}
    {fields : List (String × Counts)} {column : Column} (h : column ∈ ofFields select taken fields) :
    ∃ c, (column.source, c) ∈ fields ∧ column.type = select c column.source := by
  induction fields generalizing taken with
  | nil => cases h
  | cons entry rest ih =>
    obtain ⟨f, c⟩ := entry
    rcases List.mem_cons.1 h with rfl | h
    · exact ⟨c, List.mem_cons_self .., rfl⟩
    · obtain ⟨c', hc', htype⟩ := ih h
      exact ⟨c', List.mem_cons_of_mem _ hc', htype⟩

/-- The fields that get columns, by name. -/
def fieldsOf (s : Statistics) : List (String × Counts) := s.sorted.filter fun f => f.1 ≠ idField

theorem mem_fieldsOf {s : Statistics} {f : String} {c : Counts} :
    (f, c) ∈ fieldsOf s ↔ (f, c) ∈ s.fields ∧ f ≠ idField := by
  simp [fieldsOf, Statistics.sorted]

theorem nodup_fieldsOf {s : Statistics} (h : (s.fields.map Prod.fst).Nodup) :
    ((fieldsOf s).map Prod.fst).Nodup := by
  have hsorted : (s.sorted.map Prod.fst).Nodup :=
    ((List.mergeSort_perm s.fields _).map Prod.fst).nodup_iff.2 h
  exact hsorted.sublist (List.filter_sublist.map _)

/-- The columns of fields that are there once, whose names are sorted by insertion. -/
theorem infer_eq_insertionSort (select : Counts → String → ColumnType) {s : Statistics}
    (h : (s.fields.map Prod.fst).Nodup) : infer select s =
      ofFields select reserved ((s.fields.insertionSort fun a b => a.1 ≤ b.1).filter fun f => f.1 ≠ idField) := by
  rw [infer, Statistics.sorted_eq_insertionSort h]

/-- The only item of its name. -/
theorem filter_eq_singleton {columns : List Column} (h : (columns.map source).Nodup) {column : Column}
    (hmem : column ∈ columns) : columns.filter (·.source = column.source) = [column] := by
  induction columns with
  | nil => cases hmem
  | cons first rest ih =>
    obtain ⟨hfirst, hrest⟩ := List.nodup_cons.1 h
    rcases List.mem_cons.1 hmem with rfl | hmem
    · have hnone : rest.filter (·.source = column.source) = [] :=
        List.filter_eq_nil_iff.2 fun c hc heq => hfirst (List.mem_map.2 ⟨c, hc, by simpa using heq⟩)
      rw [List.filter_cons_of_pos (by simp), hnone]
    · have hne : first.source ≠ column.source := fun heq => hfirst (heq ▸ List.mem_map_of_mem hmem)
      rw [List.filter_cons_of_neg (by simpa using hne), ih hrest hmem]

/-- **One column for each field, and its type suits every value**: a member of a record that is a scalar and
not null has exactly one column, which can store its value as it is. -/
theorem infer_spec {records : List Json} {record : Json} (hrecord : record ∈ records) {name : String} {v : Json}
    (hmember : record.member? name = some v) (hid : name ≠ idField) (hscalar : v.isContainer = false)
    (hnull : v.isNull = false) :
    ∃ column, (infer ColumnType.select (.ofRecords records)).filter (·.source = name) = [column] ∧
      column.source = name ∧ column.type.Suits v := by
  obtain ⟨-, hnodup, hmem⟩ := Statistics.ofRecords_spec records
  have hvalue : v ∈ Statistics.valuesOf name (records.flatMap Statistics.membersOf) :=
    Statistics.mem_valuesOf.2 ⟨⟨record, hrecord, Statistics.mem_membersOf hmember⟩, hscalar⟩
  have hcounts := (hmem name _).2 ⟨List.ne_nil_of_mem hvalue, rfl⟩
  have hsources := map_source_ofFields ColumnType.select reserved (fieldsOf (.ofRecords records))
  have hnames := nodup_fieldsOf hnodup
  have hname : name ∈ (infer ColumnType.select (.ofRecords records)).map source := by
    show name ∈ (ofFields ColumnType.select reserved (fieldsOf (.ofRecords records))).map source
    rw [hsources]
    exact List.mem_map.2 ⟨_, mem_fieldsOf.2 ⟨hcounts, hid⟩, rfl⟩
  obtain ⟨column, hcolumn, rfl⟩ := List.mem_map.1 hname
  refine ⟨column, filter_eq_singleton ?_ hcolumn, rfl, ?_⟩
  · show ((ofFields ColumnType.select reserved (fieldsOf (.ofRecords records))).map source).Nodup
    rwa [hsources]
  · obtain ⟨c, hc, htype⟩ := type_of_mem_ofFields hcolumn
    obtain ⟨-, rfl⟩ := (hmem _ _).1 (mem_fieldsOf.1 hc).1
    rw [htype]
    exact Counts.select_suits hvalue hnull _

end Column

end SnapshotStaging
