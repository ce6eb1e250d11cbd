import SnapshotStaging.Proofs.Redaction.Matching
import SnapshotStaging.Proofs.Stage.Agreement
import SnapshotStaging.Proofs.Stage.Origins

/-!
# Literals and the types of their columns

The first pass finds the types of columns from the records as they are, the second writes the records as the rules
leave them, so what a column's type was found from is not what is written to it. A text of a column of points in
time or of references has the shape that the column was found by, unless a rule has emptied it. A number of a column
of integers is one of its records, and nothing bounds it: such a column is declared with 64 bits, and holds its
numbers exactly when the records do not pass them.

Main results: `stage_keeps_shapes` and `stage_bounds_iff`.
-/

namespace SnapshotStaging

open Journaled Encoder

/-! ## Redaction -/

namespace Redaction

variable {flagged : String → Bool} {path name s : String} {v : Json}

theorem find?_redactMembers (flagged : String → Bool) (path name : String) (members : List (String × Json)) :
    Json.find? name (redactMembers flagged path members) =
      (Json.find? name members).map (redact flagged (path ++ "/" ++ name)) := by
  induction members with
  | nil => rfl
  | cons member rest ih =>
    obtain ⟨other, v⟩ := member
    rw [redactMembers, Json.find?, Json.find?]
    by_cases hname : other = name
    · rw [if_pos hname, if_pos hname, hname]
      rfl
    · rw [if_neg hname, if_neg hname, ih]

/-- Members stay where they are, and each is redacted alone. -/
theorem member?_redact (flagged : String → Bool) (record : Json) (name : String) :
    (redact flagged "" record).member? name = (record.member? name).map (redact flagged ("/" ++ name)) := by
  cases record with
  | obj members =>
    rw [redact, Json.member?, find?_redactMembers, String.empty_append]
    rfl
  | arr items =>
    rw [redact]
    rfl
  | _ =>
    rw [redact_scalar _ _ rfl]
    split <;> rfl

/-- A text was a text before, and is the same or empty. -/
theorem of_redact_eq_str (h : redact flagged path v = .str s) :
    ∃ t, v = .str t ∧ s = if flagged path then "" else t := by
  cases v with
  | str t =>
    refine ⟨t, rfl, ?_⟩
    rw [redact_scalar _ _ rfl] at h
    split at h
    · next hflagged =>
      cases h
      rw [if_pos hflagged]
    · next hkept =>
      cases h
      rw [if_neg hkept]
  | arr items =>
    rw [redact] at h
    cases h
  | obj members =>
    rw [redact] at h
    cases h
  | _ =>
    rw [redact_scalar _ _ rfl] at h
    split at h <;> cases h

end Redaction

/-! ## Places and literals -/

namespace ColumnType

/-- The shape of the texts of a column that was found by a shape. -/
def shape? : ColumnType → Option (String → Bool)
  | .timestamp => some Shape.isDateTime
  | .reference => some Shape.isUuid
  | _ => none

variable {type : ColumnType} {shape : String → Bool} {limit : Int} {v : Json}

/-- What such a column stores is the text of a value. -/
theorem of_literal_ne_null (hshape : type.shape? = some shape) (h : type.literal limit v ≠ .null) :
    ∃ s, v = .str s ∧ type.literal limit v = .text s := by
  have htext (s : String) (h : textOf limit s ≠ .null) : textOf limit s = .text s := by
    unfold textOf at h ⊢
    split at h
    · exact absurd rfl h
    · next hlength => rw [if_neg hlength]
  cases type with
  | timestamp =>
    cases v with
    | str s => exact ⟨s, rfl, htext s h⟩
    | _ => exact absurd rfl h
  | reference =>
    cases v with
    | str s => exact ⟨s, rfl, htext s h⟩
    | _ => exact absurd rfl h
  | _ => cases hshape

theorem Suits.fits {s : String} (h : type.Suits (.str s)) (hshape : type.shape? = some shape) : shape s = true := by
  cases type with
  | timestamp =>
    cases hshape
    exact h
  | reference =>
    cases hshape
    exact h
  | _ => cases hshape

end ColumnType

/-- The type of a column suits what every record has in it. -/
theorem Column.suits_of_mem {records : List Json} {column : Column}
    (hcolumn : column ∈ infer ColumnType.select (.ofRecords records)) {record : Json} (hrecord : record ∈ records)
    {v : Json} (hmember : record.member? column.source = some v) (hscalar : v.isContainer = false)
    (hnull : v.isNull = false) : column.type.Suits v := by
  have hid : column.source ≠ idField := by
    obtain ⟨c, hfield, -⟩ := type_of_mem_ofFields hcolumn
    exact (mem_fieldsOf.1 hfield).2
  obtain ⟨only, honly, -, hsuits⟩ := infer_spec hrecord hmember hid hscalar hnull
  have hmem : column ∈ (infer ColumnType.select (.ofRecords records)).filter (·.source = column.source) :=
    List.mem_filter.2 ⟨hcolumn, by simp⟩
  rw [honly, List.mem_singleton] at hmem
  rwa [hmem]

namespace Slot

variable {e : Encoder} {k : KeyStore} {record : Json} {columns : List Column} {column : Column} {ls : List Literal}
  {l : Literal}

theorem mem_of_value_mem_all (h : .value column ∈ all columns) : column ∈ columns := by
  simp only [all, List.mem_append, List.mem_flatMap] at h
  rcases h with (h | ⟨c, hc, hmem⟩) | h
  · simp at h
  · unfold ofColumn at hmem
    split at hmem
    · simp only [List.mem_cons, reduceCtorEq, value.injEq, List.not_mem_nil, or_false, false_or] at hmem
      rwa [hmem]
    · simp only [List.mem_singleton, value.injEq] at hmem
      rwa [hmem]
  · simp at h

/-- The literal in the place of a column is that of the record's value. -/
theorem Fills.of_mem_zip (h : Fills e k record (all columns) ls) (hl : (.value column, l) ∈ (all columns).zip ls) :
    column ∈ columns ∧ l = column.type.literal e.maxValueLength (column.valueIn record) := by
  have hliteral := (List.forall₂_iff_zip.1 h).2 hl
  exact ⟨mem_of_value_mem_all (List.of_mem_zip hl).1, (Option.some.inj hliteral).symm⟩

theorem Fills.mem_zip (h : Fills e k record (all columns) ls) (hcolumn : column ∈ columns) :
    (.value column, column.type.literal e.maxValueLength (column.valueIn record)) ∈ (all columns).zip ls := by
  obtain ⟨l, hmem, hl⟩ := exists_mem_zip h (value_mem_all hcolumn)
  cases hl
  exact hmem

end Slot

namespace Staging

variable {σ : Type} [Database σ] {settings : Settings} {store : PageStore} {d : Definition} {column : Column}

/-- A text that is written is one of the record's, or a rule has emptied it. -/
theorem of_valueIn_redacted {rules : Option Redaction.Rules} {record : Json} {s : String}
    (h : column.valueIn (redacted rules record) = .str s) : ∃ t, record.member? column.source = some (.str t) ∧
      s = if rules.any (·.flags ("/" ++ column.source)) then "" else t := by
  have hmember : (redacted rules record).member? column.source = some (.str s) := by
    unfold Column.valueIn at h
    cases hfound : (redacted rules record).member? column.source with
    | none =>
      rw [hfound] at h
      cases h
    | some v =>
      rw [hfound] at h
      exact congrArg some h
  cases rules with
  | none => exact ⟨s, hmember, rfl⟩
  | some rules =>
    have hredacted := (Redaction.member?_redact rules.flags record column.source).symm.trans hmember
    obtain ⟨v, hv, hs⟩ := Option.map_eq_some_iff.1 hredacted
    obtain ⟨t, rfl, heq⟩ := Redaction.of_redact_eq_str hs
    exact ⟨t, hv, heq⟩

/-- The records that a load is given are those that the columns were found from, as the rules leave them. -/
theorem of_mem_offered [Platform] {record : Json} (h : record ∈ offered settings store d.label) :
    ∃ records, inferred store d.label = Column.infer ColumnType.select (.ofRecords records) ∧
      ∃ original ∈ records, record = redacted (Redaction.Policy.rulesFor? settings.redaction d.label) original := by
  unfold offered at h
  unfold inferred
  cases hcount : store.pageCount d.label with
  | error err =>
    rw [hcount] at h
    cases h
  | ok count =>
    rw [hcount] at h
    obtain ⟨original, horiginal, rfl⟩ := List.mem_map.1 h
    exact ⟨_, rfl, original, horiginal, rfl⟩

/-- A row has texts of the right shape in columns that were found by a shape; only rules empty them. -/
def KeepsShapes (settings : Settings) (table : String) (columns : List Column) (row : Row) : Prop :=
  row.literals.length = (Slot.all columns).length ∧
    ∀ column shape l, column.type.shape? = some shape → (Slot.value column, l) ∈ (Slot.all columns).zip row.literals →
      l ≠ .null → ∃ text, l = .text text ∧
        if Redaction.Policy.flags settings.redaction table ("/" ++ column.source) then text = ""
        else shape text = true

/-- **Redaction respects the types of columns but for what it empties**: whatever staging a table comes to, each
literal that is not null in a column of points in time or of references of a row that it has asked to insert is a
text of the shape that the column was found by, unless a rule of the table flags the field; then it is empty. -/
theorem stage_keeps_shapes [Platform] (settings : Settings) (store : PageStore) (d : Definition)
    (s : Session (Journaled σ)) :
    Inserts (KeepsShapes settings d.label (inferred store d.label)) s.database.journal
      (resulting (stage settings store d s)).database.journal := by
  refine (stage_traces settings store d s).mono fun row hrow => ?_
  obtain ⟨record, hrecord, k, hfills⟩ := hrow
  obtain ⟨records, hinferred, original, horiginal, rfl⟩ := of_mem_offered hrecord
  refine ⟨hfills.length_eq.symm, fun column shape l hshape hmem hnull => ?_⟩
  obtain ⟨hcolumn, rfl⟩ := hfills.of_mem_zip hmem
  obtain ⟨text, hvalue, hliteral⟩ := ColumnType.of_literal_ne_null hshape hnull
  obtain ⟨t, hmember, rfl⟩ := of_valueIn_redacted hvalue
  refine ⟨_, hliteral, ?_⟩
  have hsuits : column.type.Suits (.str t) :=
    Column.suits_of_mem (hinferred ▸ hcolumn) horiginal hmember rfl rfl
  unfold Redaction.Policy.flags
  split
  · rfl
  · exact hsuits.fits hshape

/-- A page with a point in time. -/
def dated : List UInt8 := "[\x7b\"id\":\"1\",\"at\":\"2024-01-01T00:00:00Z\"\x7d]".toUTF8.toList

theorem dated_spec : Page.records "t" dated = ([.obj [("id", .str "1"), ("at", .str "2024-01-01T00:00:00Z")]], none) ∧
    Column.infer ColumnType.select
      (Statistics.ofRecords [.obj [("id", .str "1"), ("at", .str "2024-01-01T00:00:00Z")]]) =
        [⟨"at", "at", .timestamp⟩] := by
  constructor
  · exact Page.records_of_tokens "t" [.obj [("id", .leaf (.string, .str "1")),
      ("at", .leaf (.string, .str "2024-01-01T00:00:00Z"))]] (by decide +kernel) rfl rfl rfl rfl
  · exact (Column.infer_eq_insertionSort _ (by decide +kernel)).trans (by decide +kernel)

/-- A rule empties the point in time of a column that was found by it. -/
theorem stage_keeps_shapes_emptied : ∃ result s' row,
    stage { redaction := [("t", ["/at"])] } (single "t" dated) ⟨.str "t", .null, .null, false⟩ willing =
      .ok result s' ∧
    inferred (single "t" dated) "t" = [⟨"at", "at", .timestamp⟩] ∧
    row ∈ s'.database.journal.flatMap Statement.insertedRows ∧
    (Slot.value ⟨"at", "at", .timestamp⟩, Literal.text "") ∈
      (Slot.all [⟨"at", "at", .timestamp⟩]).zip row.literals ∧
    ColumnType.shape? .timestamp = some Shape.isDateTime ∧ Shape.isDateTime "" = false := by
  obtain ⟨hrecords, hcolumns⟩ := dated_spec
  have hcount := (single_spec filed_t dated).1
  have hpage := single_page filed_t dated
  have hlabel : Definition.label ⟨.str "t", .null, .null, false⟩ = "t" := rfl
  have hrow : (match stage { redaction := [("t", ["/at"])] } (single "t" dated) ⟨.str "t", .null, .null, false⟩
      willing with
    | .ok _ s' => (s'.database.journal.flatMap Statement.insertedRows).map Row.cells
    | .error _ _ => []) = [[.text ""]] := by
    simp only [stage, load, hlabel, pageCount_ok hcount, pure_bind, analyze_single hpage hrecords, hcolumns,
      runPass_single hpage, loadPage_ok hrecords]
    decide +kernel
  have hinferred : inferred (single "t" dated) "t" = [⟨"at", "at", .timestamp⟩] := by
    rw [inferred_single filed_t, hrecords, hcolumns]
  split at hrow
  · next result s' hstage =>
    obtain ⟨row, hmem, hcells⟩ := List.mem_map.1 (hrow ▸ List.mem_singleton_self _)
    refine ⟨result, s', row, hstage, hinferred, hmem, ?_, rfl, by decide⟩
    rw [Row.literals, hcells]
    exact List.mem_cons_of_mem _ (List.mem_cons_of_mem _ (List.mem_cons_self ..))
  · cases hrow

/-! ## Numbers -/

/-- The numbers that a column of 64 bits holds. -/
def InBounds (n : Int) : Prop := -2 ^ 63 ≤ n ∧ n ≤ 2 ^ 63 - 1

instance : DecidablePred InBounds := fun _ => inferInstanceAs (Decidable (_ ∧ _))

/-- The numbers of a record are in bounds where its table has columns of integers. -/
def RecordInBounds (columns : List Column) (record : Json) : Prop :=
  ∀ column ∈ columns, column.type = .bigint → ∀ n, column.valueIn record = .int n → InBounds n

/-- The numbers of a row are in bounds in the columns of integers. -/
def RowInBounds (columns : List Column) (row : Row) : Prop :=
  ∀ column n, column.type = .bigint → (Slot.value column, Literal.integer n) ∈ (Slot.all columns).zip row.literals →
    InBounds n

/-- The row of a record has its numbers. -/
theorem RowOf.inBounds_iff {columns : List Column} {record : Json} {row : Row}
    (h : RowOf settings d columns record row) : RowInBounds columns row ↔ RecordInBounds columns record := by
  obtain ⟨k, hfills⟩ := h
  have hnumber {n : Int} {limit : Int} {v : Json} (h : ColumnType.bigint.literal limit v = .integer n) :
      v = .int n := by
    cases v <;> cases h
    rfl
  constructor
  · intro hrow column hcolumn htype n hvalue
    refine hrow column n htype ?_
    have hmem := hfills.mem_zip hcolumn
    rwa [htype, hvalue] at hmem
  · intro hrecord column n htype hmem
    obtain ⟨hcolumn, hliteral⟩ := hfills.of_mem_zip hmem
    rw [htype] at hliteral
    exact hrecord column hcolumn htype n (hnumber hliteral.symm)

/-- **A column of integers holds its numbers exactly when the records do not pass 64 bits.** When the numbers that
records have there are in bounds, so are those of all rows that staging the table has asked to insert, whatever it
comes to. When it succeeds, a number out of bounds is one of a row. -/
theorem stage_bounds_iff [Platform] (settings : Settings) (store : PageStore) (d : Definition)
    (s : Session (Journaled σ)) :
    ((∀ record ∈ offered settings store d.label, RecordInBounds (inferred store d.label) record) →
      Inserts (RowInBounds (inferred store d.label)) s.database.journal
        (resulting (stage settings store d s)).database.journal) ∧
    ∀ result s', stage settings store d s = .ok result s' →
      Inserts (RowInBounds (inferred store d.label)) s.database.journal s'.database.journal →
      ∀ record ∈ offered settings store d.label, RecordInBounds (inferred store d.label) record := by
  constructor
  · intro hrecords
    refine (stage_traces settings store d s).mono fun row hrow => ?_
    obtain ⟨record, hrecord, hrow⟩ := hrow
    exact hrow.inBounds_iff.2 (hrecords record hrecord)
  · intro result s' hstage hinserts record hrecord
    obtain ⟨asked, hJ, hrows⟩ := stage_lists hstage
    obtain ⟨asked', hJ', hbounds⟩ := hinserts
    obtain rfl : asked' = asked := List.reverse_injective (List.append_cancel_right (hJ'.symm.trans hJ))
    obtain ⟨row, hmem, hrow⟩ := Slot.exists_mem_zip hrows hrecord
    obtain ⟨st, hst, hrow'⟩ := List.mem_flatMap.1 (List.of_mem_zip hmem).2
    exact hrow.inBounds_iff.1 (hbounds st hst row hrow')

/-- A page with a number. -/
def numbering (digits : String) : List UInt8 :=
  ("[\x7b\"id\":\"1\",\"n\":" ++ digits ++ "\x7d]").toUTF8.toList

/-- The highest number of 64 bits, and the next one. -/
theorem numbering_spec :
    Page.records "t" (numbering "9223372036854775807") = ([.obj [("id", .str "1"), ("n", .int (2 ^ 63 - 1))]], none) ∧
    Column.infer ColumnType.select (Statistics.ofRecords [.obj [("id", .str "1"), ("n", .int (2 ^ 63 - 1))]]) =
      [⟨"n", "n", .bigint⟩] ∧
    Page.records "t" (numbering "9223372036854775808") = ([.obj [("id", .str "1"), ("n", .int (2 ^ 63))]], none) ∧
    Column.infer ColumnType.select (Statistics.ofRecords [.obj [("id", .str "1"), ("n", .int (2 ^ 63))]]) =
      [⟨"n", "n", .bigint⟩] := by
  refine ⟨?_, ?_, ?_, ?_⟩
  · exact Page.records_of_tokens "t"
      [.obj [("id", .leaf (.string, .str "1")), ("n", .leaf (.number, .int (2 ^ 63 - 1)))]]
      (by decide +kernel) rfl rfl rfl rfl
  · exact (Column.infer_eq_insertionSort _ (by decide +kernel)).trans (by decide +kernel)
  · exact Page.records_of_tokens "t"
      [.obj [("id", .leaf (.string, .str "1")), ("n", .leaf (.number, .int (2 ^ 63)))]]
      (by decide +kernel) rfl rfl rfl rfl
  · exact (Column.infer_eq_insertionSort _ (by decide +kernel)).trans (by decide +kernel)

/-- The highest number fits, and stands in a row. -/
theorem stage_bounds_highest : ∃ result s',
    stage {} (single "t" (numbering "9223372036854775807")) ⟨.str "t", .null, .null, false⟩ willing =
      .ok result s' ∧
    inferred (single "t" (numbering "9223372036854775807")) "t" = [⟨"n", "n", .bigint⟩] ∧
    Inserts (RowInBounds [⟨"n", "n", .bigint⟩]) [] s'.database.journal ∧
    ∀ record ∈ offered {} (single "t" (numbering "9223372036854775807")) "t",
      RecordInBounds [⟨"n", "n", .bigint⟩] record := by
  obtain ⟨hrecords, hcolumns, -, -⟩ := numbering_spec
  obtain ⟨result, s', hstage, -⟩ := stage_single hrecords
    (by simp [identifier, Json.asRecord, bind, Except.bind, Json.member?, Json.find?, idField])
  have hinferred : inferred (single "t" (numbering "9223372036854775807")) "t" = [⟨"n", "n", .bigint⟩] := by
    rw [inferred_single filed_t, hrecords, hcolumns]
  have hbounds : ∀ record ∈ offered {} (single "t" (numbering "9223372036854775807")) "t",
      RecordInBounds [⟨"n", "n", .bigint⟩] record := by
    rw [offered_single filed_t, hrecords]
    intro record hrecord column hcolumn _ n hvalue
    rw [List.mem_singleton.1 hrecord, List.mem_singleton.1 hcolumn] at hvalue
    cases hvalue
    decide
  obtain ⟨hfits, hholds⟩ := stage_bounds_iff {} (single "t" (numbering "9223372036854775807"))
    ⟨.str "t", .null, .null, false⟩ willing
  have hinserts := hfits (hinferred ▸ hbounds)
  rw [hstage] at hinserts
  have hback := hholds result s' hstage hinserts
  exact ⟨result, s', hstage, hinferred, hinferred ▸ hinserts, hinferred ▸ hback⟩

/-- The next number is found to be an integer as well, and stands in a row of the column that does not hold it. -/
theorem stage_bounds_passed : ∃ result s' row,
    stage {} (single "t" (numbering "9223372036854775808")) ⟨.str "t", .null, .null, false⟩ willing =
      .ok result s' ∧
    inferred (single "t" (numbering "9223372036854775808")) "t" = [⟨"n", "n", .bigint⟩] ∧
    row ∈ s'.database.journal.flatMap Statement.insertedRows ∧
    (Slot.value ⟨"n", "n", .bigint⟩, Literal.integer 9223372036854775808) ∈
      (Slot.all [⟨"n", "n", .bigint⟩]).zip row.literals ∧
    ¬ InBounds 9223372036854775808 := by
  obtain ⟨-, -, hrecords, hcolumns⟩ := numbering_spec
  obtain ⟨result, s', hstage, -⟩ := stage_single hrecords
    (by simp [identifier, Json.asRecord, bind, Except.bind, Json.member?, Json.find?, idField])
  have hinferred : inferred (single "t" (numbering "9223372036854775808")) "t" = [⟨"n", "n", .bigint⟩] := by
    rw [inferred_single filed_t, hrecords, hcolumns]
  obtain ⟨asked, hJ, hrows⟩ := stage_lists hstage
  have hlabel : Definition.label ⟨.str "t", .null, .null, false⟩ = "t" := rfl
  rw [hlabel, hinferred, offered_single filed_t, hrecords] at hrows
  obtain ⟨row, hmem, k, hfills⟩ := Slot.exists_mem_zip hrows (List.mem_singleton_self _)
  refine ⟨result, s', row, hstage, hinferred, ?_, hfills.mem_zip (List.mem_singleton_self _), by decide⟩
  obtain ⟨st, hst, hrow⟩ := List.mem_flatMap.1 (List.of_mem_zip hmem).2
  exact List.mem_flatMap.2 ⟨st, by simp [hJ, hst], hrow⟩

end Staging

end SnapshotStaging
