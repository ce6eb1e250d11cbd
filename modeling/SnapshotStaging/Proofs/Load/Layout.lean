import Mathlib.Algebra.Ring.Nat
import SnapshotStaging.Proofs.Key.Store
import SnapshotStaging.Proofs.Load.Replacement

/-!
# The places of a row

A loading table has a place for the key, the identifier, the inferred columns, the payload and the tenant;
a column of references has a second place in front of it for the key of the record that it refers to.
`Slot.all` lists the places of a table, `Slot.line` is how the table's definition declares them, and
`Slot.literal?` what the row of a record holds there.

Main results: `createLoadingText_eq`, the places are the declared columns in order, and `literal?_later`,
what a row holds stays right while the store of keys goes on.
-/

namespace SnapshotStaging

namespace ColumnType

/-- The text that a column stores for a value, when it stores one. -/
def text? : ColumnType → Json → Option String
  | .text, .null => none
  | .text, v => some (Encoder.valueText v)
  | .timestamp, .str s => some s
  | .reference, .str s => some s
  | _, _ => none

/-- The literal of a value in a column. -/
def literal (limit : Int) (type : ColumnType) (v : Json) : Literal :=
  match type.text? v with
  | some s => Encoder.textOf limit s
  | none =>
    match type, v with
    | .bigint, .int n => .integer n
    | .boolean, .bool b => .boolean b
    | .numeric, .int n => .integer n
    | .numeric, .float x => .number x
    | _, _ => .null

/-- How many texts of a value are too long for a column. -/
def overlong (limit : Int) (type : ColumnType) (v : Json) : Nat :=
  match type.text? v with
  | some s => if limit < s.length then 1 else 0
  | none => 0

end ColumnType

/-- The value of a record in a column. -/
def Column.valueIn (c : Column) (record : Json) : Json := (record.member? c.source).getD .null

/-- A place of a row. -/
inductive Slot
  | key
  | identifier
  /-- The key of the record that a column of references refers to. -/
  | companion (c : Column)
  | value (c : Column)
  | payload
  | tenant

namespace Slot

/-- The places of a column. -/
def ofColumn (c : Column) : List Slot :=
  if c.type = .reference then [.companion c, .value c] else [.value c]

/-- The places of a loading table. -/
def all (columns : List Column) : List Slot :=
  [.key, .identifier] ++ columns.flatMap ofColumn ++ [.payload, .tenant]

/-- The line that declares a place. -/
def line (d : Dialect) : Slot → String
  | .key => "    sk BIGINT NOT NULL,"
  | .identifier => s!"    id VARCHAR({maxTextLength}) NOT NULL,"
  | .companion c => s!"    \"{Column.keyName c.name}\" BIGINT,"
  | .value c => s!"    \"{c.name}\" {c.type.sql},"
  | .payload => s!"    data {d.jsonType},"
  | .tenant => "    tenant_id SMALLINT NOT NULL,"

/-- A loading table declares its places in order, and two constraints. -/
theorem createLoadingText_eq (d : Dialect) (table : String) (columns : List Column) :
    Statement.createLoadingText d table columns =
      s!"CREATE TABLE {TableName.loading table} (\n" ++
        "\n".intercalate ((all columns).map (line d) ++ ["    PRIMARY KEY (sk),", "    UNIQUE (id)"]) ++
        "\n)" ++ d.tableKeys "sk" "sk" ++ ";" := by
  have hcolumn (c : Column) : (ofColumn c).map (line d) = Statement.columnLines c := by
    unfold ofColumn Statement.columnLines
    split <;> rfl
  have hcolumns : (columns.flatMap ofColumn).map (line d) = columns.flatMap Statement.columnLines := by
    rw [List.map_flatMap]
    simp only [hcolumn]
  rw [all, List.map_append, List.map_append, hcolumns, List.append_assoc]
  rfl

/-- The warehouse has as many columns for it. -/
theorem length_all (columns : List Column) :
    (all columns).length = (Warehouse.columnNames columns).length := by
  have hcolumns : (columns.flatMap ofColumn).length = Encoder.widths columns := by
    induction columns with
    | nil => rfl
    | cons c rest ih =>
      rw [List.flatMap_cons, List.length_append, ih, Encoder.widths, Encoder.width, ofColumn]
      split <;> rfl
  rw [Encoder.length_columnNames, all]
  simp [hcolumns]

/-! ## What a row holds -/

/-- What the row of a record holds in a place; nothing is said while the store does not remember a key that
belongs there. -/
def literal? (e : Encoder) (k : KeyStore) (record : Json) : Slot → Option Literal
  | .key => (k.key? e.table (Encoder.idOf record)).map fun n : Nat => .integer n
  | .identifier => some (.text (Encoder.idOf record))
  | .companion c =>
    match c.valueIn record with
    | .str s => (k.key? Assignment.referenceScope s).map fun n : Nat => .integer n
    | _ => some .null
  | .value c => some (c.type.literal e.maxValueLength (c.valueIn record))
  | .payload => some (((Encoder.payloadOf e.maxValueLength record).map Literal.text).getD .null)
  | .tenant => some (.integer e.tenant)

variable {e : Encoder} {k k' : KeyStore} {record : Json}

theorem literal?_later {slot : Slot} {l : Literal} (h : literal? e k record slot = some l)
    (hk : k.Extends k') : literal? e k' record slot = some l := by
  have hkey {scope id : String} (h : (k.key? scope id).map (fun n : Nat => Literal.integer n) = some l) :
      (k'.key? scope id).map (fun n : Nat => Literal.integer n) = some l := by
    obtain ⟨n, hn, rfl⟩ := Option.map_eq_some_iff.1 h
    rw [hk.keys hn]
    rfl
  cases slot with
  | key => exact hkey h
  | companion c =>
    simp only [literal?] at h ⊢
    split at h
    · exact hkey h
    · exact h
  | _ => exact h

/-- What is related to an item of a list stands beside it. -/
theorem exists_mem_zip {α β : Type} {R : α → β → Prop} {l : List α} {l' : List β} (h : List.Forall₂ R l l') {a : α}
    (ha : a ∈ l) : ∃ b, (a, b) ∈ l.zip l' ∧ R a b := by
  induction h with
  | nil => cases ha
  | @cons first second rest rest' hfirst _ ih =>
    rcases List.mem_cons.1 ha with rfl | ha
    · exact ⟨second, List.mem_cons_self .., hfirst⟩
    · obtain ⟨b, hb, hR⟩ := ih ha
      exact ⟨b, List.mem_cons_of_mem _ hb, hR⟩

/-- Literals fill places with what belongs to a record. -/
def Fills (e : Encoder) (k : KeyStore) (record : Json) (slots : List Slot) (ls : List Literal) : Prop :=
  List.Forall₂ (fun slot l => literal? e k record slot = some l) slots ls

theorem Fills.later {slots : List Slot} {ls : List Literal} (h : Fills e k record slots ls)
    (hk : k.Extends k') : Fills e k' record slots ls :=
  h.imp fun _ _ hl => literal?_later hl hk

theorem Fills.append {slots slots' : List Slot} {ls ls' : List Literal} (h : Fills e k record slots ls)
    (h' : Fills e k record slots' ls') : Fills e k record (slots ++ slots') (ls ++ ls') :=
  List.rel_append h h'

end Slot

namespace Encoder

/-- How many warnings the row of a record costs: one for every text that is too long, and one for a payload
that is. -/
def warningsOf (e : Encoder) (record : Json) : Nat :=
  (e.columns.map fun c => c.type.overlong e.maxValueLength (c.valueIn record)).sum +
    if payloadOf e.maxValueLength record = none then 1 else 0

end Encoder

end SnapshotStaging
