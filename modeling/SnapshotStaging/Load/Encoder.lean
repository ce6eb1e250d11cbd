import SnapshotStaging.Json.Canonical
import SnapshotStaging.Key.Seen
import SnapshotStaging.Load.Buffer
import SnapshotStaging.Session

/-!
# Encoding records as rows

A record becomes the literals of one row. A text longer than the limit is stored as nothing with a
warning; a payload that is too long is tried again without blanks first. When an identifier comes a
second time in a pass, the earlier row is taken back and the later record kept.

| here | there |
| --- | --- |
| `warn` | `TupleEncoder._warn` |
| `textLiteral` | `TupleEncoder._string_literal` |
| `cells` | `TupleEncoder._column_literals` |
| `payload` | `TupleEncoder._data_literal` |
| `encode` | `TupleEncoder.encode` |
| `identifier` | `TupleEncoder._natural_id` |
| `markSeen`, `replaceEarlier` | `SeenKeys.add` on `_seen_keys`, `TupleEncoder._replace_earlier` |
| `write`, `finish` | `TupleEncoder.write`, `TupleEncoder.finish` |
-/

namespace SnapshotStaging

structure Encoder where
  table : String
  columns : List Column
  dialect : Dialect
  tenant : Int
  maxValueLength : Int
  buffer : InsertBuffer Row
  seen : SeenKeys
  written : Nat
  replaced : Nat
  warnings : Nat

/-- A step that works on something of its own beside the session. -/
abbrev Pass (τ σ : Type) := EStateM Error (τ × Session σ)

namespace Pass

variable {τ σ α : Type}

def onSession (task : Task σ α) : Pass τ σ α := fun (t, s) =>
  match task s with
  | .ok a s => .ok a (t, s)
  | .error e s => .error e (t, s)

def update (f : τ → τ) : Pass τ σ Unit := fun (t, s) => .ok () (f t, s)

def own : Pass τ σ τ := fun (t, s) => .ok t (t, s)

end Pass

namespace Encoder

def start (table : String) (columns : List Column) (dialect : Dialect)
    (tenant maxValueLength threshold : Int) : Encoder :=
  ⟨table, columns, dialect, tenant, maxValueLength, .empty table threshold, .empty, 0, 0, 0⟩

variable {σ : Type} [Database σ]

abbrev Step (σ : Type) := Pass Encoder σ

/-! ## Statements -/

/-- Sends rows to the loading table. -/
def send (table : String) (rows : List Row) : Task σ Unit := do
  Task.note .debug s!"Loading data for table: {table}: {rows.length} records"
  discard (Task.execute (.insert table rows))

/-- A step of the buffer. -/
def onBuffer {α : Type} (step : EStateM Error (InsertBuffer Row × Session σ) α) : Step σ α :=
  fun (e, s) =>
    match step (e.buffer, s) with
    | .ok a (b, s) => .ok a ({ e with buffer := b }, s)
    | .error err (b, s) => .error err ({ e with buffer := b }, s)

def flush : Step σ Unit := do
  let e ← Pass.own
  discard (onBuffer (InsertBuffer.flush (send e.table)))

/-! ## Values -/

/-- Where a value belongs, for messages about it. -/
structure Spot where
  column : String
  sk : Int
  id : String

/-- Tells that a value was not stored. -/
def warn (message : String) (spot : Spot) (action : String) : Step σ Unit := do
  let e ← Pass.own
  Pass.update fun e => { e with warnings := e.warnings + 1 }
  let sk := String.ofList (signedDigits spot.sk)
  Pass.onSession (Task.noteWith .warning
    s!"{message}: table {e.table}, column {spot.column}, sk {sk}, id {spot.id}: {action}"
    [("table", .str e.table), ("column", .str spot.column), ("sk", .int spot.sk),
      ("id", .str spot.id), ("action", .str action)])

/-- A text as a literal, nothing when it is too long. -/
def textLiteral (spot : Spot) (s : String) : Step σ Literal := do
  if (← Pass.own).maxValueLength < s.length then
    warn "String length exceeds database limit" spot "Value stored as NULL"
    return .null
  return .text s

/-- A value as text: strings as they are, all else as JSON. -/
def valueText : Json → String
  | .str s => s
  | v => v.compact

/-- The literals of a column for a value. -/
def cells (column : Column) (v : Json) (id : String) (sk : Int) : Step σ (List Literal) := do
  let spot : Spot := ⟨column.name, sk, id⟩
  match column.type, v with
  | .reference, .str s =>
    let key ← Pass.onSession (Task.resolveReference s)
    return [.integer key, ← textLiteral spot s]
  | .reference, _ => return [.null, .null]
  | _, .null => return [.null]
  | .bigint, .int n => return [.integer n]
  | .boolean, .bool b => return [.boolean b]
  | .numeric, .int n => return [.integer n]
  | .numeric, .float x => return [.number x]
  | .timestamp, .str s => return [← textLiteral spot s]
  | .text, v => return [← textLiteral spot (valueText v)]
  | type, _ =>
    let e ← Pass.own
    Pass.onSession (Task.note .debug
      s!"Value does not match column type: {e.table}.{column.name} ({type.name}): id {id}")
    return [.null]

/-- The literals of columns in turn. -/
def allCells (record : Json) (id : String) (sk : Int) : List Column → Step σ (List Literal)
  | [] => return []
  | column :: rest => do
    let first ← cells column ((record.member? column.source).getD .null) id sk
    return first ++ (← allCells record id sk rest)

/-- The payload: the record one member a line, without blanks when that is too long, nothing when
that is too long as well. -/
def payload (record : Json) (id : String) (sk : Int) : Step σ (Option String) := do
  let limit := (← Pass.own).maxValueLength
  let pretty := record.pretty
  if pretty.length ≤ limit then return some pretty
  let compact := record.compact
  if compact.length ≤ limit then return some compact
  warn "JSON object size exceeds database limit" ⟨"data", sk, id⟩
    "Value of column \"data\" stored as NULL"
  return none

/-- The row of a record. -/
def encode (record : Json) (id : String) (sk : Int) : Step σ Row := do
  let e ← Pass.own
  let cells ← allCells record id sk e.columns
  return ⟨sk, id, cells, ← payload record id sk, e.tenant⟩

/-! ## Records -/

/-- The identifier of a record. -/
def identifier (table : String) (record : Json) : Except Error String := do
  match (← record.asRecord).member? idField with
  | none | some .null => .error (.unidentifiedRecord record.compact table)
  | some v => .ok (valueText v)

/-- Takes back the row that was written for an identifier before. -/
def replaceEarlier (id : String) (sk : Nat) : Step σ Unit := do
  let e ← Pass.own
  if e.buffer.holds id then flush
  discard (Pass.onSession (Task.execute (.deleteKey e.table sk)))
  Pass.update fun e => { e with replaced := e.replaced + 1 }
  Pass.onSession (Task.note .debug s!"Record replaced by later occurrence: {e.table}: id {id}")

/-- Marks a key as seen in this pass; tells whether it was seen before. -/
def markSeen (sk : Nat) : Step σ Bool := fun (e, s) =>
  let (seen, before) := e.seen.add sk
  .ok before ({ e with seen := seen }, s)

/-- Writes one record. -/
def write (record : Json) : Step σ Unit := do
  let e ← Pass.own
  let id ← match identifier e.table record with
    | .ok id => pure id
    | .error err => throw err
  let sk ← Pass.onSession (Task.resolve e.table id)
  if ← markSeen sk then replaceEarlier id sk
  let row ← encode record id sk
  onBuffer (InsertBuffer.add (send e.table) row (row.sql e.dialect).length (some id))
  Pass.update fun e => { e with written := e.written + 1 }

/-- Sends what still waits. -/
def finish : Step σ Unit := flush

end Encoder

end SnapshotStaging
