import SnapshotStaging.Definition
import SnapshotStaging.Load.Encoder
import SnapshotStaging.Page.Assembly
import SnapshotStaging.PageStore
import SnapshotStaging.Redaction
import SnapshotStaging.Settings

/-!
# Staging a table

Two passes over the pages of a table. The first counts the kinds of values in every field and finds
the columns; the second, in one transaction, creates the loading table and writes a row for every
record. Only the second pass redacts.

| here | there |
| --- | --- |
| `PassMode.check` | `JSONPageProcessor.__init__` |
| `redacted`, `writeAll` | `JSONPageProcessor.handle_record` in the load pass |
| `analyzePage`, `loadPage` | `JSONPageProcessor.process_page` in either pass |
| `numberedPages`, `runPass` | `StagingService._run_pass` |
| `analyze` | `StagingService.analyze_table` |
| `comment?`, `createLoadingTable` | `StagingService.create_loading_table` |
| `load`, `stage` | `StagingService.stage_table`: its transaction, and the whole |
-/

namespace SnapshotStaging

inductive PassMode
  | analyze
  | load
  deriving DecidableEq, Repr

def PassMode.name : PassMode → String
  | .analyze => "analyze"
  | .load => "load"

/-- Whether a pass has what it needs: statistics for the first, an encoder for the second. -/
def PassMode.check (mode : PassMode) (table : String) (hasStatistics hasEncoder : Bool) :
    Except Error Unit :=
  match mode with
  | .analyze => if hasStatistics then .ok () else .error (.missingCollector table)
  | .load => if hasEncoder then .ok () else .error (.missingEncoder table)

/-- What staging a table did. -/
structure StageResult where
  pages : Nat
  analyzed : Nat
  loaded : Nat
  replaced : Nat
  statements : Nat
  warnings : Nat
  columns : List Column

namespace Staging

variable [Platform] {σ : Type} [Database σ]

/-- Fails for the reason that ended a page early, if there was one. -/
def failing {τ : Type} : Option Error → Pass τ σ Unit
  | none => return
  | some e => throw e

/-- Counts the records of a page. -/
def analyzePage (table : String) (bytes : List UInt8) : Pass Statistics σ Nat := do
  let (records, failure) := Page.records table bytes
  Pass.update fun s => records.foldl Statistics.addRecord s
  failing failure
  return records.length

/-- A record as the second pass sees it. -/
def redacted (rules : Option Redaction.Rules) (record : Json) : Json :=
  match rules with
  | none => record
  | some rules => Redaction.redact rules.flags "" record

/-- Writes records in turn. -/
def writeAll (rules : Option Redaction.Rules) : List Json → Pass Encoder σ Unit
  | [] => return
  | record :: rest => do
    Encoder.write (redacted rules record)
    writeAll rules rest

/-- Writes the records of a page. -/
def loadPage (table : String) (rules : Option Redaction.Rules) (bytes : List UInt8) :
    Pass Encoder σ Nat := do
  let (records, failure) := Page.records table bytes
  writeAll rules records
  failing failure
  return records.length

/-- The numbered pages from `page` on, up to the first that is missing. Every page is a file of its
own, so `fuel` need not be more than the number of files and one. -/
def numberedPages {τ : Type} (store : PageStore) (table : String) (mode : PassMode) (count : Nat)
    (step : List UInt8 → Pass τ σ Nat) : Nat → Nat → Pass τ σ Unit
  | 0, _ => return
  | fuel + 1, page => do
    if count ≤ page then return
    match store.page? table page with
    | none =>
      Pass.onSession (Task.note .warning s!"Staging: {table}: {mode.name}: page {page} not found")
    | some bytes =>
      let n ← step bytes
      Pass.onSession (Task.note .debug s!"Staging: {table}: {mode.name}: page: {page}: {n} records")
      numberedPages store table mode count step fuel (page + 1)

/-- One pass over all pages of a table. -/
def runPass {τ : Type} (store : PageStore) (table : String) (mode : PassMode) (count : Nat)
    (step : List UInt8 → Pass τ σ Nat) : Pass τ σ Unit := do
  numberedPages store table mode count step (store.files.length + 1) 0
  match store.testPage? table with
  | none => return
  | some bytes =>
    let path := store.pathOf (PageStore.testName table)
    Pass.onSession (Task.note .debug s!"Staging: {table}: test file {path}")
    let n ← step bytes
    Pass.onSession (Task.note .debug s!"Staging: {table}: {mode.name}: test file: {n} records")

/-- Runs a pass from a state of its own; answers the state after it. -/
def running {τ : Type} (initial : τ) (pass : Pass τ σ Unit) : Task σ τ := fun s =>
  match pass (initial, s) with
  | .ok _ (t, s) => .ok t s
  | .error e (_, s) => .error e s

/-- The number of pages of a table. -/
def pageCount (store : PageStore) (table : String) : Task σ Nat := do
  match store.pageCount table with
  | .ok (some n) => return n
  | .ok none =>
    modify fun s => { s with log := store.missingCount table :: s.log }
    return 0
  | .error e => throw e

def noteAll (entries : List Log.Entry) : Task σ Unit :=
  modify fun s => { s with log := entries.reverse ++ s.log }

/-- The first pass: the statistics of a table and the columns they call for. -/
def analyze (store : PageStore) (table : String) (count : Nat) :
    Task σ (Statistics × List Column) := do
  Task.note .info s!"Staging: {table}: analyze"
  let statistics ← running {} (runPass store table .analyze count (analyzePage table))
  noteAll (statistics.sorted.map fun (field, counts) =>
    ⟨.debug, s!"Stats: {table}: field {field}: {String.ofList counts.toJson.inspect}", none⟩)
  let columns := Column.infer ColumnType.select statistics
  noteAll (columns.map fun c => ⟨.debug, s!"Column: {table}: {c.name} {c.type.name}", none⟩)
  return (statistics, columns)

/-- What a comment says of a table: where its records come from, if anything tells that. A module is
added to a text, and to a list unseen. -/
def comment? (d : Definition) : Except Error (Option Json) :=
  if !d.source.truthy then .ok none
  else if !d.moduleName.truthy then .ok (some d.source)
  else
    match d.source with
    | .str source => .ok (some (.str s!"{source} in {d.moduleName.plain}"))
    | .arr items => .ok (some (.arr items))
    | _ => .error .unsuitableValue

/-- Creates the loading table anew, with what the catalog says about it. -/
def createLoadingTable (settings : Settings) (d : Definition) (columns : List Column) :
    Task σ Unit := do
  let table := d.label
  discard (Task.execute (.drop (TableName.loading table)))
  discard (Task.execute (.createLoading table columns))
  if settings.dialect.hasCatalog then
    match comment? d with
    | .error e => throw e
    | .ok none => pure ()
    | .ok (some comment) =>
      Task.note .debug s!"Setting comment on table: {table}"
      match comment with
      | .str text => discard (Task.execute (.comment table text))
      | _ => throw .notAText
    match settings.grantee with
    | none => pure ()
    | some grantee => if grantee ≠ "" then discard (Task.execute (.grant table grantee))

/-- The second pass, within its transaction. -/
def load (settings : Settings) (store : PageStore) (d : Definition) (columns : List Column)
    (count : Nat) : Task σ Encoder := do
  let table := d.label
  if !(d.name matches .str _) then throw .unsuitableValue
  createLoadingTable settings d columns
  let encoder := Encoder.start table columns settings.dialect settings.tenant
    settings.maxValueLength settings.flushThreshold
  Task.note .info s!"Staging: {table}: load"
  let rules := Redaction.Policy.rulesFor? settings.redaction table
  running encoder do
    runPass store table .load count (loadPage table rules)
    Encoder.finish

/-- Stages a table: both passes. -/
def stage (settings : Settings) (store : PageStore) (d : Definition) : Task σ StageResult := do
  let table := d.label
  let count ← pageCount store table
  Task.note .info s!"Staging: {table}: page count: {count}"
  let (statistics, columns) ← analyze store table count
  let encoder ← Task.loadTransaction (load settings store d columns count)
  Task.note .info
    s!"Staging: {table}: {encoder.written} records loaded in {encoder.buffer.statements} statements"
  return {
    pages := count
    analyzed := statistics.records
    loaded := encoder.written
    replaced := encoder.replaced
    statements := encoder.buffer.statements
    warnings := encoder.warnings
    columns := columns }

end Staging

end SnapshotStaging
