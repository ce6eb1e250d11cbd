import SnapshotStaging.History
import SnapshotStaging.Staging

/-!
# Runs

A run stages, merges and promotes tables one after another. A table whose work fails in a way that
can be reported is reported, and the others go on; any other failure ends the run.

| here | there |
| --- | --- |
| `TableResult` | `TableRunResult` without its times |
| `reported`, `failed` | the handler of `AppException` in `ETLService.process_table` |
| `table` | `ETLService.process_table` |
| `tables`, `all` | `ETLService.run` |
-/

namespace SnapshotStaging

inductive TableStatus
  | completed
  | failed
  | skipped
  deriving DecidableEq, Repr

def TableStatus.name : TableStatus → String
  | .completed => "COMPLETED"
  | .failed => "FAILED"
  | .skipped => "SKIPPED"

structure TableResult where
  table : Json
  status : TableStatus
  stage : Option StageResult
  appended : Int
  failure : Option Report
  /-- Whether work was begun; work that was begun is always finished. -/
  started : Bool

def TableResult.succeeded (r : TableResult) : Bool := r.status ≠ .failed

namespace Run

variable [Platform] {σ : Type} [Database σ]

/-- The failure of a step as a value, when it can be reported. -/
def reported {α : Type} (task : Task σ α) : Task σ (Except Report α) := fun s =>
  match task s with
  | .ok a s => .ok (.ok a) s
  | .error e s =>
    match e.report? with
    | some r => .ok (.error r) s
    | none => .error e s

/-- The result of a table whose work failed. -/
def failed (d : Definition) (stage : Option StageResult) (r : Report) : Task σ TableResult := do
  let r := r.about d.name
  Task.noteWith .error s!"Table {d.label} failed: {r.text}" r.details
  return ⟨d.name, .failed, stage, 0, some r, true⟩

/-- Stages, merges and promotes one table. -/
def table (settings : Settings) (store : PageStore) (d : Definition) : Task σ TableResult := do
  if d.skip then
    Task.note .info s!"Skipping table: {d.label}"
    return ⟨d.name, .skipped, none, 0, none, false⟩
  match ← reported (Staging.stage settings store d) with
  | .error r => failed d none r
  | .ok stage =>
    match ← reported (History.mergeAndPromote d.label) with
    | .error r => failed d (some stage) r
    | .ok added => return ⟨d.name, .completed, some stage, added, none, true⟩

/-- Tables in turn. With several workers a failure that ends the run does so only when all tables
have had their turn. -/
def tables (settings : Settings) (store : PageStore) (concurrent : Bool) :
    List Definition → Task σ (List TableResult)
  | [] => return []
  | d :: rest => fun s =>
    match table settings store d s with
    | .ok r s =>
      match tables settings store concurrent rest s with
      | .ok rs s => .ok (r :: rs) s
      | .error e s => .error e s
    | .error e s =>
      if concurrent then
        match tables settings store concurrent rest s with
        | .ok _ s => .error e s
        | .error _ s => .error e s
      else .error e s

/-- A whole run: one result for each table, in order. Failed tables are told by name, so a name that
is no text ends the run. -/
def all (settings : Settings) (store : PageStore) (ds : List Definition) :
    Task σ (List TableResult) := do
  Task.note .info s!"Starting run: {ds.length} tables, {settings.workers} workers"
  let concurrent := settings.workers ≠ 1 && 1 < ds.length
  let results ← tables settings store concurrent ds
  discard Task.syncKeys
  let bad := (results.filter fun r => !r.succeeded).map TableResult.table
  if bad.isEmpty then Task.note .info "Run finished"
  else if bad.any fun name => !(name matches .str _) then throw .unsuitableValue
  else
    let names := ", ".intercalate (bad.map Json.plain)
    Task.note .warning s!"Run finished with {bad.length} failed tables: {names}"
  return results

end Run

end SnapshotStaging
