import SnapshotStaging.Session

/-!
# History and promotion

A snapshot is merged into the history of its table before it becomes the live table. The history
only grows: a record is added when it is new, or when its payload differs from its latest version.
Records without payload and records that are gone add nothing.

| here | there |
| --- | --- |
| `merge` | `MergeService.merge_table` |
| `promote` | `MergeService.place_table` |
| `mergeAndPromote` | `MergeService.merge_and_place` |
-/

namespace SnapshotStaging.History

variable {σ : Type} [Database σ]

/-- Adds the changes of the loading table to the history; answers how many rows were added. -/
def merge (table : String) : Task σ Int := do
  discard (Task.execute (.createHistory table))
  discard (Task.execute (.drop (TableName.latest table)))
  discard (Task.execute (.createLatest table))
  let added ← Task.execute (.appendChanges table)
  discard (Task.execute (.drop (TableName.latest table)))
  if 0 ≤ added then Task.note .info s!"Merge: {table}: {added} history rows appended"
  return added

/-- Puts the loading table in the place of the live table. -/
def promote (table : String) : Task σ Unit := do
  discard (Task.execute (.drop table))
  discard (Task.execute (.rename (TableName.loading table) table))
  Task.note .debug s!"Promoted loading table: {table}"

/-- Merges and promotes in one transaction. -/
def mergeAndPromote (table : String) : Task σ Int :=
  Task.transaction do
    let added ← merge table
    promote table
    return added

end SnapshotStaging.History
