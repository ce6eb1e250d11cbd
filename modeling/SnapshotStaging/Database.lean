import SnapshotStaging.Error
import SnapshotStaging.Key.Assignment
import SnapshotStaging.Sql.Statement

/-!
# Databases

What staging asks of a database: transactions, statements, and the table of keys. A step that fails
still leaves the database in some state.
-/

namespace SnapshotStaging

class Database (σ : Type) where
  start : σ → σ
  /-- Whether the open transaction can be committed; one that cannot has to be rolled back. -/
  commits : σ → Bool := fun _ => true
  commit : σ → σ
  rollback : σ → σ
  /-- Executes a statement; answers how many rows it touched, `-1` when that is unknown. -/
  execute : Statement → EStateM Error σ Int
  /-- Asks for the table of keys; tells whether it can be read. -/
  readable : σ → σ × Bool := fun db => (db, true)
  /-- The rows of the table of keys as they are now. -/
  keys : σ → List Assignment
  /-- Adds rows to the table of keys, all or none; tells whether they could be added. -/
  addKeys : List Assignment → σ → σ × Bool

end SnapshotStaging
