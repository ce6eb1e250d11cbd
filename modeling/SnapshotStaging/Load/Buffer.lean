import SnapshotStaging.Error
import SnapshotStaging.Sql.Statement

/-!
# The insert buffer

Rows wait in the buffer and are sent as one insertion. The size of that insertion, without its
semicolon, is kept while rows are added; once it passes the threshold the rows are sent, so an
insertion is never longer than the threshold by more than its last row.

| here | there |
| --- | --- |
| `count`, `holds` | `InsertBuffer.__len__`, `InsertBuffer.holds` |
| `push`, `full`, `add` | `InsertBuffer.add` |
| `sent`, `flush` | `InsertBuffer.flush` |
-/

namespace SnapshotStaging

structure InsertBuffer (α : Type) where
  table : String
  threshold : Int
  /-- Rows that wait, latest first. -/
  pending : List α
  /-- Identifiers of rows that wait. -/
  ids : List String
  size : Nat
  /-- Insertions and rows sent so far. -/
  statements : Nat
  rows : Nat

namespace InsertBuffer

variable {α σ : Type}

/-- The size of an insertion without rows. -/
def headSize (table : String) : Nat := (Statement.insertHead table).length

def empty (table : String) (threshold : Int) : InsertBuffer α :=
  ⟨table, threshold, [], [], headSize table, 0, 0⟩

def count (b : InsertBuffer α) : Nat := b.pending.length

/-- Whether a row of an identifier waits. -/
def holds (b : InsertBuffer α) (id : String) : Bool := b.ids.contains id

/-- The rows that wait, in the order in which they came. -/
def waiting (b : InsertBuffer α) : List α := b.pending.reverse

/-- The buffer with one more row; `length` is the length of the row's text. -/
def push (b : InsertBuffer α) (row : α) (length : Nat) (id : Option String) : InsertBuffer α :=
  { b with
    pending := row :: b.pending
    ids := id.toList ++ b.ids
    size := b.size + (if b.pending.isEmpty then 0 else 1) + length }

/-- Whether the rows have to be sent. -/
def full (b : InsertBuffer α) : Bool := b.threshold < b.size

/-- The buffer after its rows were sent. -/
def sent (b : InsertBuffer α) : InsertBuffer α :=
  { b with
    pending := []
    ids := []
    size := headSize b.table
    statements := b.statements + 1
    rows := b.rows + b.count }

/-- Sends the rows that wait, if any; answers whether there were any. Rows whose insertion fails go
on waiting. -/
def flush (send : List α → EStateM Error σ Unit) : EStateM Error (InsertBuffer α × σ) Bool :=
  fun (b, s) =>
    if b.pending.isEmpty then .ok false (b, s)
    else
      match send b.waiting s with
      | .ok _ s => .ok true (b.sent, s)
      | .error e s => .error e (b, s)

/-- Adds a row, and sends all rows once there are too many. -/
def add (send : List α → EStateM Error σ Unit) (row : α) (length : Nat) (id : Option String) :
    EStateM Error (InsertBuffer α × σ) Unit :=
  fun (b, s) =>
    let b := b.push row length id
    if b.full then
      match flush send (b, s) with
      | .ok _ s => .ok () s
      | .error e s => .error e s
    else .ok () (b, s)

end InsertBuffer

end SnapshotStaging
