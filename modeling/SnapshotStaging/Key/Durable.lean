import SnapshotStaging.Database

/-!
# Keys that outlive the process

Assignments are rows of the database's table of keys. While a load runs, new ones are written in its
transaction and become durable with it; at other times each is committed before it is answered. An
assignment is never taken back: one whose transaction was rolled back stays valid in this process
and is written by `sync`. The counter of a scope is read from the table once and never lowered.

| here | there |
| --- | --- |
| `DurableKeys` | the fields of `DatabaseKeyStore`; `load` is `_local.binding` |
| `nextKey` | `DatabaseKeyStore._next_key` |
| `allocate` | `DatabaseKeyStore.allocate_if_absent` with `_lookup_or_add` |
| `start`, `committed`, `rolledBack` | `DatabaseKeyStore.transaction` |
| `missing`, `sync` | `DatabaseKeyStore.sync` |
-/

namespace SnapshotStaging

/-- The transaction of a load: the identifiers that were given keys in it, latest first, and whether
a failed insertion has already undone it. -/
structure LoadTransaction where
  written : List (String × String)
  undone : Bool
  deriving DecidableEq, Repr

structure DurableKeys where
  /-- Every assignment answered by this process. -/
  cache : List Assignment
  counters : List (String × Nat)
  /-- Identifiers whose keys were rolled back and not written since. -/
  unwritten : List (String × String)
  load : Option LoadTransaction
  deriving DecidableEq, Repr

namespace DurableKeys

def empty : DurableKeys := ⟨[], [], [], none⟩

/-- The greatest key handed out in a scope, if the process knows it. -/
def counter? (k : DurableKeys) (scope : String) : Option Nat :=
  (k.counters.find? fun c => c.1 = scope).map (·.2)

/-- The next key of a scope; the first time, the counter is recovered from the table's rows. -/
def nextKey (k : DurableKeys) (rows : List Assignment) (scope : String) : DurableKeys × Nat :=
  match k.counter? scope with
  | some n => (k, n + 1)
  | none =>
    let n := Assignment.greatest scope rows
    ({ k with counters := (scope, n) :: k.counters }, n + 1)

/-- Keeps an assignment, and raises its scope's counter to it. -/
def remember (k : DurableKeys) (a : Assignment) : DurableKeys :=
  { k with
    cache := a :: k.cache
    counters := (a.scope, max a.key ((k.counter? a.scope).getD 0)) ::
      k.counters.filter fun c => c.1 ≠ a.scope }

/-- The state after an assignment was written in the open transaction. -/
def wrote (k : DurableKeys) (a : Assignment) : DurableKeys :=
  { k with load := k.load.map fun l => { l with written := (a.scope, a.id) :: l.written } }

variable {σ : Type} [Database σ]

/-- The key of an identifier, given and written now if it has none. -/
def allocate (scope id : String) : EStateM Error (DurableKeys × σ) Nat := fun (k, db) =>
  match Assignment.lookup scope id k.cache with
  | some n => .ok n (k, db)
  | none =>
    if k.load.any (·.undone) then .error (.databaseFailed (.keys true)) (k, db)
    else
      match Database.readable db with
      | (db, false) => .error (.databaseFailed (.keys k.load.isSome)) (k, db)
      | (db, true) =>
        let rows := Database.keys db
        match Assignment.lookup scope id rows with
        | some n => .ok n (k.remember ⟨scope, id, n⟩, db)
        | none =>
          let (k, n) := k.nextKey rows scope
          let a : Assignment := ⟨scope, id, n⟩
          match k.load with
          | some load =>
            match Database.addKeys [a] db with
            | (db, true) => .ok n ((k.remember a).wrote a, db)
            | (db, false) =>
              .error (.databaseFailed (.keys true))
                ({ k with load := some { load with undone := true } }, Database.rollback db)
          | none =>
            match Database.addKeys [a] (Database.start db) with
            | (db, true) =>
              if Database.commits db then .ok n (k.remember a, Database.commit db)
              else .error (.databaseFailed (.keys false)) (k, Database.rollback db)
            | (db, false) => .error (.databaseFailed (.keys false)) (k, Database.rollback db)

/-- Opens the transaction of a load. -/
def start (k : DurableKeys) : DurableKeys := { k with load := some ⟨[], false⟩ }

/-- The transaction of a load has been committed. -/
def committed (k : DurableKeys) : DurableKeys := { k with load := none }

/-- The transaction of a load has been rolled back: its assignments stay, unwritten. -/
def rolledBack (k : DurableKeys) : DurableKeys :=
  let written := (k.load.map (·.written)).getD []
  { k with
    load := none
    unwritten := written.filter (fun p => !k.unwritten.contains p) ++ k.unwritten }

/-- The order in which left-over assignments are written. -/
def pairLe (a b : String × String) : Bool := a.1 < b.1 || (a.1 = b.1 && a.2 ≤ b.2)

/-- The left-over assignments that the table has no row for. -/
def missing (k : DurableKeys) (rows : List Assignment) (pending : List (String × String)) :
    List Assignment :=
  pending.filterMap fun (scope, id) =>
    if (Assignment.lookup scope id rows).isSome then none
    else (Assignment.lookup scope id k.cache).map fun n => ⟨scope, id, n⟩

/-- Writes the assignments whose transaction was rolled back; answers how many there were. -/
def sync : EStateM Error (DurableKeys × σ) Nat := fun (k, db) =>
  let pending := k.unwritten.mergeSort pairLe
  if pending.isEmpty then .ok 0 (k, db)
  else
    match Database.readable (Database.start db) with
    | (db, false) => .error (.databaseFailed (.keys false)) (k, Database.rollback db)
    | (db, true) =>
      match Database.addKeys (k.missing (Database.keys db) pending) db with
      | (db, true) =>
        if Database.commits db then
          .ok pending.length ({ k with unwritten := [] }, Database.commit db)
        else .error (.databaseFailed (.keys false)) (k, Database.rollback db)
      | (db, false) => .error (.databaseFailed (.keys false)) (k, Database.rollback db)

end DurableKeys

end SnapshotStaging
