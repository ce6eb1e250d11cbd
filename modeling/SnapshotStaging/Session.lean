import SnapshotStaging.Key.Durable
import SnapshotStaging.Key.Memory
import SnapshotStaging.Log

/-!
# Sessions

A session is what a run works on: a database, a store of keys and a log. A `Task` changes the
session and may fail; what it did before it failed stays done.

| here | there |
| --- | --- |
| `execute` | `SqlConnection.exec` |
| `resolve`, `resolveReference` | `IDMap.resolve`, `IDMap.resolve_reference` |
| `syncKeys` | `IDMap.sync` |
| `transaction` | `DatabaseManager.transaction` |
| `loadTransaction` | `IDMap.transaction` |
-/

namespace SnapshotStaging

/-- Who hands out keys: the session alone, or the session together with the table of keys. -/
inductive KeyStore
  | memory (keys : MemoryKeys)
  | durable (keys : DurableKeys)

namespace KeyStore

def isDurable : KeyStore → Bool
  | .memory _ => false
  | .durable _ => true

/-- The state after the transaction of a load was opened. -/
def started : KeyStore → KeyStore
  | .memory k => .memory k
  | .durable k => .durable k.start

def committed : KeyStore → KeyStore
  | .memory k => .memory k
  | .durable k => .durable k.committed

def rolledBack : KeyStore → KeyStore
  | .memory k => .memory k
  | .durable k => .durable k.rolledBack

/-- How many assignments belong to the open transaction of a load. -/
def writtenCount : KeyStore → Nat
  | .memory _ => 0
  | .durable k => (k.load.map (·.written.length)).getD 0

end KeyStore

structure Session (σ : Type) where
  database : σ
  keys : KeyStore
  /-- Latest entry first. -/
  log : List Log.Entry

namespace Session

variable {σ : Type}

/-- The log in order. -/
def entries (s : Session σ) : List Log.Entry := s.log.reverse

variable [Database σ]

/-- The session after the transaction of a load was opened. -/
def loadStarted (s : Session σ) : Session σ :=
  { s with database := Database.start s.database, keys := s.keys.started }

def loadCommitted (s : Session σ) : Session σ :=
  { s with database := Database.commit s.database, keys := s.keys.committed }

def loadRolledBack (s : Session σ) : Session σ :=
  let n := s.keys.writtenCount
  let note : Log.Entry := ⟨.debug, s!"Rolled back {n} surrogate key assignments", none⟩
  { database := Database.rollback s.database
    keys := s.keys.rolledBack
    log := if n = 0 then s.log else note :: s.log }

end Session

abbrev Task (σ : Type) := EStateM Error (Session σ)

namespace Task

variable {σ α : Type}

def note (level : Log.Level) (message : String) : Task σ Unit :=
  modify fun s => { s with log := ⟨level, message, none⟩ :: s.log }

def noteWith (level : Log.Level) (message : String) (fields : List (String × Json)) : Task σ Unit :=
  modify fun s => { s with log := ⟨level, message, some fields⟩ :: s.log }

variable [Database σ]

def execute (st : Statement) : Task σ Int := fun s =>
  match Database.execute st s.database with
  | .ok n d => .ok n { s with database := d }
  | .error e d => .error e { s with database := d }

/-- A step of the durable store, on the session's database. -/
def onDurable (k : DurableKeys) (step : EStateM Error (DurableKeys × σ) α) : Task σ α := fun s =>
  match step (k, s.database) with
  | .ok a (k, d) => .ok a { s with database := d, keys := .durable k }
  | .error e (k, d) => .error e { s with database := d, keys := .durable k }

/-- The key of an identifier, the same at every call. -/
def resolve (scope id : String) : Task σ Nat := fun s =>
  match s.keys with
  | .memory k =>
    let (n, k) := k.allocate scope id
    .ok n { s with keys := .memory k }
  | .durable k => onDurable k (DurableKeys.allocate scope id) s

/-- The key of an identifier that a record refers to. -/
def resolveReference (id : String) : Task σ Nat := resolve Assignment.referenceScope id

/-- Writes the assignments that failed loads left behind. -/
def syncKeys : Task σ Nat := do
  match (← get).keys with
  | .memory _ => return 0
  | .durable k =>
    let n ← onDurable k DurableKeys.sync
    if n ≠ 0 then note .info s!"Wrote {n} surrogate key assignments left by failed loads"
    return n

/-- Runs a task in a transaction: committed when it succeeds, rolled back when it fails or cannot be
committed. -/
def transaction (act : Task σ α) : Task σ α := fun s =>
  match act { s with database := Database.start s.database } with
  | .ok a s =>
    if Database.commits s.database then .ok a { s with database := Database.commit s.database }
    else .error (.databaseFailed .transaction) { s with database := Database.rollback s.database }
  | .error e s => .error e { s with database := Database.rollback s.database }

/-- Runs a task in a transaction to which the keys given in it belong. -/
def loadTransaction (act : Task σ α) : Task σ α := fun s =>
  match act s.loadStarted with
  | .ok a s =>
    if Database.commits s.database then .ok a s.loadCommitted
    else .error (.databaseFailed .transaction) s.loadRolledBack
  | .error e s => .error e s.loadRolledBack

end Task

end SnapshotStaging
