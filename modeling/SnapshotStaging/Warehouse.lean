import SnapshotStaging.Database

/-!
# The warehouse

The tables that staging works on, and what each statement does to them. Definitions of tables take
effect at once; the first statement that changes rows opens the transaction that a rollback undoes,
so a definition made before it stays. Statements of other dialects are taken as far as they are
written alike.
-/

namespace SnapshotStaging

/-- A version of a record, from the time it was first seen. -/
structure Version where
  id : String
  data : Option String
  updated : String
  tenant : Int
  deriving DecidableEq, Repr

inductive Relation
  | snapshot (columns : List Column) (rows : List Row)
  | history (versions : List Version)
  | latest (versions : List Version)
  deriving DecidableEq, Repr

/-- What a rollback restores. -/
structure Tables where
  /-- By name, names folded to small letters. -/
  relations : List (String × Relation)
  keys : List Assignment
  deriving DecidableEq, Repr

structure Warehouse where
  tables : Tables
  /-- The tables as they were before the open transaction, if one is open. -/
  saved : Option Tables
  /-- The time of all statements. -/
  now : String
  /-- The dialect that statements are written in. -/
  dialect : Dialect := .sqlite
  deriving DecidableEq, Repr

namespace Warehouse

def empty : Warehouse := ⟨⟨[], []⟩, none, "", .sqlite⟩

/-- Whether the warehouse takes definitions of tables in a dialect: none that tell how rows are
spread. -/
def takesDefinitions (d : Dialect) : Bool := d.tableKeys "" "" = ""

/-- Whether the warehouse takes casts in a dialect. -/
def takesCasts (d : Dialect) : Bool := d = .sqlite

/-! ## Names -/

/-- The words that no table can have as its bare name. -/
def reserved : List String :=
  ["add", "all", "alter", "and", "as", "autoincrement", "between", "case", "check", "collate",
    "commit", "constraint", "create", "default", "deferrable", "delete", "distinct", "drop", "else",
    "escape", "except", "exists", "foreign", "from", "group", "having", "in", "index", "insert",
    "intersect", "into", "is", "isnull", "join", "limit", "not", "nothing", "notnull", "null", "on",
    "or", "order", "primary", "references", "returning", "select", "set", "table", "then", "to",
    "transaction", "union", "unique", "update", "using", "values", "when", "where"]

/-- Names are not told apart by the case of ASCII letters. -/
def fold (name : String) : String := name.toLower

def isNameChar (c : Char) : Bool := c.isAlphanum || c = '_' || c = '$' || 0x80 ≤ c.toNat

/-- Whether a text can stand in a statement as a table's name. -/
def isName (name : String) : Bool :=
  match name.toList with
  | [] => false
  | c :: rest =>
    !c.isDigit && c ≠ '$' && isNameChar c && rest.all isNameChar && !reserved.contains (fold name)

/-- Whether a table can be given a name: some names are the warehouse's own. -/
def isFreeName (name : String) : Bool := isName name && !(fold name).startsWith "sqlite_"

/-- The text that a quoted name stands for, when every quote inside it is doubled. -/
def unquoted? : List Char → Option (List Char)
  | [] => some []
  | '"' :: '"' :: rest => (unquoted? rest).map ('"' :: ·)
  | c :: rest => if c = '"' then none else (unquoted? rest).map (c :: ·)

/-- The most columns that a table can have. -/
def maxColumns : Nat := 2000

/-- The names of all columns of a loading table. -/
def columnNames (columns : List Column) : List String :=
  ["sk", "id"] ++ columns.flatMap (fun c =>
    if c.type = .reference then [Column.keyName c.name, c.name] else [c.name]) ++
    ["data", "tenant_id"]

/-- Whether a loading table can be defined with these columns. -/
def definable (columns : List Column) : Bool :=
  let names := columnNames columns
  names.length ≤ maxColumns && names.all fun n => (unquoted? n.toList).isSome

/-! ## Tables -/

def find? (w : Warehouse) (name : String) : Option Relation :=
  (w.tables.relations.find? fun r => r.1 = fold name).map (·.2)

def without (w : Warehouse) (name : String) : Warehouse :=
  let kept := w.tables.relations.filter fun r => r.1 ≠ fold name
  { w with tables := { w.tables with relations := kept } }

/-- Sets a table, whether it was there or not. -/
def put (w : Warehouse) (name : String) (r : Relation) : Warehouse :=
  let w := w.without name
  { w with tables := { w.tables with relations := (fold name, r) :: w.tables.relations } }

/-- Opens a transaction before rows change. -/
def begun (w : Warehouse) : Warehouse :=
  { w with saved := some (w.saved.getD w.tables) }

def commit (w : Warehouse) : Warehouse := { w with saved := none }

def rollback (w : Warehouse) : Warehouse :=
  { w with tables := w.saved.getD w.tables, saved := none }

/-! ## Rows -/

/-- Whether a row may stand beside others. -/
def admissible (rows : List Row) (r : Row) : Bool :=
  rows.all fun other => other.sk ≠ r.sk && other.id ≠ r.id

/-- Adds rows one by one, all or none. -/
def insertAll (rows : List Row) : List Row → Option (List Row)
  | [] => some rows
  | r :: rest => if admissible rows r then insertAll (rows ++ [r]) rest else none

/-- Whether two versions are of one record of one tenant. -/
def sameRecord (a b : Version) : Bool := a.tenant = b.tenant && a.id = b.id

/-- The versions that no later version of the same record follows. -/
def latestOf (versions : List Version) : List Version :=
  versions.filter fun v => !versions.any fun w => sameRecord v w && v.updated < w.updated

/-- The versions that a row of a snapshot adds to the history: one when the record has no latest
version, else one for each latest version with another payload. A row without payload adds none. -/
def changes (now : String) (latest : List Version) (r : Row) : List Version :=
  match r.data with
  | none => []
  | some data =>
    let version : Version := ⟨r.id, some data, now, r.tenant⟩
    match latest.filter (sameRecord version) with
    | [] => [version]
    | known => (known.filter fun v => v.data.any (· ≠ data)).map fun _ => version

/-! ## Statements -/

def fail : EStateM Error Warehouse Int := fun w => .error (.databaseFailed .statement) w

/-- What a statement does, without regard to transactions. -/
def apply (st : Statement) : EStateM Error Warehouse Int := fun w =>
  match st with
  | .drop name => if isName name then .ok (-1) (w.without name) else fail w
  | .createLoading table columns =>
    let name := TableName.loading table
    if isFreeName name && (w.find? name).isNone && definable columns &&
        takesDefinitions w.dialect then
      .ok (-1) (w.put name (.snapshot columns []))
    else fail w
  | .comment _ _ => fail w
  | .grant _ _ => fail w
  | .insert table rows =>
    match w.find? (TableName.loading table) with
    | some (.snapshot columns old) =>
      if rows.any fun r => r.literals.length ≠ (columnNames columns).length then fail w
      else
        match insertAll old rows with
        | some all => .ok rows.length (w.put (TableName.loading table) (.snapshot columns all))
        | none => fail w
    | _ => fail w
  | .deleteKey table sk =>
    match w.find? (TableName.loading table) with
    | some (.snapshot columns rows) =>
      let kept := rows.filter fun r => r.sk ≠ sk
      .ok (rows.length - kept.length : Nat)
        (w.put (TableName.loading table) (.snapshot columns kept))
    | _ => fail w
  | .createHistory table =>
    let name := TableName.history table
    if !(isFreeName name && takesDefinitions w.dialect) then fail w
    else if (w.find? name).isSome then .ok (-1) w
    else .ok (-1) (w.put name (.history []))
  | .createLatest table =>
    let name := TableName.latest table
    match w.find? (TableName.history table), w.find? name with
    | some (.history versions), none => .ok (-1) (w.put name (.latest (latestOf versions)))
    | _, _ => fail w
  | .appendChanges table =>
    match w.find? (TableName.history table), w.find? (TableName.loading table),
        w.find? (TableName.latest table), takesCasts w.dialect with
    | some (.history versions), some (.snapshot _ rows), some (.latest latest), true =>
      let added := rows.flatMap (changes w.now latest)
      .ok added.length (w.put (TableName.history table) (.history (versions ++ added)))
    | _, _, _, _ => fail w
  | .rename name target =>
    match w.find? name with
    | some r =>
      if isFreeName target && (w.find? target).isNone then .ok (-1) ((w.without name).put target r)
      else fail w
    | none => fail w

/-- Whether a statement changes rows of a table that exists, and so opens a transaction. -/
def changesRows : Statement → Bool
  | .insert _ _ | .deleteKey _ _ | .appendChanges _ => true
  | _ => false

def execute (st : Statement) : EStateM Error Warehouse Int := fun w =>
  apply st (if changesRows st then w.begun else w)

def addKeys (rows : List Assignment) (w : Warehouse) : Warehouse × Bool :=
  let w := w.begun
  match Assignment.insertAll w.tables.keys rows with
  | some keys => ({ w with tables := { w.tables with keys := keys } }, true)
  | none => (w, false)

instance : Database Warehouse where
  start w := w
  commit := commit
  rollback := rollback
  execute := execute
  keys w := w.tables.keys
  addKeys := addKeys

end Warehouse

end SnapshotStaging
