import SnapshotStaging.Field.Name
import SnapshotStaging.Field.Statistics

/-!
# Columns of a loading table

A column gets a narrow type only when every value of its field that is not null calls for it; any
mixture goes to text. No two columns of a table share a name, and none has the name of a fixed
column or of the column of keys beside a reference.

| here | there |
| --- | --- |
| `ColumnType`, `sql` | `ColumnType`, `ColumnType.sql_type` |
| `select` | `select_column_type` |
| `Column`, `keyName` | `ColumnSchema`, `ColumnSchema.companion_key_name` |
| `reserved` | `RESERVED_COLUMNS` |
| `isFree`, `freed` | the condition of the renaming loop in `infer_columns`, and the loop |
| `ofFields`, `infer` | `infer_columns` |
-/

namespace SnapshotStaging

inductive ColumnType
  | bigint
  | boolean
  | numeric
  | timestamp
  | text
  /-- References to other records, with a column of their keys beside it. -/
  | reference
  deriving DecidableEq, Repr

namespace ColumnType

def name : ColumnType → String
  | .bigint => "bigint"
  | .boolean => "boolean"
  | .numeric => "numeric"
  | .timestamp => "timestamptz"
  | .text => "varchar"
  | .reference => "id"

def all : List ColumnType := [.bigint, .boolean, .numeric, .timestamp, .text, .reference]

def ofName? (s : String) : Option ColumnType := all.find? fun t => t.name = s

/-- The type in a table's definition. -/
def sql : ColumnType → String
  | .bigint => "BIGINT"
  | .boolean => "BOOLEAN"
  | .numeric => "NUMERIC"
  | .timestamp => "TIMESTAMPTZ"
  | .text => "VARCHAR(65535)"
  | .reference => "VARCHAR(36)"

/-- The type for a field with these counts. -/
def select (c : Counts) (field : String) : ColumnType :=
  let n := c.nonNull
  if n ≤ 0 then .text
  else if c.boolean = n then .boolean
  else if c.number = n then (if 0 < c.floating then .numeric else .bigint)
  else if c.string = n then
    if c.uuid = n && FieldName.namesReference field then .reference
    else if c.dateTime = n then .timestamp
    else .text
  else .text

end ColumnType

structure Column where
  name : String
  /-- The field whose values the column holds. -/
  source : String
  type : ColumnType
  deriving DecidableEq, Repr

namespace Column

/-- The name of the column of keys beside a column of references. -/
def keyName (name : String) : String := name ++ "_sk"

/-- The columns that every loading table has. -/
def reserved : List String := ["sk", "id", "data", "tenant_id"]

/-- Whether a column of a type may have a name. -/
def isFree (taken : List String) (type : ColumnType) (name : String) : Bool :=
  !taken.contains name && !(type = .reference && taken.contains (keyName name))

/-- Appends underscores until the name is free. A taken name can stand in the way once as a column
and once as a column of keys, so twice as many tries as there are taken names are enough. -/
def freed (taken : List String) (type : ColumnType) : Nat → String → String
  | 0, name => name
  | tries + 1, name => if isFree taken type name then name else freed taken type tries (name ++ "_")

/-- The names that a column takes. -/
def names (c : Column) : List String :=
  if c.type = .reference then [c.name, keyName c.name] else [c.name]

/-- The column of a field, beside columns that have taken their names. -/
def ofField (select : Counts → String → ColumnType) (taken : List String) (field : String)
    (c : Counts) : Column :=
  let type := select c field
  ⟨freed taken type (2 * taken.length + 1) (FieldName.columnName field), field, type⟩

/-- The columns of fields in turn. -/
def ofFields (select : Counts → String → ColumnType) (taken : List String) :
    List (String × Counts) → List Column
  | [] => []
  | (field, c) :: rest =>
    let column := ofField select taken field c
    column :: ofFields select (column.names ++ taken) rest

/-- The columns for the fields of a table; the identifier has its own column already. -/
def infer (select : Counts → String → ColumnType) (s : Statistics) : List Column :=
  ofFields select reserved (s.sorted.filter fun f => f.1 ≠ idField)

end Column

end SnapshotStaging
