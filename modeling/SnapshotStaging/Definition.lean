import SnapshotStaging.Column
import SnapshotStaging.Error
import SnapshotStaging.Json.Reader
import SnapshotStaging.Page.Octets
import SnapshotStaging.Path

/-!
# Definitions of tables

Which tables a run stages. A definition is a table's name, or an object with the name and what else
is known of the table. Members other than the name are kept as they were given.

| here | there |
| --- | --- |
| `ofJson`, `toJson` | `TableSchema.from_dict`, `TableSchema.to_dict` |
| `columnJson` | `ColumnSchema.to_dict` |
| `ofEntries`, `entries`, `ofFile` | `load_table_schemas` |
-/

namespace SnapshotStaging

structure Definition where
  name : Json
  moduleName : Json := .null
  source : Json := .null
  skip : Bool := false

namespace Definition

/-- The name as it stands in messages and statements. -/
def label (d : Definition) : String := d.name.plain

def ofJson : Json → Except Error Definition
  | .str name => .ok { name := .str name }
  | .obj members =>
    match Json.find? "table_name" members with
    | none => .error (.unnamedTable (.obj members))
    | some name =>
      .ok {
        name := name
        moduleName := (Json.find? "module_name" members).getD .null
        source := (Json.find? "source_path" members).getD .null
        skip := ((Json.find? "skip" members).getD (.bool false)).truthy }
  | v => .error (.unknownDefinition v)

def ofEntries (entries : List Json) : Except Error (List Definition) := entries.mapM ofJson

/-- The entries of a value: the items of a list, the characters of a text, the names of an
object. -/
def entries : Json → Except Error (List Json)
  | .arr items => .ok items
  | .str s => .ok (s.toList.map fun c => .str (String.singleton c))
  | .obj members => .ok (members.map fun m => .str m.1)
  | _ => .error .unsuitableValue

/-- The definitions in a file; an object holds them in its member `tables`. -/
def ofFile [Platform] (path : String) (content : Option (List UInt8)) : Except Error (List Definition) := do
  let path := Path.normal path
  let bytes ← content.elim (.error (.unreadableDefinitions path)) .ok
  let cs ← (Octets.decode? bytes).elim (.error .undecodableText) .ok
  match Json.load .any cs with
  | .error .overlong => .error .overlongInteger
  | .error .exhausted => .error .deepText
  | .error _ => .error (.unreadableDefinitions path)
  | .ok (.obj members) => ofEntries (← entries ((Json.find? "tables" members).getD (.arr [])))
  | .ok v => ofEntries (← entries v)

def columnJson (c : Column) : Json :=
  .obj [("column_name", .str c.name), ("source_column_name", .str c.source),
    ("column_type", .str c.type.name)]

/-- A definition with the columns found for it. -/
def toJson (d : Definition) (columns : List Column) : Json :=
  .obj [("table_name", d.name), ("module_name", d.moduleName), ("source_path", d.source),
    ("skip", .bool d.skip), ("columns", .arr (columns.map columnJson))]

end Definition

end SnapshotStaging
