import SnapshotStaging.Field.Shape
import SnapshotStaging.Json.Notation

/-!
# Statistics of fields

For every top-level field: how many of its scalar values were of each kind, and how many of its
strings had each shape. Objects and arrays count for nothing, not even for their field.

| here | there |
| --- | --- |
| `Counts`, `nonNull`, `toJson` | `Counts`, `Counts.non_null`, `Counts.to_dict` |
| `Statistics` | `StatisticsCollector`: `_stats` and `records_seen` |
| `Counts.add`, `addValue` | `StatisticsCollector.add_value` |
| `addMember`, `addRecord` | `StatisticsCollector.add_record` |
| `sorted` | `StatisticsCollector.items` |
| `find?` | `StatisticsCollector.__getitem__` and `__contains__` |
-/

namespace SnapshotStaging

/-- Occurrences of each kind of scalar; whole numbers, so that differences are exact. -/
structure Counts where
  total : Int := 0
  null : Int := 0
  boolean : Int := 0
  number : Int := 0
  integer : Int := 0
  floating : Int := 0
  string : Int := 0
  uuid : Int := 0
  dateTime : Int := 0
  deriving DecidableEq, Repr, Inhabited

namespace Counts

def nonNull (c : Counts) : Int := c.total - c.null

/-- One for a string that has a property. -/
def tick (b : Bool) : Int := if b then 1 else 0

/-- The counts with one more value. -/
def add (c : Counts) (v : Json) : Counts :=
  let c := { c with total := c.total + 1 }
  match v with
  | .null => { c with null := c.null + 1 }
  | .bool _ => { c with boolean := c.boolean + 1 }
  | .int _ => { c with number := c.number + 1, integer := c.integer + 1 }
  | .float _ => { c with number := c.number + 1, floating := c.floating + 1 }
  | .str s =>
    { c with
      string := c.string + 1
      uuid := c.uuid + tick (Shape.isUuid s)
      dateTime := c.dateTime + tick (Shape.isDateTime s) }
  | .arr _ | .obj _ => c

/-- The counts by name. -/
def toJson (c : Counts) : Json :=
  .obj [("total", .int c.total), ("null", .int c.null), ("boolean", .int c.boolean),
    ("number", .int c.number), ("integer", .int c.integer), ("floating", .int c.floating),
    ("string", .int c.string), ("uuid", .int c.uuid), ("date_time", .int c.dateTime)]

/-- The counts that are given by name; the others are zero. -/
def ofMembers (members : List (String × Json)) : Counts :=
  let count (name : String) : Int :=
    match Json.find? name members with
    | some (.int n) => n
    | _ => 0
  { total := count "total", null := count "null", boolean := count "boolean",
    number := count "number", integer := count "integer", floating := count "floating",
    string := count "string", uuid := count "uuid", dateTime := count "date_time" }

end Counts

/-- Counts of the fields that have been seen, in the order of their first value. -/
structure Statistics where
  records : Nat := 0
  fields : List (String × Counts) := []
  deriving Inhabited

namespace Statistics

/-- The counts of fields after one more value of a field. -/
def addTo (field : String) (v : Json) : List (String × Counts) → List (String × Counts)
  | [] => [(field, Counts.add {} v)]
  | (f, c) :: rest => if f = field then (f, c.add v) :: rest else (f, c) :: addTo field v rest

def addValue (s : Statistics) (field : String) (v : Json) : Statistics :=
  { s with fields := addTo field v s.fields }

/-- The statistics after one more member of a record. -/
def addMember (s : Statistics) (member : String × Json) : Statistics :=
  if member.2.isContainer then s else s.addValue member.1 member.2

def addRecord (s : Statistics) (record : Json) : Statistics :=
  let s := { s with records := s.records + 1 }
  match record with
  | .obj members => members.foldl addMember s
  | _ => s

/-- The fields in the order of their names. -/
def sorted (s : Statistics) : List (String × Counts) :=
  s.fields.mergeSort fun a b => a.1 ≤ b.1

def find? (s : Statistics) (field : String) : Option Counts :=
  (s.fields.find? fun f => f.1 = field).map (·.2)

end Statistics

end SnapshotStaging
