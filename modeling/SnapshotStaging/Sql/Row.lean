import SnapshotStaging.Json.Basic
import SnapshotStaging.Sql.Dialect

/-!
# Rows of a loading table

A row is the literals of its columns: the key, the identifier, the inferred columns, the payload and
the tenant.

| here | there |
| --- | --- |
| `Literal.sql` | the parts that `TupleEncoder._column_literals` makes |
| `Row.sql` | what `TupleEncoder.encode` joins |
-/

namespace SnapshotStaging

inductive Literal
  | null
  | integer (n : Int)
  | number (x : Double)
  | boolean (b : Bool)
  | text (s : String)
  deriving DecidableEq, Repr

def Literal.sql (d : Dialect) : Literal → String
  | .null => "NULL"
  | .integer n => String.ofList (signedDigits n)
  | .number x => String.ofList (x.text Double.plainWords)
  | .boolean true => "TRUE"
  | .boolean false => "FALSE"
  | .text s => d.quoted s

structure Row where
  sk : Int
  id : String
  cells : List Literal
  data : Option String
  tenant : Int
  deriving DecidableEq, Repr

namespace Row

/-- All literals, in the order of the table's columns. -/
def literals (r : Row) : List Literal :=
  .integer r.sk :: .text r.id :: r.cells ++
    [(r.data.map Literal.text).getD .null, .integer r.tenant]

/-- The row between parentheses. -/
def sql (d : Dialect) (r : Row) : String :=
  "(" ++ ",".intercalate (r.literals.map (Literal.sql d)) ++ ")"

end Row

end SnapshotStaging
