import SnapshotStaging.Json.Canonical
import SnapshotStaging.Text.Case

/-!
# Names of fields and columns

A column is named after its field: words that a change of case separates are joined by underscores
and everything is lower-cased. Only ASCII letters and digits separate words.

| here | there |
| --- | --- |
| `startsWord` | `_CAMEL_BOUNDARY` |
| `columnName` | `decode_camel_case` |
| `namesReference` | `names_reference` |
-/

namespace SnapshotStaging.FieldName

/-- Whether a new word starts at `c`, which stands between `before` and `after`. -/
def startsWord (before c : Char) (after : Option Char) : Bool :=
  c.isUpper && (before.isLower || before.isDigit || (before.isUpper && after.any Char.isLower))

/-- Puts underscores in front of the words after the first. -/
def separated (before : Option Char) : List Char → List Char
  | [] => []
  | c :: rest =>
    if before.any fun b => startsWord b c rest.head? then '_' :: c :: separated (some c) rest
    else c :: separated (some c) rest

/-- The column name of a field. -/
def columnName (field : String) : String :=
  String.ofList (Text.lower (separated none field.toList))

/-- Whether a field's name says that it refers to another record. -/
def namesReference (field : String) : Bool :=
  field ≠ idField &&
    ("Id".toList.isSuffixOf field.toList || "_id".toList.isSuffixOf (Text.lower field.toList))

end SnapshotStaging.FieldName
