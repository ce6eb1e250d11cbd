import SnapshotStaging.Json.Basic
import SnapshotStaging.Text.Quoted

/-!
# Values in messages

How a value is named in a message and in a key: the words `None`, `True` and `False`, quoted texts,
and containers with a blank after each comma and colon. A text that is a whole message stands
without quotes.
-/

namespace SnapshotStaging.Json

mutual

def inspect : Json → List Char
  | .null => "None".toList
  | .bool true => "True".toList
  | .bool false => "False".toList
  | .int n => signedDigits n
  | .float x => x.text Double.plainWords
  | .str s => Text.quoted s
  | .arr [] => ['[', ']']
  | .arr (v :: items) => '[' :: (v.inspect ++ inspectItems items)
  | .obj [] => ['\x7b', '\x7d']
  | .obj ((name, v) :: members) =>
    '\x7b' :: (Text.quoted name ++ ':' :: ' ' :: (v.inspect ++ inspectMembers members))

def inspectItems : List Json → List Char
  | [] => [']']
  | v :: items => ',' :: ' ' :: (v.inspect ++ inspectItems items)

def inspectMembers : List (String × Json) → List Char
  | [] => ['\x7d']
  | (name, v) :: members =>
    ',' :: ' ' :: (Text.quoted name ++ ':' :: ' ' :: (v.inspect ++ inspectMembers members))

end

/-- The value as a message of its own. -/
def plain : Json → String
  | .str s => s
  | v => String.ofList v.inspect

/-- Whether a value says yes: all do but nothing, zero, and empty texts and containers. -/
def truthy : Json → Bool
  | .null => false
  | .bool b => b
  | .int n => n ≠ 0
  | .float (.finite _ place) => place.val ≠ 0
  | .float _ => true
  | .str s => s ≠ ""
  | .arr items => !items.isEmpty
  | .obj members => !members.isEmpty

end SnapshotStaging.Json
