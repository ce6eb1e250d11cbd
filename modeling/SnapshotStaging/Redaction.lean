import SnapshotStaging.Json.Basic

/-!
# Redaction of personal data

A scalar of a record is reached by a path: a slash before every member name and every array index on
the way. Rules name paths; a star in a rule stands for any one segment. A flagged scalar is replaced
by the emptiest value of its kind, so the record keeps its shape.

| here | there |
| --- | --- |
| `Rules`, `flags` | `PathSetPredicate`, `PathSetPredicate.__call__` |
| `emptied` | `_redacted` |
| `redact` | `redact` |
| `Policy.rulesFor?` | `AnonymizationPolicy.predicate_for` |
-/

namespace SnapshotStaging.Redaction

/-- The parts of a text between slashes. -/
def segments : List Char → List (List Char)
  | [] => [[]]
  | c :: rest =>
    if c = '/' then [] :: segments rest
    else
      match segments rest with
      | part :: parts => (c :: part) :: parts
      | [] => [[c]]

/-- Rules without a star, and the segments of the others. -/
structure Rules where
  exact : List String
  patterns : List (List (List Char))

namespace Rules

def ofPaths (paths : List String) : Rules :=
  ⟨paths.filter fun p => !p.toList.contains '*',
    (paths.filter fun p => p.toList.contains '*').map fun p => segments p.toList⟩

/-- Whether a pattern fits segments one by one. -/
def fits : List (List Char) → List (List Char) → Bool
  | [], [] => true
  | p :: pattern, s :: rest => (p = ['*'] || p = s) && fits pattern rest
  | _, _ => false

/-- Whether some rule names a path. -/
def flags (r : Rules) (path : String) : Bool :=
  r.exact.contains path ||
    (!r.patterns.isEmpty &&
      let parts := segments path.toList
      r.patterns.any fun pattern => fits pattern parts)

end Rules

/-- The emptiest value of a scalar's kind. -/
def emptied : Json → Json
  | .bool _ => .bool false
  | .int _ => .int 0
  | .float _ => .int 0
  | .str _ => .str ""
  | v => v

mutual

/-- The value with every flagged scalar emptied; `path` leads to the value itself. -/
def redact (flagged : String → Bool) (path : String) : Json → Json
  | .null => .null
  | .arr items => .arr (redactItems flagged path 0 items)
  | .obj members => .obj (redactMembers flagged path members)
  | v => if flagged path then emptied v else v

def redactItems (flagged : String → Bool) (path : String) (index : Nat) : List Json → List Json
  | [] => []
  | v :: items =>
    redact flagged (path ++ "/" ++ String.ofList (digits index)) v ::
      redactItems flagged path (index + 1) items

def redactMembers (flagged : String → Bool) (path : String) :
    List (String × Json) → List (String × Json)
  | [] => []
  | (name, v) :: members =>
    (name, redact flagged (path ++ "/" ++ name) v) :: redactMembers flagged path members

end

/-- Rules by table. -/
abbrev Policy := List (String × List String)

/-- The rules of a table, when it has any. -/
def Policy.rulesFor? (p : Policy) (table : String) : Option Rules :=
  match p.find? fun entry => entry.1 = table with
  | some (_, path :: paths) => some (Rules.ofPaths (path :: paths))
  | _ => none

end SnapshotStaging.Redaction
