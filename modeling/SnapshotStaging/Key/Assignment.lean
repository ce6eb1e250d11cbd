/-!
# Surrogate keys

Every natural identifier of a scope is given a key, one more than the greatest before it. The scope
is a table's name; the empty scope is shared by all columns of references.

| here | there |
| --- | --- |
| `Assignment`, `admissible` | `IdMapEntry` and its unique constraints |
| `referenceScope` | `GLOBAL_NAMESPACE` |
| `greatest` | the query of `DatabaseKeyStore._next_key` |
-/

namespace SnapshotStaging

structure Assignment where
  scope : String
  id : String
  key : Nat
  deriving DecidableEq, Repr

namespace Assignment

/-- The scope of references. -/
def referenceScope : String := ""

/-- The key of an identifier. -/
def lookup (scope id : String) : List Assignment → Option Nat
  | [] => none
  | a :: rest => if a.scope = scope ∧ a.id = id then some a.key else lookup scope id rest

/-- The greatest key of a scope, zero when it has none. -/
def greatest (scope : String) (rows : List Assignment) : Nat :=
  rows.foldl (fun n a => if a.scope = scope then max n a.key else n) 0

/-- Whether a row may stand beside others: no other key for its identifier, and no other identifier
for its key. -/
def admissible (rows : List Assignment) (a : Assignment) : Bool :=
  rows.all fun b => !(b.scope = a.scope && (b.id = a.id || b.key = a.key))

/-- Adds rows one by one, all or none. -/
def insertAll (rows : List Assignment) : List Assignment → Option (List Assignment)
  | [] => some rows
  | a :: rest => if admissible rows a then insertAll (rows ++ [a]) rest else none

end Assignment

end SnapshotStaging
