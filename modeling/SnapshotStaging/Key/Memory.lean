import SnapshotStaging.Key.Assignment

/-!
# Keys for one process

The assignments of a process are its whole memory: a new identifier gets one more than the greatest
key of its scope.

| here | there |
| --- | --- |
| `MemoryKeys.allocate` | `MemoryKeyStore.allocate_if_absent` |
-/

namespace SnapshotStaging

/-- Assignments, latest first. -/
structure MemoryKeys where
  rows : List Assignment
  deriving DecidableEq, Repr

namespace MemoryKeys

def empty : MemoryKeys := ⟨[]⟩

/-- The key of an identifier, given now if it has none. -/
def allocate (k : MemoryKeys) (scope id : String) : Nat × MemoryKeys :=
  match Assignment.lookup scope id k.rows with
  | some n => (n, k)
  | none =>
    let n := Assignment.greatest scope k.rows + 1
    (n, ⟨⟨scope, id, n⟩ :: k.rows⟩)

end MemoryKeys

end SnapshotStaging
