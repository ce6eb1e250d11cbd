/-!
# Keys seen in a pass

One bit for each key. Keys are dense, so the row of bytes stays as short as the greatest key allows.

| here | there |
| --- | --- |
| `size` | `SeenKeys.nbytes` |
| `add` | `SeenKeys.add` |
-/

namespace SnapshotStaging

/-- Bit `key % 8` of byte `key / 8` is set for every key seen. -/
structure SeenKeys where
  bytes : Array UInt8
  deriving DecidableEq, Repr

namespace SeenKeys

def empty : SeenKeys := ⟨#[]⟩

def size (s : SeenKeys) : Nat := s.bytes.size

/-- The byte with only a key's bit set. -/
def mask (key : Nat) : UInt8 := 1 <<< (key % 8).toUInt8

/-- The bytes, at least as many as a key needs. -/
def widened (s : SeenKeys) (key : Nat) : Array UInt8 :=
  s.bytes ++ Array.replicate (key / 8 + 1 - s.bytes.size) 0

theorem lt_size_widened (s : SeenKeys) (key : Nat) : key / 8 < (s.widened key).size := by
  simp [widened]; omega

/-- Marks a key; tells whether it was marked before. -/
def add (s : SeenKeys) (key : Nat) : SeenKeys × Bool :=
  let bytes := s.widened key
  have h : key / 8 < bytes.size := lt_size_widened s key
  let byte := bytes[key / 8]
  (⟨bytes.set (key / 8) (byte ||| mask key) h⟩, byte &&& mask key ≠ 0)

end SeenKeys

end SnapshotStaging
