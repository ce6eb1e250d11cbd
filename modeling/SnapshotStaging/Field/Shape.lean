import SnapshotStaging.Text.Digit

/-!
# Shapes of strings

Two shapes matter to column types: identifiers in the usual five groups of hexadecimal digits, and
points in time. The digits of a point in time may be of any script, those of an identifier are
ASCII. A shape always covers the whole string.

| here | there |
| --- | --- |
| `uuid`, `isUuid` | `UUID_PATTERN`, `is_uuid` |
| `moment`, `offset`, `isDateTime` | `DATE_TIME_PATTERN`, `looks_like_date_time` |
-/

namespace SnapshotStaging.Shape

/-- What may stand at one place of a string. -/
inductive Slot
  | hex
  | digit
  | mark (c : Char)
  deriving DecidableEq, Repr

def isHex (c : Char) : Bool :=
  c.isDigit || ('a' ≤ c && c ≤ 'f') || ('A' ≤ c && c ≤ 'F')

def Slot.admits : Slot → Char → Bool
  | .hex, c => isHex c
  | .digit, c => Text.isDecimalDigit c
  | .mark m, c => c = m

/-- Whether a string has a shape from its first to its last character. -/
def fits : List Slot → List Char → Bool
  | [], [] => true
  | s :: slots, c :: cs => s.admits c && fits slots cs
  | _, _ => false

def hexes (n : Nat) : List Slot := List.replicate n .hex

def someDigits (n : Nat) : List Slot := List.replicate n .digit

def uuid : List Slot :=
  hexes 8 ++ .mark '-' :: hexes 4 ++ .mark '-' :: hexes 4 ++ .mark '-' :: hexes 4 ++
    .mark '-' :: hexes 12

/-- A day and a time of day. -/
def moment : List Slot :=
  someDigits 4 ++ .mark '-' :: someDigits 2 ++ .mark '-' :: someDigits 2 ++ .mark 'T' ::
    someDigits 2 ++ .mark ':' :: someDigits 2 ++ .mark ':' :: someDigits 2

/-- Thousandths of a second and an offset. -/
def offset : List Slot := .mark '.' :: someDigits 3 ++ .mark '+' :: someDigits 4

def isUuid (s : String) : Bool := fits uuid s.toList

def isDateTime (s : String) : Bool :=
  fits (moment ++ offset) s.toList || fits (moment ++ [.mark 'Z']) s.toList

end SnapshotStaging.Shape
