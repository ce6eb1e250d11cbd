import SnapshotStaging.Json.Token

/-!
# What strings hold

A string is read from the fragments that it is written in. A `\u` escape names a character or half of a surrogate
pair, and texts and pages put the halves together in two ways: a text joins a high half to the low one in the escape
right after it and keeps all others as they are (`points`), a page joins a high half to whatever escape comes next
and has a question mark for it otherwise (`paged`).
-/

namespace SnapshotStaging

/-- A fragment of a string as it is written: a letter, a group of bytes that stands for none, or a `\u` escape with its
value. -/
inductive Fragment
  | letter (p : CodePoint)
  | stray
  | unit (value : Nat)
  deriving DecidableEq, Repr

namespace Fragment

/-- Whether an escape names the first half of a surrogate pair. -/
def isHigh (value : Nat) : Bool := 0xD800 ≤ value && value < 0xDC00

/-- Whether an escape names the second half of a surrogate pair. -/
def isLow (value : Nat) : Bool := 0xDC00 ≤ value && value < 0xE000

/-- The number of the code point that two escapes name together. -/
def joined (high low : Nat) : Nat :=
  (high % 0x40) * 0x400 + (high / 0x40 % 0x10 + 1) * 0x10000 + low % 0x400

/-- The code point that an escape names. -/
def named (value : Nat) : CodePoint :=
  if h : 0xD800 ≤ value ∧ value < 0xE000 then .half ⟨value - 0xD800, by omega⟩ else .char (Char.ofNat value)

/-- The code points of a string in a text. -/
def points : List Fragment → Option (List CodePoint)
  | [] => some []
  | .letter p :: rest => (points rest).map (p :: ·)
  | .stray :: _ => none
  | .unit high :: .unit low :: rest =>
    if isHigh high && isLow low then (points rest).map (.char (Char.ofNat (joined high low)) :: ·)
    else (points (.unit low :: rest)).map (named high :: ·)
  | .unit value :: rest => (points rest).map (named value :: ·)

/-- The character with a number, if there is one. -/
def char? (code : Nat) : Option Char :=
  match Glyph.ofCode code with
  | .char c => some c
  | _ => none

/-- The characters of a string in a page. -/
def paged : List Fragment → Option (List Char)
  | [] => some []
  | .letter (.char c) :: rest => (paged rest).map (c :: ·)
  | .letter (.half _) :: _ => none
  | .stray :: _ => none
  | .unit high :: .unit low :: rest =>
    if isHigh high then (char? (joined high low)).bind fun c => (paged rest).map (c :: ·)
    else (char? high).bind fun c => (paged (.unit low :: rest)).map (c :: ·)
  | .unit value :: rest =>
    if isHigh value then (paged rest).map ('?' :: ·) else (char? value).bind fun c => (paged rest).map (c :: ·)

end Fragment

end SnapshotStaging
