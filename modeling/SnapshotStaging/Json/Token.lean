import SnapshotStaging.Number.Decimal
import SnapshotStaging.Number.Double
import SnapshotStaging.Text.Script

/-!
# Tokens of a JSON text

A number is an integer exactly when it is spelt without fraction and exponent; any other number is
kept as the decimal that was written.
-/

namespace SnapshotStaging

/-- A scalar token that is not a string. -/
inductive Atom
  | null
  | bool (b : Bool)
  | int (n : Int)
  | decimal (d : Decimal)
  | special (x : Double)
  deriving DecidableEq, Repr

/-- The content of a text is missing when it cannot be told from what is written, or when texts of the kind do not
hold it. -/
inductive Token (σ : Type := String)
  | openObject
  | closeObject
  | openArray
  | closeArray
  | comma
  | colon
  | text (content : Option σ)
  | atom (a : Atom)
  deriving DecidableEq, Repr

/-- A piece of input: a character, half of a surrogate pair, a well-formed group of bytes that stands for neither, or
a broken group. -/
inductive Glyph
  | char (c : Char)
  | half (h : Fin 0x800)
  | stray
  | broken
  deriving DecidableEq, Repr

/-- A letter as a glyph. -/
def Letter.glyph {κ : Type} [Letter κ] (k : κ) : Glyph :=
  match Letter.point k with
  | .char c => .char c
  | .half h => .half h

/-- The character with a number as a glyph; surrogates and numbers past the last code point are strays. -/
def Glyph.ofCode (n : Nat) : Glyph :=
  if h : n.isValidChar then .char ⟨n.toUInt32, by
    rcases h with h | h <;> simp [UInt32.isValidChar, Nat.isValidChar] <;> omega⟩
  else .stray

end SnapshotStaging
