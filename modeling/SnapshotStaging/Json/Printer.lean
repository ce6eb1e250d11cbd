import SnapshotStaging.Json.Basic
import SnapshotStaging.Text.Script

/-!
# Writing JSON text

A value is written in front of the text that follows it. Strings escape the quote, the backslash
and the control characters and nothing else. An empty container is written without anything between
its brackets in every layout.

| here | there |
| --- | --- |
| `render` | `json.dumps` with `ensure_ascii` unset |
| `Layout` | its `indent` and `separators` |
-/

namespace SnapshotStaging

/-- How much room a text has: none, a blank after each comma and colon, or a line for each item. -/
inductive Layout
  | compact
  | spaced
  | indented (width : Nat)
  deriving DecidableEq, Repr

section

variable {κ : Type} [Letter κ]

namespace Layout

/-- A new line with the indentation of a depth, in front of `rest`. -/
def newLine (width depth : Nat) (rest : List κ) : List κ :=
  Letter.ofChar '\n' :: (List.replicate (width * depth) (Letter.ofChar ' ') ++ rest)

/-- What stands between an opening bracket and the first item, and before a closing bracket. -/
def edge (l : Layout) (depth : Nat) (rest : List κ) : List κ :=
  match l with
  | .indented width => newLine width depth rest
  | _ => rest

/-- What stands between two items. -/
def between (l : Layout) (depth : Nat) (rest : List κ) : List κ :=
  match l with
  | .compact => Letter.ofChar ',' :: rest
  | .spaced => Letter.ofChar ',' :: Letter.ofChar ' ' :: rest
  | .indented width => Letter.ofChar ',' :: newLine width depth rest

/-- What stands between a name and its value. -/
def colon (l : Layout) (rest : List κ) : List κ :=
  match l with
  | .compact => Letter.ofChar ':' :: rest
  | _ => Letter.ofChar ':' :: Letter.ofChar ' ' :: rest

end Layout

namespace Json

def lowHexDigit (n : Nat) : Char :=
  if n < 10 then Char.ofNat ('0'.toNat + n) else Char.ofNat ('a'.toNat + (n - 10))

/-- How a character of a string is written. -/
def escaped (c : Char) : List Char :=
  match c with
  | '"' => ['\\', '"']
  | '\\' => ['\\', '\\']
  | '\n' => ['\\', 'n']
  | '\r' => ['\\', 'r']
  | '\t' => ['\\', 't']
  | '\x08' => ['\\', 'b']
  | '\x0c' => ['\\', 'f']
  | c =>
    if c.toNat < 0x20 then
      ['\\', 'u', '0', '0', lowHexDigit (c.toNat / 16), lowHexDigit (c.toNat % 16)]
    else [c]

/-- One letter of a string; half of a surrogate pair stands as it is. -/
def writeLetter (k : κ) (rest : List κ) : List κ :=
  match Letter.point k with
  | .char c => Letter.ofChars (escaped c) ++ rest
  | .half _ => k :: rest

end Json

end

namespace Json

variable {σ κ : Type} [Script σ κ]

/-- A string with its quotes. -/
def writeString (s : σ) (rest : List κ) : List κ :=
  Letter.ofChar '"' :: (Script.letters s).foldr writeLetter (Letter.ofChar '"' :: rest)

mutual

def write (l : Layout) (depth : Nat) : Json σ → List κ → List κ
  | .null, rest => Letter.ofChars ['n', 'u', 'l', 'l'] ++ rest
  | .bool true, rest => Letter.ofChars ['t', 'r', 'u', 'e'] ++ rest
  | .bool false, rest => Letter.ofChars ['f', 'a', 'l', 's', 'e'] ++ rest
  | .int n, rest => Letter.ofChars (signedDigits n) ++ rest
  | .float x, rest => Letter.ofChars (x.text Double.jsonWords) ++ rest
  | .str s, rest => writeString s rest
  | .arr [], rest => Letter.ofChar '[' :: Letter.ofChar ']' :: rest
  | .arr (v :: items), rest =>
    Letter.ofChar '[' :: l.edge (depth + 1) (write l (depth + 1) v (writeItems l (depth + 1) items
      (l.edge depth (Letter.ofChar ']' :: rest))))
  | .obj [], rest => Letter.ofChar '\x7b' :: Letter.ofChar '\x7d' :: rest
  | .obj ((name, v) :: members), rest =>
    Letter.ofChar '\x7b' :: l.edge (depth + 1) (writeString name (l.colon (write l (depth + 1) v
      (writeMembers l (depth + 1) members (l.edge depth (Letter.ofChar '\x7d' :: rest))))))

/-- Items after the first one. -/
def writeItems (l : Layout) (depth : Nat) : List (Json σ) → List κ → List κ
  | [], rest => rest
  | v :: items, rest => l.between depth (write l depth v (writeItems l depth items rest))

/-- Members after the first one. -/
def writeMembers (l : Layout) (depth : Nat) : List (σ × Json σ) → List κ → List κ
  | [], rest => rest
  | (name, v) :: members, rest =>
    l.between depth <| writeString name <| l.colon <| write l depth v <|
      writeMembers l depth members rest

end

def render (l : Layout) (v : Json σ) : σ := Script.ofLetters (v.write l 0 [])

/-- The text without blanks. -/
def compact (v : Json σ) : σ := v.render .compact

/-- The text with one item a line, four blanks for each level. -/
def pretty (v : Json σ) : σ := v.render (.indented 4)

end Json

end SnapshotStaging
