import SnapshotStaging.Json.Token

/-!
# From bytes to glyphs

Bytes are grouped by their leading bits alone. A group that is too long for its value, or whose
value is a surrogate or past the last code point, is a stray: it has the shape of a character and
is none. A group that lacks its shape is broken.
-/

namespace SnapshotStaging.Octets

/-- Between groups, or inside one: bytes due, the value so far, and the least value that needs a
group of this length. -/
inductive State
  | start
  | inside (due value least : Nat)
  deriving DecidableEq, Repr

/-- The state after the first byte of a group, or the glyph that it is by itself. -/
def lead (b : Nat) : State ⊕ Glyph :=
  if b < 0x80 then .inr (Glyph.ofCode b)
  else if b < 0xC0 then .inr .broken
  else if b < 0xE0 then .inl (.inside 1 (b % 0x20) 0x80)
  else if b < 0xF0 then .inl (.inside 2 (b % 0x10) 0x800)
  else if b < 0xF8 then .inl (.inside 3 (b % 0x08) 0x10000)
  else .inr .broken

/-- The glyph of a whole group. -/
def grouped (value least : Nat) : Glyph :=
  if value < least then .stray else Glyph.ofCode value

/-- One byte: the state after it, or the glyph that it completes. -/
def step (s : State) (b : Nat) : State ⊕ Glyph :=
  match s with
  | .start => lead b
  | .inside due value least =>
    if b / 0x40 ≠ 2 then .inr .broken
    else
      let value := 0x40 * value + b % 0x40
      if due ≤ 1 then .inr (grouped value least) else .inl (.inside (due - 1) value least)

/-- Runs the machine; `done` holds the glyphs found before, latest first. -/
def run (s : State) (done : List Glyph) : List UInt8 → List Glyph
  | [] => (if s = .start then done else .broken :: done).reverse
  | b :: rest =>
    match step s b.toNat with
    | .inl next => run next done rest
    | .inr g => run .start (g :: done) rest

def glyphs (bytes : List UInt8) : List Glyph := run .start [] bytes

/-- The characters of a text, when every group of bytes stands for one. -/
def decode? (bytes : List UInt8) : Option (List Char) :=
  ((glyphs bytes).foldl add (some [])).map List.reverse
where
  add : Option (List Char) → Glyph → Option (List Char)
    | some cs, .char c => some (c :: cs)
    | _, _ => none

end SnapshotStaging.Octets
