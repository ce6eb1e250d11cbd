import SnapshotStaging.Json.Notation

/-!
# Messages with places

A percent sign opens a place of a message, a letter closes it. Between them may stand the name of a
member, marks for the sign and the side on which the place is filled up, a width and, after a point,
a precision. Values fill the places in turn; a single object also fills the places that name its
members. A message without values stands as it is, percent signs included.
-/

namespace SnapshotStaging.Log

/-- What a place asks of the value that fills it. -/
structure Slot where
  member : Option String := none
  /-- Filled up on the right. -/
  left : Bool := false
  /-- Filled up with zeros after the sign. -/
  zeros : Bool := false
  /-- What stands in front of numbers that are not negative. -/
  sign : List Char := []
  /-- Whether the base of a number is shown. -/
  based : Bool := false
  width : Nat := 0
  precision : Option Nat := none

namespace Slot

def padding (s : Slot) (length : Nat) (c : Char) : List Char := List.replicate (s.width - length) c

def fillText (s : Slot) (text : List Char) : List Char :=
  let text := (s.precision.map fun n => text.take n).getD text
  if s.left then text ++ s.padding text.length ' ' else s.padding text.length ' ' ++ text

def fillNumber (s : Slot) (negative : Bool) (digits : List Char) : List Char :=
  let sign := if negative then ['-'] else s.sign
  let length := sign.length + digits.length
  if s.left then sign ++ digits ++ s.padding length ' '
  else if s.zeros then sign ++ s.padding length '0' ++ digits
  else s.padding length ' ' ++ sign ++ digits

/-- Digits with zeros in front up to the precision. -/
def lengthened (s : Slot) (ds : List Char) : List Char :=
  List.replicate (s.precision.getD 0 - ds.length) '0' ++ ds

/-- A number with some places after its point, six when none are asked for. -/
def fixedDigits (s : Slot) (place : Nat) : List Char :=
  let places := s.precision.getD 6
  let ds := digits (Double.roundedQuotient (Double.units place * 10 ^ places) (2 ^ 1074))
  if places = 0 then ds ++ (if s.based then ['.'] else [])
  else Decimal.pointed ds (ds.length - places)

/-- The value as an integer: the words for yes and no count as one and zero. -/
def integer? : Json → Option Int
  | .int n => some n
  | .bool b => some (if b then 1 else 0)
  | _ => none

/-- The value as a whole number, toward zero. -/
def whole? : Json → Option Int
  | .float (.finite negative place) =>
    let n : Int := Double.units place.val / 2 ^ 1074
    some (if negative then -n else n)
  | v => integer? v

/-- The value as a binary64 number. -/
def double? : Json → Option Double
  | .float x => some x
  | v => (integer? v).map fun n => .ofDecimal ⟨n < 0, n.natAbs, 0⟩

/-- The value as a number in another base. -/
def inBase (s : Slot) (base : Nat) (mark : List Char) (upper : Bool) (v : Json) :
    Option (List Char) :=
  (integer? v).map fun n =>
    let ds := s.lengthened (Nat.toDigits base n.natAbs)
    let ds := if s.based then mark ++ ds else ds
    s.fillNumber (n < 0) (if upper then ds.map Char.toUpper else ds)

/-- The text of a value in a place that a letter closes; nothing when they do not fit. -/
def fill (s : Slot) (letter : Char) (v : Json) : Option (List Char) :=
  match letter with
  | 's' => some (s.fillText v.plain.toList)
  | 'r' => some (s.fillText v.inspect)
  | 'd' | 'i' | 'u' =>
    (whole? v).map fun n => s.fillNumber (n < 0) (s.lengthened (digits n.natAbs))
  | 'x' => s.inBase 16 ['0', 'x'] false v
  | 'X' => s.inBase 16 ['0', 'x'] true v
  | 'o' => s.inBase 8 ['0', 'o'] false v
  | 'f' | 'F' =>
    match double? v with
    | some (.finite negative place) => some (s.fillNumber negative (s.fixedDigits place.val))
    | _ => none
  | _ => none

/-- A place after one more mark or digit. -/
def mark? (s : Slot) (c : Char) : Option Slot :=
  match s.precision, c with
  | some n, c =>
    if c.isDigit then some { s with precision := some (10 * n + (c.toNat - 48)) } else none
  | none, '.' => some { s with precision := some 0 }
  | none, '-' => some { s with left := true }
  | none, '+' => some { s with sign := ['+'] }
  | none, ' ' => some { s with sign := if s.sign = [] then [' '] else s.sign }
  | none, '#' => some { s with based := true }
  | none, c =>
    if c = '0' && s.width = 0 then some { s with zeros := true }
    else if c.isDigit then some { s with width := 10 * s.width + (c.toNat - 48) }
    else none

end Slot

/-- Where the reading of a message stands. -/
inductive Reading
  | text
  | place (s : Slot)
  /-- In the name of a member, its latest character first. -/
  | name (cs : List Char)

/-- Fills the places of a message; `members` are those of a single object. -/
def filled (members : Option (List (String × Json))) :
    Reading → List Json → List Char → Option (List Char)
  | .text, values, [] => if values.isEmpty || members.isSome then some [] else none
  | _, _, [] => none
  | .text, values, c :: rest =>
    if c = '%' then filled members (.place {}) values rest
    else (filled members .text values rest).map (c :: ·)
  | .name cs, values, c :: rest =>
    if c = ')' then
      filled members (.place { member := some (String.ofList cs.reverse) }) values rest
    else filled members (.name (c :: cs)) values rest
  | .place s, values, c :: rest =>
    if c = '%' then (filled members .text values rest).map ('%' :: ·)
    else if c = '(' then filled members (.name []) values rest
    else
      match s.mark? c, s.member, values with
      | some s, _, _ => filled members (.place s) values rest
      | none, some name, _ =>
        match members.bind (Json.find? name) with
        | some v => (s.fill c v).bind fun text => (filled members .text [] rest).map (text ++ ·)
        | none => none
      | none, none, v :: more =>
        (s.fill c v).bind fun text => (filled members .text more rest).map (text ++ ·)
      | none, none, [] => none

/-- The message of an entry; nothing when the values do not fit its places. -/
def message (template : String) (values : List Json) : Option String :=
  let members :=
    match values with
    | [.obj (member :: members)] => some (member :: members)
    | _ => none
  if values.isEmpty then some template
  else (filled members .text values template.toList).map String.ofList

end SnapshotStaging.Log
