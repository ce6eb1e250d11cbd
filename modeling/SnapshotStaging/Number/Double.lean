import SnapshotStaging.Number.Decimal

/-!
# Binary64 numbers

A finite number is a sign and a place in the order of the finite magnitudes: place `c` is `c` units
of `2 ^ -1074` in the two lowest binades, and each later binade of `2 ^ 52` places doubles the unit.
Reading a decimal rounds its exact value to the nearest magnitude, ties to the even place. Printing
takes the fewest digits that read back, and of several such spellings the nearest to the value, so
reading a printed number gives that number again by construction.
-/

namespace SnapshotStaging

-- The powers of numbers are those of the core library, whatever else is imported.
attribute [instance (high), default_instance 10001] instPowNat

/-- The number of finite magnitudes; the next place stands for infinity. -/
def magnitudes : Nat := 2047 * 2 ^ 52

inductive Double
  | finite (negative : Bool) (place : Fin magnitudes)
  | infinite (negative : Bool)
  | nan
  deriving DecidableEq, Repr

namespace Double

/-- The power of two of a place's unit, counted from `2 ^ -1074`. -/
def scale (place : Nat) : Nat := place / 2 ^ 52 - 1

/-- How many of its units a place is. -/
def significand (place : Nat) : Nat :=
  if place < 2 ^ 53 then place else 2 ^ 52 + place % 2 ^ 52

/-- The magnitude of a place, in units of `2 ^ -1074`. -/
def units (place : Nat) : Nat := significand place * 2 ^ scale place

/-- The quotient rounded to the nearest natural number, a half to the even one. -/
def roundedQuotient (n d : Nat) : Nat :=
  let q := n / d
  let twice := 2 * (n % d)
  if twice < d then q else if d < twice then q + 1 else q + q % 2

/-- The place nearest to `n / d`; one past the last finite place or more when it is too large. -/
def nearestPlace (n d : Nat) : Nat :=
  let low := n.log2 + 1021 - d.log2
  let scaled := n * 2 ^ 1074
  let k := if scaled / (d * 2 ^ low) < 2 ^ 53 then low else low + 1
  k * 2 ^ 52 + roundedQuotient scaled (d * 2 ^ k)

/-- The place nearest to `c * 10 ^ e`. Decimals far outside the range are settled by their size. -/
def placeOfDecimal (c : Nat) (e : Int) : Nat :=
  if c = 0 then 0
  else
    let size := e + (digits c).length
    if 310 < size then magnitudes
    else if size < -330 then 0
    else if e < 0 then nearestPlace c (10 ^ (-e).toNat) else nearestPlace (c * 10 ^ e.toNat) 1

/-- The number at a place, infinity when there is none. -/
def ofPlace (negative : Bool) (place : Nat) : Double :=
  if h : place < magnitudes then .finite negative ⟨place, h⟩ else .infinite negative

/-- The number nearest to a decimal. -/
def ofDecimal (d : Decimal) : Double :=
  ofPlace d.negative (placeOfDecimal d.coefficient d.exponent)

def isFinite : Double → Bool
  | .finite _ _ => true
  | _ => false

/-! ## The shortest spelling -/

/-- How many decimal digits stand before the point of a magnitude (negative: zeros after it). -/
def pointPlace (place : Nat) : Int :=
  (digits (units place * 10 ^ 400 / 2 ^ 1074)).length - 400

/-- The two neighbours of a magnitude among the multiples of `10 ^ e`, as multiples, nearer
first. -/
def neighbours (place : Nat) (e : Int) : Nat × Nat :=
  let n := if e < 0 then units place * 10 ^ (-e).toNat else units place
  let d := if e < 0 then 2 ^ 1074 else 2 ^ 1074 * 10 ^ e.toNat
  let below := n / d
  if roundedQuotient n d = below then (below, below + 1) else (below + 1, below)

/-- The better neighbour among the multiples of `10 ^ e`, when one of them reads back. -/
def spelling? (place : Nat) (e : Int) : Option (Nat × Int) :=
  let (near, far) := neighbours place e
  if placeOfDecimal near e = place then some (near, e)
  else if placeOfDecimal far e = place then some (far, e)
  else none

/-- The exact value of a place, as a coefficient and a power of ten. -/
def exact (place : Nat) : Nat × Int := (units place * 5 ^ 1074, -1074)

/-- A coefficient and a power of ten that read back, with the fewest digits. -/
def shortest (place : Nat) : Nat × Int :=
  let point := pointPlace place
  ((List.range 17).findSome? fun n => spelling? place (point - (n + 1 : Nat))).getD (exact place)

/-- Digits without the zeros at their end, one zero when nothing else is left. -/
def withoutTrailingZeros (ds : List Char) : List Char :=
  match (ds.reverse.dropWhile (· == '0')).reverse with
  | [] => ['0']
  | ds => ds

/-- A power of ten with its sign and at least two digits. -/
def powerText (power : Int) : List Char :=
  let ds := digits power.natAbs
  (if power < 0 then '-' else '+') :: (if ds.length < 2 then '0' :: ds else ds)

/-- The spelling of a magnitude: positional from `10 ^ -4` up to `10 ^ 16`, with a point. -/
def placeText (place : Nat) : List Char :=
  if place = 0 then ['0', '.', '0']
  else
    let (c, e) := shortest place
    let all := digits c
    let point := e + all.length
    let ds := withoutTrailingZeros all
    if -4 < point && point ≤ 16 then
      if ds.length ≤ point.toNat then Decimal.pointed ds point ++ ['.', '0']
      else Decimal.pointed ds point
    else
      (if ds.length = 1 then ds else Decimal.pointed ds 1) ++ 'e' :: powerText (point - 1)

/-- The words for the numbers that have no digits. -/
structure Words where
  infinity : List Char
  nan : List Char

/-- The words of a JSON text. -/
def jsonWords : Words := ⟨"Infinity".toList, "NaN".toList⟩

/-- The words of a value that stands alone. -/
def plainWords : Words := ⟨"inf".toList, "nan".toList⟩

def text (words : Words) : Double → List Char
  | .finite negative place =>
    if negative then '-' :: placeText place.val else placeText place.val
  | .infinite negative => if negative then '-' :: words.infinity else words.infinity
  | .nan => words.nan

end Double

end SnapshotStaging
