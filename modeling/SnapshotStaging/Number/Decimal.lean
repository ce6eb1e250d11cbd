/-!
# Decimal numbers as they are written

A `Decimal` keeps the digits and the power of ten of a number's spelling, so `1.0`, `1` and `1E0`
stay apart. `Decimal.text` is its canonical spelling: positional while the power of ten is not
positive and the number has fewer than seven leading zeros after the point, otherwise one digit
before the point and an exponent.
-/

namespace SnapshotStaging

/-- The decimal digits of a natural number, most significant first. -/
def digits (n : Nat) : List Char := Nat.toDigits 10 n

/-- The number that a row of ASCII digits spells; other characters count by their distance from
`0`. -/
def ofDigits (cs : List Char) : Nat :=
  cs.foldl (fun n c => 10 * n + (c.toNat - '0'.toNat)) 0

/-- An integer with a minus sign when negative. -/
def signedDigits : Int → List Char
  | .ofNat n => digits n
  | .negSucc n => '-' :: digits (n + 1)

/-- The value is `coefficient * 10 ^ exponent`, negated when `negative`. -/
structure Decimal where
  negative : Bool
  coefficient : Nat
  exponent : Int
  deriving DecidableEq, Repr

namespace Decimal

/-- The power of ten of the leading digit. -/
def adjusted (d : Decimal) : Int :=
  d.exponent + (digits d.coefficient).length - 1

/-- Digits with the point after the first `place` of them, zeros filled in on the left. -/
def pointed (ds : List Char) (place : Int) : List Char :=
  if place ≤ 0 then '0' :: '.' :: (List.replicate (-place).toNat '0' ++ ds)
  else if ds.length ≤ place.toNat then ds ++ List.replicate (place.toNat - ds.length) '0'
  else ds.take place.toNat ++ '.' :: ds.drop place.toNat

/-- Whether the number is spelt without an exponent. -/
def positional (d : Decimal) : Bool :=
  d.exponent ≤ 0 && -6 ≤ d.adjusted

/-- The canonical spelling, without its sign. -/
def magnitudeText (d : Decimal) : List Char :=
  let ds := digits d.coefficient
  if d.positional then pointed ds (d.exponent + ds.length)
  else
    let power := d.adjusted
    pointed ds 1 ++ 'E' :: (if power < 0 then signedDigits power else '+' :: signedDigits power)

/-- The canonical spelling. -/
def text (d : Decimal) : List Char :=
  if d.negative then '-' :: d.magnitudeText else d.magnitudeText

/-- The largest power of ten that a leading digit may have in a page. -/
def greatestAdjusted : Int := 999999999999999999

/-- The least power of ten that a last digit may have in a page. -/
def leastExponent : Int := -1999999999999999997

/-- Whether a number of a page can be held exactly. -/
def representable (d : Decimal) : Bool :=
  d.adjusted ≤ greatestAdjusted && leastExponent ≤ d.exponent

end Decimal

end SnapshotStaging
