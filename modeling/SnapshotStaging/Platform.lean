import SnapshotStaging.Number.Decimal

/-!
# Limits of the platform

Two limits come from what the program runs on and not from the program. Integers are turned into text and back only
up to a number of digits. Calls are nested only up to a number, and reading a text and putting a value into order
nest as the text and the value do. The first limit is met in `_scalar_text` and `json.loads`, the second in
`json.loads` and `canonicalize`. Every result of a run depends on these limits, so they are a parameter of all that
reads: a `Platform`.
-/

namespace SnapshotStaging

/-- Limits; none where anything goes. -/
structure Limits where
  /-- The most digits of an integer that is turned into text or back. -/
  digitLimit : Option Nat
  /-- The most calls that may be open beyond the one that reads or orders. What is done with a record afterwards
  begins a few calls deeper; these are taken off. -/
  callLimit : Option Nat
  deriving DecidableEq, Repr

namespace Limits

def unlimited : Limits := ⟨none, none⟩

/-- Whether an integer has too many digits; its sign is none of them. -/
def overlong (l : Limits) (n : Int) : Bool := l.digitLimit.any fun most => most < (digits n.natAbs).length

/-- Whether so many calls may be open. -/
def admits (l : Limits) (calls : Nat) : Bool := l.callLimit.all fun most => calls ≤ most

@[simp] theorem overlong_unlimited (n : Int) : unlimited.overlong n = false := rfl

@[simp] theorem admits_unlimited (calls : Nat) : unlimited.admits calls = true := rfl

theorem admits_mono {l : Limits} {calls fewer : Nat} (h : l.admits calls = true) (hle : fewer ≤ calls) :
    l.admits fewer = true := by
  obtain ⟨digitLimit, _ | most⟩ := l
  · rfl
  · simp only [admits, Option.all_some, decide_eq_true_eq] at h ⊢
    omega

end Limits

/-- What the program runs on. Calls for a text without any nesting are always at hand, and integers have at least so
many digits. -/
class Platform where
  limits : Limits
  flat : limits.admits 20 = true
  legible : limits.digitLimit.all (640 ≤ ·) = true

/-- The limits where nothing else is set: of a thousand calls some twenty are open when a record is read. -/
instance Platform.standard : Platform := ⟨⟨some 4300, some 980⟩, rfl, rfl⟩

end SnapshotStaging
