import SnapshotStaging.Proofs.Page.Spelling

/-!
# Numbers as they are written

A number is written with a sign, digits before the point, digits after it and a power of ten. Pages and texts read every
such spelling as one token. The token is that of an integer when neither fraction nor exponent is written, and any
other is kept as a decimal, whose exponent counts the places against the power of ten.

Main results `lexes` and `reads`.
-/

namespace SnapshotStaging

open Lexer
open Numeral (Part)

/-- A power of ten as it is written. -/
structure WrittenNumber.Power where
  mark : Char
  /-- Whether there is a sign, and then whether it is a minus. -/
  sign : Option Bool
  digits : List Char
  isMark : mark = 'e' ∨ mark = 'E'
  areDigits : AreDigits digits
  nonempty : digits ≠ []

/-- A number as it is written. -/
structure WrittenNumber where
  negative : Bool
  whole : List Char
  /-- The digits after the point; without any there is no point. -/
  places : List Char
  power : Option WrittenNumber.Power
  isWhole : Whole whole
  arePlaces : AreDigits places

namespace WrittenNumber

def Power.chars (p : Power) : List Char := p.mark :: (powerSign p.sign ++ p.digits)

/-- The power without its sign. -/
def Power.size (p : Power) : Nat := Nat.ofDigitChars 10 p.digits 0

def Power.value (p : Power) : Int := if p.sign.getD false then -p.size else p.size

/-- The point and the digits after it. -/
def fraction (w : WrittenNumber) : List Char := if w.places = [] then [] else '.' :: w.places

/-- What stands after the sign. -/
def magnitude (w : WrittenNumber) : List Char := w.whole ++ (w.fraction ++ w.power.elim [] Power.chars)

def chars (w : WrittenNumber) : List Char := (if w.negative then ['-'] else []) ++ w.magnitude

/-- The bytes of a written number in a page. -/
def bytes (w : WrittenNumber) : List UInt8 := Page.ascii w.chars

/-- Neither fraction nor exponent is written. -/
def Plain (w : WrittenNumber) : Prop := w.places = [] ∧ w.power = none

/-- The number that all digits but those of the power spell. -/
def coefficient (w : WrittenNumber) : Nat := Nat.ofDigitChars 10 (w.whole ++ w.places) 0

/-- The power of ten that is written; none is as good as zero. -/
def powerOfTen (w : WrittenNumber) : Int := w.power.elim 0 Power.value

def decimal (w : WrittenNumber) : Decimal := ⟨w.negative, w.coefficient, w.powerOfTen - w.places.length⟩

/-- What a written number is read as. -/
def scalar (w : WrittenNumber) : Scalar :=
  if w.places = [] ∧ w.power.isNone then .int (if w.negative then -w.coefficient else w.coefficient)
  else .decimal w.decimal

/-- The token of a written number. -/
def token (w : WrittenNumber) : Token := (Page.lexeme (.number, w.scalar)).token

variable {w : WrittenNumber}

theorem scalar_of_plain (h : w.Plain) : w.scalar = .int (if w.negative then -w.coefficient else w.coefficient) :=
  if_pos ⟨h.1, Option.isNone_iff_eq_none.2 h.2⟩

theorem scalar_of_not_plain (h : ¬ w.Plain) : w.scalar = .decimal w.decimal :=
  if_neg fun hplain => h ⟨hplain.1, Option.isNone_iff_eq_none.1 hplain.2⟩

/-! ## One token -/

/-- The digits of a written number as the lexer keeps them. -/
def numeral (w : WrittenNumber) : Numeral where
  negative := w.negative
  coefficient := w.coefficient
  places := w.places.length
  powerNegative := w.power.elim false (·.sign.getD false)
  power := w.power.elim 0 Power.size
  real := !(w.places.isEmpty && w.power.isNone)

theorem atom_numeral (w : WrittenNumber) : Token.atom w.numeral.atom = w.token := by
  rw [token]
  by_cases h : w.Plain
  · have hreal : w.numeral.real = false := by simp [numeral, h.1, h.2]
    rw [scalar_of_plain h, Numeral.atom, hreal]
    rfl
  · have hreal : w.numeral.real = true := by
      rcases Classical.not_and_iff_not_or_not.1 h with h | h
      · simp [numeral, h]
      · simp [numeral, Option.isSome_iff_ne_none.2 h]
    rw [scalar_of_not_plain h, Numeral.atom, hreal]
    obtain ⟨negative, whole, places, _ | p, _, _⟩ := w
    · rfl
    · rfl

/-- The digits before and after the point. -/
theorem feed_fraction (w : WrittenNumber) : ∃ part, (IsWhole part ∨ part = .places) ∧
    feed (.empty w.negative) .sign (w.whole ++ w.fraction) = some ({ Numeral.empty w.negative with
      coefficient := w.coefficient, places := w.places.length, real := !w.places.isEmpty }, part) := by
  obtain ⟨part, hpart, hwhole⟩ := feed_whole w.negative w.isWhole
  rw [feed_append, hwhole, fraction, coefficient]
  by_cases h : w.places = []
  · refine ⟨part, .inl hpart, ?_⟩
    rw [if_pos h, h, List.append_nil]
    rfl
  · have hempty : w.places.isEmpty = false := by simpa using h
    refine ⟨.places, .inr rfl, ?_⟩
    rw [if_neg h, hempty, Nat.ofDigitChars_append]
    exact feed_point hpart _ rfl h w.arePlaces

theorem feed_magnitude (w : WrittenNumber) : ∃ part : Part, part.final = true ∧
    feed (.empty w.negative) .sign w.magnitude = some (w.numeral, part) := by
  obtain ⟨part, hpart, hfraction⟩ := w.feed_fraction
  have hfinal : part.final = true := by rcases hpart with (rfl | rfl) | rfl <;> rfl
  rw [magnitude, ← List.append_assoc, feed_append, hfraction, numeral]
  cases w.power with
  | none => exact ⟨part, hfinal, by simp [Numeral.empty, feed]⟩
  | some p =>
    refine ⟨.power, rfl, (feed_power hpart p.isMark _ rfl rfl p.sign p.nonempty p.areDigits).trans ?_⟩
    simp [Numeral.empty, Power.size]

theorem spells (w : WrittenNumber) : Spells w.chars w.numeral.atom := by
  obtain ⟨part, hfinal, hfeed⟩ := w.feed_magnitude
  exact .intro w.negative hfeed hfinal

/-- **A written number is read as its token**, in a text of either kind. -/
theorem reads {σ κ : Type} [Script σ κ] (w : WrittenNumber) :
    Reads (Letter.ofChars w.chars) ([.atom w.numeral.atom] : List (Token σ)) :=
  w.spells.reads

/-! ## Bytes -/

/-- A written number is written in ASCII characters. -/
theorem ascii_chars (w : WrittenNumber) : ∀ c ∈ w.chars, c.toNat < 128 := by
  have hdigits {ds : List Char} (h : AreDigits ds) : ∀ c ∈ ds, c.toNat < 128 := by
    intro c hc
    have hdigit := h c hc
    simp only [Char.isDigit, Bool.and_eq_true, decide_eq_true_eq] at hdigit
    exact Nat.lt_of_le_of_lt (UInt32.le_iff_toNat_le.1 hdigit.2) (by decide)
  have hsign : ∀ c ∈ (if w.negative then ['-'] else []), c.toNat < 128 := by cases w.negative <;> simp
  have hfraction : ∀ c ∈ w.fraction, c.toNat < 128 := by
    rw [fraction]
    split
    · exact nofun
    · exact List.forall_mem_cons.2 ⟨by decide, hdigits w.arePlaces⟩
  have hpower : ∀ c ∈ w.power.elim [] Power.chars, c.toNat < 128 := by
    cases w.power with
    | none => exact nofun
    | some p =>
      have hmark : p.mark.toNat < 128 := by rcases p.isMark with h | h <;> rw [h] <;> decide
      have hsign : ∀ c ∈ powerSign p.sign, c.toNat < 128 := by
        rcases p.sign with _ | _ | _ <;> simp [powerSign]
      exact List.forall_mem_cons.2 ⟨hmark, List.forall_mem_append.2 ⟨hsign, hdigits p.areDigits⟩⟩
  exact List.forall_mem_append.2 ⟨hsign, List.forall_mem_append.2 ⟨hdigits w.isWhole.areDigits,
    List.forall_mem_append.2 ⟨hfraction, hpower⟩⟩⟩

/-- **A written number is a token of a page.** -/
theorem lexes (w : WrittenNumber) : Page.Lexes w.bytes w.token := by
  intro done rest hrest
  rw [bytes, Page.glyphs_ascii w.ascii_chars, ← atom_numeral]
  exact w.spells.run blanksApart_page done (hrest ⟨_, (atom_numeral w).symm⟩)

end WrittenNumber

end SnapshotStaging
