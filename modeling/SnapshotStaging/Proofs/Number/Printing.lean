import SnapshotStaging.Proofs.Json.Numeral
import SnapshotStaging.Proofs.Number.Rounding

/-!
# Printed floats are read back

A finite float is printed as digits without zeros at their end, laid out with a point or with a power
of ten. `placeText_eq` gives the digits and the layout; each layout is read as a decimal of the printed
value.

Main result `spells_text`: the text of a finite float is read as one decimal, and the nearest float to
that decimal is the printed one.
-/

namespace SnapshotStaging.Double

open Lexer

/-! ## Zeros at the end -/

theorem withoutTrailingZeros_append_zero (ds : List Char) :
    withoutTrailingZeros (ds ++ ['0']) = withoutTrailingZeros ds := by
  simp [withoutTrailingZeros]

theorem withoutTrailingZeros_append {d : Char} (h : d ≠ '0') (ds : List Char) :
    withoutTrailingZeros (ds ++ [d]) = ds ++ [d] := by
  rw [withoutTrailingZeros, List.reverse_append, List.reverse_singleton, List.singleton_append,
    List.dropWhile_cons_of_neg (by simpa using h), List.reverse_cons, List.reverse_reverse]
  cases ds <;> rfl

theorem digits_eq_append (c : Nat) :
    ∃ ds, digits c = ds ++ [(c % 10).digitChar] := by
  by_cases h : c < 10
  · refine ⟨[], ?_⟩
    rw [Nat.mod_eq_of_lt h]
    exact Nat.toDigits_of_lt_base h
  · exact ⟨digits (c / 10), Nat.toDigits_of_base_le (by decide) (by omega)⟩

/-- Dropping the zeros at the end of a number's digits divides it by a power of ten. -/
theorem withoutTrailingZeros_digits {c : Nat} (hc : 0 < c) :
    ∃ c' k, 0 < c' ∧ c = c' * 10 ^ k ∧ withoutTrailingZeros (digits c) = digits c' := by
  induction c using Nat.strongRecOn with
  | ind c ih =>
    by_cases hz : c % 10 = 0
    · obtain ⟨c', k, hpos, hval, hds⟩ := ih (c / 10) (by omega) (by omega)
      refine ⟨c', k + 1, hpos, ?_, ?_⟩
      · rw [Nat.pow_succ, ← Nat.mul_assoc, ← hval]
        omega
      · rw [show c = c / 10 * 10 by omega, digits_mul_ten (by omega), withoutTrailingZeros_append_zero,
          hds]
    · obtain ⟨ds, hds⟩ := digits_eq_append c
      refine ⟨c, 0, hc, by omega, ?_⟩
      rw [hds, withoutTrailingZeros_append]
      rw [Ne, Nat.digitChar_eq_zero]
      exact hz

/-! ## Layouts -/

/-- The digits of a positive magnitude with `point` digits before the point. -/
def layout (ds : List Char) (point : Int) : List Char :=
  if -4 < point && point ≤ 16 then
    if ds.length ≤ point.toNat then Decimal.pointed ds point ++ ['.', '0']
    else Decimal.pointed ds point
  else
    (if ds.length = 1 then ds else Decimal.pointed ds 1) ++ 'e' :: powerText (point - 1)

theorem placeText_zero : placeText 0 = ['0', '.', '0'] := rfl

-- the printed digits stand as a variable: `shortest` must not be computed to compare the two sides
theorem placeText_of_ne_zero {place : Nat} (h : place ≠ 0) {found : Nat × Int} (hf : shortest place = found) :
    placeText place = layout (withoutTrailingZeros (digits found.1)) (found.2 + (digits found.1).length) := by
  unfold placeText
  rw [if_neg h, hf]
  rfl

/-- A positive magnitude is a coefficient and a power of ten whose nearest place is that magnitude,
laid out. -/
theorem placeText_eq {place : Nat} (hpos : 0 < place) (h : place < magnitudes) :
    ∃ c e, 0 < c ∧ placeOfDecimal c e = place ∧
      placeText place = layout (digits c) (e + (digits c).length) := by
  have hread := placeOfDecimal_shortest hpos h
  have hcoefficient := shortest_pos hpos h
  obtain ⟨⟨all, low⟩, hf⟩ : ∃ found, shortest place = found := ⟨_, rfl⟩
  rw [placeText_of_ne_zero (by omega) hf]
  rw [hf] at hread hcoefficient
  obtain ⟨c, k, hc, rfl, hds⟩ := withoutTrailingZeros_digits hcoefficient
  refine ⟨c, low + k, hc, ?_, ?_⟩
  · rw [← hread, ← placeOfDecimal_mul_pow hc (low + k) k, Int.add_sub_cancel]
  · rw [hds, digits_mul_pow hc, List.length_append, List.length_replicate]
    congr 1
    omega

theorem areDigits_powerDigits (n : Nat) :
    AreDigits (if (digits n).length < 2 then '0' :: digits n else digits n) := by
  split
  · exact (areDigits_zeros 1).append (areDigits_digits n)
  · exact areDigits_digits n

theorem ofDigitChars_powerDigits (n : Nat) :
    Nat.ofDigitChars 10 (if (digits n).length < 2 then '0' :: digits n else digits n) 0 = n := by
  split
  · rw [Nat.ofDigitChars_cons]
    exact ofDigitChars_digits n
  · exact ofDigitChars_digits n

/-- A whole number with `.0` after it. -/
theorem spells_pointZero (negative : Bool) (c : Nat) :
    Spells ((if negative then ['-'] else []) ++ (digits c ++ ['.', '0'])) (.decimal ⟨negative, c * 10, -1⟩) := by
  obtain ⟨part, hw, hwhole⟩ := feed_whole negative (whole_digits c)
  rw [ofDigitChars_digits] at hwhole
  have hpoint := feed_point hw { Numeral.empty negative with coefficient := c } rfl
    (List.cons_ne_nil '0' []) (areDigits_zeros 1)
  have hspells := Spells.intro negative (feed_trans hwhole hpoint) rfl
  rw [Nat.mul_comm c 10]
  exact hspells

/-- Every layout of digits is read as a decimal of the same value. -/
theorem spells_layout (negative : Bool) {c : Nat} (hc : 0 < c) (e : Int) :
    ∃ d : Decimal, d.negative = negative ∧
      placeOfDecimal d.coefficient d.exponent = placeOfDecimal c e ∧
      Spells ((if negative then ['-'] else []) ++ layout (digits c) (e + (digits c).length)) (.decimal d) := by
  have hlen : 0 < (digits c).length := Nat.length_toDigits_pos
  unfold layout
  by_cases hrange : (-4 < e + (digits c).length && e + (digits c).length ≤ 16) = true
  · rw [if_pos hrange]
    by_cases hwhole : (digits c).length ≤ (e + (digits c).length).toNat
    · rw [if_pos hwhole]
      have hpointed : Decimal.pointed (digits c) (e + (digits c).length) = digits (c * 10 ^ e.toNat) := by
        rw [Decimal.pointed, if_neg (by omega), if_pos hwhole, digits_mul_pow hc,
          show (e + (digits c).length).toNat - (digits c).length = e.toNat by omega]
      refine ⟨⟨negative, c * 10 ^ e.toNat * 10, -1⟩, rfl, ?_, ?_⟩
      · have hsame := placeOfDecimal_mul_pow hc e (e.toNat + 1)
        rw [Nat.pow_succ, ← Nat.mul_assoc, show e - (e.toNat + 1 : Nat) = -1 by omega] at hsame
        exact hsame
      · rw [hpointed]
        exact spells_pointZero negative _
    · rw [if_neg hwhole]
      exact ⟨⟨negative, c, e⟩, rfl, rfl,
        Decimal.spells_positional (d := ⟨negative, c, e⟩) (by show e < 0; omega)⟩
  · rw [if_neg hrange]
    have hone : (if (digits c).length = 1 then digits c else Decimal.pointed (digits c) 1) =
        Decimal.pointed (digits c) 1 := by
      split
      · next h1 => simpa [h1] using (pointed_length (digits c) hlen).symm
      · rfl
    have hpower := areDigits_powerDigits (e + (digits c).length - 1).natAbs
    have hne : (if (digits (e + (digits c).length - 1).natAbs).length < 2
        then '0' :: digits (e + (digits c).length - 1).natAbs
        else digits (e + (digits c).length - 1).natAbs) ≠ [] := by
      split
      · exact List.cons_ne_nil _ _
      · exact List.ne_nil_of_length_pos Nat.length_toDigits_pos
    have hspells := spells_scientific negative c 'e' (.inl rfl) (e + (digits c).length - 1) _ hne hpower
      (ofDigitChars_powerDigits _)
    rw [show e + (digits c).length - 1 - ((digits c).length - 1 : Nat) = e by omega] at hspells
    refine ⟨⟨negative, c, e⟩, rfl, rfl, ?_⟩
    rw [hone, powerText]
    simpa using hspells

theorem text_finite (words : Words) (negative : Bool) (place : Fin magnitudes) :
    (finite negative place).text words = (if negative then ['-'] else []) ++ placeText place := by
  cases negative <;> rfl

/-- **A printed float is read back**: its text is that of one decimal, whose nearest float it is. -/
theorem spells_text (words : Words) (negative : Bool) (place : Fin magnitudes) :
    ∃ d, Spells ((finite negative place).text words) (.decimal d) ∧
      ofDecimal d = .finite negative place := by
  have hplace : ofPlace negative place = .finite negative place := dif_pos place.isLt
  rw [text_finite]
  by_cases h0 : place.val = 0
  · refine ⟨⟨negative, 0, -1⟩, ?_, ?_⟩
    · rw [h0, placeText_zero]
      exact spells_pointZero negative 0
    · rw [← hplace, h0]
      rfl
  · obtain ⟨c, e, hc, hval, htext⟩ := placeText_eq (by omega) place.isLt
    obtain ⟨d, hsign, hsame, hspells⟩ := spells_layout negative hc e
    refine ⟨d, ?_, ?_⟩
    · rw [htext]
      exact hspells
    · rw [ofDecimal, hsign, hsame, hval, hplace]

end SnapshotStaging.Double
