import SnapshotStaging.Number.Double

/-!
# Rounding depends on the value alone

`nearestPlace n d` looks at the sizes of `n` and `d`, but its result is fixed by the quotient: the
unit it rounds to is the only one that `IsScale` admits. Hence decimals of equal value are read as the
same number, and the exact decimal of a place is read as that place.
-/

namespace SnapshotStaging.Double

/-- The quotient `n / d` has at most 53 digits before the point in units of `2 ^ (k - 1074)`, and 53
of them unless the unit is the least one. -/
def IsScale (n d k : Nat) : Prop :=
  n * 2 ^ 1074 < 2 ^ 53 * (d * 2 ^ k) ∧ (k = 0 ∨ 2 ^ 52 * (d * 2 ^ k) ≤ n * 2 ^ 1074)

/-- A larger unit would leave fewer digits, a smaller one more. -/
theorem IsScale.le {n d k l : Nat} (hk : IsScale n d k) (hl : IsScale n d l) : k ≤ l := by
  rcases Nat.lt_or_ge l k with h | h
  · obtain rfl | hlow := hk.2
    · omega
    · have hstep : d * 2 ^ l * 2 ≤ d * 2 ^ k := by
        rw [Nat.mul_assoc, ← Nat.pow_succ]
        exact Nat.mul_le_mul_left d (Nat.pow_le_pow_right (by decide) h)
      have := hl.1
      omega
  · exact h

theorem IsScale.unique {n d k l : Nat} (hk : IsScale n d k) (hl : IsScale n d l) : k = l :=
  Nat.le_antisymm (hk.le hl) (hl.le hk)

theorem isScale_mul {n d k m : Nat} (hm : 0 < m) : IsScale (n * m) (d * m) k ↔ IsScale n d k := by
  have hn : n * m * 2 ^ 1074 = n * 2 ^ 1074 * m := Nat.mul_right_comm ..
  have hd (b : Nat) : b * (d * m * 2 ^ k) = b * (d * 2 ^ k) * m := by
    rw [Nat.mul_right_comm, ← Nat.mul_assoc]
  unfold IsScale
  rw [hn, hd, hd, Nat.mul_lt_mul_right hm, Nat.mul_le_mul_right_iff hm]

/-- The unit that `nearestPlace` rounds to. -/
def chosenScale (n d : Nat) : Nat :=
  let low := n.log2 + 1021 - d.log2
  if n * 2 ^ 1074 / (d * 2 ^ low) < 2 ^ 53 then low else low + 1

theorem nearestPlace_eq (n d : Nat) :
    nearestPlace n d = chosenScale n d * 2 ^ 52 +
      roundedQuotient (n * 2 ^ 1074) (d * 2 ^ chosenScale n d) := rfl

theorem isScale_chosenScale {n d : Nat} (hn : 0 < n) (hd : 0 < d) : IsScale n d (chosenScale n d) := by
  have hnlow : 2 ^ n.log2 ≤ n := Nat.log2_self_le (by omega)
  have hnhigh : n < 2 ^ (n.log2 + 1) := Nat.lt_log2_self
  have hdlow : 2 ^ d.log2 ≤ d := Nat.log2_self_le (by omega)
  have hdhigh : d < 2 ^ (d.log2 + 1) := Nat.lt_log2_self
  have hupper : n * 2 ^ 1074 < 2 ^ (n.log2 + 1075) := by
    calc n * 2 ^ 1074 < 2 ^ (n.log2 + 1) * 2 ^ 1074 := Nat.mul_lt_mul_of_pos_right hnhigh (Nat.two_pow_pos _)
      _ = 2 ^ (n.log2 + 1075) := (Nat.pow_add ..).symm
  have hlower : 2 ^ (n.log2 + 1074) ≤ n * 2 ^ 1074 := by
    calc 2 ^ (n.log2 + 1074) = 2 ^ n.log2 * 2 ^ 1074 := Nat.pow_add ..
      _ ≤ n * 2 ^ 1074 := Nat.mul_le_mul_right _ hnlow
  unfold chosenScale IsScale
  dsimp only
  generalize hlow : n.log2 + 1021 - d.log2 = low
  generalize n * 2 ^ 1074 = scaled at *
  have hunit : 0 < d * 2 ^ low := Nat.mul_pos hd (Nat.two_pow_pos _)
  have hunithigh : d * 2 ^ low < 2 ^ (d.log2 + 1) * 2 ^ low :=
    Nat.mul_lt_mul_of_pos_right hdhigh (Nat.two_pow_pos _)
  have hunitlow : 2 ^ d.log2 * 2 ^ low ≤ d * 2 ^ low := Nat.mul_le_mul_right _ hdlow
  rw [← Nat.pow_add] at hunithigh hunitlow
  by_cases hfits : scaled / (d * 2 ^ low) < 2 ^ 53
  · rw [if_pos hfits]
    refine ⟨(Nat.div_lt_iff_lt_mul hunit).1 hfits, ?_⟩
    rcases Nat.eq_zero_or_pos low with h0 | hpos
    · exact .inl h0
    · right
      calc 2 ^ 52 * (d * 2 ^ low) ≤ 2 ^ 52 * 2 ^ (d.log2 + 1 + low) := Nat.mul_le_mul_left _ (by omega)
        _ = 2 ^ (n.log2 + 1074) := by rw [← Nat.pow_add]; congr 1; omega
        _ ≤ scaled := hlower
  · rw [if_neg hfits]
    rw [Nat.div_lt_iff_lt_mul hunit] at hfits
    have hdouble : d * 2 ^ (low + 1) = 2 * (d * 2 ^ low) := by
      rw [Nat.pow_succ, ← Nat.mul_assoc, Nat.mul_comm]
    have hbound : scaled < 2 ^ 54 * (d * 2 ^ low) := by
      calc scaled < 2 ^ (n.log2 + 1075) := hupper
        _ ≤ 2 ^ (54 + (d.log2 + low)) := Nat.pow_le_pow_right (by decide) (by omega)
        _ = 2 ^ 54 * 2 ^ (d.log2 + low) := Nat.pow_add ..
        _ ≤ 2 ^ 54 * (d * 2 ^ low) := Nat.mul_le_mul_left _ hunitlow
    rw [hdouble]
    exact ⟨by omega, .inr (by omega)⟩

theorem roundedQuotient_mul (n d m : Nat) (hm : 0 < m) :
    roundedQuotient (n * m) (d * m) = roundedQuotient n d := by
  unfold roundedQuotient
  rw [Nat.mul_div_mul_right _ _ hm, Nat.mul_mod_mul_right, ← Nat.mul_assoc]
  simp only [Nat.mul_lt_mul_right hm]

/-- Equal quotients have the same nearest place. -/
theorem nearestPlace_mul {n d m : Nat} (hn : 0 < n) (hd : 0 < d) (hm : 0 < m) :
    nearestPlace (n * m) (d * m) = nearestPlace n d := by
  have hscale : chosenScale (n * m) (d * m) = chosenScale n d :=
    ((isScale_mul hm).1 (isScale_chosenScale (Nat.mul_pos hn hm) (Nat.mul_pos hd hm))).unique
      (isScale_chosenScale hn hd)
  rw [nearestPlace_eq, nearestPlace_eq, hscale, Nat.mul_right_comm n m, Nat.mul_right_comm d m,
    roundedQuotient_mul _ _ m hm]

theorem nearestPlace_congr {n d n' d' : Nat} (hn : 0 < n) (hd : 0 < d) (hn' : 0 < n') (hd' : 0 < d')
    (h : n * d' = n' * d) : nearestPlace n d = nearestPlace n' d' := by
  rw [← nearestPlace_mul hn hd hd', h, Nat.mul_comm d, nearestPlace_mul hn' hd' hd]

/-! ## Decimals of equal value -/

theorem digits_mul_ten {c : Nat} (hc : 0 < c) : digits (c * 10) = digits c ++ ['0'] := by
  rw [Nat.mul_comm]
  exact (Nat.toDigits_append_toDigits (d := 0) (by decide) hc (by decide)).symm

theorem digits_mul_pow {c : Nat} (hc : 0 < c) (j : Nat) :
    digits (c * 10 ^ j) = digits c ++ List.replicate j '0' := by
  induction j with
  | zero => simp
  | succ j ih =>
    rw [Nat.pow_succ, ← Nat.mul_assoc, digits_mul_ten (Nat.mul_pos hc (Nat.pow_pos (by decide))), ih,
      List.append_assoc, List.replicate_succ']

theorem placeOfDecimal_eq {c : Nat} (hc : 0 < c) (e : Int) :
    placeOfDecimal c e =
      if 310 < e + (digits c).length then magnitudes
      else if e + (digits c).length < -330 then 0
      else nearestPlace (c * 10 ^ e.toNat) (10 ^ (-e).toNat) := by
  unfold placeOfDecimal
  rw [if_neg (by omega)]
  by_cases he : e < 0
  · simp only [he, if_true, show e.toNat = 0 by omega, Nat.pow_zero, Nat.mul_one]
  · simp only [he, if_false, show (-e).toNat = 0 by omega, Nat.pow_zero]

/-- A decimal keeps its place when zeros are written after it. -/
theorem placeOfDecimal_mul_pow {c : Nat} (hc : 0 < c) (e : Int) (j : Nat) :
    placeOfDecimal (c * 10 ^ j) (e - j) = placeOfDecimal c e := by
  have hpow (n : Nat) : 0 < 10 ^ n := Nat.pow_pos (by decide)
  have hsize : e - j + (digits (c * 10 ^ j)).length = e + (digits c).length := by
    rw [digits_mul_pow hc, List.length_append, List.length_replicate]
    omega
  have hnearest : nearestPlace (c * 10 ^ j * 10 ^ (e - j).toNat) (10 ^ (-(e - j)).toNat) =
      nearestPlace (c * 10 ^ e.toNat) (10 ^ (-e).toNat) := by
    refine nearestPlace_congr (Nat.mul_pos (Nat.mul_pos hc (hpow j)) (hpow _)) (hpow _)
      (Nat.mul_pos hc (hpow _)) (hpow _) ?_
    rw [Nat.mul_assoc, Nat.mul_assoc, Nat.mul_assoc, ← Nat.pow_add, ← Nat.pow_add, ← Nat.pow_add]
    rw [show j + ((e - j).toNat + (-e).toNat) = e.toNat + (-(e - j)).toNat by omega]
  rw [placeOfDecimal_eq (Nat.mul_pos hc (hpow j)), placeOfDecimal_eq hc, hsize, hnearest]

/-! ## Places read back -/

theorem significand_lt (place : Nat) : significand place < 2 ^ 53 := by
  unfold significand
  split
  · assumption
  · omega

theorem scale_add_significand (place : Nat) : scale place * 2 ^ 52 + significand place = place := by
  unfold scale significand
  split <;> omega

theorem le_significand {place : Nat} (h : scale place ≠ 0) : 2 ^ 52 ≤ significand place := by
  unfold scale at h
  rw [significand, if_neg (by omega)]
  omega

theorem units_pos {place : Nat} (h : 0 < place) : 0 < units place := by
  refine Nat.mul_pos ?_ (Nat.two_pow_pos _)
  have := scale_add_significand place
  by_cases hs : scale place = 0
  · rw [hs] at this
    omega
  · have := le_significand hs
    omega

theorem roundedQuotient_exact (n : Nat) {d : Nat} (hd : 0 < d) : roundedQuotient (n * d) d = n := by
  rw [roundedQuotient, Nat.mul_div_cancel _ hd, Nat.mul_mod_left]
  simp only [Nat.mul_zero, hd, if_true]

theorem isScale_scale (place : Nat) : IsScale (units place) (2 ^ 1074) (scale place) := by
  have hscaled : units place * 2 ^ 1074 = significand place * (2 ^ 1074 * 2 ^ scale place) := by
    rw [units, Nat.mul_assoc, Nat.mul_comm (2 ^ scale place)]
  have hunit : 0 < 2 ^ 1074 * 2 ^ scale place := Nat.mul_pos (Nat.two_pow_pos _) (Nat.two_pow_pos _)
  constructor
  · rw [hscaled]
    exact Nat.mul_lt_mul_of_pos_right (significand_lt place) hunit
  · by_cases hs : scale place = 0
    · exact .inl hs
    · rw [hscaled]
      exact .inr (Nat.mul_le_mul_right _ (le_significand hs))

/-- The magnitude of a place is nearest to that place. -/
theorem nearestPlace_units {place : Nat} (h : 0 < place) :
    nearestPlace (units place) (2 ^ 1074) = place := by
  have hchosen : chosenScale (units place) (2 ^ 1074) = scale place :=
    (isScale_chosenScale (units_pos h) (Nat.two_pow_pos _)).unique (isScale_scale place)
  have hscaled : units place * 2 ^ 1074 = significand place * (2 ^ 1074 * 2 ^ scale place) := by
    rw [units, Nat.mul_assoc, Nat.mul_comm (2 ^ scale place)]
  rw [nearestPlace_eq, hchosen, hscaled,
    roundedQuotient_exact _ (Nat.mul_pos (Nat.two_pow_pos _) (Nat.two_pow_pos _)),
    scale_add_significand]

theorem units_lt {place : Nat} (h : place < magnitudes) : units place < 2 ^ 2098 := by
  have hscale : scale place ≤ 2045 := by
    unfold magnitudes at h
    unfold scale
    omega
  calc units place < 2 ^ 53 * 2 ^ scale place :=
        Nat.mul_lt_mul_of_pos_right (significand_lt place) (Nat.two_pow_pos _)
    _ ≤ 2 ^ 53 * 2 ^ 2045 := Nat.mul_le_mul_left _ (Nat.pow_le_pow_right (by decide) hscale)
    _ = 2 ^ 2098 := by rw [← Nat.pow_add]

/-- Powers of five and ten in a quotient leave powers of two. -/
theorem nearestPlace_five {u : Nat} (hu : 0 < u) (k : Nat) :
    nearestPlace (u * 5 ^ k) (10 ^ k) = nearestPlace u (2 ^ k) := by
  have hten : 10 ^ k = 2 ^ k * 5 ^ k := by rw [← Nat.mul_pow]
  rw [hten, nearestPlace_mul hu (Nat.two_pow_pos k) (Nat.pow_pos (by decide))]

theorem le_exact {place : Nat} (hpos : 0 < place) : 10 ^ 743 ≤ units place * 5 ^ 1074 :=
  calc 10 ^ 743 ≤ 1 * 5 ^ 1074 := by decide +kernel
    _ ≤ units place * 5 ^ 1074 := Nat.mul_le_mul_right _ (units_pos hpos)

theorem exact_lt {place : Nat} (h : place < magnitudes) : units place * 5 ^ 1074 < 10 ^ 1384 :=
  calc units place * 5 ^ 1074 < 2 ^ 2098 * 5 ^ 1074 :=
        Nat.mul_lt_mul_of_pos_right (units_lt h) (Nat.pow_pos (by decide))
    _ ≤ 10 ^ 1384 := by decide +kernel

theorem lt_length_exact {place : Nat} (hpos : 0 < place) :
    743 < (digits (units place * 5 ^ 1074)).length := by
  rw [← Nat.not_le, digits, Nat.length_toDigits_le_iff (by decide) (by decide)]
  exact Nat.not_lt.2 (le_exact hpos)

theorem length_exact_le {place : Nat} (h : place < magnitudes) :
    (digits (units place * 5 ^ 1074)).length ≤ 1384 :=
  (Nat.length_toDigits_le_iff (by decide) (by decide)).2 (exact_lt h)

/-- Five powers in the digits and ten powers under the point leave a power of two. -/
theorem placeOfDecimal_five {u k : Nat} (hu : 0 < u) (hlow : k ≤ (digits (u * 5 ^ k)).length + 330)
    (hhigh : (digits (u * 5 ^ k)).length ≤ k + 310) :
    placeOfDecimal (u * 5 ^ k) (-k) = nearestPlace u (2 ^ k) := by
  rw [placeOfDecimal_eq (Nat.mul_pos hu (Nat.pow_pos (by decide))), if_neg (by omega), if_neg (by omega),
    show (-(k : Int)).toNat = 0 by omega, show (-(-(k : Int))).toNat = k by omega, Nat.pow_zero,
    Nat.mul_one, nearestPlace_five hu]

/-- The exact decimal of a place is read as that place. -/
theorem placeOfDecimal_exact {place : Nat} (hpos : 0 < place) (h : place < magnitudes) :
    placeOfDecimal (exact place).1 (exact place).2 = place := by
  have hlow := lt_length_exact hpos
  have hhigh := length_exact_le h
  have hfive : placeOfDecimal (units place * 5 ^ 1074) (-1074) = nearestPlace (units place) (2 ^ 1074) :=
    placeOfDecimal_five (units_pos hpos) (by omega) (by omega)
  have hexact : exact place = (units place * 5 ^ 1074, -1074) := rfl
  rw [nearestPlace_units hpos] at hfive
  -- a name for the coefficient keeps it from being computed when the pair is taken apart
  generalize units place * 5 ^ 1074 = c at hexact hfive
  rw [hexact]
  exact hfive

theorem spelling?_reads {place : Nat} {e : Int} {found : Nat × Int} (h : spelling? place e = some found) :
    placeOfDecimal found.1 found.2 = place := by
  unfold spelling? at h
  generalize neighbours place e = pair at h
  obtain ⟨near, far⟩ := pair
  dsimp only at h
  split at h
  · next hnear =>
    cases h
    exact hnear
  · split at h
    · next hfar =>
      cases h
      exact hfar
    · cases h

theorem shortest_eq (place : Nat) : shortest place =
    ((List.range 17).findSome? fun n => spelling? place (pointPlace place - (n + 1 : Nat))).getD (exact place) :=
  rfl

/-- The digits that are printed for a place are read as that place. -/
theorem placeOfDecimal_shortest {place : Nat} (hpos : 0 < place) (h : place < magnitudes) :
    placeOfDecimal (shortest place).1 (shortest place).2 = place := by
  rw [shortest_eq]
  cases hs : (List.range 17).findSome? fun n => spelling? place (pointPlace place - (n + 1 : Nat)) with
  | none =>
    rw [Option.getD_none]
    exact placeOfDecimal_exact hpos h
  | some found =>
    obtain ⟨n, -, hn⟩ := List.exists_of_findSome?_eq_some hs
    rw [Option.getD_some]
    exact spelling?_reads hn

theorem shortest_pos {place : Nat} (hpos : 0 < place) (h : place < magnitudes) :
    0 < (shortest place).1 := by
  rcases Nat.eq_zero_or_pos (shortest place).1 with h0 | hc
  · have := placeOfDecimal_shortest hpos h
    rw [h0, placeOfDecimal, if_pos rfl] at this
    omega
  · exact hc

end SnapshotStaging.Double
