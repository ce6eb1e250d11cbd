import SnapshotStaging.Proofs.Json.Lexing

/-!
# What the lexer makes of written numbers

A number is read part by part: a sign, the digits before the point, the digits after it, a power of
ten. Each part has one lemma that says to which `Numeral` its digits lead; no kind of text plays a part in that.
What `Spells` a number is one token wherever numbers may stand.

* `spells_signedDigits`: an integer is read as itself;
* `Decimal.spells_text`: the canonical spelling of a decimal is read as that decimal, except that a
  spelling without fraction and exponent is read as an integer (`Decimal.reread`).
-/

namespace SnapshotStaging.Lexer

open Numeral (Part)

/-! ## Rows of digits -/

/-- All characters are digits. -/
def AreDigits (ds : List Char) : Prop := ∀ c ∈ ds, c.isDigit = true

/-- Digits that can stand before a point: a single zero, or digits that do not start with one. -/
inductive Whole : List Char → Prop
  | zero : Whole ['0']
  | digits {c : Char} {cs : List Char} : c ≠ '0' → AreDigits (c :: cs) → Whole (c :: cs)

theorem Whole.areDigits {ds : List Char} (h : Whole ds) : AreDigits ds := by
  cases h with
  | zero => simp [AreDigits]
  | digits _ hds => exact hds

theorem areDigits_digits (n : Nat) : AreDigits (digits n) :=
  fun _ hc => Nat.isDigit_of_mem_toDigits (by decide) (by decide) hc

theorem areDigits_zeros (n : Nat) : AreDigits (List.replicate n '0') := by
  intro c hc
  rw [List.eq_of_mem_replicate hc]
  rfl

theorem AreDigits.append {ds es : List Char} (h1 : AreDigits ds) (h2 : AreDigits es) :
    AreDigits (ds ++ es) := by
  intro c hc
  rcases List.mem_append.1 hc with hc | hc
  · exact h1 c hc
  · exact h2 c hc

theorem AreDigits.head {c : Char} {cs : List Char} (h : AreDigits (c :: cs)) : c.isDigit = true :=
  h c (List.mem_cons_self ..)

theorem AreDigits.tail {c : Char} {cs : List Char} (h : AreDigits (c :: cs)) : AreDigits cs :=
  fun x hx => h x (List.mem_cons_of_mem _ hx)

theorem AreDigits.take {ds : List Char} (h : AreDigits ds) (n : Nat) : AreDigits (ds.take n) :=
  fun c hc => h c (List.mem_of_mem_take hc)

theorem AreDigits.drop {ds : List Char} (h : AreDigits ds) (n : Nat) : AreDigits (ds.drop n) :=
  fun c hc => h c (List.mem_of_mem_drop hc)

/-- The digits of a positive number do not start with a zero. -/
theorem head_digits (n : Nat) (h : 0 < n) : ∃ c cs, digits n = c :: cs ∧ c ≠ '0' := by
  induction n using Nat.strongRecOn with
  | ind n ih =>
    by_cases hn : n < 10
    · refine ⟨n.digitChar, [], Nat.toDigits_of_lt_base hn, ?_⟩
      rw [Ne, Nat.digitChar_eq_zero]
      omega
    · obtain ⟨c, cs, hd, hc⟩ := ih (n / 10) (by omega) (by omega)
      refine ⟨c, cs ++ [(n % 10).digitChar], ?_, hc⟩
      rw [digits, Nat.toDigits_of_base_le (by decide) (by omega)]
      exact congrArg (· ++ _) hd

theorem whole_of_digits {n : Nat} (h : 0 < n) {k : Nat} (hk : 0 < k) (es : List Char)
    (he : AreDigits es) : Whole ((digits n).take k ++ es) := by
  obtain ⟨c, cs, hd, hc⟩ := head_digits n h
  have hall := ((areDigits_digits n).take k).append he
  obtain ⟨k, rfl⟩ : ∃ m, k = m + 1 := ⟨k - 1, by omega⟩
  rw [hd, List.take_succ_cons, List.cons_append] at hall ⊢
  exact .digits hc hall

theorem whole_digits (n : Nat) : Whole (digits n) := by
  by_cases h : 0 < n
  · have := whole_of_digits h (k := (digits n).length + 1) (by omega) [] (by simp [AreDigits])
    rwa [List.append_nil, List.take_of_length_le (by omega)] at this
  · rw [show n = 0 by omega]
    exact .zero

@[simp] theorem ofDigitChars_digits (n : Nat) : Nat.ofDigitChars 10 (digits n) 0 = n :=
  Nat.ofDigitChars_ten_toDigits

/-! ## Parts of a number -/

/-- A number once more characters have come, if they continue it. No kind of text plays a part in that. -/
def feed (n : Numeral) (part : Part) : List Char → Option (Numeral × Part)
  | [] => some (n, part)
  | c :: cs => (n.step part c).bind fun (n, part) => feed n part cs

theorem feed_cons {n n' : Numeral} {part part' : Part} {c : Char} (h : n.step part c = some (n', part'))
    (cs : List Char) : feed n part (c :: cs) = feed n' part' cs := by
  rw [feed, h]
  rfl

theorem feed_append (n : Numeral) (part : Part) (cs ds : List Char) :
    feed n part (cs ++ ds) = (feed n part cs).bind fun (n, part) => feed n part ds := by
  induction cs generalizing n part with
  | nil => rfl
  | cons c cs ih =>
    rw [List.cons_append, feed, feed]
    cases n.step part c with
    | none => rfl
    | some next => exact ih next.1 next.2

theorem feed_trans {n m n' : Numeral} {part mid part' : Part} {cs ds : List Char}
    (h : feed n part cs = some (m, mid)) (h' : feed m mid ds = some (n', part')) :
    feed n part (cs ++ ds) = some (n', part') := by
  rw [feed_append, h]
  exact h'

theorem feed_whole_digits {ds : List Char} (h : AreDigits ds) (n : Numeral) :
    feed n .whole ds = some ({ n with coefficient := Nat.ofDigitChars 10 ds n.coefficient }, .whole) := by
  induction ds generalizing n with
  | nil => rfl
  | cons c cs ih =>
    have hc := h.head
    have := ih h.tail { n with coefficient := 10 * n.coefficient + Numeral.digit c }
    exact (feed_cons (by rw [Numeral.step, if_pos hc]) cs).trans this

theorem feed_places {ds : List Char} (h : AreDigits ds) (n : Numeral) :
    feed n .places ds = some ({ n with
      coefficient := Nat.ofDigitChars 10 ds n.coefficient
      places := n.places + ds.length }, .places) := by
  induction ds generalizing n with
  | nil => rfl
  | cons c cs ih =>
    have hc := h.head
    have := ih h.tail
      { n with coefficient := 10 * n.coefficient + Numeral.digit c, places := n.places + 1 }
    rw [Nat.add_assoc, Nat.add_comm 1] at this
    exact (feed_cons (by rw [Numeral.step, if_pos hc, Numeral.step.place, if_pos hc]) cs).trans this

theorem feed_power_digits {ds : List Char} (h : AreDigits ds) (n : Numeral) :
    feed n .power ds = some ({ n with power := Nat.ofDigitChars 10 ds n.power }, .power) := by
  induction ds generalizing n with
  | nil => rfl
  | cons c cs ih =>
    have hc := h.head
    have := ih h.tail { n with power := 10 * n.power + Numeral.digit c }
    exact (feed_cons (by rw [Numeral.step, Numeral.step.power, if_pos hc]) cs).trans this

/-- The parts after which a point may stand. -/
def IsWhole (part : Part) : Prop := part = .zero ∨ part = .whole

/-- The digits before the point. -/
theorem feed_whole (negative : Bool) {ds : List Char} (h : Whole ds) :
    ∃ part, IsWhole part ∧ feed (.empty negative) .sign ds =
      some ({ Numeral.empty negative with coefficient := Nat.ofDigitChars 10 ds 0 }, part) := by
  cases h with
  | zero => exact ⟨.zero, .inl rfl, rfl⟩
  | @digits c cs hc h =>
    have hd := h.head
    have hrest := feed_whole_digits h.tail
      { Numeral.empty negative with coefficient := Numeral.digit c }
    refine ⟨.whole, .inr rfl, ?_⟩
    rw [Nat.ofDigitChars_cons, Nat.mul_zero, Nat.zero_add]
    exact (feed_cons (by rw [Numeral.step, if_neg hc, if_pos hd]) cs).trans hrest

/-- A point and the digits after it. -/
theorem feed_point {part : Part} (hp : IsWhole part) (n : Numeral) (hn : n.places = 0)
    {ds : List Char} (hne : ds ≠ []) (h : AreDigits ds) :
    feed n part ('.' :: ds) = some ({ n with
      coefficient := Nat.ofDigitChars 10 ds n.coefficient
      places := ds.length
      real := true }, .places) := by
  cases ds with
  | nil => exact absurd rfl hne
  | cons c cs =>
    have hc := h.head
    have hpoint : n.step part '.' = some ({ n with real := true }, .point) := by
      rcases hp with rfl | rfl <;> rfl
    have hrest := feed_places h.tail
      { n with coefficient := 10 * n.coefficient + Numeral.digit c, places := 1, real := true }
    rw [Nat.add_comm 1 cs.length] at hrest
    have hplace : Numeral.step { n with real := true } .point c =
        some ({ n with
          coefficient := 10 * n.coefficient + Numeral.digit c, places := 1, real := true }, .places) := by
      rw [Numeral.step, Numeral.step.place, if_pos hc, hn]
    exact (feed_cons hpoint _).trans ((feed_cons hplace cs).trans hrest)

/-- The sign of a power of ten, which need not be written. -/
def powerSign : Option Bool → List Char
  | none => []
  | some true => ['-']
  | some false => ['+']

/-- A mark, a sign and the digits of a power of ten. -/
theorem feed_power {part : Part} (hp : IsWhole part ∨ part = .places) {mark : Char}
    (hm : mark = 'e' ∨ mark = 'E') (n : Numeral) (hn : n.power = 0) (hs : n.powerNegative = false)
    (sign : Option Bool) {ds : List Char} (hne : ds ≠ []) (h : AreDigits ds) :
    feed n part (mark :: (powerSign sign ++ ds)) = some ({ n with
      powerNegative := sign.getD false, power := Nat.ofDigitChars 10 ds 0, real := true }, .power) := by
  cases ds with
  | nil => exact absurd rfl hne
  | cons c cs =>
    have hc := h.head
    have hmark : n.step part mark = some ({ n with real := true }, .mark) := by
      rcases hm with rfl | rfl <;> rcases hp with (rfl | rfl) | rfl <;> rfl
    have hrest (negative : Bool) := feed_power_digits h.tail
      { n with powerNegative := negative, power := Numeral.digit c, real := true }
    have hfirst (negative : Bool) : Numeral.step { n with powerNegative := negative, real := true } .markSign c =
        some ({ n with powerNegative := negative, power := Numeral.digit c, real := true }, .power) := by
      rw [Numeral.step, Numeral.step.power, if_pos hc, hn, Nat.mul_zero, Nat.zero_add]
    rw [Nat.ofDigitChars_cons, Nat.mul_zero, Nat.zero_add]
    refine (feed_cons hmark _).trans ?_
    cases sign with
    | some negative =>
      have hsign : Numeral.step { n with real := true } .mark (if negative then '-' else '+') =
          some ({ n with powerNegative := negative, real := true }, .markSign) := by
        cases negative <;> simp [Numeral.step, hs]
      cases negative <;> exact (feed_cons hsign _).trans ((feed_cons (hfirst _) cs).trans (hrest _))
    | none =>
      have hplus : c ≠ '+' := by
        rintro rfl
        cases hc
      have hminus : c ≠ '-' := by
        rintro rfl
        cases hc
      have hdigit : Numeral.step { n with real := true } .mark c =
          Numeral.step { n with powerNegative := false, real := true } .markSign c := by
        rw [Numeral.step, if_neg hplus, if_neg hminus, hs, Numeral.step]
      exact (feed_cons (hdigit.trans (hfirst false)) cs).trans (hrest false)

/-! ## Numbers in a text -/

/-- The characters of a number, with its sign if it has one. -/
inductive Spells : List Char → Atom → Prop
  | intro (negative : Bool) {ds : List Char} {n : Numeral} {part : Part}
      (hfeed : feed (.empty negative) .sign ds = some (n, part)) (hfinal : part.final = true) :
      Spells ((if negative then ['-'] else []) ++ ds) n.atom

variable {σ : Type} {f : Format σ}

/-- No blank begins a number. -/
def BlanksApart (f : Format σ) : Prop := ∀ c, f.blank c = true → c ≠ '-' ∧ c.isDigit = false

theorem blanksApart_text {κ : Type} [Script σ κ] : BlanksApart (.text : Format σ) := by
  intro c h
  simp only [Format.text, Bool.or_eq_true, decide_eq_true_eq] at h
  rcases h with ((rfl | rfl) | rfl) | rfl <;> decide

theorem blanksApart_page : BlanksApart .page := by
  intro c h
  simp only [Format.page, Bool.or_eq_true, decide_eq_true_eq] at h
  rcases h with ((((rfl | rfl) | rfl) | rfl) | rfl) | rfl <;> decide

/-- A number goes on with the characters that continue it. -/
theorem run_feed {n n' : Numeral} {part part' : Part} {cs : List Char}
    (h : feed n part cs = some (n', part')) (done : List (Token σ)) (rest : List Glyph) :
    run f (.number n part) done (cs.map .char ++ rest) = run f (.number n' part') done rest := by
  induction cs generalizing n part with
  | nil =>
    cases h
    rfl
  | cons c cs ih =>
    rw [feed] at h
    cases hstep : n.step part c with
    | none =>
      rw [hstep] at h
      cases h
    | some next =>
      rw [hstep] at h
      rw [List.map_cons, List.cons_append, run, step, step.continued, hstep]
      exact ih h

theorem fresh_digit (hf : BlanksApart f) {c : Char} (h : c.isDigit = true) :
    fresh f (.char c) = ((Numeral.empty false).step .sign c).map fun (n, part) => (.number n part, []) := by
  have hblank : ¬ f.blank c = true := fun hblank => by
    rw [(hf c hblank).2] at h
    cases h
  simp only [fresh, hblank, Bool.false_eq_true, if_false]
  split
  case h_9 => rw [if_pos h]
  all_goals exact absurd h (by decide)

/-- A number without a sign begins with its first digit. -/
theorem run_feed_fresh (hf : BlanksApart f) {n : Numeral} {part : Part} {cs : List Char}
    (hne : cs ≠ []) (h : feed (.empty false) .sign cs = some (n, part)) (done : List (Token σ)) (rest : List Glyph) :
    run f .idle done (cs.map .char ++ rest) = run f (.number n part) done rest := by
  cases cs with
  | nil => exact absurd rfl hne
  | cons c cs =>
    rw [feed] at h
    cases hstep : (Numeral.empty false).step .sign c with
    | none =>
      rw [hstep] at h
      cases h
    | some next =>
      have hc : c.isDigit = true := by
        rw [Numeral.step] at hstep
        split at hstep
        · next hzero => exact hzero ▸ rfl
        · split at hstep
          · assumption
          · cases hstep
      rw [hstep] at h
      rw [List.map_cons, List.cons_append, run, step, fresh_digit hf hc, hstep]
      exact run_feed h done rest

theorem continued_of_endsNumber {n : Numeral} {part : Part} (hp : part.final = true) {g : Glyph}
    (hg : endsNumber g = true) : step.continued g n part = none := by
  cases g with
  | half h => rfl
  | stray => rfl
  | broken => rfl
  | char c =>
    simp only [endsNumber, Bool.not_eq_true', Bool.or_eq_false_iff, decide_eq_false_iff_not] at hg
    obtain ⟨⟨⟨hd, hpoint⟩, he⟩, hE⟩ := hg
    cases part <;>
      simp_all [step.continued, Numeral.step, Numeral.step.fraction, Numeral.step.mark,
        Numeral.step.power, Part.final]

/-- A number is handed out where it ends. -/
theorem run_number (n : Numeral) {part : Part} (hp : part.final = true) (done : List (Token σ))
    {rest : List Glyph} (hr : Delimited rest) :
    run f (.number n part) done rest = run f .idle (.atom n.atom :: done) rest := by
  cases rest with
  | nil => simp [run, finish, hp]
  | cons g rest =>
    have hcont := continued_of_endsNumber (n := n) hp ((delimited_cons g rest).1 hr)
    cases hf : fresh f g <;> simp [run, step, hcont, hp, hf, step.outcome]

/-- **A number is one token**, in pages as in texts. -/
theorem Spells.run {cs : List Char} {a : Atom} (h : Spells cs a) (hf : BlanksApart f) (done : List (Token σ))
    {rest : List Glyph} (hr : Delimited rest) :
    run f .idle done (cs.map .char ++ rest) = run f .idle (.atom a :: done) rest := by
  obtain ⟨negative, hfeed, hfinal⟩ := h
  rw [← run_number _ hfinal done hr]
  cases negative with
  | false =>
    refine run_feed_fresh hf ?_ hfeed done rest
    rintro rfl
    cases hfeed
    cases hfinal
  | true =>
    have hminus : ¬ f.blank '-' = true := fun hblank => (hf _ hblank).1 rfl
    have hfresh : fresh f (.char '-') = some (.number (.empty true) .sign, []) := if_neg hminus
    rw [if_pos rfl, List.singleton_append, List.map_cons, List.cons_append, Lexer.run, Lexer.step, hfresh]
    exact run_feed hfeed done rest

theorem Spells.reads {κ : Type} [Script σ κ] {cs : List Char} {a : Atom} (h : Spells cs a) :
    Reads (Letter.ofChars cs) ([.atom a] : List (Token σ)) := by
  intro done rest hr
  rw [glyphs_ofChars]
  exact h.run blanksApart_text done hr

/-! ## Whole numbers -/

theorem signedDigits_eq (n : Int) :
    signedDigits n = (if n < 0 then ['-'] else []) ++ digits n.natAbs := by
  cases n with
  | ofNat n =>
    have hn : ¬ Int.ofNat n < 0 := Int.not_lt.2 (Int.natCast_nonneg n)
    rw [if_neg hn]
    rfl
  | negSucc n => rw [if_pos (by omega)]; rfl

/-- An integer is read as itself. -/
theorem spells_signedDigits (n : Int) : Spells (signedDigits n) (.int n) := by
  obtain ⟨part, hp, hw⟩ := feed_whole (decide (n < 0)) (whole_digits n.natAbs)
  have hfinal : part.final = true := by rcases hp with rfl | rfl <;> rfl
  have hspells := Spells.intro (decide (n < 0)) hw hfinal
  rw [ofDigitChars_digits] at hspells
  have hatom : ({ Numeral.empty (decide (n < 0)) with coefficient := n.natAbs } : Numeral).atom = .int n := by
    by_cases hn : n < 0
    · simp only [Numeral.atom, Numeral.empty, hn, decide_true, Bool.false_eq_true, if_false, if_true]
      congr 1
      omega
    · simp only [Numeral.atom, Numeral.empty, hn, decide_false, Bool.false_eq_true, if_false]
      congr 1
      omega
  rw [hatom] at hspells
  simpa [signedDigits_eq] using hspells

/-! ## Decimals -/

/-- Digits with a point among or before them. -/
theorem feed_pointed (negative : Bool) (c : Nat) (place : Int) (h : place < (digits c).length) :
    feed (.empty negative) .sign (Decimal.pointed (digits c) place) =
      some ({ Numeral.empty negative with
        coefficient := c
        places := ((digits c).length - place).toNat
        real := true }, .places) := by
  have hlen : 0 < (digits c).length := Nat.length_toDigits_pos
  unfold Decimal.pointed
  by_cases hp : place ≤ 0
  · rw [if_pos hp]
    obtain ⟨part, hw, hwhole⟩ := feed_whole negative .zero
    have hpoint := feed_point hw { Numeral.empty negative with coefficient := 0 } rfl
      (show List.replicate (-place).toNat '0' ++ digits c ≠ [] by rw [← List.length_pos_iff]; simp; omega)
      ((areDigits_zeros _).append (areDigits_digits c))
    have hplaces : (List.replicate (-place).toNat '0' ++ digits c).length =
        ((digits c).length - place).toNat := by
      rw [List.length_append, List.length_replicate]
      omega
    rw [Nat.ofDigitChars_append, Nat.ofDigitChars_replicate_zero, Nat.mul_zero, ofDigitChars_digits,
      hplaces] at hpoint
    exact (feed_trans hwhole hpoint :)
  · rw [if_neg hp, if_neg (by omega)]
    have hpos : 0 < c := by
      rcases Nat.eq_zero_or_pos c with rfl | hc
      · have : (digits 0).length = 1 := rfl
        omega
      · exact hc
    have hwhole := whole_of_digits hpos (k := place.toNat) (by omega) [] (by simp [AreDigits])
    rw [List.append_nil] at hwhole
    obtain ⟨part, hw, hfirst⟩ := feed_whole negative hwhole
    have hpoint := feed_point hw
      { Numeral.empty negative with coefficient := Nat.ofDigitChars 10 ((digits c).take place.toNat) 0 }
      rfl (show (digits c).drop place.toNat ≠ [] by rw [← List.length_pos_iff]; simp; omega)
      ((areDigits_digits c).drop _)
    have hplaces : ((digits c).drop place.toNat).length = ((digits c).length - place).toNat := by
      rw [List.length_drop]
      omega
    rw [← Nat.ofDigitChars_append, List.take_append_drop, ofDigitChars_digits, hplaces] at hpoint
    exact feed_trans hfirst hpoint

theorem pointed_length (ds : List Char) (h : 0 < ds.length) :
    Decimal.pointed ds ds.length = ds := by
  rw [Decimal.pointed, if_neg (by omega), if_pos (by omega)]
  simp

/-- A power of ten with its sign. -/
theorem signedPower_eq (power : Int) :
    (if power < 0 then signedDigits power else '+' :: signedDigits power) =
      (if decide (power < 0) then '-' else '+') :: digits power.natAbs := by
  rw [signedDigits_eq]
  by_cases h : power < 0 <;> simp [h]

/-- A number with a power of ten counts the places after its point against it. -/
theorem atom_power (negative : Bool) (c places : Nat) (power : Int) :
    ({ negative, coefficient := c, places, powerNegative := decide (power < 0), power := power.natAbs,
       real := true } : Numeral).atom = .decimal ⟨negative, c, power - places⟩ := by
  by_cases h : power < 0
  · have hpower : -(power.natAbs : Int) = power := by omega
    simp only [Numeral.atom, h, decide_true, if_true, hpower]
  · have hpower : (power.natAbs : Int) = power := by omega
    simp only [Numeral.atom, h, decide_false, Bool.false_eq_true, if_false, if_true, hpower]

theorem spells_scientific (negative : Bool) (c : Nat) (mark : Char) (hm : mark = 'e' ∨ mark = 'E')
    (power : Int) (ds : List Char) (hne : ds ≠ []) (hd : AreDigits ds)
    (hds : Nat.ofDigitChars 10 ds 0 = power.natAbs) :
    Spells ((if negative then ['-'] else []) ++ (Decimal.pointed (digits c) 1 ++
        mark :: (if decide (power < 0) then '-' else '+') :: ds))
      (.decimal ⟨negative, c, power - ((digits c).length - 1 : Nat)⟩) := by
  have hlen : 0 < (digits c).length := Nat.length_toDigits_pos
  have hsign : (if decide (power < 0) then '-' else '+') :: ds = powerSign (some (decide (power < 0))) ++ ds := by
    cases decide (power < 0) <;> rfl
  rw [← atom_power, ← hds, hsign]
  refine .intro negative ?_ (show Part.power.final = true from rfl)
  by_cases h1 : (digits c).length = 1
  · have hone : Decimal.pointed (digits c) 1 = digits c := by
      simpa [h1] using pointed_length (digits c) hlen
    obtain ⟨part, hw, hwhole⟩ := feed_whole negative (whole_digits c)
    rw [hone, h1]
    rw [ofDigitChars_digits] at hwhole
    exact feed_trans hwhole (feed_power (.inl hw) hm _ rfl rfl _ hne hd)
  · have hpointed := feed_pointed negative c 1 (by omega)
    rw [show ((digits c).length - (1 : Int)).toNat = (digits c).length - 1 by omega] at hpointed
    exact feed_trans hpointed (feed_power (.inr rfl) hm _ rfl rfl _ hne hd)

end SnapshotStaging.Lexer

namespace SnapshotStaging.Decimal

open Lexer

/-- What reading the canonical spelling of a decimal gives: a spelling with neither fraction nor
exponent is that of an integer. -/
def reread (d : Decimal) : Atom :=
  if d.exponent = 0 then .int (if d.negative then -d.coefficient else d.coefficient) else .decimal d

theorem text_eq (d : Decimal) : d.text = (if d.negative then ['-'] else []) ++ d.magnitudeText := by
  unfold text
  split <;> rfl

theorem positional_of_exponent_eq_zero {d : Decimal} (h : d.exponent = 0) :
    d.positional = true := by
  have hlen : 0 < (digits d.coefficient).length := Nat.length_toDigits_pos
  simp only [positional, adjusted, h, Bool.and_eq_true, decide_eq_true_eq]
  omega

theorem spells_positional {d : Decimal} (h : d.exponent < 0) :
    Spells ((if d.negative then ['-'] else []) ++
        pointed (digits d.coefficient) (d.exponent + (digits d.coefficient).length))
      (.decimal d) := by
  have hpointed := feed_pointed d.negative d.coefficient (d.exponent + (digits d.coefficient).length) (by omega)
  have hplaces : ((digits d.coefficient).length -
      (d.exponent + (digits d.coefficient).length)).toNat = (-d.exponent).toNat := by omega
  have hatom : ({ Numeral.empty d.negative with
      coefficient := d.coefficient, places := (-d.exponent).toNat, real := true } : Numeral).atom =
      .decimal d := by
    simp only [Numeral.atom, Numeral.empty, if_true, Bool.false_eq_true, if_false]
    rw [show ((0 : Nat) : Int) - ((-d.exponent).toNat : Nat) = d.exponent by omega]
  rw [hplaces] at hpointed
  rw [← hatom]
  exact .intro d.negative hpointed rfl

/-- **The canonical spelling of a decimal is read back**, as an integer when it looks like one. -/
theorem spells_text (d : Decimal) : Spells d.text d.reread := by
  have hlen : 0 < (digits d.coefficient).length := Nat.length_toDigits_pos
  rw [text_eq, reread, magnitudeText]
  by_cases h0 : d.exponent = 0
  · simp only [positional_of_exponent_eq_zero h0, if_true]
    rw [if_pos h0, h0, Int.zero_add, pointed_length _ hlen]
    obtain ⟨part, hp, hw⟩ := feed_whole d.negative (whole_digits d.coefficient)
    have hfinal : part.final = true := by rcases hp with rfl | rfl <;> rfl
    rw [ofDigitChars_digits] at hw
    exact .intro d.negative hw hfinal
  · rw [if_neg h0]
    by_cases hpos : d.positional = true
    · have hle : d.exponent ≤ 0 := by
        simp only [positional, Bool.and_eq_true, decide_eq_true_eq] at hpos
        exact hpos.1
      simp only [hpos, if_true]
      exact spells_positional (by omega)
    · have hexp : d.adjusted - ((digits d.coefficient).length - 1 : Nat) = d.exponent := by
        rw [adjusted]
        omega
      have hsci := spells_scientific d.negative d.coefficient 'E' (.inr rfl) d.adjusted
        (digits d.adjusted.natAbs) (by rw [← List.length_pos_iff]; exact Nat.length_toDigits_pos)
        (areDigits_digits _) (ofDigitChars_digits _)
      rw [hexp] at hsci
      simp only [hpos, Bool.false_eq_true, if_false, signedPower_eq]
      exact hsci

end SnapshotStaging.Decimal
