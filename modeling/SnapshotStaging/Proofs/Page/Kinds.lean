import SnapshotStaging.Proofs.Field.Selection
import SnapshotStaging.Proofs.Json.Readings
import SnapshotStaging.Proofs.Json.Rewriting
import SnapshotStaging.Proofs.Json.Settled
import SnapshotStaging.Proofs.Json.WrittenNumber
import SnapshotStaging.Proofs.Page.Beginnings
import SnapshotStaging.Proofs.Page.Layouts

/-!
# Kinds of numbers

A record is written anew from its events and then read, so a number passes through the canonical spelling of its
decimal. Read as a text of its own, a number is an integer when neither fraction nor exponent is written. In the
record that is handed over it is one when the power of ten that is written makes up for the digits after the point:
`1e0` and `1.5e1` come as integers though they are read as floats elsewhere, and no other number changes its kind.

Beside its numbers a record may change in its strings, where an escape names half of a surrogate pair: a text read as a
value keeps the half, and a page has another letter for it.

Main result `Page.records_keep_kinds_iff`.
-/

namespace SnapshotStaging

open Lexer

/-! ## Scalars -/

namespace Scalar

/-- What a scalar is read as in a text of its own. -/
def loaded : Scalar → Json
  | .null => .null
  | .bool b => .bool b
  | .int n => .int n
  | .decimal d => .float (Double.ofDecimal d)
  | .float negative place => .float (.finite negative place)
  | .str s => .str s

/-- A number with fraction or exponent whose power of ten makes up for its places. -/
def evened : Scalar → Bool
  | .decimal d => d.exponent = 0
  | _ => false

/-- What a scalar is in the record that is handed over. -/
def handed : Scalar → Json
  | .decimal d =>
    if d.exponent = 0 then .int (if d.negative then -d.coefficient else d.coefficient)
    else .float (Double.ofDecimal d)
  | s => s.loaded

theorem isContainer_loaded (s : Scalar) : s.loaded.isContainer = false := by
  cases s <;> rfl

theorem isContainer_handed (s : Scalar) : s.handed.isContainer = false := by
  cases s with
  | decimal d =>
    rw [handed]
    split <;> rfl
  | _ => rfl

/-- Evened numbers, and no others, change their kind. -/
theorem handed_eq_loaded_iff (s : Scalar) : s.handed = s.loaded ↔ s.evened = false := by
  cases s with
  | decimal d => by_cases h : d.exponent = 0 <;> simp [handed, loaded, evened, h]
  | _ => exact iff_of_true rfl rfl

theorem meaning_eq_handed (s : Scalar) : s.meaning = s.handed := by
  cases s with
  | decimal d =>
    rw [meaning_decimal, Decimal.reread, handed]
    split <;> rfl
  | _ => rfl

/-- Whether a scalar has a finite float, if it has one at all. -/
def finite : Scalar → Bool
  | .decimal d => (Double.ofDecimal d).isFinite
  | _ => true

theorem not_overflows_of_finite {s : Scalar} (h : s.finite = true) : ¬ s.Overflows := by
  rintro ⟨d, rfl, -, hf⟩
  cases hf.symm.trans h

theorem json_lexeme (kind : ScalarKind) (s : Scalar) : (Page.lexeme (kind, s)).json = s.loaded := by
  cases s <;> rfl

/-- What is refused as the token of a page is refused in a record. -/
theorem fault?_lexeme {limits : Limits} {depth : Nat} {kind : ScalarKind} {s : Scalar}
    (h : s.fault? limits depth = none) : Reader.fault? limits .any depth (some (Page.lexeme (kind, s))) = none := by
  cases s with
  | int n => exact h
  | float negative place =>
    have hcalls : limits.admits (Reader.calls depth + 2) = true := by
      rw [fault?] at h
      split at h
      · assumption
      · cases h
    exact if_pos (Limits.admits_mono hcalls (Nat.le_succ _))
  | _ => rfl

end Scalar

namespace WrittenNumber

theorem isInteger_loaded_iff (w : WrittenNumber) : Counts.isInteger w.scalar.loaded = true ↔ w.Plain := by
  by_cases h : w.Plain
  · rw [scalar_of_plain h]
    exact iff_of_true rfl h
  · rw [scalar_of_not_plain h]
    exact iff_of_false Bool.false_ne_true h

/-- A number that is handed over is an integer when its power of ten makes up for its places. -/
theorem isInteger_handed_iff (w : WrittenNumber) :
    Counts.isInteger w.scalar.handed = true ↔ w.powerOfTen = w.places.length := by
  by_cases h : w.Plain
  · rw [scalar_of_plain h, powerOfTen, h.1, h.2]
    exact iff_of_true rfl rfl
  · have hexponent : w.decimal.exponent = 0 ↔ w.powerOfTen = w.places.length := Int.sub_eq_zero
    rw [scalar_of_not_plain h, Scalar.handed, ← hexponent]
    split
    · next hzero => exact iff_of_true rfl hzero
    · next hzero => exact iff_of_false Bool.false_ne_true hzero

end WrittenNumber

/-! ## Records -/

namespace Document

/-- What a document is read as in a text of its own, but for halves of surrogate pairs. -/
def loaded (t : Document) : Json := t.settled.json fun a => a.2.loaded

/-- What a document is in the record that is handed over, before its members are put in order. -/
def handed (t : Document) : Json := t.settled.json fun a => a.2.handed

/-- A text with the tokens of the document, where its strings are read as those of a page; blanks may stand between
the tokens. -/
def Source (t : Document) (cs : List Char) : Prop :=
  Format.textOfPage.tokens (glyphs cs) = (t.spell (.tokens Page.lexeme), true)

/-- Documents with texts that are read as one value but for the order of members, without halves of surrogate pairs. -/
def ReadAlike [Platform] (t u : Document) : Prop :=
  ∃ cs ds, t.Source cs ∧ u.Source ds ∧ ∃ v w : Json (List CodePoint),
    Json.load .any (Letter.ofChars cs : List CodePoint) = .ok v ∧
    Json.load .any (Letter.ofChars ds : List CodePoint) = .ok w ∧ v.whole = true ∧ v.Reordered w

/-- No number that counts is evened. -/
def KeepsKinds (t : Document) : Prop := ∀ a ∈ t.settled.leaves, a.2.evened = false

variable {t u : Document} {v : Json}

theorem meaning_eq_handed (t : Document) : t.meaning = t.handed := by
  have hscalars : (fun a : ScalarKind × Scalar => a.2.meaning) = fun a => a.2.handed :=
    funext fun a => a.2.meaning_eq_handed
  rw [meaning, hscalars, Tree.value_eq, handed]

/-- The text of a record can be read where the text that is written anew can. -/
theorem Source.load [Platform] {cs : List Char} (h : t.Source cs) (hread : t.fault? Platform.limits = none) :
    ∃ v : Json (List CodePoint), Json.load .any (Letter.ofChars cs : List CodePoint) = .ok v ∧ t.loaded.Agrees v := by
  refine Json.load_agrees h ?_
  have hspell := Json.ofTokens_spell Platform.limits .any Page.lexeme t
  have hfault : Reader.rowFault? Platform.limits .any Page.lexeme (t.pieces 0) = none := by
    refine Reader.rowFault?_eq_none_iff.2 fun p hp => ?_
    have hpiece := List.findSome?_eq_none_iff.1 hread p hp
    obtain ⟨depth, _ | a⟩ := p
    · exact hpiece
    · exact Scalar.fault?_lexeme hpiece
  have hvalue : (fun a => (Page.lexeme a).json) = fun a : ScalarKind × Scalar => a.2.loaded :=
    funext fun a => a.2.json_lexeme a.1
  rwa [hfault, hvalue, Tree.value_eq] at hspell

theorem Stands.eq_handed [Platform] (h : t.Stands v) : v = t.handed.canonical := by
  obtain ⟨-, hv⟩ := Json.order?_eq_some_iff.1 h.ordered
  rw [← hv, meaning_eq_handed]

theorem Within.stands_handed [Platform] (hwithin : t.Within) (h : ∀ a ∈ t.leaves, a.2.finite = true) :
    t.Stands t.handed.canonical :=
  t.meaning_eq_handed ▸ hwithin.stands_of fun a ha => Scalar.not_overflows_of_finite (h a ha)

/-- **A record keeps its kinds** exactly when no number that counts is evened. -/
theorem handed_canonical_iff (t : Document) : t.handed.canonical = t.loaded.canonical ↔ t.KeepsKinds := by
  rw [handed, loaded, Tree.canonical_json_eq_iff (fun a => a.2.isContainer_handed) (fun a => a.2.isContainer_loaded)]
  exact forall₂_congr fun a _ => a.2.handed_eq_loaded_iff

/-- **A record is what its text is read as**, in canonical order, exactly when its numbers keep their kinds and no half
of a surrogate pair is read. -/
theorem Source.load_canonical_iff [Platform] {cs : List Char} (h : t.Source cs)
    (hread : t.fault? Platform.limits = none) :
    ∃ v : Json (List CodePoint), Json.load .any (Letter.ofChars cs : List CodePoint) = .ok v ∧
      (t.handed.canonical.points = v.canonical ↔ t.KeepsKinds ∧ v.whole = true) := by
  obtain ⟨v, hload, hagrees⟩ := h.load hread
  refine ⟨v, hload, fun heq => ?_, fun ⟨hkeeps, hwhole⟩ => ?_⟩
  · have hwhole : v.whole = true := by rw [← Json.whole_canonical, ← heq, Json.whole_points]
    rw [hagrees hwhole, Json.canonical_points] at heq
    exact ⟨t.handed_canonical_iff.1 (Json.points_injective heq), hwhole⟩
  · rw [hagrees hwhole, Json.canonical_points, t.handed_canonical_iff.2 hkeeps]

/-- Records that are read alike are handed over as one. -/
theorem ReadAlike.handed_canonical_eq [Platform] (h : ReadAlike t u) (htread : t.fault? Platform.limits = none)
    (huread : u.fault? Platform.limits = none) (ht : t.KeepsKinds) (hu : u.KeepsKinds) :
    t.handed.canonical = u.handed.canonical := by
  obtain ⟨cs, ds, hcs, hds, v, w, hv, hw, hwhole, hsame⟩ := h
  obtain ⟨v', hv', htv⟩ := hcs.load_canonical_iff htread
  obtain ⟨w', hw', huw⟩ := hds.load_canonical_iff huread
  obtain rfl : v' = v := Except.ok.inj (hv'.symm.trans hv)
  obtain rfl : w' = w := Except.ok.inj (hw'.symm.trans hw)
  have hcanonical := hsame.canonical_eq (Json.distinct_of_readWithin hv)
  have hwhole' : w'.whole = true := by rw [← Json.whole_canonical, ← hcanonical, Json.whole_canonical, hwhole]
  exact Json.points_injective ((htv.2 ⟨ht, hwhole⟩).trans (hcanonical.trans (huw.2 ⟨hu, hwhole'⟩).symm))

/-- The same of records in a row. -/
theorem eq_of_stands [Platform] {docs docs' : List Document} {vs vs' : List Json} (h : List.Forall₂ Stands docs vs)
    (h' : List.Forall₂ Stands docs' vs')
    (hsame : List.Forall₂ (fun t u => t.KeepsKinds ∧ u.KeepsKinds ∧ t.ReadAlike u) docs docs') :
    vs = vs' := by
  induction hsame generalizing vs vs' with
  | nil =>
    cases h
    cases h'
    rfl
  | cons hfirst _ ih =>
    obtain ⟨ht, hu, halike⟩ := hfirst
    cases h with
    | cons hv hrest =>
      cases h' with
      | cons hv' hrest' =>
        rw [hv.eq_handed, hv'.eq_handed, halike.handed_canonical_eq hv.read hv'.read ht hu, ih hrest hrest']

/-- Elements hand over their first records. -/
theorem stands_due [Platform] (table : String) (root : Bool) (xs : List (Nat × Document)) :
    List.Forall₂ Stands
      (((xs.map Prod.snd).filter isRecord).take (Marks.handed (xs.filterMap (due table root))).1.length)
      (Marks.handed (xs.filterMap (due table root))).1 := by
  induction xs with
  | nil => exact .nil
  | cons x xs ih =>
    rw [List.filterMap_cons, List.map_cons]
    cases hx : x.2.isRecord with
    | true =>
      rw [due_of_isRecord hx, List.filter_cons_of_pos hx]
      cases hending : x.2.ending table with
      | mk n o =>
        dsimp only
        cases o with
        | nothing => exact absurd hending (ending_ne_nothing table x.2 n)
        | record v => exact .cons (ending_eq_record_iff.1 hending).2 ih
        | refused err => exact .nil
    | false =>
      rw [List.filter_cons_of_neg (by simp [hx])]
      cases root with
      | true =>
        rw [due_root hx]
        exact .nil
      | false =>
        rw [due_member hx]
        exact ih

end Document

/-! ## Pages -/

namespace Assembly

variable [Platform]

/-- What has been handed over stays in front. -/
theorem prefix_run (table : String) (a : Assembly) (records : List Json) (es : List Event) :
    records.reverse <+: (a.run table records es).2.1 := by
  induction es generalizing a records with
  | nil => exact List.prefix_refl _
  | cons e es ih =>
    rw [run]
    split
    · exact ih _ _
    · next v _ =>
      refine List.IsPrefix.trans ?_ (ih _ (v :: records))
      rw [List.reverse_cons]
      exact List.prefix_append _ _
    · exact List.prefix_refl _

theorem run_prefix (table : String) (a : Assembly) (records : List Json) (es fs : List Event) :
    (a.run table records es).2.1 <+: (a.run table records (es ++ fs)).2.1 := by
  induction es generalizing a records with
  | nil => exact prefix_run table a records fs
  | cons e es ih =>
    rw [List.cons_append, run, run]
    split
    · exact ih _ _
    · exact ih _ _
    · exact List.prefix_refl _

end Assembly

namespace Page

section

variable [Platform] {table : String} {bytes bytes' : List UInt8} {t t' : Document} {vs vs' : List Json}

/-- The end of a page takes no record back. -/
theorem records_eq_run (table : String) (bytes : List UInt8) :
    (records table bytes).1 = (Assembly.empty.run table [] (events bytes).1).2.1 := by
  simp only [records, Assembly.page]
  generalize Assembly.empty.run table [] (events bytes).1 = ran
  obtain ⟨a, given, refused⟩ := ran
  cases refused with
  | some err => rfl
  | none =>
    cases (events bytes).2 with
    | some fault => rfl
    | none =>
      dsimp only
      split <;> rfl

/-- The records of a page are what the first record documents stand for, however the page ends. -/
theorem records_stand (table : String) (h : (events bytes).1 <+: t.events) :
    List.Forall₂ Document.Stands (t.records.take (records table bytes).1.length) (records table bytes).1 := by
  obtain ⟨rest, hrest⟩ := h
  have hprefix : (records table bytes).1 <+: (Marks.handed (t.marks table 0)).1 := by
    rw [← Assembly.run_document, ← hrest, records_eq_run]
    exact Assembly.run_prefix table .empty [] _ rest
  have hstands := Document.stands_due table t.isArray (t.elements 0)
  rw [← t.records_eq 0, ← Document.marks] at hstands
  generalize Marks.handed (t.marks table 0) = due at hprefix hstands
  have htake := List.forall₂_take (records table bytes).1.length hstands
  rwa [List.take_take, Nat.min_eq_left hprefix.length_le, ← List.prefix_iff_eq_take.1 hprefix] at htake

/-- A page with one record within the limits, whose numbers can be held. -/
theorem records_single (table : String) {x : Document} (h : Spells bytes (.arr [x])) (hx : x.isRecord = true)
    (hwithin : x.Within) (hleaves : ∀ a ∈ x.leaves, a.2.finite = true) :
    records table bytes = ([x.handed.canonical], none) := by
  have hrecords : Document.records (.arr [x]) = [x] := by simp [Document.records, hx]
  refine (h.records_eq_iff table _).2 ⟨fun _ => List.forall_mem_singleton.2 hx, ?_⟩
  rw [hrecords]
  exact .cons (hwithin.stands_handed hleaves) .nil

/-- **Numbers keep their kinds, unless their power of ten makes up for their places.**

* A number is one token of a page as of a text. Alone it is read as an integer when neither fraction nor exponent is
  written; in a record that is handed over it is an integer when its power of ten equals the number of its places.
* Whatever the bytes of a page, its records are those of its first record documents that can be read and put into
  order. The text of such a document can be read too, and the record is what it is read as, in canonical order, exactly
  when no number in it that counts has changed its kind so and no half of a surrogate pair is read.
* Pages whose records are read as the same values but for the order of members, all of such numbers and without such
  halves, hand over the same records. -/
theorem records_keep_kinds_iff (table : String) :
    (∀ w : WrittenNumber, Lexes w.bytes w.token ∧ .atom w.numeral.atom = w.token ∧
      Reads (Letter.ofChars w.chars) ([.atom w.numeral.atom] : List (Token (List CodePoint))) ∧
      (Counts.isInteger w.scalar.loaded = true ↔ w.Plain) ∧
      (Counts.isInteger w.scalar.handed = true ↔ w.powerOfTen = w.places.length)) ∧
    (∀ bytes : List UInt8, ∃ t : Document, (events bytes).1 <+: t.events ∧
      ((events bytes).2 = none → Spells bytes t) ∧
      List.Forall₂ (fun x v => x.Stands v ∧ v = x.handed.canonical ∧
          ∀ cs, x.Source cs → ∃ u : Json (List CodePoint),
            Json.load .any (Letter.ofChars cs : List CodePoint) = .ok u ∧
            (v.points = u.canonical ↔ x.KeepsKinds ∧ u.whole = true))
        (t.records.take (records table bytes).1.length) (records table bytes).1) ∧
    ∀ (bytes bytes' : List UInt8) (t t' : Document) (vs vs' : List Json), Spells bytes t → Spells bytes' t' →
      records table bytes = (vs, none) → records table bytes' = (vs', none) →
      List.Forall₂ (fun x x' => x.KeepsKinds ∧ x'.KeepsKinds ∧ x.ReadAlike x') t.records t'.records → vs = vs' := by
  refine ⟨fun w => ⟨w.lexes, w.atom_numeral, w.reads, w.isInteger_loaded_iff, w.isInteger_handed_iff⟩,
    fun bytes => ?_, ?_⟩
  · obtain ⟨t, hprefix, hwhole⟩ := exists_beginning bytes
    refine ⟨t, hprefix, hwhole, (records_stand table hprefix).imp fun x v hv => ?_⟩
    refine ⟨hv, hv.eq_handed, fun cs hcs => ?_⟩
    rw [hv.eq_handed]
    exact hcs.load_canonical_iff hv.read
  · intro bytes bytes' t t' vs vs' hbytes hbytes' hvs hvs' hsame
    exact Document.eq_of_stands ((hbytes.records_eq_iff table vs).1 hvs).2 ((hbytes'.records_eq_iff table vs').1 hvs').2
      hsame

end

/-- A record with numbers. -/
def measured : Document :=
  .obj [("id", .leaf (.string, .str "1")),
    ("n", .arr [.leaf (.number, .decimal ⟨false, 150, -2⟩), .leaf (.number, .decimal ⟨false, 2, 3⟩)])]

/-- The same record with its members the other way round and its numbers written otherwise. -/
def measuredAnew : Document :=
  .obj [("n", .arr [.leaf (.number, .decimal ⟨false, 15, -1⟩), .leaf (.number, .decimal ⟨false, 2, 3⟩)]),
    ("id", .leaf (.string, .str "1"))]

/-- What the numbers of both are read as. -/
def measuredNumbers : Json := .arr [.float (Double.ofDecimal ⟨false, 15, -1⟩), .float (Double.ofDecimal ⟨false, 2, 3⟩)]

theorem readAlike_measured : measured.ReadAlike measuredAnew := by
  have hsource : measured.Source "\x7b\"id\":\"1\",\"n\":[1.50,2e3]\x7d".toList := by
    unfold Document.Source
    decide +kernel
  have hsource' : measuredAnew.Source "\x7b\"n\" : [1.5, 0.2e4], \"id\":\"1\"\x7d".toList := by
    unfold Document.Source
    decide +kernel
  have hhalf : Double.ofDecimal ⟨false, 150, -2⟩ = Double.ofDecimal ⟨false, 15, -1⟩ := by decide +kernel
  have hread : Json.load .any (Letter.ofChars "\x7b\"id\":\"1\",\"n\":[1.50,2e3]\x7d".toList : List CodePoint) =
      .ok (Json.obj [("id", .str "1"), ("n", measuredNumbers)]).points := by
    rw [measuredNumbers, ← hhalf]
    rfl
  have hread' : Json.load .any
      (Letter.ofChars "\x7b\"n\" : [1.5, 0.2e4], \"id\":\"1\"\x7d".toList : List CodePoint) =
      .ok (Json.obj [("n", measuredNumbers), ("id", .str "1")]).points := rfl
  refine ⟨_, _, hsource, hsource', _, _, hread, hread', Json.whole_points _, ?_⟩
  exact .obj (.cons _ (.scalar rfl) (.cons _ (.arr (.cons (.scalar rfl) (.cons (.scalar rfl) .nil))) .nil)) (.swap ..)

/-- One number is written in two ways, and the members in two orders. -/
theorem records_keep_kinds_measured :
    Spells "[\x7b\"id\":\"1\",\"n\":[1.50,2e3]\x7d]".toUTF8.toList (.arr [measured]) ∧
    Spells "[\x7b\"n\" : [1.5, 0.2e4], \"id\":\"1\"\x7d]".toUTF8.toList (.arr [measuredAnew]) ∧
    measured.KeepsKinds ∧ measuredAnew.KeepsKinds ∧ measured.ReadAlike measuredAnew ∧
    records "t" "[\x7b\"id\":\"1\",\"n\":[1.50,2e3]\x7d]".toUTF8.toList = ([measured.handed.canonical], none) ∧
    records "t" "[\x7b\"n\" : [1.5, 0.2e4], \"id\":\"1\"\x7d]".toUTF8.toList =
      ([measuredAnew.handed.canonical], none) ∧
    measured.handed.canonical = measuredAnew.handed.canonical := by
  have hbytes : Spells "[\x7b\"id\":\"1\",\"n\":[1.50,2e3]\x7d]".toUTF8.toList (.arr [measured]) :=
    spells_of_tokens (by decide +kernel) (leaves_of_holdable rfl)
  have hbytes' : Spells "[\x7b\"n\" : [1.5, 0.2e4], \"id\":\"1\"\x7d]".toUTF8.toList (.arr [measuredAnew]) :=
    spells_of_tokens (by decide +kernel) (leaves_of_holdable rfl)
  have hx : measured.KeepsKinds := by
    unfold Document.KeepsKinds
    decide
  have hx' : measuredAnew.KeepsKinds := by
    unfold Document.KeepsKinds
    decide
  have hrecords := records_single "t" hbytes rfl (by decide +kernel) (by decide +kernel)
  have hrecords' := records_single "t" hbytes' rfl (by decide +kernel) (by decide +kernel)
  have heq := (records_keep_kinds_iff "t").2.2 _ _ _ _ _ _ hbytes hbytes' hrecords hrecords'
    (.cons ⟨hx, hx', readAlike_measured⟩ .nil)
  exact ⟨hbytes, hbytes', hx, hx', readAlike_measured, hrecords, hrecords', List.singleton_inj.1 heq⟩

/-- A record with one value. -/
def holding (a : ScalarKind × Scalar) : Document := .obj [("id", .leaf (.string, .str "1")), ("n", .leaf a)]

theorem handed_holding (a : ScalarKind × Scalar) :
    (holding a).handed.canonical = .obj [("id", .str "1"), ("n", a.2.handed)] := by
  have hpair : [("id", Json.str "1"), ("n", a.2.handed)].Pairwise fun m n => Json.nameLe m.1 n.1 = true :=
    List.pairwise_pair.2 (Json.nameLe_iff.2 (.inl rfl))
  have hhanded : (holding a).handed = .obj [("id", .str "1"), ("n", a.2.handed)] := rfl
  rw [hhanded, Json.canonical, Json.canonicalMembers_eq, List.map_cons, List.map_singleton,
    Json.canonical_of_scalar a.2.isContainer_handed]
  exact congrArg Json.obj (List.mergeSort_of_pairwise hpair)

/-- A power of ten that is zero makes an integer of a float: two records are read as one value, and another value is
handed over for the one than for the other. -/
theorem records_keep_kinds_evened : ∃ v v' u : Json,
    records "t" "[\x7b\"id\":\"1\",\"n\":1e0\x7d]".toUTF8.toList = ([v], none) ∧
    records "t" "[\x7b\"id\":\"1\",\"n\":1.0\x7d]".toUTF8.toList = ([v'], none) ∧
    Json.load .any (Letter.ofChars "\x7b\"id\":\"1\",\"n\":1e0\x7d".toList : List CodePoint) = .ok u.points ∧
    Json.load .any (Letter.ofChars "\x7b\"id\":\"1\",\"n\":1.0\x7d".toList : List CodePoint) = .ok u.points ∧
    (u.member? "n").map Counts.isInteger = some false ∧ (v.member? "n").map Counts.isInteger = some true ∧
    v.pretty ≠ v'.pretty ∧ (Statistics.ofRecords [v]).find? "n" ≠ (Statistics.ofRecords [v']).find? "n" := by
  have hone : Double.ofDecimal ⟨false, 10, -1⟩ = Double.ofDecimal ⟨false, 1, 0⟩ := by decide +kernel
  have hpage : Spells "[\x7b\"id\":\"1\",\"n\":1e0\x7d]".toUTF8.toList
      (.arr [holding (.number, .decimal ⟨false, 1, 0⟩)]) :=
    spells_of_tokens (by decide +kernel) (leaves_of_holdable rfl)
  have hpage' : Spells "[\x7b\"id\":\"1\",\"n\":1.0\x7d]".toUTF8.toList
      (.arr [holding (.number, .decimal ⟨false, 10, -1⟩)]) :=
    spells_of_tokens (by decide +kernel) (leaves_of_holdable rfl)
  have hdistinct (v : Json) (hv : v.Distinct) : (Json.obj [("id", .str "1"), ("n", v)]).Distinct :=
    ⟨by simp, trivial, hv, trivial⟩
  refine ⟨.obj [("id", .str "1"), ("n", .int 1)],
    .obj [("id", .str "1"), ("n", .float (Double.ofDecimal ⟨false, 1, 0⟩))],
    .obj [("id", .str "1"), ("n", .float (Double.ofDecimal ⟨false, 1, 0⟩))],
    ?_, ?_, rfl, ?_, rfl, rfl, ?_, by decide⟩
  · rw [records_single _ hpage rfl (by decide +kernel) (by decide +kernel), handed_holding]
    rfl
  · rw [records_single _ hpage' rfl (by decide +kernel) (by decide +kernel), handed_holding, ← hone]
    rfl
  · rw [← hone]
    rfl
  · intro heq
    have := (Json.render_inj (hdistinct (.int 1) trivial) (hdistinct (.float _) trivial)).1 heq
    simp at this

/-- Half of a surrogate pair is joined to whatever escape comes next: two records are read as one value with the half
in it, and another value is handed over for the one than for the other. -/
theorem records_join_halves : ∃ (v v' : Json) (u : Json (List CodePoint)),
    records "t" "[\x7b\"id\":\"1\",\"n\":\"\\ud800\\u0041\"\x7d]".toUTF8.toList = ([v], none) ∧
    records "t" "[\x7b\"id\":\"1\",\"n\":\"\\ud800A\"\x7d]".toUTF8.toList = ([v'], none) ∧
    Json.load .any (Letter.ofChars "\x7b\"id\":\"1\",\"n\":\"\\ud800\\u0041\"\x7d".toList : List CodePoint) = .ok u ∧
    Json.load .any (Letter.ofChars "\x7b\"id\":\"1\",\"n\":\"\\ud800A\"\x7d".toList : List CodePoint) = .ok u ∧
    u.whole = false ∧ v ≠ v' := by
  have hpage : Spells "[\x7b\"id\":\"1\",\"n\":\"\\ud800\\u0041\"\x7d]".toUTF8.toList
      (.arr [holding (.string, .str (String.singleton (Char.ofNat 0x10041)))]) :=
    spells_of_tokens (by decide +kernel) (leaves_of_holdable rfl)
  have hpage' : Spells "[\x7b\"id\":\"1\",\"n\":\"\\ud800A\"\x7d]".toUTF8.toList
      (.arr [holding (.string, .str "?A")]) :=
    spells_of_tokens (by decide +kernel) (leaves_of_holdable rfl)
  refine ⟨_, _, .obj [(Script.points "id", .str (Script.points "1")),
    (Script.points "n", .str [.half 0, .char 'A'])],
    records_single _ hpage rfl (by decide +kernel) (by decide +kernel),
    records_single _ hpage' rfl (by decide +kernel) (by decide +kernel), rfl, rfl, rfl, ?_⟩
  rw [handed_holding, handed_holding]
  simp [Scalar.handed, Scalar.loaded]

end Page

end SnapshotStaging
