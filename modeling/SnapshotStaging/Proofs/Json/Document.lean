import SnapshotStaging.Page.Event
import SnapshotStaging.Proofs.Json.Tree
import SnapshotStaging.Proofs.Number.Printing

/-!
# Documents as events and as text

The leaves of a `Document` are what the scalar events of a page carry. `Document.events` are the
events of a document, `Document.text` is the text written from them, and `Document.meaning` is what the
document stands for, a decimal standing for whatever its canonical spelling is read as.

Main result `readWithin_text`: reading the text of a document gives its meaning, unless a number is out
of range or the document goes beyond the limits; then the first piece that does is reported.
-/

namespace SnapshotStaging

/-- What the event of a scalar carries. -/
inductive Scalar
  | null
  | bool (b : Bool)
  | int (n : Int)
  | decimal (d : Decimal)
  | float (negative : Bool) (place : Fin magnitudes)
  | str (s : String)
  deriving DecidableEq, Repr

namespace Scalar

def payload : Scalar → Payload
  | .null => .value .null
  | .bool b => .value (.bool b)
  | .int n => .value (.int n)
  | .decimal d => .decimal d
  | .float negative place => .value (.float (.finite negative place))
  | .str s => .value (.str s)

/-- What a scalar stands for in a record: a decimal is what its spelling is read as. -/
def meaning : Scalar → Json
  | .null => .null
  | .bool b => .bool b
  | .int n => .int n
  | .decimal d => ((Json.readChars .any d.text).toOption).getD .null
  | .float negative place => .float (.finite negative place)
  | .str s => .str s

/-- Why the text of a scalar is refused at a depth, if it is: a decimal is refused as the number that its spelling
is. -/
def fault? (limits : Limits) (depth : Nat) : Scalar → Option ReadError
  | .int n => Reader.atomFault? limits .finite depth (.int n)
  | .decimal d => Reader.atomFault? limits .finite depth d.reread
  | .float _ _ => if limits.admits (Reader.calls depth + 2) then none else some .exhausted
  | _ => none

/-- Whether a scalar is a number with fraction or exponent that has no finite float. -/
def Overflows (s : Scalar) : Prop :=
  ∃ d, s = .decimal d ∧ d.exponent ≠ 0 ∧ (Double.ofDecimal d).isFinite = false

end Scalar

/-- A document whose leaves are scalars, each with the kind that its event names. -/
abbrev Document := Tree (ScalarKind × Scalar)

/-- The events of a document. -/
def Spelling.events : Spelling (ScalarKind × Scalar) Event where
  leaf a := [.scalar a.1 a.2.payload]
  name s := [.key (.value (.str s))]
  openObject := [.openObject]
  closeObject := [.closeObject]
  openArray := [.openArray]
  closeArray := [.closeArray]
  comma := []
  colon := []

/-- The text of a document without blanks. -/
def Spelling.text : Spelling (ScalarKind × Scalar) Char where
  leaf a := a.2.payload.text
  name s := (Json.str s).write .spaced 0 []
  openObject := ['\x7b']
  closeObject := ['\x7d']
  openArray := ['[']
  closeArray := [']']
  comma := [',']
  colon := [':']

namespace Document

def events (t : Document) : List Event := t.spell .events

def text (t : Document) : List Char := t.spell .text

/-- What a document stands for. -/
def meaning (t : Document) : Json := t.value fun a => a.2.meaning

/-- Why an opening or a leaf is refused at its depth, if it is. -/
def pieceFault? (limits : Limits) (p : Nat × Option (ScalarKind × Scalar)) : Option ReadError :=
  match p.2 with
  | none => Reader.openingFault? limits p.1
  | some a => a.2.fault? limits p.1

/-- Why the text of a document is refused, if it is: the reason of the first opening or leaf that is. -/
def fault? (limits : Limits) (t : Document) : Option ReadError := (t.pieces 0).findSome? (pieceFault? limits)

end Document

namespace Lexer

/-- A whole text of one token is read as that token's value, unless it is refused. -/
theorem Reads.readWithin {cs : List Char} {x : Lexeme} (h : Reads cs [x.token]) (limits : Limits)
    (range : FloatRange) :
    Json.readWithin limits range cs = (Reader.fault? limits range 0 (some x)).elim (.ok x.json) .error := by
  have htree := Json.ofTokens_spell limits range (fun _ : Unit => x) (.leaf ())
  rw [Tree.spell, Tree.value, Tree.pieces, Reader.rowFault?_cons, Reader.rowFault?_nil, Option.or_none] at htree
  rw [Json.readWithin]
  exact (congrArg (fun p => Json.ofTokens limits range p.1 p.2) h.tokens).trans htree

/-- The value of a decimal is that of the token that it is written as. -/
theorem meaning_decimal (d : Decimal) : (Scalar.decimal d).meaning = Reader.atomValue d.reread := by
  have hread : Reads d.text [Lexeme.token (.atom d.reread : Lexeme)] := d.spells_text.reads
  rw [Scalar.meaning, Json.readChars, hread.readWithin, Decimal.reread]
  split <;> rfl

/-- A scalar is written as one token that stands for it and is refused for the same reasons. -/
theorem exists_lexeme (s : Scalar) : ∃ x : Lexeme, Reads s.payload.text [x.token] ∧ x.json = s.meaning ∧
    ∀ limits depth, Reader.fault? limits .finite depth (some x) = s.fault? limits depth := by
  cases s with
  | null => exact ⟨.atom .null, leads_null.reads, rfl, fun _ _ => rfl⟩
  | bool b =>
    refine ⟨.atom (.bool b), ?_, rfl, fun _ _ => rfl⟩
    have h : Reads _ [(Lexeme.atom (.bool b) : Lexeme).token] := (leads_bool b).reads
    cases b <;> exact h
  | int n =>
    refine ⟨.atom (.int n), ?_, rfl, fun _ _ => rfl⟩
    have h : Reads _ [(Lexeme.atom (.int n) : Lexeme).token] := (spells_signedDigits n).reads
    rwa [← List.append_nil (signedDigits n)] at h
  | decimal d => exact ⟨.atom d.reread, d.spells_text.reads, (meaning_decimal d).symm, fun _ _ => rfl⟩
  | float negative place =>
    obtain ⟨d, hspells, hval⟩ := Double.spells_text Double.plainWords negative place
    refine ⟨.atom (.decimal d), hspells.reads, congrArg Json.float hval, fun limits depth => ?_⟩
    cases h : limits.admits (Reader.calls depth + 2) <;>
      simp [Reader.fault?, Reader.atomFault?, Scalar.fault?, hval, Double.isFinite, h]
  | str s => exact ⟨.text s, (leads_writeString s).reads, rfl, fun _ _ => rfl⟩

variable {lexeme : ScalarKind × Scalar → Lexeme}

theorem separates_items (items : List Document) {ds : List Char} (hs : Separates ds) :
    Separates (Tree.spellItems .text false items ++ ds) := by
  cases items with
  | nil => exact hs
  | cons t rest => exact ⟨List.cons_ne_nil _ _, (delimited_cons _ _).2 rfl⟩

theorem separates_members (members : List (String × Document)) {ds : List Char} (hs : Separates ds) :
    Separates (Tree.spellMembers .text false members ++ ds) := by
  cases members with
  | nil => exact hs
  | cons m rest => exact ⟨List.cons_ne_nil _ _, (delimited_cons _ _).2 rfl⟩

/-- The comma before all items but the first. -/
theorem leads_between (first : Bool) :
    Leads .text .idle (if first then [] else Spelling.text.comma)
      (if first then [] else (Spelling.tokens lexeme).comma) .idle := by
  cases first with
  | true => exact .refl _
  | false => exact leads_comma

theorem separates_closeArray : Separates Spelling.text.closeArray :=
  ⟨List.cons_ne_nil _ _, (delimited_cons _ _).2 rfl⟩

theorem separates_closeObject : Separates Spelling.text.closeObject :=
  ⟨List.cons_ne_nil _ _, (delimited_cons _ _).2 rfl⟩

mutual

/-- The text of a document is read as its tokens. -/
theorem reads_spell (h : ∀ a, Reads a.2.payload.text [(lexeme a).token]) :
    ∀ t : Document, Reads (t.spell .text) (t.spell (.tokens lexeme))
  | .leaf a => h a
  | .arr items =>
    leads_openArray.append_reads (reads_items h items true separates_closeArray leads_closeArray.reads)
  | .obj members =>
    leads_openObject.append_reads (reads_members h members true separates_closeObject leads_closeObject.reads)

/-- Items and what stands after them. -/
theorem reads_items (h : ∀ a, Reads a.2.payload.text [(lexeme a).token]) :
    ∀ (items : List Document) (first : Bool) {ds : List Char} {us : List Token}, Separates ds → Reads ds us →
      Reads (Tree.spellItems .text first items ++ ds) (Tree.spellItems (.tokens lexeme) first items ++ us)
  | [], _, _, _, _, hd => hd
  | t :: rest, first, ds, us, hs, hd => by
    have hrest := reads_items h rest false hs hd
    have hitem := (reads_spell h t).append hrest (separates_items rest hs)
    rw [Tree.spellItems, Tree.spellItems]
    simp only [List.append_assoc]
    exact (leads_between first).append_reads hitem

/-- Members and what stands after them. -/
theorem reads_members (h : ∀ a, Reads a.2.payload.text [(lexeme a).token]) :
    ∀ (members : List (String × Document)) (first : Bool) {ds : List Char} {us : List Token},
      Separates ds → Reads ds us → Reads (Tree.spellMembers .text first members ++ ds)
        (Tree.spellMembers (.tokens lexeme) first members ++ us)
  | [], _, _, _, _, hd => hd
  | (name, t) :: rest, first, ds, us, hs, hd => by
    have hrest := reads_members h rest false hs hd
    have hvalue := (reads_spell h t).append hrest (separates_members rest hs)
    have hname := (leads_writeString name).append_reads (leads_colon.append_reads hvalue)
    rw [Tree.spellMembers, Tree.spellMembers]
    simp only [List.append_assoc]
    exact (leads_between first).append_reads hname

end

end Lexer

/-! ## Why a text is refused -/

theorem Reader.openingFault?_cases {limits : Limits} {depth : Nat} {e : ReadError}
    (h : openingFault? limits depth = some e) : e = .exhausted := by
  rw [openingFault?] at h
  split at h
  · cases h
  · exact (Option.some.inj h).symm

/-- An integer has too many digits, no call is left, or a decimal has no finite float. -/
theorem Reader.atomFault?_cases {limits : Limits} {range : FloatRange} {depth : Nat} {a : Atom} {e : ReadError}
    (h : atomFault? limits range depth a = some e) :
    e = .overlong ∨ e = .exhausted ∨
      ∃ d, a = .decimal d ∧ (Double.ofDecimal d).isFinite = false ∧ e = .outOfRange d := by
  cases a with
  | int n =>
    rw [atomFault?] at h
    split at h
    · exact .inl (Option.some.inj h).symm
    · cases h
  | special x =>
    rw [atomFault?] at h
    split at h
    · cases h
    · exact .inr (.inl (Option.some.inj h).symm)
  | decimal d =>
    cases range with
    | any => cases h
    | finite =>
      rw [atomFault?] at h
      split at h
      · exact .inr (.inl (Option.some.inj h).symm)
      · split at h
        · cases h
        · next hfinite => exact .inr (.inr ⟨d, rfl, Bool.eq_false_iff.2 hfinite, (Option.some.inj h).symm⟩)
  | _ => cases h

namespace Scalar

/-- An integer has too many digits, no call is left, or a number overflows. -/
theorem fault?_cases {s : Scalar} {limits : Limits} {depth : Nat} {e : ReadError} (h : s.fault? limits depth = some e) :
    e = .overlong ∨ e = .exhausted ∨ (∃ d, e = .outOfRange d) ∧ s.Overflows := by
  cases s with
  | int n =>
    have h : Reader.atomFault? limits .finite depth (.int n) = some e := h
    refine (Reader.atomFault?_cases h).imp_right (Or.imp_right ?_)
    rintro ⟨d, hd, -⟩
    cases hd
  | decimal d =>
    have h : Reader.atomFault? limits .finite depth d.reread = some e := h
    refine (Reader.atomFault?_cases h).imp_right (Or.imp_right ?_)
    rintro ⟨d', hd', hfinite, rfl⟩
    rw [Decimal.reread] at hd'
    split at hd'
    · cases hd'
    · next hexponent =>
      cases hd'
      exact ⟨⟨d, rfl⟩, d, rfl, hexponent, hfinite⟩
  | float negative place =>
    rw [fault?] at h
    split at h
    · cases h
    · exact .inr (.inl (Option.some.inj h).symm)
  | _ => cases h

theorem Overflows.fault?_ne_none {s : Scalar} (h : s.Overflows) (limits : Limits) (depth : Nat) :
    s.fault? limits depth ≠ none := by
  obtain ⟨d, rfl, hexponent, hfinite⟩ := h
  rw [fault?, Decimal.reread, if_neg hexponent, Reader.atomFault?]
  split
  · exact Option.some_ne_none _
  · simp [hfinite]

end Scalar

namespace Document

variable {limits : Limits} {t : Document}

/-- An integer has too many digits, no call is left, or a number overflows. -/
theorem fault?_cases {e : ReadError} (h : t.fault? limits = some e) :
    e = .overlong ∨ e = .exhausted ∨ (∃ d, e = .outOfRange d) ∧ ∃ a ∈ t.leaves, a.2.Overflows := by
  obtain ⟨⟨depth, _ | a⟩, hmem, hpiece⟩ := List.exists_of_findSome?_eq_some h
  · exact .inr (.inl (Reader.openingFault?_cases hpiece))
  · exact (Scalar.fault?_cases hpiece).imp_right (Or.imp_right (And.imp_right fun hover =>
      ⟨a, Tree.mem_leaves_of_piece hmem, hover⟩))

theorem fault?_ne_none_of_overflows (h : ∃ a ∈ t.leaves, a.2.Overflows) : t.fault? limits ≠ none := by
  obtain ⟨a, ha, hover⟩ := h
  obtain ⟨depth, hpiece⟩ := Tree.exists_piece 0 ha
  intro hnone
  exact hover.fault?_ne_none limits depth (List.findSome?_eq_none_iff.1 hnone _ hpiece)

end Document

/-- **Reading the text of a document gives what it stands for**, unless a piece of it is refused. -/
theorem Document.readWithin_text (limits : Limits) (t : Document) :
    Json.readWithin limits .finite t.text = (t.fault? limits).elim (.ok t.meaning) .error := by
  obtain ⟨lexeme, h⟩ := Classical.skolem.1 fun a : ScalarKind × Scalar => Lexer.exists_lexeme a.2
  have htokens := (Lexer.reads_spell (fun a => (h a).1) t).tokens
  have hspell := Json.ofTokens_spell limits .finite lexeme t
  have hvalue : (fun a => (lexeme a).json) = fun a : ScalarKind × Scalar => a.2.meaning := funext fun a => (h a).2.1
  have hfault : Reader.rowFault? limits .finite lexeme (t.pieces 0) = t.fault? limits := by
    refine congrArg (List.findSome? · (t.pieces 0)) (funext fun p => ?_)
    obtain ⟨depth, _ | a⟩ := p
    · rfl
    · exact (h a).2.2 limits depth
  rw [hvalue, hfault] at hspell
  rw [Json.readWithin]
  exact (congrArg (fun p => Json.ofTokens limits .finite p.1 p.2) htokens).trans hspell

end SnapshotStaging
