import SnapshotStaging.Proofs.Json.Lexing
import SnapshotStaging.Proofs.Page.Records

/-!
# Pages that spell a document

A page spells a document when its events are those of the document. Between its tokens blanks may stand, as many
as there may be and of any kind; they are no events.

Main result `spells_of_written`.
-/

namespace SnapshotStaging

open Document Reader

namespace Page

/-- The bytes of a page give the events of a document. -/
def Spells [Platform] (bytes : List UInt8) (t : Document) : Prop := events bytes = (t.events, none)

/-! ## Tokens and events -/

/-- The token of a leaf. -/
def lexeme (a : ScalarKind × Scalar) : Lexeme :=
  match a.2 with
  | .null => .atom .null
  | .bool b => .atom (.bool b)
  | .int n => .atom (.int n)
  | .decimal d => .atom (.decimal d)
  | .float negative place => .atom (.special (.finite negative place))
  | .str s => .text s

/-- A leaf that a page can hold: its event is that of its token. -/
def Leaf [Platform] (a : ScalarKind × Scalar) : Prop :=
  event? ⟨[], .value⟩ (lexeme a).token = some (.inl (.scalar a.1 a.2.payload))

/-- Whether a page can hold a leaf. -/
def holdable [Platform] : ScalarKind × Scalar → Bool
  | (.null, .null) => true
  | (.boolean, .bool _) => true
  | (.number, .int n) => !Platform.limits.overlong n
  | (.number, .decimal d) => d.representable
  | (.string, .str _) => true
  | _ => false

theorem leaf_of_holdable [Platform] {a : ScalarKind × Scalar} (h : holdable a = true) : Leaf a := by
  obtain ⟨kind, s⟩ := a
  cases s with
  | int n =>
    cases kind with
    | number =>
      rw [holdable, Bool.not_eq_true'] at h
      simp [Leaf, lexeme, Lexeme.token, event?, atomEvent, Scalar.payload, h]
    | _ => cases h
  | decimal d =>
    cases kind with
    | number =>
      rw [holdable] at h
      simp [Leaf, lexeme, Lexeme.token, event?, atomEvent, Scalar.payload, h]
    | _ => cases h
  | _ => cases kind <;> first | rfl | cases h

theorem leaves_of_holdable [Platform] {t : Document} (h : t.leaves.all holdable = true) : ∀ a ∈ t.leaves, Leaf a :=
  fun a ha => leaf_of_holdable (List.all_eq_true.1 h a ha)

theorem grammar_openArray {g : Grammar} (hg : g.admitsValue = true) :
    g.step (.openArray : Token) = some ⟨.array :: g.enclosing, itemExpected true⟩ := by
  simp [Grammar.step, Grammar.enter, hg, itemExpected]

theorem grammar_openObject {g : Grammar} (hg : g.admitsValue = true) :
    g.step (.openObject : Token) = some ⟨.object :: g.enclosing, nameExpected true⟩ := by
  simp [Grammar.step, Grammar.enter, hg, nameExpected]

section

variable [Platform] {g : Grammar} {whole : Bool}

/-- A token that the grammar admits and that is an event. -/
theorem eventsFrom_event {next : Grammar} {t : Token} {e : Event} (hstep : g.step t = some next)
    (hevent : event? g t = some (.inl e)) (done : List Event) (rest : List Token) :
    eventsFrom g done whole (t :: rest) = eventsFrom next (e :: done) whole rest := by
  rw [eventsFrom, hstep, hevent]

theorem eventsFrom_leaf {a : ScalarKind × Scalar} (h : Leaf a) (hg : g.admitsValue = true) (done : List Event)
    (rest : List Token) :
    eventsFrom g done whole ((lexeme a).token :: rest) =
      eventsFrom ⟨g.enclosing, .separator⟩ (.scalar a.1 a.2.payload :: done) whole rest := by
  have hname : g.admitsName = false := by
    simp only [Grammar.admitsValue, Bool.or_eq_true, decide_eq_true_eq] at hg
    rcases hg with hg | hg <;> simp [Grammar.admitsName, hg]
  have hevent : event? g (lexeme a).token = event? ⟨[], .value⟩ (lexeme a).token := by
    cases lexeme a with
    | atom x => rfl
    | text s =>
      simp only [Lexeme.token, event?, hname]
      rfl
  have hstep : g.step (lexeme a).token = some ⟨g.enclosing, .separator⟩ := by
    cases lexeme a <;> simp [Lexeme.token, Grammar.step, hname, hg]
  exact eventsFrom_event hstep (hevent.trans h) done rest

/-- The comma before an item, if it is not the first. -/
theorem eventsFrom_itemComma (first : Bool) (enc : List Container) (done : List Event) (rest : List Token) :
    eventsFrom ⟨.array :: enc, itemExpected first⟩ done whole ((if first then [] else [.comma]) ++ rest) =
      eventsFrom ⟨.array :: enc, if first then .firstItem else .value⟩ done whole rest := by
  cases first <;> rfl

/-- The comma before a member, if it is not the first, its name and the colon. -/
theorem eventsFrom_name (first : Bool) (enc : List Container) (name : String) (done : List Event)
    (rest : List Token) :
    eventsFrom ⟨.object :: enc, nameExpected first⟩ done whole
        ((if first then [] else [.comma]) ++ ([.text (some name)] ++ ([.colon] ++ rest))) =
      eventsFrom ⟨.object :: enc, .value⟩ (.key (.value (.str name)) :: done) whole rest := by
  cases first <;> rfl

mutual

/-- The tokens of a document, wherever a value may stand, give its events. -/
theorem eventsFrom_spell : ∀ (t : Document) (g : Grammar) (done : List Event) (rest : List Token),
    (∀ a ∈ t.leaves, Leaf a) → g.admitsValue = true →
    eventsFrom g done whole (t.spell (.tokens lexeme) ++ rest) =
      eventsFrom ⟨g.enclosing, .separator⟩ (t.events.reverse ++ done) whole rest
  | .leaf a, g, done, rest, hleaves, hg => by
    have hleaf : Leaf a := hleaves a (List.mem_singleton.2 rfl)
    exact eventsFrom_leaf hleaf hg done rest
  | .arr items, g, done, rest, hleaves, hg => by
    rw [Tree.spell, events_arr, List.append_assoc, List.append_assoc]
    refine (eventsFrom_event (grammar_openArray hg) rfl done _).trans ?_
    refine (eventsFrom_items items true g.enclosing (.openArray :: done) _ hleaves).trans ?_
    have hclose : Grammar.step ⟨.array :: g.enclosing, itemExpected (true && items.isEmpty)⟩ (.closeArray : Token) =
        some ⟨g.enclosing, .separator⟩ := by cases items <;> rfl
    exact (eventsFrom_event hclose rfl _ rest).trans (by simp)
  | .obj members, g, done, rest, hleaves, hg => by
    rw [Tree.spell, events_obj, List.append_assoc, List.append_assoc]
    refine (eventsFrom_event (grammar_openObject hg) rfl done _).trans ?_
    refine (eventsFrom_members members true g.enclosing (.openObject :: done) _ hleaves).trans ?_
    have hclose : Grammar.step ⟨.object :: g.enclosing, nameExpected (true && members.isEmpty)⟩ (.closeObject : Token) =
        some ⟨g.enclosing, .separator⟩ := by cases members <;> rfl
    exact (eventsFrom_event hclose rfl _ rest).trans (by simp)

theorem eventsFrom_items : ∀ (items : List Document) (first : Bool) (enc : List Container) (done : List Event)
    (rest : List Token), (∀ a ∈ Tree.itemLeaves items, Leaf a) →
    eventsFrom ⟨.array :: enc, itemExpected first⟩ done whole (Tree.spellItems (.tokens lexeme) first items ++ rest) =
      eventsFrom ⟨.array :: enc, itemExpected (first && items.isEmpty)⟩
        ((items.flatMap Document.events).reverse ++ done) whole rest
  | [], first, enc, done, rest, _ => by
    rw [List.isEmpty_nil, Bool.and_true]
    rfl
  | t :: items, first, enc, done, rest, hleaves => by
    rw [Tree.spellItems]
    simp only [List.append_assoc]
    refine (eventsFrom_itemComma first enc done _).trans ?_
    rw [eventsFrom_spell t _ _ _ (fun a ha => hleaves a (List.mem_append_left _ ha)) (by cases first <;> rfl)]
    refine (eventsFrom_items items false enc _ rest fun a ha => hleaves a (List.mem_append_right _ ha)).trans ?_
    simp

theorem eventsFrom_members : ∀ (members : List (String × Document)) (first : Bool) (enc : List Container)
    (done : List Event) (rest : List Token), (∀ a ∈ Tree.memberLeaves members, Leaf a) →
    eventsFrom ⟨.object :: enc, nameExpected first⟩ done whole
        (Tree.spellMembers (.tokens lexeme) first members ++ rest) =
      eventsFrom ⟨.object :: enc, nameExpected (first && members.isEmpty)⟩
        ((members.flatMap memberEvents).reverse ++ done) whole rest
  | [], first, enc, done, rest, _ => by
    rw [List.isEmpty_nil, Bool.and_true]
    rfl
  | (name, t) :: members, first, enc, done, rest, hleaves => by
    rw [Tree.spellMembers]
    simp only [List.append_assoc]
    refine (eventsFrom_name first enc name done _).trans ?_
    rw [eventsFrom_spell t _ _ _ (fun a ha => hleaves a (List.mem_append_left _ ha)) rfl]
    refine (eventsFrom_members members false enc _ rest fun a ha => hleaves a (List.mem_append_right _ ha)).trans ?_
    simp [memberEvents]

end

end

/-! ## Bytes and tokens -/

/-- The blanks of a page. -/
def blanks : List UInt8 := [0x20, 0x09, 0x0a, 0x0b, 0x0c, 0x0d]

/-- Between tokens the bytes are read as one token, unless a number goes on in what follows. -/
def Lexes (bytes : List UInt8) (t : Token) : Prop :=
  ∀ done rest, ((∃ a, t = .atom a) → Lexer.Delimited (Octets.glyphs rest)) →
    Lexer.run .page .idle done (Octets.glyphs (bytes ++ rest)) =
      Lexer.run .page .idle (t :: done) (Octets.glyphs rest)

/-- Tokens in a row with blanks before, between and after them. -/
inductive Written : List UInt8 → List Token → Prop
  | blank {bytes : List UInt8} (h : ∀ b ∈ bytes, b ∈ blanks) : Written bytes []
  | token {blank bytes rest : List UInt8} {t : Token} {ts : List Token} (hblank : ∀ b ∈ blank, b ∈ blanks)
      (hlexes : Lexes bytes t) (hends : (∃ a, t = .atom a) → Lexer.Delimited (Octets.glyphs rest))
      (hrest : Written rest ts) : Written (blank ++ (bytes ++ rest)) (t :: ts)

theorem octets_run_append (s : Octets.State) (done : List Glyph) (bytes : List UInt8) :
    Octets.run s done bytes = done.reverse ++ Octets.run s [] bytes := by
  induction bytes generalizing s done with
  | nil =>
    rw [Octets.run, Octets.run]
    split <;> simp
  | cons b rest ih =>
    rw [Octets.run, Octets.run]
    split
    · exact ih _ done
    · rw [ih _ (_ :: done), ih _ [_]]
      simp

/-- A blank is no token and part of none. -/
theorem run_blank {b : UInt8} (h : b ∈ blanks) (done : List Token) (rest : List UInt8) :
    Lexer.run .page .idle done (Octets.glyphs (b :: rest)) = Lexer.run .page .idle done (Octets.glyphs rest) := by
  have hglyph : ∃ c, Octets.step .start b.toNat = .inr (.char c) ∧ Format.page.blank c = true := by
    simp only [blanks, List.mem_cons, List.not_mem_nil, or_false] at h
    rcases h with rfl | rfl | rfl | rfl | rfl | rfl <;> exact ⟨_, rfl, rfl⟩
  obtain ⟨c, hstep, hblank⟩ := hglyph
  have hglyphs : Octets.glyphs (b :: rest) = .char c :: Octets.glyphs rest := by
    rw [Octets.glyphs, Octets.run, hstep]
    exact octets_run_append ..
  rw [hglyphs, Lexer.run]
  simp [Lexer.step, Lexer.fresh, hblank, Lexer.step.outcome]

theorem run_blanks {blank : List UInt8} (h : ∀ b ∈ blank, b ∈ blanks) (done : List Token) (rest : List UInt8) :
    Lexer.run .page .idle done (Octets.glyphs (blank ++ rest)) = Lexer.run .page .idle done (Octets.glyphs rest) := by
  induction blank with
  | nil => rfl
  | cons b blank ih =>
    rw [List.cons_append, run_blank (h b (List.mem_cons_self ..))]
    exact ih fun b hb => h b (List.mem_cons_of_mem _ hb)

/-- Written tokens are read, wherever the blanks are. -/
theorem Written.run {bytes : List UInt8} {ts : List Token} (h : Written bytes ts) (done : List Token) :
    Lexer.run .page .idle done (Octets.glyphs bytes) = (done.reverse ++ ts, true) := by
  induction h generalizing done with
  | @blank bytes h =>
    rw [← List.append_nil bytes, run_blanks h]
    simp [Octets.glyphs, Octets.run, Lexer.run, Lexer.finish]
  | token hblank hlexes hends _ ih =>
    rw [run_blanks hblank, hlexes _ _ hends, ih]
    simp

/-! ### Pages in ASCII -/

/-- ASCII characters as the bytes of a page. -/
def ascii (cs : List Char) : List UInt8 := cs.map fun c => UInt8.ofNat c.toNat

theorem ascii_append (cs ds : List Char) : ascii (cs ++ ds) = ascii cs ++ ascii ds := List.map_append

/-- The bytes of ASCII characters are grouped one by one. -/
theorem glyphs_ascii {cs : List Char} (h : ∀ c ∈ cs, c.toNat < 128) (rest : List UInt8) :
    Octets.glyphs (ascii cs ++ rest) = Lexer.glyphs cs ++ Octets.glyphs rest := by
  induction cs with
  | nil => rfl
  | cons c cs ih =>
    obtain ⟨hc, hcs⟩ := List.forall_mem_cons.1 h
    have hbyte : (UInt8.ofNat c.toNat).toNat = c.toNat := UInt8.toNat_ofNat_of_lt' (Nat.lt_trans hc (by decide))
    have hstep : Octets.step .start (UInt8.ofNat c.toNat).toNat = .inr (.char c) := by
      rw [hbyte, Octets.step, Octets.lead, if_pos hc, Lexer.ofCode_toNat]
    rw [ascii, List.map_cons, List.cons_append, Octets.glyphs, Octets.run, hstep]
    exact (octets_run_append ..).trans (congrArg (Glyph.char c :: ·) (ih hcs))

/-- A lexeme with blanks before it. -/
theorem Written.cons {cs ds : List Char} {t : Token} {ts : List Token} (blank : List Char)
    (hblank : blank.all (fun c => UInt8.ofNat c.toNat ∈ blanks) = true) (hlexes : Lexes (ascii cs) t)
    (hends : (∃ a, t = .atom a) → Lexer.Delimited (Octets.glyphs (ascii ds))) (hrest : Written (ascii ds) ts) :
    Written (ascii (blank ++ (cs ++ ds))) (t :: ts) := by
  rw [ascii_append, ascii_append]
  refine .token (List.forall_mem_map.2 fun c hc => ?_) hlexes hends hrest
  simpa using List.all_eq_true.1 hblank c hc

/-- A lexeme that ends by itself, with blanks before it. -/
theorem Written.closed {ds : List Char} {t : Token} {ts : List Token} (blank cs : List Char)
    (hblank : blank.all (fun c => UInt8.ofNat c.toNat ∈ blanks) = true)
    (hascii : cs.all (fun c => c.toNat < 128) = true) (ht : ∀ a, t ≠ .atom a)
    (hleads : Lexer.Leads .page .idle cs [t] .idle) (hrest : Written (ascii ds) ts) :
    Written (ascii (blank ++ (cs ++ ds))) (t :: ts) := by
  refine .cons blank hblank (fun done rest _ => ?_) (fun ⟨a, ha⟩ => absurd ha (ht a)) hrest
  rw [glyphs_ascii fun c hc => by simpa using List.all_eq_true.1 hascii c hc]
  exact hleads done _

/-! ### Documents -/

/-- A page with the tokens of a document spells the document. -/
theorem spells_of_tokens [Platform] {bytes : List UInt8} {t : Document}
    (h : Format.page.tokens (Octets.glyphs bytes) = (t.spell (.tokens lexeme), true))
    (hleaves : ∀ a ∈ t.leaves, Leaf a) : Spells bytes t := by
  have hevents := @eventsFrom_spell _ true t .start [] [] hleaves rfl
  rw [List.append_nil] at hevents
  rw [Spells, Page.events, h]
  refine hevents.trans ?_
  simp [eventsFrom, Grammar.complete, Grammar.start]

/-- **Blanks are of no account**: a page on which the tokens of a document are written spells the document. -/
theorem spells_of_written [Platform] {bytes : List UInt8} {t : Document} (h : Written bytes (t.spell (.tokens lexeme)))
    (hleaves : ∀ a ∈ t.leaves, Leaf a) : Spells bytes t :=
  spells_of_tokens (h.run []) hleaves

end Page

end SnapshotStaging
