import SnapshotStaging.Proofs.Page.Acceptance
import SnapshotStaging.Proofs.Page.Spelling

/-!
# What any page begins

Whatever the bytes of a page, its events are those that some document begins with, and all of a document when nothing
is wrong with the page. The grammar and the draft of a document go along with each other, and a draft can always be
completed. The words for numbers without digits are none in a page, so each scalar is one that a document may have.

Main result `exists_beginning`.
-/

namespace SnapshotStaging

open Document

/-! ## Tokens of a page -/

namespace Lexer

/-- A token that names no infinity and is not the number that is none. -/
def Usual (t : Token) : Prop := ∀ x, t ≠ .atom (.special x)

/-- No word for such a number has begun. -/
def State.Usual : State → Prop
  | .word _ a => Lexer.Usual (.atom a)
  | _ => True

variable {s next : State} {g : Glyph} {ts : List Token}

theorem usual_atom (n : Numeral) : Usual (.atom n.atom) := by
  intro x
  rw [Numeral.atom]
  split <;> simp

theorem usual_word {c : Char} (h : word? .page c = some next) : next.Usual := by
  unfold word? at h
  split at h <;> cases h <;> simp [State.Usual, Lexer.Usual]

theorem usual_fresh (h : fresh .page g = some (next, ts)) : next.Usual ∧ ∀ t ∈ ts, Usual t := by
  cases g with
  | char c =>
    simp only [fresh] at h
    split at h
    · cases h
      exact ⟨trivial, List.forall_mem_nil _⟩
    · split at h
      case h_9 =>
        split at h
        · obtain ⟨r, -, hr⟩ := Option.map_eq_some_iff.1 h
          cases hr
          exact ⟨trivial, List.forall_mem_nil _⟩
        · obtain ⟨r, hr, heq⟩ := Option.map_eq_some_iff.1 h
          cases heq
          exact ⟨usual_word hr, List.forall_mem_nil _⟩
      all_goals
        cases h
        exact ⟨trivial, by simp [Usual]⟩
  | _ => cases h

theorem usual_insideString {content : Content} (h : insideString .page content g = some (next, ts)) :
    next.Usual ∧ ∀ t ∈ ts, Usual t := by
  cases g with
  | char c =>
    simp only [insideString] at h
    split at h
    · cases h
      exact ⟨trivial, by simp [Usual, closed]⟩
    · split at h
      · cases h
        exact ⟨trivial, List.forall_mem_nil _⟩
      · split at h <;> cases h
        exact ⟨trivial, List.forall_mem_nil _⟩
  | half d =>
    cases h
    exact ⟨trivial, List.forall_mem_nil _⟩
  | stray =>
    cases h
    exact ⟨trivial, List.forall_mem_nil _⟩
  | broken => cases h

theorem usual_afterEscape {content : Content} {c : Char} (h : afterEscape content c = some next) : next.Usual := by
  unfold afterEscape at h
  split at h
  · cases h
    trivial
  · obtain ⟨e, -, rfl⟩ := Option.map_eq_some_iff.1 h
    trivial

/-- What a glyph brings about begins no such word and completes none. -/
def Keeps (r : Option State × List Token) : Prop := (∀ s, r.1 = some s → s.Usual) ∧ ∀ t ∈ r.2, Usual t

theorem keeps_some (h : next.Usual) : Keeps (some next, []) :=
  ⟨fun _ heq => Option.some.inj heq ▸ h, List.forall_mem_nil _⟩

theorem keeps_none : Keeps (none, []) := ⟨fun _ heq => (Option.some_ne_none _ heq.symm).elim, List.forall_mem_nil _⟩

theorem keeps_outcome {o : Option (State × List Token)}
    (h : ∀ next ts, o = some (next, ts) → next.Usual ∧ ∀ t ∈ ts, Usual t) : Keeps (step.outcome o) := by
  cases o with
  | none => exact keeps_none
  | some r =>
    obtain ⟨hnext, hts⟩ := h r.1 r.2 rfl
    exact ⟨fun _ heq => Option.some.inj heq ▸ hnext, hts⟩

theorem keeps_afterEscape (content : Content) (c : Char) : Keeps (afterEscape content c, []) :=
  ⟨fun _ heq => usual_afterEscape heq, List.forall_mem_nil _⟩

theorem keeps_step (h : s.Usual) (g : Glyph) : Keeps (step .page s g) := by
  cases s with
  | idle => exact keeps_outcome fun _ _ => usual_fresh
  | word rest a =>
    simp only [step]
    split
    · split
      · exact ⟨fun _ heq => Option.some.inj heq ▸ trivial, List.forall_mem_singleton.2 h⟩
      · exact keeps_none
    · split
      · exact keeps_some h
      · exact keeps_none
    · exact keeps_none
  | number n part =>
    simp only [step]
    split
    · exact keeps_some trivial
    · split
      · obtain ⟨hnext, hts⟩ : Keeps (step.outcome (fresh .page g)) := keeps_outcome fun _ _ => usual_fresh
        exact ⟨hnext, List.forall_mem_cons.2 ⟨usual_atom n, hts⟩⟩
      · simp only [Format.page, Bool.and_false, Bool.false_eq_true, if_false]
        exact keeps_none
  | inside content => exact keeps_outcome fun _ _ => usual_insideString
  | escape content =>
    cases g with
    | char c => exact keeps_afterEscape content c
    | _ => exact keeps_none
  | code content due value =>
    simp only [step]
    split
    · split
      · exact keeps_some trivial
      · exact keeps_some trivial
      · exact keeps_none
    · exact keeps_none

theorem usual_run {done : List Token} (h : s.Usual) (hdone : ∀ t ∈ done, Usual t) (input : List Glyph) :
    ∀ t ∈ (run .page s done input).1, Usual t := by
  induction input generalizing s done with
  | nil =>
    have hfinish : ∀ t ∈ (finish s).1, Usual t := by
      cases s with
      | number n part =>
        simp only [finish]
        split
        · exact List.forall_mem_singleton.2 (usual_atom n)
        · exact List.forall_mem_nil _
      | _ => exact List.forall_mem_nil _
    intro t ht
    simp only [run, List.reverse_append, List.reverse_reverse, List.mem_append, List.mem_reverse] at ht
    exact ht.elim (hdone t) (hfinish t)
  | cons g rest ih =>
    obtain ⟨hnext, hts⟩ := keeps_step h g
    rw [run]
    generalize step .page s g = r at hnext hts
    have hall : ∀ t ∈ r.2.reverse ++ done, Usual t :=
      List.forall_mem_append.2 ⟨fun t ht => hts t (List.mem_reverse.1 ht), hdone⟩
    obtain ⟨_ | next, ts⟩ := r
    · exact fun t ht => hall t (List.mem_reverse.1 ht)
    · exact ih (hnext next rfl) hall

end Lexer

/-- **The words for numbers without digits are none in a page.** -/
theorem Format.usual_of_mem_tokens {input : List Glyph} {t : Token} (h : t ∈ (Format.page.tokens input).1) :
    Lexer.Usual t :=
  Lexer.usual_run (s := .idle) trivial (fun _ ht => absurd ht List.not_mem_nil) input t h

/-! ## Drafts of documents -/

namespace Begun

/-- What may come next in a container, before or after the comma or the colon that is due. -/
def Expects : Begun → Expected → Prop
  | .arr items, e => e = Reader.itemExpected items.isEmpty ∨ items ≠ [] ∧ e = .value
  | .obj members, e => e = Reader.nameExpected members.isEmpty ∨ members ≠ [] ∧ e = .name
  | .due _ _, e => e = .colon ∨ e = .value

theorem expects_fresh (kind : Container) : (fresh kind).Expects (Grammar.firstExpected kind) := by
  cases kind <;> exact .inl rfl

theorem kind_of_hole? {b : Begun} {h : Hole} (hb : b.hole? = some h) : b.container.kind = h.kind := by
  cases b <;> cases hb <;> rfl

/-- Where a value may come, there is a hole for it. -/
theorem Expects.exists_hole {b : Begun} {enclosing : List Container} {expected : Expected} (h : b.Expects expected)
    (hg : Grammar.admitsValue ⟨enclosing, expected⟩ = true) : ∃ h, b.hole? = some h := by
  cases b with
  | obj members =>
    rcases h with rfl | ⟨-, rfl⟩
    · cases members <;> cases hg
    · cases hg
  | _ => exact ⟨_, rfl⟩

/-- Where a container may end, it is whole. -/
theorem Expects.exists_whole {b : Begun} {expected : Expected} (h : b.Expects expected)
    (hexpected : expected = .separator ∨ expected = Grammar.firstExpected b.container.kind) :
    ∃ t, b.whole? = some t := by
  cases b with
  | due members name => rcases h with rfl | rfl <;> rcases hexpected with h | h <;> cases h
  | _ => exact ⟨_, rfl⟩

theorem expects_fill (h : Hole) (t : Document) : (h.fill t).Expects .separator := by
  cases h <;> exact .inl (by simp [Reader.itemExpected, Reader.nameExpected])

end Begun

namespace Draft

/-- The kinds of the open containers, inner ones first. -/
def kinds (D : Draft) : List Container := D.inner.container.kind :: D.outer.map Hole.kind

/-- Every draft is one of a document: what is open can be closed. -/
theorem exists_completion (D : Draft) : ∃ t : Document, D.events <+: t.events := by
  obtain ⟨inner, outer⟩ := D
  have hclose {b : Begun} {t : Document} (whole : b.whole? = some t) (outer : List Hole) :
      ∃ t : Document, (Draft.mk b outer).events <+: t.events := by
    induction outer generalizing b t with
    | nil => exact ⟨t, _, (events_whole whole).symm⟩
    | cons h outer ih =>
      obtain ⟨u, hu⟩ := Begun.exists_whole? (Begun.named_fill h t)
      obtain ⟨v, hv⟩ := ih hu
      exact ⟨v, (List.prefix_append _ _).trans ((events_leave whole (h := h)) ▸ hv)⟩
  cases inner with
  | arr items => exact hclose rfl outer
  | obj members => exact hclose rfl outer
  | due members name =>
    -- The value that is due comes first.
    obtain ⟨t, ht⟩ := hclose (b := Hole.fill (.member members name) (.arr [])) rfl outer
    have hput := events_put (D := ⟨.due members name, outer⟩) (h := .member members name) rfl (.arr [])
    exact ⟨t, (List.prefix_append _ _).trans (hput ▸ ht)⟩

end Draft

namespace Page

/-! ## The grammar and the draft -/

/-- What the events of a page have come to: nothing yet, a draft, or a whole document. -/
inductive Progress : Grammar → List Event → Prop
  | start : Progress .start []
  | draft (D : Draft) {expected : Expected} (h : D.inner.Expects expected) : Progress ⟨D.kinds, expected⟩ D.events
  | whole (t : Document) : Progress ⟨[], .separator⟩ t.events

variable {g next : Grammar} {es : List Event} {t : Token} {e : Event}

/-- Where a value may come, a document is put. -/
theorem Progress.put (h : Progress g es) (hg : g.admitsValue = true) (t : Document) :
    Progress ⟨g.enclosing, .separator⟩ (es ++ t.events) := by
  cases h with
  | start => exact .whole t
  | whole t => cases hg
  | draft D hexpects =>
    obtain ⟨hole, hhole⟩ := hexpects.exists_hole hg
    have hkinds : (Draft.mk (hole.fill t) D.outer).kinds = D.kinds := by
      simp [Draft.kinds, Begun.kind_of_hole? hhole]
    rw [← Draft.events_put hhole t, ← hkinds]
    exact .draft _ (Begun.expects_fill hole t)

/-- Where a value may come, a container opens. -/
theorem Progress.enter (h : Progress g es) (hg : g.admitsValue = true) (kind : Container) :
    Progress ⟨kind :: g.enclosing, Grammar.firstExpected kind⟩ (es ++ [kind.opening]) := by
  cases h with
  | start =>
    have hdraft := Progress.draft ⟨.fresh kind, []⟩ (Begun.expects_fresh kind)
    rwa [Draft.events, Begun.events_fresh, Draft.kinds, Begun.container_fresh] at hdraft
  | whole t => cases hg
  | draft D hexpects =>
    obtain ⟨hole, hhole⟩ := hexpects.exists_hole hg
    have hkinds : (Draft.mk (.fresh kind) (hole :: D.outer)).kinds = kind :: D.kinds := by
      simp [Draft.kinds, Begun.kind_of_hole? hhole]
    rw [← Draft.events_enter hhole kind, ← hkinds]
    exact .draft _ (Begun.expects_fresh kind)

/-- Where a container may end, it ends. -/
theorem Progress.leave (h : Progress g es) {kind : Container}
    (hleave : g.leave kind (Grammar.firstExpected kind) = some next) : Progress next (es ++ [kind.closing]) := by
  cases h with
  | start => cases hleave
  | whole t => cases hleave
  | draft D hexpects =>
    obtain ⟨inner, outer⟩ := D
    simp only [Grammar.leave, Draft.kinds] at hleave
    split at hleave
    · next hcond =>
      simp only [Bool.and_eq_true, Bool.or_eq_true, decide_eq_true_eq] at hcond
      obtain ⟨rfl, hexpected⟩ := hcond
      cases hleave
      obtain ⟨t, hwhole⟩ := hexpects.exists_whole hexpected
      cases outer with
      | nil =>
        rw [← Draft.events_whole hwhole]
        exact .whole t
      | cons hole outer =>
        rw [← Draft.events_leave hwhole]
        have hdraft := Progress.draft ⟨hole.fill t, outer⟩ (Begun.expects_fill hole t)
        rwa [Draft.kinds, Begun.container_fill] at hdraft
    · cases hleave

/-- A name after the members of an object. -/
theorem Progress.name (h : Progress g es) (hg : g.admitsName = true) (name : String) :
    Progress ⟨g.enclosing, .colon⟩ (es ++ [.key (.value (.str name))]) := by
  cases h with
  | start => cases hg
  | whole t => cases hg
  | draft D hexpects =>
    obtain ⟨inner, outer⟩ := D
    cases inner with
    | obj members =>
      rw [← Draft.events_name]
      exact .draft ⟨.due members name, outer⟩ (.inl rfl)
    | arr items =>
      rcases hexpects with rfl | ⟨-, rfl⟩
      · cases items <;> cases hg
      · cases hg
    | due members old => rcases hexpects with rfl | rfl <;> cases hg

/-- A comma goes on with the innermost container. -/
theorem Progress.comma (h : Progress g es) (hstep : g.step (.comma : Token) = some next) : Progress next es := by
  cases h with
  | start => cases hstep
  | whole t => cases hstep
  | draft D hexpects =>
    obtain ⟨inner, outer⟩ := D
    cases inner with
    | arr items =>
      rcases hexpects with rfl | ⟨-, rfl⟩
      · cases items with
        | nil => cases hstep
        | cons t items =>
          cases hstep
          exact .draft ⟨.arr (t :: items), outer⟩ (.inr ⟨List.cons_ne_nil _ _, rfl⟩)
      · cases hstep
    | obj members =>
      rcases hexpects with rfl | ⟨-, rfl⟩
      · cases members with
        | nil => cases hstep
        | cons m members =>
          cases hstep
          exact .draft ⟨.obj (m :: members), outer⟩ (.inr ⟨List.cons_ne_nil _ _, rfl⟩)
      · cases hstep
    | due members name => rcases hexpects with rfl | rfl <;> cases hstep

/-- A colon after a name. -/
theorem Progress.colon (h : Progress g es) (hstep : g.step (.colon : Token) = some next) : Progress next es := by
  cases h with
  | start => cases hstep
  | whole t => cases hstep
  | draft D hexpects =>
    obtain ⟨inner, outer⟩ := D
    cases inner with
    | arr items =>
      rcases hexpects with rfl | ⟨-, rfl⟩
      · cases items <;> cases hstep
      · cases hstep
    | obj members =>
      rcases hexpects with rfl | ⟨-, rfl⟩
      · cases members <;> cases hstep
      · cases hstep
    | due members name =>
      rcases hexpects with rfl | rfl
      · cases hstep
        exact .draft ⟨.due members name, outer⟩ (.inr rfl)
      · cases hstep

/-- The event of a scalar is one that a document may have. -/
theorem exists_scalar [Platform] {a : Atom} (ha : Lexer.Usual (.atom a)) (h : atomEvent a = .inl e) :
    ∃ (kind : ScalarKind) (s : Scalar), e = .scalar kind s.payload := by
  cases a with
  | special x => exact absurd rfl (ha x)
  | decimal d =>
    rw [atomEvent] at h
    split at h
    · cases h
      exact ⟨.number, .decimal d, rfl⟩
    · cases h
  | null =>
    cases h
    exact ⟨.null, .null, rfl⟩
  | bool b =>
    cases h
    exact ⟨.boolean, .bool b, rfl⟩
  | int n =>
    rw [atomEvent] at h
    split at h
    · cases h
    · cases h
      exact ⟨.number, .int n, rfl⟩

/-- **One more token** goes on with what its page has begun. -/
theorem Progress.step [Platform] (h : Progress g es) (ht : Lexer.Usual t) (hstep : g.step t = some next) :
    (event? g t = none → Progress next es) ∧ ∀ e, event? g t = some (.inl e) → Progress next (es ++ [e]) := by
  cases t with
  | comma => exact ⟨fun _ => h.comma hstep, fun e he => by cases he⟩
  | colon => exact ⟨fun _ => h.colon hstep, fun e he => by cases he⟩
  | closeObject =>
    refine ⟨fun hnone => (by cases hnone), fun e he => ?_⟩
    cases he
    exact h.leave hstep
  | closeArray =>
    refine ⟨fun hnone => (by cases hnone), fun e he => ?_⟩
    cases he
    exact h.leave hstep
  | openObject =>
    refine ⟨fun hnone => (by cases hnone), fun e he => ?_⟩
    cases he
    simp only [Grammar.step, Grammar.enter, Option.ite_none_right_eq_some, Option.some.injEq] at hstep
    obtain ⟨hg, rfl⟩ := hstep
    exact h.enter hg .object
  | openArray =>
    refine ⟨fun hnone => (by cases hnone), fun e he => ?_⟩
    cases he
    simp only [Grammar.step, Grammar.enter, Option.ite_none_right_eq_some, Option.some.injEq] at hstep
    obtain ⟨hg, rfl⟩ := hstep
    exact h.enter hg .array
  | text content =>
    cases content with
    | none => exact ⟨fun hnone => (by cases hnone), fun e he => (by cases he)⟩
    | some text =>
      cases hname : g.admitsName with
      | true =>
        simp only [Grammar.step, hname, if_true, Option.some.injEq] at hstep
        subst hstep
        simp only [event?, hname, if_true]
        refine ⟨fun hnone => (by cases hnone), fun e he => ?_⟩
        cases he
        exact h.name hname text
      | false =>
        simp only [Grammar.step, hname, Bool.false_eq_true, if_false, Option.ite_none_right_eq_some,
          Option.some.injEq] at hstep
        obtain ⟨hg, rfl⟩ := hstep
        simp only [event?, hname, Bool.false_eq_true, if_false]
        refine ⟨fun hnone => (by cases hnone), fun e he => ?_⟩
        cases he
        exact h.put hg (.leaf (.string, .str text))
  | atom a =>
    simp only [Grammar.step, Option.ite_none_right_eq_some, Option.some.injEq] at hstep
    obtain ⟨hg, rfl⟩ := hstep
    refine ⟨fun hnone => (by cases hnone), fun e he => ?_⟩
    obtain ⟨kind, s, rfl⟩ := exists_scalar ht (Option.some.inj he)
    exact h.put hg (.leaf (kind, s))

/-- What has come so far is how some document begins. -/
theorem Progress.exists_document (h : Progress g es) : ∃ t : Document, es <+: t.events := by
  cases h with
  | start => exact ⟨.arr [], List.nil_prefix⟩
  | draft D _ => exact D.exists_completion
  | whole t => exact ⟨t, List.prefix_refl _⟩

/-- Where a page may end, a whole document has come. -/
theorem Progress.eq_of_complete (h : Progress g es) (hg : g.complete = true) : ∃ t : Document, es = t.events := by
  cases h with
  | start => cases hg
  | draft D _ => simp [Grammar.complete, Draft.kinds] at hg
  | whole t => exact ⟨t, rfl⟩

theorem Progress.eventsFrom [Platform] {done : List Event} (h : Progress g done.reverse) {tokens : List Token}
    (ht : ∀ t ∈ tokens, Lexer.Usual t) (whole : Bool) :
    ∃ t : Document, (eventsFrom g done whole tokens).1 <+: t.events ∧
      ((eventsFrom g done whole tokens).2 = none → (eventsFrom g done whole tokens).1 = t.events) := by
  have hstops {fault : Fault} : ∃ t : Document, done.reverse <+: t.events ∧
      (some fault = none → done.reverse = t.events) := by
    obtain ⟨t, hprefix⟩ := h.exists_document
    exact ⟨t, hprefix, nofun⟩
  induction tokens generalizing g done with
  | nil =>
    rw [Page.eventsFrom]
    cases hends : whole && g.complete with
    | false => exact hstops
    | true =>
      obtain ⟨t, heq⟩ := h.eq_of_complete (Bool.and_eq_true_iff.1 hends).2
      exact ⟨t, heq ▸ List.prefix_refl _, fun _ => heq⟩
  | cons t rest ih =>
    obtain ⟨hfirst, hrest⟩ := List.forall_mem_cons.1 ht
    rw [Page.eventsFrom]
    cases hstep : g.step t with
    | none => exact hstops
    | some next =>
      obtain ⟨hquiet, hevent⟩ := h.step hfirst hstep
      dsimp only
      split
      · next hnone => exact ih (hquiet hnone) hrest hstops
      · next e hsome =>
        have hnext : Progress next (e :: done).reverse := by
          rw [List.reverse_cons]
          exact hevent e hsome
        exact ih hnext hrest fun {_} => (hnext.exists_document).imp fun _ h => ⟨h, nofun⟩
      · exact hstops

/-- **Whatever the bytes of a page, its events are those that a document begins with**, and those of the whole document
when nothing is wrong with the page. -/
theorem exists_beginning [Platform] (bytes : List UInt8) : ∃ t : Document, (events bytes).1 <+: t.events ∧
    ((events bytes).2 = none → Spells bytes t) := by
  have hstart : Progress .start ([] : List Event).reverse := .start
  have husual : ∀ t ∈ (Format.page.tokens (Octets.glyphs bytes)).1, Lexer.Usual t :=
    fun _ => Format.usual_of_mem_tokens
  obtain ⟨t, hprefix, hwhole⟩ := hstart.eventsFrom husual (Format.page.tokens (Octets.glyphs bytes)).2
  exact ⟨t, hprefix, fun hnone => Prod.ext (hwhole hnone) hnone⟩

end Page

end SnapshotStaging
