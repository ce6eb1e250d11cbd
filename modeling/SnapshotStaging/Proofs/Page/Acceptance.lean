import SnapshotStaging.Proofs.Page.Writing

/-!
# Which events make a record

From the start of an object between records, whatever events follow, either they go on with a draft, and the tokens
written so far lead the grammar to where the draft stands, or a value has come where a name was due, and then the
text is never readable again. So a record that is handed over was a draft to its last event. A record that ends
is a document, of which it is known what is due for it.

Main result: `accepts_exactly_objects`.
-/

namespace SnapshotStaging

open Lexer

/-! ## The grammar of a draft -/

namespace Grammar

variable {g : Grammar}

theorem admitsName_of_admitsValue (h : g.admitsValue = true) : g.admitsName = false := by
  obtain ⟨enc, expected⟩ := g
  cases expected <;> first | rfl | cases h

theorem step_lexeme (h : g.admitsValue = true) (x : Lexeme) : g.step x.token = some ⟨g.enclosing, .separator⟩ := by
  cases x with
  | text s => simp [Lexeme.token, step, h, admitsName_of_admitsValue h]
  | atom a => simp [Lexeme.token, step, h]

/-- What comes first in a container. -/
def firstExpected : Container → Expected
  | .object => .firstName
  | .array => .firstItem

theorem step_openToken (h : g.admitsValue = true) (kind : Container) :
    g.step kind.openToken = some ⟨kind :: g.enclosing, firstExpected kind⟩ := by
  cases kind <;> simp [Container.openToken, step, enter, h, firstExpected]

/-- Where a name is due, a value cannot stand, or a text is taken for the name. -/
theorem step_lexeme_name (h : g.admitsName = true) (x : Lexeme) :
    g.step x.token = none ∨ g.step x.token = some ⟨g.enclosing, .colon⟩ := by
  obtain ⟨enc, expected⟩ := g
  cases x with
  | text s => exact .inr (by simp [Lexeme.token, step, h])
  | atom a => cases expected <;> first | exact .inl rfl | cases h

theorem step_openToken_name (h : g.admitsName = true) (kind : Container) : g.step kind.openToken = none := by
  obtain ⟨enc, expected⟩ := g
  cases kind <;> cases expected <;> first | rfl | cases h

theorem run_concat (g : Grammar) (ts : List Token) (t : Token) : g.run (ts ++ [t]) = (g.run ts).bind (·.step t) := by
  rw [run_append]
  congr 1
  funext m
  simp [run]

end Grammar

namespace Begun

open Assembly

variable {b : Begun} {h : Hole}

/-- What may come next in a container. -/
def expected : Begun → Expected
  | .arr items => Reader.itemExpected items.isEmpty
  | .obj members => Reader.nameExpected members.isEmpty
  | .due _ _ => .value

@[simp]
theorem expected_fill (h : Hole) (t : Document) : (h.fill t).expected = .separator := by
  cases h <;> simp [Hole.fill, expected, Reader.itemExpected, Reader.nameExpected]

@[simp]
theorem expected_fresh (kind : Container) : (fresh kind).expected = Grammar.firstExpected kind := by
  cases kind <;> rfl

/-- With the comma that is due, a value may come at a hole. -/
theorem run_lead (hole : b.hole? = some h) (enc : List Container) : ∃ g : Grammar,
    Grammar.run ⟨b.container.kind :: enc, b.expected⟩ (leadTokens b.container b.named) = some g ∧
      g.enclosing = h.kind :: enc ∧ g.admitsValue = true := by
  cases b with
  | arr items =>
    cases hole
    cases items <;> exact ⟨_, rfl, rfl, rfl⟩
  | obj members => cases hole
  | due members name =>
    cases hole
    exact ⟨_, rfl, rfl, rfl⟩

/-- Elsewhere a name may. -/
theorem run_lead_name (hole : b.hole? = none) (enc : List Container) : ∃ g : Grammar,
    Grammar.run ⟨b.container.kind :: enc, b.expected⟩ (leadTokens b.container b.named) = some g ∧
      g.enclosing = b.container.kind :: enc ∧ g.admitsName = true := by
  cases b with
  | obj members => cases members <;> exact ⟨_, rfl, rfl, rfl⟩
  | _ => cases hole

theorem step_closeToken (hb : b.named = false) (enc : List Container) :
    Grammar.step ⟨b.container.kind :: enc, b.expected⟩ b.container.kind.closeToken = some ⟨enc, .separator⟩ := by
  cases b with
  | arr items => cases items <;> rfl
  | obj members => cases members <;> rfl
  | due members name => cases hb

end Begun

namespace Draft

open Assembly

variable {D : Draft} {c' : OpenContainer} {inner' : List OpenContainer} {n' : Bool} {e : Event} {ds : List Char}
  {ts us : List Token}

/-- Where the grammar stands. -/
def grammar (D : Draft) : Grammar := ⟨D.inner.container.kind :: D.around.map OpenContainer.kind, D.inner.expected⟩

/-- At a hole a value may come. -/
theorem run_value {h : Hole} {t : Token} {next : Grammar} (hts : Grammar.start.run ts = some D.grammar)
    (hole : D.inner.hole? = some h)
    (hstep : ∀ g : Grammar, g.enclosing = h.kind :: D.around.map OpenContainer.kind → g.admitsValue = true →
      g.step t = some next) :
    Grammar.start.run (ts ++ (leadTokens D.inner.container D.inner.named ++ [t])) = some next := by
  obtain ⟨g, hlead, henclosing, hvalue⟩ := Begun.run_lead hole (D.around.map OpenContainer.kind)
  rw [Grammar.run_append, hts, Option.bind_some, Grammar.run_concat, grammar, hlead, Option.bind_some,
    hstep g henclosing hvalue]

/-- Elsewhere a name is due. -/
theorem run_stray (t : Token) (hts : Grammar.start.run ts = some D.grammar) (hole : D.inner.hole? = none) :
    ∃ g : Grammar, g.admitsName = true ∧
      Grammar.start.run (ts ++ (leadTokens D.inner.container D.inner.named ++ [t])) = g.step t := by
  obtain ⟨g, hlead, -, hname⟩ := Begun.run_lead_name hole (D.around.map OpenContainer.kind)
  refine ⟨g, hname, ?_⟩
  rw [Grammar.run_append, hts, Option.bind_some, Grammar.run_concat, grammar, hlead, Option.bind_some]

/-- **One more event** goes on with the draft, or is a value where a name was due. -/
theorem appends_cases (hts : Grammar.start.run ts = some D.grammar)
    (h : Appends D.inner.container D.around D.inner.named e ds us c' inner' n') :
    (∃ D' : Draft, D'.events = D.events ++ [e] ∧ Grammar.start.run (ts ++ us) = some D'.grammar ∧
      D'.inner.container = c' ∧ D'.around = inner' ∧ D'.inner.named = n') ∨
    Stray c' n' (ts ++ us) := by
  -- A scalar and a bracket may come anywhere, so what they make depends on whether a value is due.
  generalize hn : D.inner.named = n at h
  cases h with
  | name name hkind =>
    obtain ⟨inner, outer⟩ := D
    cases inner with
    | arr items => cases hkind
    | due members old => cases hn
    | obj members =>
      refine .inl ⟨⟨.due members name, outer⟩, events_name members name outer, ?_, rfl, rfl, rfl⟩
      rw [Grammar.run_append, hts, Option.bind_some]
      cases members <;> rfl
  | scalar n kind s x hreads =>
    subst hn
    cases hole : D.inner.hole? with
    | some h =>
      refine .inl ⟨⟨h.fill (.leaf (kind, s)), D.outer⟩, events_put hole _, ?_, ?_, rfl, Begun.named_fill h _⟩
      · refine run_value hts hole fun g henclosing hvalue => ?_
        rw [Grammar.step_lexeme hvalue, henclosing, grammar, Begun.container_fill, Begun.expected_fill]
        rfl
      · rw [Begun.container_fill, Begun.filled_of_hole? hole]
    | none =>
      obtain ⟨g, hname, hrun⟩ := run_stray x.token hts hole
      refine .inr ((Grammar.step_lexeme_name hname x).imp hrun.trans fun hcolon => ⟨rfl, ?_, _, hrun.trans hcolon⟩)
      rw [(Begun.of_hole?_eq_none hole).2]
      rfl
  | enter n kind =>
    subst hn
    cases hole : D.inner.hole? with
    | some h =>
      refine .inl ⟨⟨.fresh kind, h :: D.outer⟩, events_enter hole kind, ?_, Begun.container_fresh kind, ?_,
        Begun.named_fresh kind⟩
      · refine run_value hts hole fun g henclosing hvalue => ?_
        rw [Grammar.step_openToken hvalue, henclosing, grammar, Begun.container_fresh, Begun.expected_fresh]
        rfl
      · rw [Begun.filled_of_hole? hole]
        rfl
    | none =>
      obtain ⟨g, hname, hrun⟩ := run_stray kind.openToken hts hole
      exact .inr (.inl (hrun.trans (Grammar.step_openToken_name hname kind)))
  | leave _ _ hinner =>
    obtain ⟨inner, outer⟩ := D
    obtain ⟨t, whole⟩ := Begun.exists_whole? hn
    cases outer with
    | nil => cases hinner
    | cons h rest =>
      cases hinner
      refine .inl ⟨⟨h.fill t, rest⟩, events_leave whole, ?_, Begun.container_fill h t, rfl, Begun.named_fill h t⟩
      rw [Grammar.run_concat, hts, Option.bind_some, grammar, Begun.step_closeToken hn, grammar,
        Begun.container_fill, Begun.expected_fill]
      rfl

end Draft

/-! ## The first outcome -/

namespace Assembly

open Document Marks

variable [Platform] {table : String} {a : Assembly} {p k : Nat} {outer : List Container} {c : OpenContainer}
  {inner : List OpenContainer} {n : Bool} {parts : List (List Char)} {es : List Event} {ts : List Token}

/-- The first event that brings something about, by how many events have been read then, and what it brings about. -/
def firstOutcome (table : String) (a : Assembly) (es : List Event) : Option (Nat × Outcome) :=
  (trace table a 0 es).head?

theorem ne_nothing_of_mem_trace {m : Nat × Outcome} (h : m ∈ trace table a p es) : m.2 ≠ .nothing := by
  induction es generalizing a p with
  | nil => cases h
  | cons e rest ih =>
    rw [trace] at h
    rcases hs : a.step table e with ⟨a', _ | v | err⟩
    · rw [hs] at h
      exact ih h
    · rw [hs] at h
      rcases List.mem_cons.1 h with rfl | h
      · exact Outcome.noConfusion
      · exact ih h
    · rw [hs] at h
      rw [List.mem_singleton.1 h]
      exact Outcome.noConfusion

/-- What comes first is not changed by what comes later. -/
theorem head?_trace_append (h : trace table a p es ≠ []) (fs : List Event) :
    (trace table a p (es ++ fs)).head? = (trace table a p es).head? := by
  rw [trace_append]
  split
  · rfl
  · rw [List.head?_append, Option.or_of_isSome (by simpa using h)]

theorem trace_refused {a' : Assembly} {e : Event} {err : Error} (h : a.step table e = (a', .refused err)) :
    trace table a p (e :: es) = [(p + 1, .refused err)] := by
  rw [trace, h]

theorem trace_ne_nil {e : Event} (h : (a.step table e).2 ≠ .nothing) : trace table a p (e :: es) ≠ [] := by
  rw [trace]
  rcases hs : a.step table e with ⟨a', _ | v | err⟩
  · rw [hs] at h
    exact absurd rfl h
  · exact List.cons_ne_nil _ _
  · exact List.cons_ne_nil _ _

/-- After an event that goes on with a record, its text is longer by what is written, unless the event carries an
integer that cannot be turned into text. -/
theorem trace_writes (parts : List (List Char)) (p : Nat) (es : List Event) {e : Event} {ds : List Char}
    {inner' : List OpenContainer} {n' : Bool} (h : Writes table k outer inner n [e] ds inner' n') :
    (e.overlong Platform.limits = true ∧
      trace table (inside k outer inner n parts) p (e :: es) = [(p + 1, .refused .overlongInteger)]) ∨
    ∃ parts', parts'.reverse.flatten = parts.reverse.flatten ++ ds ∧
      trace table (inside k outer inner n parts) p (e :: es) =
        trace table (inside k outer inner' n' parts') (p + 1) es := by
  cases hover : e.overlong Platform.limits with
  | true =>
    have hfirst : [e].findIdx? (·.overlong Platform.limits) = some 0 := by simp [List.findIdx?_cons, hover]
    have hcut := h.cut hfirst p parts (inside k outer inner n parts)
    refine .inl ⟨rfl, ?_⟩
    rw [← List.singleton_append, trace_append, hcut.trace_eq]
    rfl
  | false =>
    obtain ⟨ps, rfl, hfeeds⟩ := h.whole (by simp [List.findIdx?_cons, hover]) p parts
    refine .inr ⟨ps ++ parts, by simp, ?_⟩
    rw [← List.singleton_append, trace_append, hfeeds.trace_eq, hfeeds.after_eq rfl]
    rfl

/-! ## Limits -/

/-- With `depth` containers open, the tokens of the text so far and the events to come keep to the limits of the
platform. -/
structure Keeps (depth : Nat) (ts : List Token) (es : List Event) : Prop where
  depth_eq : Token.nestings ts = depth
  read : ∀ us, us <+: ts → Platform.limits.admits (Reader.calls (Token.nestings us).toNat + 2) = true
  digits : ∀ e ∈ es, e.overlong Platform.limits = false
  shallow : ∀ m, Platform.limits.admits (Reader.calls (depth + Event.nestings (es.take m)).toNat + 2) = true

/-- One event more has been written. -/
theorem Keeps.appends {e : Event} {ds : List Char} {us : List Token} {c' : OpenContainer}
    {inner' : List OpenContainer} {n' : Bool} (h : Keeps (c :: inner).length ts (e :: es))
    (happends : Appends c inner n e ds us c' inner' n') : Keeps (c' :: inner').length (ts ++ us) es := by
  have hnext := happends.nesting
  have hlength := happends.nestings_eq
  have hdepth := h.depth_eq
  refine ⟨by rw [Token.nestings_append]; omega, fun vs hvs => ?_, (List.forall_mem_cons.1 h.digits).2, fun m => ?_⟩
  · rcases List.prefix_or_prefix_of_prefix hvs (List.prefix_append ts us) with hvs | ⟨ws, rfl⟩
    · exact h.read vs hvs
    · have hws := (List.prefix_append_right_inj ts).1 hvs
      have hhere := h.shallow 0
      have hthere := h.shallow 1
      simp only [List.take_zero, List.take_succ_cons, Event.nestings, Int.add_zero] at hhere hthere
      rw [Token.nestings_append, hdepth]
      rcases happends.nestings hws with hnone | hsome
      · rw [hnone, Int.add_zero]
        exact hhere
      · rw [hsome]
        exact hthere
  · have hlater := h.shallow (m + 1)
    rw [List.take_succ_cons, Event.nestings, ← Int.add_assoc, ← hnext] at hlater
    exact hlater

/-- With the bracket that closes the record, the text can be read or is malformed. -/
theorem Keeps.load_ne_exhausted {cs : List Char} {kind : Container} (h : Keeps [c].length ts es)
    (hreads : Reads cs (ts ++ [kind.closeToken])) :
    (Json.load .finite cs : Except ReadError Json) ≠ .error .exhausted := by
  refine Json.readWithin_ne_exhausted hreads fun us hus => ?_
  rcases List.prefix_concat_iff.1 hus with rfl | hus
  · have hclose : kind.closeToken.nesting = -1 := by cases kind <;> rfl
    rw [Token.nestings_append, h.depth_eq, Token.nestings_cons, hclose, Token.nestings_nil]
    exact Limits.admits_mono Platform.flat (show Reader.calls 0 + 2 ≤ 20 by decide)
  · exact h.read us hus

/-- **A stray value is found out**: if anything comes of the record, it is refused, and within the limits as
malformed. -/
theorem trace_stray (hes : ∀ e ∈ es, e.Sound) (hs : Spelled c n parts.reverse.flatten ts) (hstray : Stray c n ts)
    {q : Nat} {o : Outcome} (h : (trace table (inside k outer (c :: inner) n parts) p es).head? = some (q, o)) :
    ∃ e, o = .refused e ∧ (Keeps (c :: inner).length ts es → Malformed e) := by
  induction es generalizing c inner n parts ts p with
  | nil => cases h
  | cons e es ih =>
    have hrest : ∀ e ∈ es, e.Sound := fun e he => hes e (List.mem_cons_of_mem _ he)
    rcases step_cases table k outer c inner n (hes e (List.mem_cons_self ..)) with
      ⟨ds, us, c', inner', n', happends⟩ | ⟨rfl, rfl, rfl⟩ | hrefused
    · rcases trace_writes parts p es happends.writes with ⟨hover, htrace⟩ | ⟨parts', hparts, htrace⟩
      · rw [htrace] at h
        cases h
        refine ⟨_, rfl, fun hkeeps => ?_⟩
        cases hover.symm.trans (hkeeps.digits e (List.mem_cons_self ..))
      · rw [htrace] at h
        obtain ⟨err, ho, hmalformed⟩ := ih hrest (hparts ▸ happends.spelled hs) (.inl (hstray.appends happends)) h
        exact ⟨err, ho, fun hkeeps => hmalformed (hkeeps.appends happends)⟩
    · have htext : (inside k outer [] false ([c.kind.closeMark] :: parts)).text =
          parts.reverse.flatten ++ [c.kind.closeMark] := by
        simp [inside, text]
      have hreads := (hs.reads.append_leads c.kind.leads_closeMark c.kind.separates_closeMark).reads
      obtain ⟨err, herr⟩ := Json.readWithin_error Platform.limits .finite hreads (hstray.close c.kind)
      obtain ⟨next, e, hclose, hmalformed⟩ := closeRecord_refuses table (htext ▸ herr)
      rw [trace_refused ((step_closing table k outer c parts).trans hclose)] at h
      cases h
      refine ⟨e, rfl, fun hkeeps => hmalformed ?_⟩
      rintro rfl
      exact hkeeps.load_ne_exhausted hreads herr
    · rw [trace_refused (hrefused parts)] at h
      cases h
      exact ⟨_, rfl, fun _ => rfl⟩

/-- **What comes of a draft**: it is refused, within the limits as malformed, or events that make it a whole document
follow. -/
theorem trace_draft {D : Draft} (hes : ∀ e ∈ es, e.Sound)
    (hs : Spelled D.inner.container D.inner.named parts.reverse.flatten ts)
    (hts : Grammar.start.run ts = some D.grammar) {q : Nat} {o : Outcome}
    (h : (trace table (inside k outer (D.inner.container :: D.around) D.inner.named parts) p es).head? = some (q, o)) :
    (∃ e, o = .refused e ∧ (Keeps (D.inner.container :: D.around).length ts es → Malformed e)) ∨
      ∃ (t : Document) (made rest : List Event), es = made ++ rest ∧ t.events = D.events ++ made := by
  induction es generalizing D parts ts p with
  | nil => cases h
  | cons e es ih =>
    have hrest : ∀ e ∈ es, e.Sound := fun e he => hes e (List.mem_cons_of_mem _ he)
    rcases step_cases table k outer D.inner.container D.around D.inner.named (hes e (List.mem_cons_self ..)) with
      ⟨ds, us, c', inner', n', happends⟩ | ⟨haround, hnamed, rfl⟩ | hrefused
    · rcases trace_writes parts p es happends.writes with ⟨hover, htrace⟩ | ⟨parts', hparts, htrace⟩
      · rw [htrace] at h
        cases h
        refine .inl ⟨_, rfl, fun hkeeps => ?_⟩
        cases hover.symm.trans (hkeeps.digits e (List.mem_cons_self ..))
      rw [htrace] at h
      -- The text is spelled by its tokens either way; whether the grammar follows them tells a draft from a stray.
      have hs' := hparts ▸ happends.spelled hs
      have hkept (hkeeps : Keeps (D.inner.container :: D.around).length ts (e :: es)) := hkeeps.appends happends
      rcases D.appends_cases hts happends with ⟨D', hevents, hts', rfl, rfl, rfl⟩ | hstray
      · refine (ih hrest hs' hts' h).imp ?_ fun ⟨t, made, rest, hsplit, ht⟩ => ?_
        · rintro ⟨err, ho, hmalformed⟩
          exact ⟨err, ho, fun hkeeps => hmalformed (hkept hkeeps)⟩
        · exact ⟨t, e :: made, rest, by rw [hsplit, List.cons_append], by rw [ht, hevents, List.append_assoc]; rfl⟩
      · obtain ⟨err, ho, hmalformed⟩ := trace_stray hrest hs' hstray h
        exact .inl ⟨err, ho, fun hkeeps => hmalformed (hkept hkeeps)⟩
    · obtain ⟨inner, outer⟩ := D
      obtain ⟨t, whole⟩ := Begun.exists_whole? hnamed
      obtain rfl : outer = [] := List.map_eq_nil_iff.1 haround
      exact .inr ⟨t, [_], es, rfl, Draft.events_whole whole⟩
    · rw [trace_refused (hrefused parts)] at h
      cases h
      exact .inl ⟨_, rfl, fun _ => rfl⟩

/-! ## Records -/

/-- The start of an object between records starts a record. -/
theorem trace_openObject (hplace : a.place = .betweenRecords) (hskipped : a.skipped = 0) :
    trace table a p (.openObject :: es) =
      trace table (inside a.built a.outer [⟨.object, true⟩] false [['\x7b']]) (p + 1) es := by
  obtain ⟨place, built, outer, inner, afterName, parts, skipped⟩ := a
  cases hplace
  cases hskipped
  rfl

/-- The events of an object bring about what is due for it. -/
theorem firstOutcome_object (hplace : a.place = .betweenRecords) (hskipped : a.skipped = 0)
    (members : List (String × Document)) (rest : List Event) :
    firstOutcome table a (events (.obj members) ++ rest) = some (ending table (.obj members)) := by
  have hsame : trace table a 0 (events (.obj members)) =
      trace table (between a.built a.outer 0) 0 (events (.obj members)) := by
    rw [events_obj, List.singleton_append, trace_openObject hplace hskipped, trace_openObject rfl rfl]
    rfl
  have htrace : trace table a 0 (events (.obj members)) = [ending table (.obj members)] := by
    rw [hsame, (@feeds_record _ table a.built a.outer (.obj members) rfl 0).trace_eq, Nat.zero_add, upToRefusal]
    split <;> rfl
  rw [firstOutcome, head?_trace_append (by rw [htrace]; exact List.cons_ne_nil _ _), htrace]
  rfl

/-- While nothing comes of a record, its outermost bracket is open. -/
theorem nesting_pos (hes : ∀ e ∈ es, e.Sound) (h : trace table (inside k outer (c :: inner) n parts) p es = []) :
    0 < ((c :: inner).length : Int) + Event.nestings es := by
  induction es generalizing c inner n parts p with
  | nil =>
    rw [Event.nestings, List.length_cons]
    omega
  | cons e es ih =>
    have hrest : ∀ e ∈ es, e.Sound := fun e he => hes e (List.mem_cons_of_mem _ he)
    rcases step_cases table k outer c inner n (hes e (List.mem_cons_self ..)) with
      ⟨ds, us, c', inner', n', happends⟩ | ⟨rfl, rfl, rfl⟩ | hrefused
    · rcases trace_writes parts p es happends.writes with ⟨-, htrace⟩ | ⟨parts', -, htrace⟩
      · rw [htrace] at h
        cases h
      · rw [htrace] at h
        have hpos := ih hrest h
        rw [happends.nesting] at hpos
        rw [Event.nestings]
        omega
    · refine absurd h (trace_ne_nil ?_)
      rw [step_closing]
      exact closeRecord_ne_nothing table _
    · rw [trace_refused (hrefused parts)] at h
      cases h

/-- Whatever comes of a record first, it is refused, within the limits as malformed, or the events of an object came
first. -/
theorem firstOutcome_cases (hplace : a.place = .betweenRecords) (hskipped : a.skipped = 0)
    (hes : ∀ e ∈ es, e.Sound) {q : Nat} {o : Outcome}
    (h : firstOutcome table a (.openObject :: es) = some (q, o)) :
    (∃ e, o = .refused e ∧ (Event.Within (.openObject :: es) → Malformed e)) ∨
      ∃ members : List (String × Document), events (.obj members) <+: .openObject :: es := by
  have hstart : Spelled Draft.start.inner.container Draft.start.inner.named
      ([['\x7b']] : List (List Char)).reverse.flatten [.openObject] := spelled_start
  rw [firstOutcome, trace_openObject hplace hskipped] at h
  refine (trace_draft hes hstart rfl h).imp ?_ ?_
  · rintro ⟨e, ho, hmalformed⟩
    refine ⟨e, ho, fun hwithin =>
      hmalformed ⟨rfl, fun us hus => ?_, (List.forall_mem_cons.1 hwithin.digits).2, fun m => ?_⟩⟩
    · refine Limits.admits_mono Platform.flat ?_
      simp only [List.prefix_cons_iff, List.prefix_nil] at hus
      obtain rfl | ⟨_, rfl, rfl⟩ := hus <;> decide
    · exact hwithin.shallow (m + 1)
  · rintro ⟨t, made, rest, rfl, ht⟩
    cases t with
    | leaf b => cases ht
    | arr items =>
      rw [events_arr] at ht
      cases ht
    | obj members => exact ⟨members, rest, by rw [ht]; rfl⟩

/-- Something has come of a record once its outermost bracket is closed. -/
theorem firstOutcome_closed (table : String) (hplace : a.place = .betweenRecords) (hskipped : a.skipped = 0)
    (hes : ∀ e ∈ es, e.Sound) {n : Nat} (hn : 0 < n)
    (hnesting : Event.nestings ((.openObject :: es).take n) = 0) :
    ∃ q o, firstOutcome table a (.openObject :: es) = some (q, o) ∧ q ≤ n ∧ o ≠ .nothing := by
  obtain ⟨m, rfl⟩ : ∃ m, n = m + 1 := ⟨n - 1, by omega⟩
  have hsome : trace table a 0 ((.openObject :: es).take (m + 1)) ≠ [] := by
    intro hnone
    rw [List.take_succ_cons, trace_openObject hplace hskipped] at hnone
    have hpos := nesting_pos (fun e he => hes e (List.mem_of_mem_take he)) hnone
    rw [List.take_succ_cons, Event.nestings] at hnesting
    simp only [List.length_singleton, Event.nesting] at hpos hnesting
    omega
  obtain ⟨⟨q, o⟩, marks, hmarks⟩ := List.exists_cons_of_ne_nil hsome
  have hmem : (q, o) ∈ trace table a 0 ((.openObject :: es).take (m + 1)) := by
    rw [hmarks]
    exact List.mem_cons_self ..
  refine ⟨q, o, ?_, ?_, ne_nothing_of_mem_trace hmem⟩
  · rw [firstOutcome, ← List.take_append_drop (m + 1) (.openObject :: es), head?_trace_append hsome, hmarks]
    rfl
  · rw [trace_take] at hmem
    simpa using (List.mem_filter.1 hmem).2

/-- **The events of an object make a record, and no others do.** From the start of an object between records:

* a record is handed over first, at some event, if and only if the events up to that one are the events of an object
  that can be read and put into order, and the record is what it stands for, in canonical order;
* every object whose events come first and that keeps to the limits of the platform is such an object;
* if the first that comes is a refusal and an object's events came first, that object is refused there, and does not
  keep to the limits; if no object's events came first and the events keep to the limits, the refusal is reported as a
  malformed record;
* a record or a refusal comes at the latest with the event that closes the outermost bracket. -/
theorem accepts_exactly_objects (table : String) {a : Assembly} (hplace : a.place = .betweenRecords)
    (hskipped : a.skipped = 0) {fed : List Event} (hstart : fed.head? = some .openObject)
    (hsound : ∀ e ∈ fed, e.Sound) :
    (∀ n v, firstOutcome table a fed = some (n, .record v) ↔
      ∃ members : List (String × Document), events (.obj members) <+: fed ∧ n = size (.obj members) ∧
        Stands (.obj members) v) ∧
    (∀ members : List (String × Document), events (.obj members) <+: fed → Within (.obj members) →
      Stands (.obj members) (meaning (.obj members)).canonical) ∧
    (∀ n e, firstOutcome table a fed = some (n, .refused e) →
      (∀ members : List (String × Document), events (.obj members) <+: fed →
        Refused table (.obj members) n e ∧ ¬ Within (.obj members)) ∧
      (Event.Within fed → (∀ members : List (String × Document), ¬ events (.obj members) <+: fed) → Malformed e)) ∧
    ∀ n, 0 < n → Event.nestings (fed.take n) = 0 →
      ∃ m ≤ n, (∃ v, firstOutcome table a fed = some (m, .record v)) ∨
        ∃ e, firstOutcome table a fed = some (m, .refused e) := by
  obtain ⟨es, rfl⟩ := List.head?_eq_some_iff.1 hstart
  have hes : ∀ e ∈ es, e.Sound := fun e he => hsound e (List.mem_cons_of_mem _ he)
  have hstands (members : List (String × Document)) (hfirst : events (.obj members) <+: .openObject :: es)
      (hwithin : Within (.obj members)) : Stands (.obj members) (meaning (.obj members)).canonical :=
    hwithin.stands fun e he => hsound e (hfirst.subset he)
  have hending (members : List (String × Document)) (hfirst : events (.obj members) <+: .openObject :: es) :
      firstOutcome table a (.openObject :: es) = some (ending table (.obj members)) := by
    obtain ⟨rest, hrest⟩ := hfirst
    rw [← hrest, firstOutcome_object hplace hskipped]
  refine ⟨fun n v => ⟨fun h => ?_, ?_⟩, hstands, fun n e h => ⟨fun members hfirst => ?_, fun hwithin hnone => ?_⟩,
    fun n hn hnesting => ?_⟩
  · rcases firstOutcome_cases hplace hskipped hes h with ⟨e, he, -⟩ | ⟨members, hfirst⟩
    · cases he
    · have hrecord := Option.some.inj ((hending members hfirst).symm.trans h)
      obtain ⟨hn, hv⟩ := ending_eq_record_iff.1 hrecord
      exact ⟨members, hfirst, hn, hv⟩
  · rintro ⟨members, hfirst, rfl, hv⟩
    exact (hending members hfirst).trans (congrArg some (ending_eq_record_iff.2 ⟨rfl, hv⟩))
  · have hrefused := Option.some.inj ((hending members hfirst).symm.trans h)
    refine ⟨ending_eq_refused_iff.1 hrefused, fun hwithin => ?_⟩
    have hrecord := (@ending_eq_record_iff _ table _ _ _).2 ⟨rfl, hstands members hfirst hwithin⟩
    cases hrecord.symm.trans hrefused
  · rcases firstOutcome_cases hplace hskipped hes h with ⟨e, he, hmalformed⟩ | ⟨members, hfirst⟩
    · cases he
      exact hmalformed hwithin
    · exact absurd hfirst (hnone members)
  · obtain ⟨q, o, hfirst, hq, ho⟩ := firstOutcome_closed table hplace hskipped hes hn hnesting
    refine ⟨q, hq, ?_⟩
    cases o with
    | nothing => exact absurd rfl ho
    | record v => exact .inl ⟨v, hfirst⟩
    | refused e => exact .inr ⟨e, hfirst⟩

end Assembly

/-! ## Cases -/

namespace Assembly

open Document

/-- A repeated name, and an event after the last one of the object. -/
theorem accepts_exactly_repeated :
    firstOutcome "t" (between 0 [.array] 0)
        [.openObject, .key (.value (.str "a")), .openArray, .closeArray, .key (.value (.str "a")),
          .scalar .null (.value .null), .closeObject, .closeArray] =
      some (7, .record (.obj [("a", .null)])) := by
  have hcanonical : Json.obj [("a", .null)] = (Json.obj [("a", .null)]).canonical := by
    simp [Json.canonical, Json.canonicalMembers, Json.sortMembers]
  rw [hcanonical]
  refine ((accepts_exactly_objects "t" rfl rfl rfl ?_).1 7 _).2
    ⟨[("a", .arr []), ("a", .leaf (.null, .null))], ⟨[.closeArray], rfl⟩, rfl, rfl, rfl⟩
  simp only [List.forall_mem_cons, List.not_mem_nil, false_imp_iff, implies_true, and_true]
  have hnull : ¬ Scalar.null.Overflows := by
    rintro ⟨d, h, -⟩
    cases h
  exact ⟨trivial, ⟨"a", rfl⟩, trivial, trivial, ⟨"a", rfl⟩, ⟨.null, hnull, rfl⟩, trivial, trivial⟩

/-- The events of an object in which a thousand arrays are nested make no record: no call is left to read its text. -/
theorem accepts_exactly_shallow :
    (∀ e ∈ events (.obj [("n", .nested 1000)]), e.Sound) ∧
      firstOutcome "t" (between 0 [.array] 0) (events (.obj [("n", .nested 1000)])) =
        some (size (.obj [("n", .nested 1000)]), .refused .deepText) ∧
      ¬ Malformed .deepText := by
  have hfirst := @firstOutcome_object _ "t" (between 0 [.array] 0) rfl rfl [("n", .nested 1000)] []
  rw [List.append_nil] at hfirst
  exact ⟨sound_nested 1000, hfirst.trans (congrArg some (ending_deepText "t" rfl)), nofun⟩

end Assembly

end SnapshotStaging
