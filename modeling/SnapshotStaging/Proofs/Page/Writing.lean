import SnapshotStaging.Proofs.Json.Nesting
import SnapshotStaging.Proofs.Page.Drafts

/-!
# What is written inside a record

Inside a record an event is written, or closes the record, or is refused (`step_cases`). What is written is read as
tokens of its own, since a comma or a bracket stands between any two values. The assembly does not check that a name
stands before every value of an object; the grammar of the text does. A value without a name makes the text
unreadable, whatever is written after it: a number or a bracket cannot stand there, and a text is taken for a name,
but no colon ever follows it.

Main results: `step_cases`; `Appends.spelled`, the tokens of the text after one more event; `Stray.appends`, why a
stray value is never made good.
-/

namespace SnapshotStaging

/-! ## Tokens out of place -/

namespace Grammar

/-- The state after a row of tokens, or nothing when one cannot stand where it stands. -/
def run (g : Grammar) (ts : List Token) : Option Grammar := ts.foldlM step g

theorem run_append (g : Grammar) (ts us : List Token) : g.run (ts ++ us) = (g.run ts).bind (·.run us) :=
  List.foldlM_append

end Grammar

theorem Grammar.step_colon (enc : List Container) {t : Token} (h : t ≠ .colon) :
    Grammar.step ⟨enc, .colon⟩ t = none := by
  cases t with
  | colon => exact absurd rfl h
  | closeObject => cases enc <;> simp [step, leave]
  | closeArray => cases enc <;> simp [step, leave]
  | comma => simp [step]
  | _ => simp [step, enter, admitsValue, admitsName]

/-- A reader goes no further than the grammar. -/
theorem Reader.run_stuck (limits : Limits) (range : FloatRange) {s : Reader.State} {ts : List Token}
    (h : s.grammar.run ts = none) : ∃ e, Reader.run limits range s ts = .error e := by
  induction ts generalizing s with
  | nil => cases h
  | cons t ts ih =>
    rw [Reader.run, Reader.step]
    rw [Grammar.run, List.foldlM_cons] at h
    cases hstep : s.grammar.step t with
    | none => exact ⟨_, rfl⟩
    | some g =>
      rw [hstep] at h
      cases htake : s.take limits range t with
      | error e => exact ⟨e, rfl⟩
      | ok s' => exact ih (s := { s' with grammar := g }) h

theorem Json.readWithin_error (limits : Limits) (range : FloatRange) {cs : List Char} {ts : List Token}
    (hreads : Lexer.Reads cs ts) (h : Grammar.start.run ts = none) :
    ∃ e, (Json.readWithin limits range cs : Except ReadError Json) = .error e := by
  obtain ⟨e, he⟩ := Reader.run_stuck limits range (s := Reader.start) h
  refine ⟨e, ?_⟩
  rw [Json.readWithin]
  refine (congrArg (fun p => Json.ofTokens limits range p.1 p.2) hreads.tokens).trans ?_
  rw [Json.ofTokens, he]

theorem Json.readWithin_ne_exhausted {limits : Limits} {range : FloatRange} {cs : List Char} {ts : List Token}
    (hreads : Lexer.Reads cs ts)
    (h : ∀ us, us <+: ts → limits.admits (Reader.calls (Token.nestings us).toNat + 2) = true) :
    (Json.readWithin limits range cs : Except ReadError Json) ≠ .error .exhausted := by
  have hrun : Reader.run limits range Reader.start ts ≠ .error .exhausted :=
    Reader.run_ne_exhausted rfl fun us hus => by
      rw [show (Reader.start.depth : Int) = 0 from rfl, Int.zero_add]
      exact h us hus
  rw [Json.readWithin]
  intro heq
  have hspell := (congrArg (fun p => Json.ofTokens limits range p.1 p.2) hreads.tokens).symm.trans heq
  rw [Json.ofTokens] at hspell
  split at hspell
  · next e he =>
    cases hspell
    exact hrun he
  · split at hspell
    · split at hspell <;> cases hspell
    · cases hspell

/-- A piece that starts with a mark ends by itself, whatever it is written after. -/
theorem Lexer.Reads.append_leads {cs ds : List Char} {ts us : List Token} (h : Reads cs ts)
    (hd : Leads .text .idle ds us .idle) (hs : Separates ds) : Leads .text .idle (cs ++ ds) (ts ++ us) .idle := by
  intro done rest
  rw [glyphs_append, List.append_assoc, h _ _ (delimited_append hs), hd, List.reverse_append, List.append_assoc]

/-! ## Pieces of a record -/

namespace Container

def openMark : Container → Char
  | .object => '\x7b'
  | .array => '['

def closeMark : Container → Char
  | .object => '\x7d'
  | .array => ']'

def openToken : Container → Token
  | .object => .openObject
  | .array => .openArray

def closeToken : Container → Token
  | .object => .closeObject
  | .array => .closeArray

open Lexer

theorem leads_openMark (kind : Container) : Leads .text .idle [kind.openMark] [kind.openToken] .idle := by
  cases kind
  · exact leads_openObject
  · exact leads_openArray

theorem leads_closeMark (kind : Container) : Leads .text .idle [kind.closeMark] [kind.closeToken] .idle := by
  cases kind
  · exact leads_closeObject
  · exact leads_closeArray

theorem separates_closeMark (kind : Container) : Separates [kind.closeMark] := by
  cases kind <;> exact ⟨List.cons_ne_nil _ _, (delimited_cons _ _).2 rfl⟩

end Container

namespace Assembly

open Lexer

/-- The comma before a value, as a token. -/
def leadTokens (c : OpenContainer) (n : Bool) : List Token := if n || c.empty then [] else [.comma]

/-- What an event that goes on with a record writes: characters and the tokens that they are read as, and the
container that is then innermost, the containers around it, and whether a name was written. -/
inductive Appends (c : OpenContainer) (inner : List OpenContainer) :
    Bool → Event → List Char → List Token → OpenContainer → List OpenContainer → Bool → Prop
  | name (name : String) (hkind : c.kind = .object) :
    Appends c inner false (.key (.value (.str name))) (lead c false ++ (Json.writeString name [] ++ [':']))
      (leadTokens c false ++ [.text (some name), .colon]) ⟨.object, false⟩ inner true
  | scalar (n : Bool) (kind : ScalarKind) (s : Scalar) (x : Lexeme) (hreads : Reads s.payload.text [x.token]) :
    Appends c inner n (.scalar kind s.payload) (lead c n ++ s.payload.text) (leadTokens c n ++ [x.token])
      (filled c n) inner false
  | enter (n : Bool) (kind : Container) :
    Appends c inner n kind.opening (lead c n ++ [kind.openMark]) (leadTokens c n ++ [kind.openToken])
      ⟨kind, true⟩ (filled c n :: inner) false
  | leave (outer : OpenContainer) (rest : List OpenContainer) (hinner : inner = outer :: rest) :
    Appends c inner false c.kind.closing [c.kind.closeMark] [c.kind.closeToken] outer rest false

variable {table : String} {k : Nat} {outer : List Container} {c c' : OpenContainer} {inner inner' : List OpenContainer}
  {n n' : Bool} {e : Event} {cs ds : List Char} {ts us : List Token}

theorem Appends.writes [Platform] (h : Appends c inner n e ds us c' inner' n') :
    Writes table k outer (c :: inner) n [e] ds (c' :: inner') n' := by
  cases h with
  | name name hkind =>
    obtain ⟨kind, empty⟩ := c
    obtain rfl : kind = .object := hkind
    exact writes_name empty name
  | scalar n kind s x hreads => exact writes_scalar c (kind, s)
  | enter n kind =>
    cases kind
    · exact writes_openObject c
    · exact writes_openArray c
  | leave _ _ hinner =>
    obtain ⟨kind, empty⟩ := c
    subst hinner
    cases kind
    · exact writes_closeObject empty c'
    · exact writes_closeArray empty c'

theorem Appends.nesting (h : Appends c inner n e ds us c' inner' n') :
    ((c' :: inner').length : Int) = (c :: inner).length + e.nesting := by
  cases h with
  | enter n kind => cases kind <;> simp [Container.opening, Event.nesting]
  | leave _ _ hinner =>
    subst hinner
    cases c.kind <;> simp only [Container.closing, Event.nesting, List.length_cons] <;> omega
  | _ => simp [Event.nesting]

/-- Each first part of what an event writes is as deep as the text before or after the event. -/
theorem Appends.nestings (h : Appends c inner n e ds us c' inner' n') {vs : List Token} (hvs : vs <+: us) :
    Token.nestings vs = 0 ∨ Token.nestings vs = e.nesting := by
  have hlead {t : Token} (hvs : vs <+: leadTokens c n ++ [t]) :
      Token.nestings vs = 0 ∨ Token.nestings vs = t.nesting := by
    rw [leadTokens] at hvs
    split at hvs
    · simp only [List.nil_append, List.prefix_cons_iff, List.prefix_nil] at hvs
      obtain rfl | ⟨_, rfl, rfl⟩ := hvs <;> simp
    · simp only [List.cons_append, List.nil_append, List.prefix_cons_iff, List.prefix_nil] at hvs
      obtain rfl | ⟨_, rfl, rfl | ⟨_, rfl, rfl⟩⟩ := hvs <;> simp [Token.nesting]
  cases h with
  | name name hkind =>
    left
    rw [leadTokens] at hvs
    split at hvs
    · simp only [List.nil_append, List.prefix_cons_iff, List.prefix_nil] at hvs
      obtain rfl | ⟨_, rfl, rfl | ⟨_, rfl, rfl⟩⟩ := hvs <;> simp [Token.nesting]
    · simp only [List.cons_append, List.nil_append, List.prefix_cons_iff, List.prefix_nil] at hvs
      obtain rfl | ⟨_, rfl, rfl | ⟨_, rfl, rfl | ⟨_, rfl, rfl⟩⟩⟩ := hvs <;> simp [Token.nesting]
  | scalar n kind s x hreads =>
    have hscalar : x.token.nesting = 0 := by cases x <;> rfl
    exact (hlead hvs).imp_right fun h => h.trans hscalar
  | enter n kind => exact (hlead hvs).imp_right fun h => h.trans (by cases kind <;> rfl)
  | leave _ _ hinner =>
    simp only [List.prefix_cons_iff, List.prefix_nil] at hvs
    obtain rfl | ⟨_, rfl, rfl⟩ := hvs
    · exact .inl rfl
    · exact .inr (by cases c.kind <;> rfl)

theorem Appends.nestings_eq (h : Appends c inner n e ds us c' inner' n') : Token.nestings us = e.nesting := by
  have hlead (t : Token) : Token.nestings (leadTokens c n ++ [t]) = t.nesting := by
    rw [leadTokens]
    split <;> simp [Token.nesting]
  cases h with
  | name name hkind =>
    rw [leadTokens]
    split <;> rfl
  | scalar n kind s x hreads => exact (hlead _).trans (by cases x <;> rfl)
  | enter n kind => exact (hlead _).trans (by cases kind <;> rfl)
  | leave _ _ hinner => cases c.kind <;> rfl

/-- **Inside a record** an event goes on with it, or closes it, or is refused and changes nothing. -/
theorem step_cases [Platform] (table : String) (k : Nat) (outer : List Container) (c : OpenContainer)
    (inner : List OpenContainer) (n : Bool) {e : Event} (he : e.Sound) :
    (∃ ds us c' inner' n', Appends c inner n e ds us c' inner' n') ∨
    (inner = [] ∧ n = false ∧ e = c.kind.closing) ∨
    ∀ parts, (inside k outer (c :: inner) n parts).step table e =
      (inside k outer (c :: inner) n parts, .refused (.unexpectedEvent e.name .insideRecord table)) := by
  obtain ⟨kind, empty⟩ := c
  have hclosing (kind' : Container) : kind' = kind ∧ n = false ∨
      ∀ parts, (inside k outer (⟨kind, empty⟩ :: inner) n parts).step table kind'.closing =
        (inside k outer (⟨kind, empty⟩ :: inner) n parts,
          .refused (.unexpectedEvent kind'.closing.name .insideRecord table)) := by
    cases n with
    | true => cases kind' <;> cases kind <;> exact .inr fun _ => rfl
    | false =>
      cases kind' <;> cases kind
      case object.object | array.array => exact .inl ⟨rfl, rfl⟩
      all_goals exact .inr fun _ => rfl
  have hclose (kind' : Container) (heq : kind' = kind ∧ n = false) :
      (∃ ds us c' inner' n', Appends ⟨kind, empty⟩ inner n kind'.closing ds us c' inner' n') ∨
        inner = [] ∧ n = false ∧ kind'.closing = kind.closing := by
    obtain ⟨rfl, rfl⟩ := heq
    cases inner with
    | nil => exact .inr ⟨rfl, rfl, rfl⟩
    | cons around rest => exact .inl ⟨_, _, _, _, _, .leave around rest rfl⟩
  cases e with
  | key name =>
    obtain ⟨name, rfl⟩ := he
    cases n with
    | true => cases kind <;> exact .inr (.inr fun _ => rfl)
    | false =>
      cases kind with
      | object => exact .inl ⟨_, _, _, _, _, .name name rfl⟩
      | array => exact .inr (.inr fun _ => rfl)
  | scalar kind' value =>
    obtain ⟨s, -, rfl⟩ := he
    obtain ⟨x, hreads, -⟩ := exists_lexeme s
    exact .inl ⟨_, _, _, _, _, .scalar n kind' s x hreads⟩
  | openObject => exact .inl ⟨_, _, _, _, _, .enter n .object⟩
  | openArray => exact .inl ⟨_, _, _, _, _, .enter n .array⟩
  | closeObject =>
    rcases hclosing .object with heq | hrefused
    · exact (hclose .object heq).imp_right .inl
    · exact .inr (.inr hrefused)
  | closeArray =>
    rcases hclosing .array with heq | hrefused
    · exact (hclose .array heq).imp_right .inl
    · exact .inr (.inr hrefused)
  | other name => exact .inr (.inr fun _ => rfl)

/-- The end of the outermost container closes the record. -/
theorem step_closing [Platform] (table : String) (k : Nat) (outer : List Container) (c : OpenContainer)
    (parts : List (List Char)) :
    (inside k outer [c] false parts).step table c.kind.closing =
      (inside k outer [] false ([c.kind.closeMark] :: parts)).closeRecord table := by
  obtain ⟨kind, empty⟩ := c
  cases kind <;> rfl

theorem closeRecord_ne_nothing [Platform] (table : String) (a : Assembly) : (a.closeRecord table).2 ≠ .nothing := by
  rw [closeRecord]
  dsimp only
  split
  · split <;> exact Outcome.noConfusion
  all_goals exact Outcome.noConfusion

/-- A record whose text cannot be read is refused: as malformed, unless no call was left to read it. -/
theorem closeRecord_refuses [Platform] (table : String) {a : Assembly} {err : ReadError}
    (h : (Json.load .finite a.text : Except ReadError Json) = .error err) :
    ∃ next e, a.closeRecord table = (next, .refused e) ∧ (err ≠ .exhausted → Malformed e) := by
  rw [closeRecord, h]
  cases err with
  | exhausted => exact ⟨_, _, rfl, fun hne => absurd rfl hne⟩
  | _ => exact ⟨_, _, rfl, fun _ => rfl⟩

/-! ## The tokens of the text -/

/-- The text of an open record and the tokens that it is read as. Where a value may follow at once, the text ends by
itself; elsewhere a comma or a bracket comes next. -/
structure Spelled (c : OpenContainer) (n : Bool) (cs : List Char) (ts : List Token) : Prop where
  reads : Reads cs ts
  free : (n || c.empty) = true → Leads .text .idle cs ts .idle
  held : n = true → c.empty = false

/-- With the comma that is due, the text ends by itself. -/
theorem Spelled.lead (h : Spelled c n cs ts) :
    Leads .text .idle (cs ++ lead c n) (ts ++ leadTokens c n) .idle := by
  rw [Assembly.lead, leadTokens]
  split
  · next hfree => simpa using h.free hfree
  · exact h.reads.append_leads leads_comma ⟨List.cons_ne_nil _ _, (delimited_cons _ _).2 rfl⟩

theorem spelled_start : Spelled ⟨.object, true⟩ false ['\x7b'] [.openObject] :=
  ⟨leads_openObject.reads, fun _ => leads_openObject, nofun⟩

/-- **The text after one more event** is read as the tokens so far and those of the event. -/
theorem Appends.spelled (h : Appends c inner n e ds us c' inner' n') (hs : Spelled c n cs ts) :
    Spelled c' n' (cs ++ ds) (ts ++ us) := by
  cases h with
  | name name hkind =>
    have hname := hs.lead.trans ((leads_writeString name).trans leads_colon)
    simp only [List.append_assoc] at hname
    exact ⟨hname.reads, fun _ => hname, fun _ => rfl⟩
  | scalar n kind s x hreads =>
    have hscalar := hs.lead.append_reads hreads
    simp only [List.append_assoc] at hscalar
    refine ⟨hscalar, fun hfree => ?_, nofun⟩
    cases n with
    | true => simp [filled, hs.held rfl] at hfree
    | false => simp [filled] at hfree
  | enter n kind =>
    have henter := hs.lead.trans kind.leads_openMark
    simp only [List.append_assoc] at henter
    exact ⟨henter.reads, fun _ => henter, nofun⟩
  | leave _ _ hinner =>
    have hleave := hs.reads.append_leads c.kind.leads_closeMark c.kind.separates_closeMark
    exact ⟨hleave.reads, fun _ => hleave, nofun⟩

/-! ## Values without names -/

/-- The text cannot be read, whatever is written next: a token stands where it cannot, or only a colon can follow,
which is written after names only. -/
def Stray (c : OpenContainer) (n : Bool) (ts : List Token) : Prop :=
  Grammar.start.run ts = none ∨
    n = false ∧ c.empty = false ∧ ∃ enc, Grammar.start.run ts = some ⟨enc, .colon⟩

theorem Stray.run_append (h : Stray c n ts) {t : Token} (ht : t ≠ .colon) (rest : List Token) :
    Grammar.start.run (ts ++ t :: rest) = none := by
  rw [Grammar.run_append]
  rcases h with hnone | ⟨-, -, enc, hcolon⟩
  · rw [hnone, Option.bind_none]
  · rw [hcolon, Option.bind_some, Grammar.run, List.foldlM_cons, Grammar.step_colon enc ht]
    rfl

/-- A container that ends does not make it readable. -/
theorem Stray.close (h : Stray c n ts) (kind : Container) : Grammar.start.run (ts ++ [kind.closeToken]) = none :=
  h.run_append (by cases kind <;> exact nofun) []

/-- **Nothing that is written makes it readable**: a comma or a bracket comes next. -/
theorem Stray.appends (h : Stray c n ts) (ha : Appends c inner n e ds us c' inner' n') :
    Grammar.start.run (ts ++ us) = none := by
  rcases h with hnone | ⟨rfl, hempty, hcolon⟩
  · rw [Grammar.run_append, hnone, Option.bind_none]
  · -- The container holds something and no name stands last, so all but its end is written after a comma.
    have hlead (rest : List Token) : Grammar.start.run (ts ++ (leadTokens c false ++ rest)) = none := by
      have hcomma : leadTokens c false = [.comma] := by simp [leadTokens, hempty]
      rw [hcomma, List.singleton_append]
      exact Stray.run_append (c := c) (n := false) (.inr ⟨rfl, hempty, hcolon⟩) (by decide) rest
    cases ha with
    | name name hkind => exact hlead _
    | scalar n kind s x hreads => exact hlead _
    | enter n kind => exact hlead _
    | leave _ _ hinner => exact Stray.close (c := c) (n := false) (.inr ⟨rfl, hempty, hcolon⟩) c.kind

end Assembly

end SnapshotStaging
