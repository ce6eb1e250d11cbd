import SnapshotStaging.Page.Assembly
import SnapshotStaging.Proofs.Json.Lexing
import SnapshotStaging.Proofs.Json.Nesting
import SnapshotStaging.Proofs.Json.Order

/-!
# What any bytes can give

Bytes that are no page at all still give records up to the first fault. Whatever the bytes, every record is an
object: its text opens a brace at once, and the reader's outermost frame stays that of the object
(`readWithin_openObject`). It is put into canonical order when it closes. And whatever the bytes, a page fails for a
reason that no run foresees only where a text cannot be decoded, a number cannot be held, or a limit of the platform is
met.

Main result: `Page.records_spec`.
-/

namespace SnapshotStaging

/-! ## A text that opens a brace -/

namespace Reader

/-- The outermost of the open containers is an object. -/
def InObject (frames : List Frame) : Prop := ∃ inner members name, frames = inner ++ [.object members name]

/-- An object encloses all that was read, or it is all that there is. -/
structure Within (s : State) : Prop where
  depth : s.grammar.enclosing.length = s.frames.length
  object : InObject s.frames ∨
    s.frames = [] ∧ s.grammar.expected = .separator ∧ ∃ members, s.result = some (.obj members)

theorem InObject.enter {frames : List Frame} (h : InObject frames) (f : Frame) : InObject (f :: frames) := by
  obtain ⟨inner, members, name, rfl⟩ := h
  exact ⟨f :: inner, members, name, rfl⟩

theorem InObject.place {s : State} (h : InObject s.frames) (v : Json) : InObject (s.place v).frames := by
  obtain ⟨grammar, frames, result⟩ := s
  obtain ⟨inner, members, name, rfl⟩ := h
  cases inner with
  | nil => exact ⟨[], _, _, rfl⟩
  | cons f inner => cases f <;> exact ⟨_ :: inner, _, _, rfl⟩

theorem InObject.named {s : State} (h : InObject s.frames) (name : String) : InObject (s.named name).frames := by
  obtain ⟨grammar, frames, result⟩ := s
  obtain ⟨inner, members, name, rfl⟩ := h
  cases inner with
  | nil => exact ⟨[], _, _, rfl⟩
  | cons f inner => cases f <;> exact ⟨_ :: inner, _, _, rfl⟩

/-- Leaving a container gives it to the next one, unless it is the object itself. -/
theorem InObject.leave {s : State} (h : InObject s.frames) :
    InObject s.leave.frames ∨ s.leave.frames = [] ∧ ∃ members, s.leave.result = some (.obj members) := by
  obtain ⟨grammar, frames, result⟩ := s
  obtain ⟨inner, members, name, rfl⟩ := h
  cases inner with
  | nil => exact .inr ⟨rfl, members, rfl⟩
  | cons f inner =>
    have hinner : InObject (inner ++ [.object members name]) := ⟨inner, members, name, rfl⟩
    cases f with
    | array items => exact .inl (InObject.place (s := ⟨grammar, _, result⟩) hinner (.arr items.reverse))
    | object ms n => exact .inl (InObject.place (s := ⟨grammar, _, result⟩) hinner (.obj ms))

end Reader

namespace Grammar

theorem of_leave {g g' : Grammar} {c : Container} {first : Expected} (h : g.leave c first = some g') :
    g'.expected = .separator := by
  obtain ⟨enclosing, expected⟩ := g
  cases enclosing with
  | nil => cases h
  | cons inner outer =>
    simp only [leave] at h
    split at h <;> cases h
    rfl

/-- Nothing follows a value. -/
theorem step_done (t : Token) : step ⟨[], .separator⟩ t = none := by
  cases t <;> rfl

end Grammar

namespace Reader

variable {limits : Limits} {range : FloatRange} {s s' : State} {t : Token}

theorem Within.step (h : Within s) (hstep : step limits range s t = .ok s') : Within s' := by
  have hlevel : s'.Level := State.Level.step h.depth.symm hstep
  refine ⟨hlevel.symm, ?_⟩
  obtain ⟨g, taken, hg, htake, rfl⟩ := step_eq_ok_iff.1 hstep
  rcases h.object with hobject | ⟨hframes, hexpected, -⟩
  · cases t with
    | openObject | openArray =>
      obtain ⟨-, rfl⟩ := of_elim_ok htake
      exact .inl (hobject.enter _)
    | closeObject | closeArray =>
      cases htake
      exact hobject.leave.imp_right fun hdone => ⟨hdone.1, Grammar.of_leave hg, hdone.2⟩
    | comma | colon =>
      cases htake
      exact .inl hobject
    | text content =>
      cases content with
      | none => cases htake
      | some name =>
        rw [State.take] at htake
        split at htake <;> cases htake
        · exact .inl (hobject.named name)
        · exact .inl (hobject.place _)
    | atom a =>
      obtain ⟨-, rfl⟩ := of_elim_ok htake
      exact .inl (hobject.place _)
  · -- nothing is taken once the object has been left
    have hdone : s.grammar = ⟨[], .separator⟩ := by
      have hnone : s.grammar.enclosing = [] := List.eq_nil_of_length_eq_zero (by rw [h.depth, hframes]; rfl)
      rw [← hnone, ← hexpected]
    rw [hdone, Grammar.step_done] at hg
    cases hg

end Reader

/-- The tokens handed out before stay in front. -/
theorem Lexer.exists_run_eq (f : Format) (s : State) (done : List Token) (input : List Glyph) :
    ∃ tokens whole, run f s done input = (done.reverse ++ tokens, whole) := by
  induction input generalizing s done with
  | nil => exact ⟨(finish s).1, (finish s : List Token × Bool).2, by simp [run]⟩
  | cons g rest ih =>
    rw [run]
    cases step f s g with
    | mk next tokens =>
      cases next with
      | none => exact ⟨tokens, false, by simp⟩
      | some next =>
        obtain ⟨later, whole, hlater⟩ := ih next (tokens.reverse ++ done)
        exact ⟨tokens ++ later, whole, by simpa using hlater⟩

/-- A text that opens a brace at once is read as an object, if it is read at all. -/
theorem Json.readWithin_openObject {limits : Limits} {range : FloatRange} {cs : List Char} {v : Json}
    (h : readWithin limits range ('\x7b' :: cs) = .ok v) : ∃ members, v = .obj members := by
  obtain ⟨tokens, whole, htokens⟩ := Lexer.exists_run_eq .text .idle [.openObject] (Lexer.glyphs cs)
  have hall : Format.text.tokens (('\x7b' :: cs).map Letter.glyph) = (.openObject :: tokens, whole) :=
    (Lexer.leads_openObject (σ := String) [] (Lexer.glyphs cs)).trans htokens
  have hopened : Reader.Within ⟨⟨[.object], .firstName⟩, [.object [] ""], none⟩ := ⟨rfl, .inl ⟨[], _, _, rfl⟩⟩
  rw [readWithin, hall] at h
  obtain ⟨s, hrun, hresult, -, hcomplete⟩ := Reader.ofTokens_eq_ok_iff.1 h
  rw [Reader.run_openObject limits range (s := Reader.start) rfl] at hrun
  have hs : Reader.Within s := by
    cases hfault : Reader.openingFault? limits ((Reader.start : Reader.State).depth + 1) with
    | some e =>
      rw [hfault] at hrun
      cases hrun
    | none =>
      rw [hfault] at hrun
      exact Reader.run_keeps (fun h hstep => h.step hstep) hopened hrun
  rcases hs.object with ⟨inner, members, name, hframes⟩ | ⟨-, -, members, hobject⟩
  · have hdepth := hs.depth
    have hgrammar : s.grammar = ⟨[], .separator⟩ := of_decide_eq_true hcomplete
    rw [hgrammar, hframes] at hdepth
    simp at hdepth
  · exact ⟨members, Option.some.inj (hresult.symm.trans hobject)⟩

namespace Assembly

/-! ## Records of any events -/

/-- The text of a record that is open begins with a brace. -/
def Braced (a : Assembly) : Prop := a.place = .insideRecord → ∃ parts, a.parts = parts ++ [['\x7b']]

theorem Braced.written {a : Assembly} (h : Braced a) (part : List Char) : Braced (a.written part) := by
  intro hplace
  obtain ⟨parts, hparts⟩ := h hplace
  exact ⟨part :: parts, by simp [Assembly.written, hparts]⟩

theorem Braced.separated {a : Assembly} (h : Braced a) : Braced a.separated := by
  unfold Assembly.separated
  split
  · exact h
  · intro hplace
    obtain ⟨parts, hparts⟩ := h hplace
    split
    · exact ⟨parts, hparts⟩
    · exact ⟨[','] :: parts, by simp [hparts]⟩

theorem Braced.beforeValue {a : Assembly} (h : Braced a) : Braced a.beforeValue := by
  unfold Assembly.beforeValue
  split
  · exact h
  · exact h.separated

theorem Braced.opened {a : Assembly} (h : Braced a) (kind : Container) (bracket : Char) :
    Braced (a.opened kind bracket) := by
  intro hplace
  obtain ⟨parts, hparts⟩ := h.beforeValue hplace
  exact ⟨[bracket] :: parts, by simp [Assembly.opened, hparts]⟩

theorem braced_of_ne {a : Assembly} (h : a.place ≠ .insideRecord) : Braced a := fun hplace => absurd hplace h

/-- Whether a limit of the platform was met. -/
def Limited (err : Error) : Prop := err = .overlongInteger ∨ err = .deepText ∨ err = .deepRecord

/-- A step leaves the text braced, hands over objects in canonical order only, and refuses for foreseen reasons or at a
limit only. -/
structure Sound (r : Assembly × Outcome) : Prop where
  braced : Braced r.1
  record : ∀ v, r.2 = .record v → ∃ members, v = (Json.obj members).canonical
  refused : ∀ err, r.2 = .refused err → err.report? ≠ none ∨ Limited err

theorem sound_nothing {a : Assembly} (h : Braced a) : Sound (a, .nothing) := ⟨h, nofun, nofun⟩

theorem sound_refused {a : Assembly} (h : Braced a) {err : Error} (herr : err.report? ≠ none ∨ Limited err) :
    Sound (a, .refused err) := by
  refine ⟨h, nofun, ?_⟩
  rintro _ ⟨⟩
  exact herr

variable {table : String} {a : Assembly} {e : Event}

theorem sound_unexpected (h : Braced a) : Sound (unexpected table a e) := sound_refused h (.inl nofun)

theorem sound_stepOutside (hplace : a.place = .outsideArray) : Sound (a.stepOutside table e) := by
  have ha : Braced a := braced_of_ne (by simp [hplace])
  have hkept (outer : List Container) : Sound ({ a with outer := outer }, .nothing) := sound_nothing ha
  cases e with
  | openArray =>
    refine sound_nothing (braced_of_ne ?_)
    dsimp only
    split <;> simp [hplace]
  | openObject => exact hkept _
  | closeObject =>
    simp only [stepOutside]
    split
    · exact sound_unexpected ha
    · exact hkept _
  | closeArray =>
    simp only [stepOutside]
    split
    · exact sound_unexpected ha
    · exact hkept _
  | key name => exact sound_nothing ha
  | scalar kind v => exact sound_nothing ha
  | other name => exact sound_unexpected ha

theorem sound_stepBetween (hplace : a.place = .betweenRecords) : Sound (a.stepBetween table e) := by
  have ha : Braced a := braced_of_ne (by simp [hplace])
  cases e with
  | openObject => exact sound_nothing fun _ => ⟨[], rfl⟩
  | closeArray => exact sound_nothing (braced_of_ne nofun)
  | openArray =>
    simp only [stepBetween]
    split
    · exact sound_nothing (braced_of_ne (by simp [hplace]))
    · exact sound_unexpected ha
  | scalar kind v =>
    simp only [stepBetween]
    split
    · exact sound_nothing ha
    · exact sound_unexpected ha
  | _ => exact sound_unexpected ha

variable [Platform]

theorem sound_closeRecord (h : Braced a) (hplace : a.place = .insideRecord) : Sound (a.closeRecord table) := by
  have hout : Braced { a with parts := [], place := .betweenRecords } := braced_of_ne nofun
  obtain ⟨parts, hparts⟩ := h hplace
  have htext : a.text = '\x7b' :: parts.reverse.flatten := by simp [Assembly.text, hparts]
  simp only [closeRecord]
  split
  · next v hread =>
    obtain ⟨members, rfl⟩ := Json.readWithin_openObject (htext ▸ hread)
    have hread : Braced { a with parts := [], place := .betweenRecords, built := a.built + 1 } :=
      braced_of_ne nofun
    split
    · next w horder =>
      obtain ⟨-, rfl⟩ := Json.order?_eq_some_iff.1 horder
      refine ⟨hread, ?_, nofun⟩
      rintro _ ⟨⟩
      exact ⟨_, rfl⟩
    · exact sound_refused hread (.inr (.inr (.inr rfl)))
  · exact sound_refused hout (.inl nofun)
  · exact sound_refused hout (.inl nofun)
  · exact sound_refused hout (.inl nofun)
  · exact sound_refused hout (.inr (.inr (.inl rfl)))

theorem sound_closed (h : Braced a) (hplace : a.place = .insideRecord) (kind : Container) (bracket : Char) :
    Sound (a.closed table e kind bracket) := by
  unfold closed
  split
  · split
    · exact sound_unexpected h
    · have hclosed (outer : List OpenContainer) :
          Braced { a with parts := [bracket] :: a.parts, inner := outer } := by
        intro _
        obtain ⟨parts, hparts⟩ := h hplace
        exact ⟨[bracket] :: parts, by simp [hparts]⟩
      dsimp only
      split
      · exact sound_closeRecord (hclosed _) hplace
      · exact sound_nothing (hclosed _)
  · exact sound_unexpected h

theorem sound_stepInside (h : Braced a) (hplace : a.place = .insideRecord)
    (he : ∀ d, e ≠ .key (.decimal d)) : Sound (a.stepInside table e) := by
  cases e with
  | key name =>
    simp only [stepInside]
    split
    · exact sound_unexpected h
    · cases name with
      | decimal d => exact absurd rfl (he d)
      | value name =>
        dsimp only
        split
        · exact sound_refused h.separated (.inr (.inl rfl))
        · exact sound_nothing ((h.separated.written _).written _)
  | scalar kind v =>
    simp only [stepInside]
    split
    · exact sound_refused h.beforeValue (.inr (.inl rfl))
    · exact sound_nothing (h.beforeValue.written _)
  | openObject => exact sound_nothing (h.opened _ _)
  | openArray => exact sound_nothing (h.opened _ _)
  | closeObject => exact sound_closed h hplace _ _
  | closeArray => exact sound_closed h hplace _ _
  | other name => exact sound_unexpected h

theorem sound_step (h : Braced a) (he : ∀ d, e ≠ .key (.decimal d)) : Sound (a.step table e) := by
  unfold step
  split
  · next hplace => exact sound_stepInside h hplace he
  · next hplace =>
    split
    · exact sound_stepBetween hplace
    · refine sound_nothing (braced_of_ne ?_)
      unfold stepSkipped
      split <;> simp [hplace]
  · next hplace => exact sound_stepOutside hplace

/-- Events in order, none of which has a number for a name. -/
theorem run_sound (h : Braced a) {events : List Event} (hevents : ∀ e ∈ events, ∀ d, e ≠ .key (.decimal d))
    {records : List Json} (hrecords : ∀ v ∈ records, ∃ members, v = (Json.obj members).canonical) :
    (∀ v ∈ (run table a records events).2.1, ∃ members, v = (Json.obj members).canonical) ∧
      ∀ err, (run table a records events).2.2 = some err → err.report? ≠ none ∨ Limited err := by
  induction events generalizing a records with
  | nil => exact ⟨fun v hv => hrecords v (List.mem_reverse.1 hv), nofun⟩
  | cons e rest ih =>
    have hstep : Sound (a.step table e) := sound_step h (hevents e (List.mem_cons_self ..))
    have hrest : ∀ e ∈ rest, ∀ d, e ≠ .key (.decimal d) := fun e he => hevents e (List.mem_cons_of_mem _ he)
    rw [run]
    split
    · next heq => exact ih (by simpa [heq] using hstep.braced) hrest hrecords
    · next v heq =>
      refine ih (by simpa [heq] using hstep.braced) hrest fun w hw => ?_
      rcases List.mem_cons.1 hw with rfl | hw
      · exact hstep.record _ (by rw [heq])
      · exact hrecords w hw
    · next err heq =>
      refine ⟨fun v hv => hrecords v (List.mem_reverse.1 hv), ?_⟩
      rintro _ ⟨⟩
      exact hstep.refused _ (by rw [heq])

end Assembly

/-! ## Pages -/

namespace Page

variable [Platform]

/-- Names are texts. -/
theorem key_of_mem_events {bytes : List UInt8} {e : Event} (h : e ∈ (events bytes).1) (d : Decimal) :
    e ≠ .key (.decimal d) := by
  have hone {g : Grammar} {t : Token} {e : Event} (h : event? g t = some (.inl e)) : e ≠ .key (.decimal d) := by
    rintro rfl
    cases t with
    | text content =>
      cases content with
      | none => cases h
      | some name =>
        simp only [event?] at h
        split at h <;> cases h
    | atom a =>
      cases a with
      | decimal n | int n =>
        simp only [event?, atomEvent] at h
        split at h <;> cases h
      | _ => cases h
    | _ => cases h
  have hfrom (g : Grammar) (done : List Event) (whole : Bool) (tokens : List Token)
      (hdone : ∀ e ∈ done, e ≠ .key (.decimal d)) :
      ∀ e ∈ (eventsFrom g done whole tokens).1, e ≠ .key (.decimal d) := by
    induction tokens generalizing g done with
    | nil => exact fun e he => hdone e (List.mem_reverse.1 he)
    | cons t rest ih =>
      rw [eventsFrom]
      split
      · exact fun e he => hdone e (List.mem_reverse.1 he)
      · split
        · exact ih _ _ hdone
        · next hevent =>
          refine ih _ _ fun e he => ?_
          rcases List.mem_cons.1 he with rfl | he
          · exact hone hevent
          · exact hdone e he
        · exact fun e he => hdone e (List.mem_reverse.1 he)
  exact hfrom _ _ _ _ (fun _ he => absurd he List.not_mem_nil) e h

/-- **Whatever the bytes, a record is an object in canonical order, and a page fails for a reason that is foreseen**, or
because a text cannot be decoded, a number cannot be held, or a limit of the platform is met. -/
theorem records_spec (table : String) (bytes : List UInt8) :
    (∀ v ∈ (records table bytes).1, ∃ members, v = (Json.obj members).canonical) ∧
      ∀ err, (records table bytes).2 = some err → err.report? = none →
        err = .undecodableText ∨ err = .unholdableNumber ∨ Assembly.Limited err := by
  have hevents : ∀ e ∈ (events bytes).1, ∀ d, e ≠ .key (.decimal d) := fun _ he => key_of_mem_events he
  obtain ⟨hobjects, hreported⟩ :=
    @Assembly.run_sound table .empty _ (Assembly.braced_of_ne nofun) _ hevents [] nofun
  simp only [records, Assembly.page]
  generalize Assembly.empty.run table [] (events bytes).1 = ran at hobjects hreported ⊢
  obtain ⟨a, given, refused⟩ := ran
  cases refused with
  | some err =>
    refine ⟨hobjects, ?_⟩
    rintro _ ⟨⟩ hnone
    exact .inr (.inr ((hreported err rfl).resolve_left (absurd hnone)))
  | none =>
    cases (events bytes).2 with
    | some fault =>
      refine ⟨hobjects, ?_⟩
      rintro _ ⟨⟩ hnone
      cases fault with
      | invalid => cases hnone
      | undecodable => exact .inl rfl
      | unholdable => exact .inr (.inl rfl)
      | overlong => exact .inr (.inr (.inl rfl))
    | none =>
      dsimp only
      split
      · exact ⟨hobjects, nofun⟩
      · refine ⟨hobjects, ?_⟩
        rintro _ ⟨⟩ hnone
        cases hnone

end Page

end SnapshotStaging
