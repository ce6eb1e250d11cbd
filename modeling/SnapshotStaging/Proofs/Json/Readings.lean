import SnapshotStaging.Proofs.Json.Halves

/-!
# Two readings of one text

The strings of a text may be read as those of a page. Its tokens are told apart in the same way then, and only strings
in which an escape names half of a surrogate pair come out otherwise: where no half is left in the value that is read
in code points, the other value is the same (`Json.Agrees`). The two readers are taken through the tokens side by side.

Main result `Json.load_agrees`.
-/

namespace SnapshotStaging

/-! ## Tokens

A lexer hands out strings in their fragments, whatever they are read as afterwards. -/

/-- A token whose string is told by its fragments, read. -/
def Token.read {σ : Type} (reading : List Fragment → Option σ) : Token (List Fragment) → Token σ
  | .openObject => .openObject
  | .closeObject => .closeObject
  | .openArray => .openArray
  | .closeArray => .closeArray
  | .comma => .comma
  | .colon => .colon
  | .text content => .text (content.bind reading)
  | .atom a => .atom a

/-- The same kind of text with strings in their fragments. -/
def Format.raw {σ : Type} (f : Format σ) : Format (List Fragment) := ⟨f.blank, f.specials, some⟩

namespace Lexer

variable {σ : Type} (f : Format σ)

theorem fresh_read (g : Glyph) :
    fresh f g = (fresh f.raw g).map fun r => (r.1, r.2.map (Token.read f.reading)) := by
  cases g with
  | char c =>
    have hblank : f.raw.blank c = f.blank c := rfl
    simp only [fresh, hblank]
    split
    · rfl
    · split
      case h_9 =>
        split
        · rw [Option.map_map]
          rfl
        · rw [Option.map_map]
          rfl
      all_goals rfl
  | _ => rfl

theorem insideString_read (content : Content) (g : Glyph) :
    insideString f content g = (insideString f.raw content g).map fun r => (r.1, r.2.map (Token.read f.reading)) := by
  cases g with
  | char c =>
    simp only [insideString]
    split
    · rfl
    · split
      · rfl
      · split <;> rfl
  | _ => rfl

theorem outcome_map {σ τ : Type} (read : Token σ → Token τ) (r : Option (State × List (Token σ))) :
    step.outcome (r.map fun r => (r.1, r.2.map read)) = Prod.map id (List.map read) (step.outcome r) := by
  cases r <;> rfl

theorem step_read (s : State) (g : Glyph) :
    step f s g = Prod.map id (List.map (Token.read f.reading)) (step f.raw s g) := by
  cases s with
  | idle => exact (congrArg step.outcome (fresh_read f g)).trans (outcome_map ..)
  | word rest a =>
    simp only [step]
    split
    · split <;> rfl
    · split <;> rfl
    · rfl
  | number n part =>
    simp only [step]
    split
    · rfl
    · split
      · rw [fresh_read f g, outcome_map]
        rfl
      · have hspecials : f.raw.specials = f.specials := rfl
        rw [hspecials]
        split <;> rfl
  | inside content => exact (congrArg step.outcome (insideString_read f content g)).trans (outcome_map ..)
  | escape content => cases g <;> rfl
  | code content due value =>
    cases g with
    | char c =>
      simp only [step]
      split <;> rfl
    | _ => rfl

theorem finish_read (s : State) :
    (finish s : List (Token σ) × Bool) = Prod.map (List.map (Token.read f.reading)) id (finish s) := by
  cases s with
  | number n part =>
    simp only [finish]
    split <;> rfl
  | _ => rfl

/-- Formats that tell tokens apart alike hand out the same tokens, each read in its own way. -/
theorem run_read (s : State) (done : List (Token (List Fragment))) (input : List Glyph) :
    run f s (done.map (Token.read f.reading)) input =
      Prod.map (List.map (Token.read f.reading)) id (run f.raw s done input) := by
  induction input generalizing s done with
  | nil =>
    rw [run, run, finish_read f]
    simp
  | cons g rest ih =>
    rw [run, run, step_read f s g]
    cases step f.raw s g with
    | mk next tokens =>
      cases next with
      | none => simp
      | some next =>
        simp only [Prod.map, id]
        rw [← List.map_reverse, ← List.map_append, ih]
        rfl

end Lexer

theorem Format.tokens_read {σ : Type} (f : Format σ) (input : List Glyph) :
    f.tokens input = Prod.map (List.map (Token.read f.reading)) id (f.raw.tokens input) :=
  Lexer.run_read f .idle [] input

/-- A text whose strings are read as those of a page. -/
def Format.textOfPage : Format := { (Format.text : Format) with reading := Format.page.reading }

/-! ## Values -/

namespace Json

/-- Where no half of a pair is left in the one value, the other is the same value. -/
def Agrees (v : Json) (u : Json (List CodePoint)) : Prop := u.whole = true → u = v.points

/-- The same of members: where no half is left in their names. -/
def MembersAgree (members : List (String × Json)) (points : List (List CodePoint × Json (List CodePoint))) : Prop :=
  (∀ m ∈ points, m.1.all CodePoint.isChar = true) →
    List.Forall₂ (fun m n => n.1 = Script.points m.1 ∧ m.2.Agrees n.2) members points

theorem agrees_arr {items : List Json} {us : List (Json (List CodePoint))} (h : List.Forall₂ Agrees items us) :
    (arr items).Agrees (arr us) := by
  intro hwhole
  refine congrArg arr ?_
  replace hwhole : wholeItems us = true := hwhole
  induction h with
  | nil => rfl
  | cons hfirst _ ih =>
    rw [wholeItems, Bool.and_eq_true] at hwhole
    rw [itemPoints, ← hfirst hwhole.1, ← ih hwhole.2]

theorem agrees_obj {members : List (String × Json)} {us : List (List CodePoint × Json (List CodePoint))}
    (h : MembersAgree members us) : (obj members).Agrees (obj us) := by
  intro hwhole
  refine congrArg obj ?_
  have hall := wholeMembers_iff.1 hwhole
  have hmembers := h fun m hm => (hall m hm).1
  clear h hwhole
  induction hmembers with
  | nil => rfl
  | cons hfirst _ ih =>
    obtain ⟨hm, hrest⟩ := List.forall_mem_cons.1 hall
    rw [memberPoints, ← hfirst.1, ← hfirst.2 hm.2, ← ih hrest]

section

variable {name : String} {v : Json} {ps : List CodePoint} {u : Json (List CodePoint)}

theorem forall_names_put {members : List (List CodePoint × Json (List CodePoint))}
    (h : ∀ m ∈ put ps u members, m.1.all CodePoint.isChar = true) :
    ps.all CodePoint.isChar = true ∧ ∀ m ∈ members, m.1.all CodePoint.isChar = true := by
  induction members with
  | nil => exact ⟨h _ (List.mem_singleton_self _), List.forall_mem_nil _⟩
  | cons m rest ih =>
    obtain ⟨n, w⟩ := m
    rw [put] at h
    split at h
    · next heq =>
      obtain ⟨hfirst, hrest⟩ := List.forall_mem_cons.1 h
      exact ⟨heq ▸ hfirst, List.forall_mem_cons.2 ⟨hfirst, hrest⟩⟩
    · obtain ⟨hfirst, hrest⟩ := List.forall_mem_cons.1 h
      exact ⟨(ih hrest).1, List.forall_mem_cons.2 ⟨hfirst, (ih hrest).2⟩⟩

theorem MembersAgree.put {members : List (String × Json)} {us : List (List CodePoint × Json (List CodePoint))}
    (h : MembersAgree members us) (hname : ps.all CodePoint.isChar = true → ps = Script.points name)
    (hvalue : v.Agrees u) : MembersAgree (put name v members) (put ps u us) := by
  intro hall
  obtain ⟨hps, hus⟩ := forall_names_put hall
  obtain rfl := hname hps
  have hmembers := h hus
  clear h hall hus
  induction hmembers with
  | nil => exact .cons ⟨rfl, hvalue⟩ .nil
  | @cons m n rest rest' hfirst hrest ih =>
    obtain ⟨n, w⟩ := n
    obtain ⟨rfl, hw⟩ := hfirst
    by_cases heq : m.1 = name
    · rw [Json.put, Json.put, if_pos heq, if_pos (congrArg Script.points heq)]
      exact .cons ⟨rfl, hvalue⟩ hrest
    · rw [Json.put, Json.put, if_neg heq, if_neg fun h => heq (Script.points_injective h)]
      exact .cons ⟨rfl, hw⟩ ih

end

end Json

/-! ## Readers -/

namespace Reader

open Json

/-- Containers that are open in two readings. -/
inductive Frame.Agrees : Frame → Frame (List CodePoint) → Prop
  | array {items : List Json} {us : List (Json (List CodePoint))} (h : List.Forall₂ Json.Agrees items us) :
      Agrees (.array items) (.array us)
  | object {members : List (String × Json)} {us : List (List CodePoint × Json (List CodePoint))} {name : String}
      {ps : List CodePoint} (h : MembersAgree members us)
      (hname : ps.all CodePoint.isChar = true → ps = Script.points name) :
      Agrees (.object members name) (.object us ps)

/-- Two readings of one text part way through. -/
structure State.Agrees (s : State) (r : State (List CodePoint)) : Prop where
  grammar : s.grammar = r.grammar
  frames : List.Forall₂ Frame.Agrees s.frames r.frames
  result : Option.Rel Json.Agrees s.result r.result

variable {s s' : State} {r : State (List CodePoint)} {v : Json} {u : Json (List CodePoint)}

theorem State.Agrees.place (h : s.Agrees r) (hvalue : v.Agrees u) : (s.place v).Agrees (r.place u) := by
  obtain ⟨g, frames, result⟩ := s
  obtain ⟨g', frames', result'⟩ := r
  obtain ⟨rfl, hframes, hresult⟩ := h
  cases hframes with
  | nil => exact ⟨rfl, .nil, .some hvalue⟩
  | cons hframe hrest =>
    cases hframe with
    | array hitems => exact ⟨rfl, .cons (.array (.cons hvalue hitems)) hrest, hresult⟩
    | object hmembers hname => exact ⟨rfl, .cons (.object (hmembers.put hname hvalue) hname) hrest, hresult⟩

theorem State.Agrees.leave (h : s.Agrees r) : s.leave.Agrees r.leave := by
  obtain ⟨g, frames, result⟩ := s
  obtain ⟨g', frames', result'⟩ := r
  obtain ⟨rfl, hframes, hresult⟩ := h
  cases hframes with
  | nil => exact ⟨rfl, .nil, hresult⟩
  | cons hframe hrest =>
    have houter : State.Agrees ⟨g, _, result⟩ ⟨g, _, result'⟩ := ⟨rfl, hrest, hresult⟩
    cases hframe with
    | array hitems => exact houter.place (agrees_arr (List.rel_reverse hitems))
    | object hmembers _ => exact houter.place (agrees_obj hmembers)

theorem State.Agrees.named {name : String} {ps : List CodePoint} (h : s.Agrees r)
    (hname : ps.all CodePoint.isChar = true → ps = Script.points name) : (s.named name).Agrees (r.named ps) := by
  obtain ⟨g, frames, result⟩ := s
  obtain ⟨g', frames', result'⟩ := r
  obtain ⟨rfl, hframes, hresult⟩ := h
  cases hframes with
  | nil => exact ⟨rfl, .nil, hresult⟩
  | cons hframe hrest =>
    cases hframe with
    | array hitems => exact ⟨rfl, .cons (.array hitems) hrest, hresult⟩
    | object hmembers _ => exact ⟨rfl, .cons (.object hmembers hname) hrest, hresult⟩

variable {limits : Limits} {range : FloatRange}

theorem agrees_atomValue (a : Atom) : (atomValue a : Json).Agrees (atomValue a) := by
  cases a <;> exact fun _ => rfl

theorem State.Agrees.depth (h : s.Agrees r) : s.depth = r.depth := h.frames.length_eq

/-- A string that a page can hold is held by a text too, and is the same one if no half is left in it. -/
theorem exists_points {fs : List Fragment} {t : String} (h : Format.page.reading fs = some t) :
    ∃ ps : List CodePoint, (Format.text : Format (List CodePoint)).reading fs = some ps ∧
      (ps.all CodePoint.isChar = true → ps = Script.points t) := by
  obtain ⟨cs, hcs, rfl⟩ := Option.map_eq_some_iff.1 h
  obtain ⟨ps, hps⟩ := Option.ne_none_iff_exists'.1 (Fragment.points_ne_none (Fragment.stray_notMem_of_paged hcs))
  refine ⟨ps, ?_, fun hwhole => ?_⟩
  · exact Option.bind_eq_some_iff.2 ⟨ps, hps, Script.ofPoints?_eq_some_iff.2 (List.map_id ps)⟩
  · rw [Fragment.points_of_paged hcs hps (List.all_eq_true.1 hwhole), Script.points, Script.letters_string,
      String.toList_ofList]
    rfl

theorem State.Agrees.enter {f : Frame} {f' : Frame (List CodePoint)} (h : s.Agrees r) (hframe : f.Agrees f') :
    (s.enter f).Agrees (r.enter f') :=
  ⟨h.grammar, .cons hframe h.frames, h.result⟩

/-- A token that is taken in the one reading is taken in the other. -/
theorem State.Agrees.take {t : Token (List Fragment)} (h : s.Agrees r)
    (htake : s.take limits range (t.read Format.page.reading) = .ok s') :
    ∃ r', r.take limits range (t.read (Format.text : Format (List CodePoint)).reading) = .ok r' ∧ s'.Agrees r' := by
  have hentering {f : Frame} {f' : Frame (List CodePoint)} (hframe : f.Agrees f')
      (htake : (openingFault? limits (s.depth + 1)).elim (.ok (s.enter f)) .error = Except.ok s') :
      ∃ r', (openingFault? limits (r.depth + 1)).elim (.ok (r.enter f')) .error = Except.ok r' ∧ s'.Agrees r' := by
    obtain ⟨hfault, rfl⟩ := of_elim_ok htake
    rw [h.depth] at hfault
    exact ⟨r.enter f', by rw [hfault, Option.elim_none], h.enter hframe⟩
  cases t with
  | openObject => exact hentering (.object (fun _ => .nil) fun _ => rfl) htake
  | openArray => exact hentering (.array .nil) htake
  | closeObject | closeArray =>
    cases htake
    exact ⟨_, rfl, h.leave⟩
  | comma | colon =>
    cases htake
    exact ⟨_, rfl, h⟩
  | text content =>
    cases content with
    | none => cases htake
    | some fs =>
      rw [Token.read, Option.bind_some] at htake ⊢
      cases hreading : Format.page.reading fs with
      | none =>
        rw [hreading] at htake
        cases htake
      | some name =>
        obtain ⟨ps, hps, hagrees⟩ := exists_points hreading
        rw [hreading, State.take, h.grammar] at htake
        rw [hps, State.take]
        split at htake
        · next hname =>
          cases htake
          exact ⟨_, if_pos hname, h.named hagrees⟩
        · next hname =>
          cases htake
          exact ⟨_, if_neg hname, h.place fun hwhole => congrArg str (hagrees hwhole)⟩
  | atom a =>
    obtain ⟨hfault, rfl⟩ := of_elim_ok htake
    rw [h.depth] at hfault
    exact ⟨r.place (atomValue a), by rw [Token.read, State.take, hfault, Option.elim_none],
      h.place (agrees_atomValue a)⟩

theorem grammar_read {σ τ : Type} {reading : List Fragment → Option σ} {reading' : List Fragment → Option τ}
    (g : Grammar) (t : Token (List Fragment)) : g.step (t.read reading) = g.step (t.read reading') := by
  cases t <;> rfl

theorem State.Agrees.step {t : Token (List Fragment)} (h : s.Agrees r)
    (hstep : Reader.step limits range s (t.read Format.page.reading) = .ok s') :
    ∃ r', Reader.step limits range r (t.read (Format.text : Format (List CodePoint)).reading) = .ok r' ∧
      s'.Agrees r' := by
  obtain ⟨g, m, hg, htake, rfl⟩ := step_eq_ok_iff.1 hstep
  rw [h.grammar, grammar_read] at hg
  obtain ⟨m', htake', hm⟩ := h.take htake
  exact ⟨{ m' with grammar := g }, step_eq_ok_iff.2 ⟨g, m', hg, htake', rfl⟩, rfl, hm.frames, hm.result⟩

/-- Two readings of one text stay together to its end. -/
theorem State.Agrees.run {ts : List (Token (List Fragment))} (h : s.Agrees r)
    (hrun : Reader.run limits range s (ts.map (Token.read Format.page.reading)) = .ok s') :
    ∃ r', Reader.run limits range r (ts.map (Token.read (Format.text : Format (List CodePoint)).reading)) = .ok r' ∧
      s'.Agrees r' := by
  induction ts generalizing s r with
  | nil =>
    cases hrun
    exact ⟨r, rfl, h⟩
  | cons t rest ih =>
    rw [List.map_cons, Reader.run] at hrun
    split at hrun
    · next m hm =>
      obtain ⟨m', hstep, hm'⟩ := h.step hm
      obtain ⟨r', hrun', hr'⟩ := ih hm' hrun
      exact ⟨r', by rw [List.map_cons, run_ok limits range hstep, hrun'], hr'⟩
    · cases hrun

end Reader

/-! ## Texts -/

namespace Json

variable {v : Json}

theorem ofTokens_agrees {limits : Limits} {range : FloatRange} {ts : List (Token (List Fragment))} {whole : Bool}
    (h : ofTokens limits range (ts.map (Token.read Format.page.reading)) whole = .ok v) :
    ∃ u : Json (List CodePoint),
      ofTokens limits range (ts.map (Token.read (Format.text : Format (List CodePoint)).reading)) whole = .ok u ∧
      v.Agrees u := by
  obtain ⟨s, hrun, hv, hwhole, hcomplete⟩ := Reader.ofTokens_eq_ok_iff.1 h
  have hstart : Reader.State.Agrees Reader.start Reader.start := ⟨rfl, .nil, .none⟩
  obtain ⟨s', hrun', hs⟩ := hstart.run hrun
  have hresult := hs.result
  rw [hv] at hresult
  obtain ⟨u, hu, hagrees⟩ : ∃ u, s'.result = some u ∧ v.Agrees u := by
    cases hu : s'.result with
    | none =>
      rw [hu] at hresult
      cases hresult
    | some u =>
      rw [hu] at hresult
      cases hresult with
      | some hagrees => exact ⟨u, rfl, hagrees⟩
  exact ⟨u, Reader.ofTokens_eq_ok_iff.2 ⟨s', hrun', hu, hwhole, hs.grammar ▸ hcomplete⟩, hagrees⟩

/-- **Halves apart, a text and a page agree**: where a text with the strings of a page is read as a value, the text is
read in code points too, and as the same value unless half of a surrogate pair is left in it. -/
theorem load_agrees [Platform] {cs : List Char} {ts : List Token}
    (htokens : Format.textOfPage.tokens (Lexer.glyphs cs) = (ts, true))
    (hread : ofTokens Platform.limits .any ts true = .ok v) :
    ∃ u : Json (List CodePoint), load .any (Letter.ofChars cs : List CodePoint) = .ok u ∧ v.Agrees u := by
  have hglyphs : Lexer.glyphs (Letter.ofChars cs : List CodePoint) = Lexer.glyphs cs := by
    rw [Lexer.glyphs_ofChars, ← Lexer.glyphs_ofChars (κ := Char)]
    rfl
  have hraw : Format.textOfPage.raw = (Format.text : Format (List CodePoint)).raw := rfl
  rw [Format.tokens_read, hraw] at htokens
  obtain ⟨rfl, hwhole⟩ := Prod.mk.inj htokens
  rw [load, readWithin, ← Lexer.glyphs, hglyphs, Format.tokens_read]
  rw [← hwhole] at hread
  exact ofTokens_agrees hread

end Json

end SnapshotStaging
