import SnapshotStaging.Proofs.Json.Tree

/-!
# How deep a text is

Each bracket opens or closes a container, and a reader is as deep as its grammar. A reader runs out of calls only
where so many containers are open that the limits do not admit the calls for one more.

Main result `run_ne_exhausted`.
-/

namespace SnapshotStaging

namespace Token

/-- How many containers more are open after a token. -/
def nesting : Token → Int
  | .openObject => 1
  | .openArray => 1
  | .closeObject => -1
  | .closeArray => -1
  | _ => 0

/-- How many containers more are open after a row of tokens. -/
def nestings : List Token → Int
  | [] => 0
  | t :: rest => t.nesting + nestings rest

@[simp]
theorem nestings_nil : nestings [] = 0 := rfl

@[simp]
theorem nestings_cons (t : Token) (ts : List Token) : nestings (t :: ts) = t.nesting + nestings ts := rfl

@[simp]
theorem nestings_append (ts us : List Token) : nestings (ts ++ us) = nestings ts + nestings us := by
  induction ts with
  | nil => exact (Int.zero_add _).symm
  | cons t rest ih => rw [List.cons_append, nestings_cons, nestings_cons, ih, Int.add_assoc]

end Token

theorem Grammar.length_step {g g' : Grammar} {t : Token} (h : g.step t = some g') :
    (g'.enclosing.length : Int) = g.enclosing.length + t.nesting := by
  obtain ⟨enc, expected⟩ := g
  cases t with
  | openObject | openArray =>
    simp only [step, enter, Option.ite_none_right_eq_some] at h
    obtain ⟨-, h⟩ := h
    cases h
    simp [Token.nesting]
  | closeObject | closeArray =>
    cases enc with
    | nil => cases h
    | cons c enc =>
      simp only [step, leave, Option.ite_none_right_eq_some] at h
      obtain ⟨-, h⟩ := h
      cases h
      simp only [Token.nesting, List.length_cons]
      omega
  | comma =>
    cases enc with
    | nil => cases h
    | cons c enc => cases c <;> cases expected <;> cases h <;> simp [Token.nesting]
  | text content =>
    simp only [step] at h
    split at h
    · cases h
      simp [Token.nesting]
    · simp only [Option.ite_none_right_eq_some] at h
      obtain ⟨-, h⟩ := h
      cases h
      simp [Token.nesting]
  | colon | atom =>
    simp only [step, Option.ite_none_right_eq_some] at h
    obtain ⟨-, h⟩ := h
    cases h
    simp [Token.nesting]

namespace Reader

variable {limits : Limits} {range : FloatRange} {s s' : State} {t : Token}

theorem depth_place (s : State) (v : Json) : (s.place v).depth = s.depth := by
  obtain ⟨grammar, _ | ⟨_ | _, outer⟩, result⟩ := s <;> rfl

theorem depth_leave (s : State) : s.leave.depth = s.depth - 1 := by
  obtain ⟨grammar, _ | ⟨_ | _, outer⟩, result⟩ := s
  · rfl
  · exact depth_place ..
  · exact depth_place ..

theorem depth_named (s : State) (name : String) : (s.named name).depth = s.depth := by
  obtain ⟨grammar, _ | ⟨_ | _, outer⟩, result⟩ := s <;> rfl

/-- A reader is as deep as its grammar. -/
def State.Level (s : State) : Prop := s.depth = s.grammar.enclosing.length

/-- A token that is taken opens or closes a container, or none. -/
theorem depth_take {g : Grammar} (hs : s.Level) (hg : s.grammar.step t = some g)
    (h : s.take limits range t = .ok s') : (s'.depth : Int) = s.depth + t.nesting := by
  cases t with
  | openObject | openArray =>
    obtain ⟨-, rfl⟩ := of_elim_ok h
    rfl
  | closeObject | closeArray =>
    cases h
    have hlength := Grammar.length_step hg
    simp only [State.Level, Token.nesting, depth_leave] at hs hlength ⊢
    omega
  | comma | colon =>
    cases h
    exact (Int.add_zero _).symm
  | text content =>
    cases content with
    | none => cases h
    | some name =>
      rw [State.take] at h
      split at h <;> cases h
      · rw [depth_named]; exact (Int.add_zero _).symm
      · rw [depth_place]; exact (Int.add_zero _).symm
  | atom a =>
    obtain ⟨-, rfl⟩ := of_elim_ok h
    rw [depth_place]
    exact (Int.add_zero _).symm

/-- A reader stays as deep as its grammar. -/
theorem State.Level.step (hs : s.Level) (h : step limits range s t = .ok s') : s'.Level := by
  obtain ⟨g, taken, hg, htake, rfl⟩ := step_eq_ok_iff.1 h
  have hdepth := depth_take hs hg htake
  have hlength := Grammar.length_step hg
  simp only [State.Level, State.depth] at hs hdepth ⊢
  omega

/-- No call is left only where a container or a number is too deep. -/
theorem take_ne_exhausted (h : limits.admits (calls s.depth + 2) = true) (t : Token) :
    s.take limits range t ≠ .error .exhausted := by
  have hopening : openingFault? limits (s.depth + 1) = none :=
    if_pos (Limits.admits_mono h (by simp only [calls]; omega))
  intro hexhausted
  cases t with
  | openObject | openArray => cases hopening.symm.trans (of_elim_error hexhausted)
  | text content =>
    cases content with
    | none => cases hexhausted
    | some name =>
      rw [State.take] at hexhausted
      split at hexhausted <;> cases hexhausted
  | atom a =>
    have hfault := of_elim_error hexhausted
    cases a with
    | int n => simp [atomFault?] at hfault
    | special x => simp [atomFault?, Limits.admits_mono h] at hfault
    | decimal d => cases range <;> simp [atomFault?, h] at hfault
    | _ => cases hfault
  | _ => cases hexhausted

/-- **A reader does not run out of calls** while it is nowhere too deep. -/
theorem run_ne_exhausted {ts : List Token} (hs : s.Level)
    (h : ∀ us, us <+: ts → limits.admits (calls (s.depth + Token.nestings us).toNat + 2) = true) :
    run limits range s ts ≠ .error .exhausted := by
  induction ts generalizing s with
  | nil =>
    intro heq
    cases heq
  | cons t ts ih =>
    have hhere : limits.admits (calls s.depth + 2) = true := by simpa using h [] (List.nil_prefix ..)
    rw [run, step]
    cases hg : s.grammar.step t with
    | none =>
      intro heq
      cases heq
    | some g =>
      cases htake : s.take limits range t with
      | error e =>
        intro heq
        cases heq
        exact take_ne_exhausted hhere t htake
      | ok taken =>
        have hdepth := depth_take hs hg htake
        refine ih (hs.step (step_eq_ok_iff.2 ⟨g, taken, hg, htake, rfl⟩)) fun us hus => ?_
        have hnext := h (t :: us) (List.prefix_cons_inj t |>.2 hus)
        rw [Token.nestings_cons, ← Int.add_assoc, ← hdepth] at hnext
        exact hnext

end Reader

end SnapshotStaging
