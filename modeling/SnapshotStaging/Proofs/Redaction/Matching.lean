import Mathlib.Data.List.Forall2
import SnapshotStaging.Proofs.Json.Numeral
import SnapshotStaging.Proofs.Redaction.Frame
import SnapshotStaging.Staging

/-!
# Which places a rule names

A rule is written as one text, and so is the path to a place; what a rule means is said of its parts between slashes
and of the steps to the place. The path is written out of the steps and taken apart again, which gives the steps
back when none of them has a slash in it. Rules without a star are looked up as whole texts, the others are compared
part by part, and both ways come to the same: two texts are equal when they have equal parts, and no part of a rule
without a star is a star.

Main result: `redacted_iff_names`.
-/

namespace SnapshotStaging

namespace Redaction

/-! ## Texts and their parts -/

theorem segments_eq_splitOn (cs : List Char) : segments cs = cs.splitOn '/' := by
  induction cs with
  | nil => rfl
  | cons c cs ih =>
    rw [segments, ih, List.splitOn, List.splitOn, List.splitOnP_cons_eq_if_modifyHead]
    by_cases hslash : c = '/'
    · rw [if_pos hslash, if_pos (by simpa using hslash)]
    · rw [if_neg hslash, if_neg (by simpa using hslash)]
      cases hparts : cs.splitOnP (· == '/') with
      | nil => exact absurd hparts (List.splitOnP_ne_nil _ _)
      | cons part parts => rfl

theorem splitOn_inj {cs ds : List Char} (h : cs.splitOn '/' = ds.splitOn '/') : cs = ds := by
  have := congrArg ['/'].intercalate h
  rwa [List.intercalate_splitOn, List.intercalate_splitOn] at this

theorem mem_intercalate {parts : List (List Char)} {part : List Char} {c : Char} (hpart : part ∈ parts)
    (hc : c ∈ part) : c ∈ ['/'].intercalate parts := by
  induction parts with
  | nil => cases hpart
  | cons first parts ih =>
    cases parts with
    | nil =>
      obtain rfl := List.mem_singleton.1 hpart
      rwa [List.intercalate_singleton]
    | cons second parts =>
      rw [List.intercalate_cons_cons]
      rcases List.mem_cons.1 hpart with rfl | hpart
      · exact List.mem_append_left _ (List.mem_append_left _ hc)
      · exact List.mem_append_right _ (ih hpart)

theorem mem_of_mem_splitOn {cs part : List Char} {c : Char} (hpart : part ∈ cs.splitOn '/') (hc : c ∈ part) :
    c ∈ cs := by
  have := mem_intercalate hpart hc
  rwa [List.intercalate_splitOn] at this

theorem toList_pathText (steps : List String) :
    (pathText steps).toList = ['/'].intercalate ([] :: steps.map String.toList) := by
  induction steps with
  | nil => rfl
  | cons step steps ih =>
    rw [pathText, String.toList_append, String.toList_append, ih, List.map_cons, List.intercalate_cons_cons]
    cases steps <;> simp [List.intercalate_cons_cons]

/-- The path to a place is taken apart into the steps to it. -/
theorem splitOn_pathText {steps : List String} (h : ∀ step ∈ steps, '/' ∉ step.toList) :
    (pathText steps).toList.splitOn '/' = [] :: steps.map String.toList := by
  rw [toList_pathText]
  refine List.splitOn_intercalate '/' (fun part hpart => ?_) (List.cons_ne_nil _ _)
  rcases List.mem_cons.1 hpart with rfl | hpart
  · exact List.not_mem_nil
  · obtain ⟨step, hstep, rfl⟩ := List.mem_map.1 hpart
    exact h step hstep

/-! ## Rules -/

open Rules (fits)

/-- Whether a part of a rule stands for a segment: a star stands for any. -/
def Stands (part segment : List Char) : Prop := part = ['*'] ∨ part = segment

instance : DecidableRel Stands := fun _ _ => inferInstanceAs (Decidable (_ ∨ _))

/-- Whether a rule names the place that steps lead to: the parts of the rule between slashes stand, one by one, for
the empty text before the first slash and for the steps. -/
def Names (rule : String) (steps : List String) : Prop :=
  List.Forall₂ Stands (rule.toList.splitOn '/') ([] :: steps.map String.toList)

instance (rule : String) (steps : List String) : Decidable (Names rule steps) :=
  inferInstanceAs (Decidable (List.Forall₂ ..))

theorem fits_iff {pattern parts : List (List Char)} :
    fits pattern parts = true ↔ List.Forall₂ Stands pattern parts := by
  induction pattern generalizing parts with
  | nil => cases parts <;> simp [fits]
  | cons p pattern ih => cases parts <;> simp [fits, Stands, ih]

/-- A rule without a star names what it is equal to. -/
theorem forall₂_stands_iff_eq {rule path : List Char} (h : '*' ∉ rule) :
    List.Forall₂ Stands (rule.splitOn '/') (path.splitOn '/') ↔ rule = path := by
  constructor
  · intro hstands
    have hparts : ∀ part ∈ rule.splitOn '/', part ≠ ['*'] := by
      rintro _ hpart rfl
      exact h (mem_of_mem_splitOn hpart (List.mem_singleton.2 rfl))
    have hequal := (List.forall₂_and_left _ _).2 ⟨hparts, hstands⟩
    refine splitOn_inj (List.forall₂_eq_eq_eq ▸ hequal.imp fun part segment ⟨hpart, hstand⟩ => ?_)
    exact hstand.resolve_left hpart
  · rintro rfl
    exact List.forall₂_same.2 fun part _ => .inr rfl

/-- The set of rules without a star and the loop over the others decide one thing: that the parts of some rule stand
for the segments of the path. -/
theorem Rules.flags_ofPaths (paths : List String) (path : String) :
    (Rules.ofPaths paths).flags path = true ↔
      ∃ rule ∈ paths, List.Forall₂ Stands (rule.toList.splitOn '/') (path.toList.splitOn '/') := by
  have hexact : (Rules.ofPaths paths).exact.contains path = true ↔
      ∃ rule ∈ paths, '*' ∉ rule.toList ∧
        List.Forall₂ Stands (rule.toList.splitOn '/') (path.toList.splitOn '/') := by
    rw [Rules.ofPaths, List.contains_iff_mem, List.mem_filter]
    constructor
    · rintro ⟨hpath, hstar⟩
      have hstar : '*' ∉ path.toList := by simpa using hstar
      exact ⟨path, hpath, hstar, (forall₂_stands_iff_eq hstar).2 rfl⟩
    · rintro ⟨rule, hrule, hstar, hstands⟩
      obtain rfl := String.toList_injective ((forall₂_stands_iff_eq hstar).1 hstands)
      exact ⟨hrule, by simpa using hstar⟩
  have hpattern : (!(Rules.ofPaths paths).patterns.isEmpty &&
        (Rules.ofPaths paths).patterns.any fun pattern => fits pattern (segments path.toList)) = true ↔
      ∃ rule ∈ paths, '*' ∈ rule.toList ∧
        List.Forall₂ Stands (rule.toList.splitOn '/') (path.toList.splitOn '/') := by
    have hany (patterns : List (List (List Char))) (f : List (List Char) → Bool) :
        (!patterns.isEmpty && patterns.any f) = patterns.any f := by
      cases patterns <;> rfl
    rw [hany, Rules.ofPaths, List.any_map, List.any_eq_true]
    simp only [List.mem_filter, List.contains_iff_mem, Function.comp_apply, segments_eq_splitOn, fits_iff, and_assoc]
  rw [Rules.flags, Bool.or_eq_true, hexact, hpattern]
  constructor
  · rintro (⟨rule, hrule, -, hstands⟩ | ⟨rule, hrule, -, hstands⟩)
    · exact ⟨rule, hrule, hstands⟩
    · exact ⟨rule, hrule, hstands⟩
  · rintro ⟨rule, hrule, hstands⟩
    by_cases hstar : '*' ∈ rule.toList
    · exact .inr ⟨rule, hrule, hstar, hstands⟩
    · exact .inl ⟨rule, hrule, hstar, hstands⟩

/-- The rules of a table, as they are written. -/
def Policy.paths (p : Policy) (table : String) : List String :=
  ((p.find? fun entry => entry.1 = table).map Prod.snd).getD []

/-- Whether the rules of a table name a path. -/
def Policy.flags (p : Policy) (table path : String) : Bool := (p.rulesFor? table).any (·.flags path)

variable {p : Policy} {table : String} {steps : List String}

theorem Policy.rulesFor?_eq (p : Policy) (table : String) :
    p.rulesFor? table = if p.paths table = [] then none else some (Rules.ofPaths (p.paths table)) := by
  rw [rulesFor?, paths]
  cases p.find? fun entry => entry.1 = table with
  | none => rfl
  | some entry =>
    obtain ⟨table, paths⟩ := entry
    cases paths <;> rfl

/-- The path to a place is flagged when a rule names the steps. -/
theorem Policy.flags_iff_names (hsteps : ∀ step ∈ steps, '/' ∉ step.toList) :
    p.flags table (pathText steps) = true ↔ ∃ rule ∈ p.paths table, Names rule steps := by
  rw [flags, rulesFor?_eq]
  split
  · next hnone => simp [hnone]
  · rw [Option.any_some, Rules.flags_ofPaths, splitOn_pathText hsteps]
    rfl

/-! ## Records -/

/-- No object within the value has a member with a slash in its name. -/
def Slashless (v : Json) : Prop :=
  ∀ address steps names, v.view? address = some (steps, .obj names) → ∀ name ∈ names, '/' ∉ name.toList

variable {v : Json} {address : List Nat} {x : Json.Face}

theorem slash_notMem_digits (n : Nat) : '/' ∉ (String.ofList (digits n)).toList := by
  rw [String.toList_ofList]
  exact fun hmem => absurd (Lexer.areDigits_digits n _ hmem) (by decide)

theorem Slashless.step_of_view (h : Slashless v) (hplace : v.view? address = some (steps, x)) :
    ∀ step ∈ steps, '/' ∉ step.toList := by
  induction address generalizing v steps with
  | nil =>
    cases hplace
    exact fun _ hmem => absurd hmem List.not_mem_nil
  | cons i address ih =>
    rw [Json.view?_cons] at hplace
    obtain ⟨⟨step, child⟩, hchild, hplace⟩ := Option.bind_eq_some_iff.1 hplace
    obtain ⟨⟨below, y⟩, hbelow, heq⟩ := Option.map_eq_some_iff.1 hplace
    cases heq
    have hslashless : Slashless child := fun address' steps' names hnames =>
      h (i :: address') (step :: steps') names (by rw [Json.view?_cons, hchild, Option.bind_some, hnames]; rfl)
    intro other hother
    rcases List.mem_cons.1 hother with rfl | hother
    · rcases Json.step_of_mem_children (List.mem_of_getElem? hchild) with ⟨index, rfl⟩ | ⟨names, hface, hmem⟩
      · exact slash_notMem_digits index
      · exact h [] [] names (by rw [Json.view?_nil, hface]) _ hmem
    · exact ih hslashless hbelow other hother

/-- What is seen of a record that the rules of a table were applied to. -/
theorem view?_redacted (p : Policy) (table : String) (record : Json) (address : List Nat) :
    (Staging.redacted (p.rulesFor? table) record).view? address =
      (record.view? address).map fun (steps, x) =>
        (steps, if p.flags table (pathText steps) then x.emptied else x) := by
  have hflags (path : String) : p.flags table path = (p.rulesFor? table).any (·.flags path) := rfl
  simp only [hflags]
  cases p.rulesFor? table with
  | none => simp [Staging.redacted]
  | some rules =>
    rw [Staging.redacted, view?_redact]
    simp only [String.empty_append, Option.any_some]

/-- **Rules mean what their parts say.** In a record without slashes in the names of its members, the path to a place
is flagged if and only if some rule of the table, taken apart at its slashes, has one part more than there are steps
to the place, and each part is a star or equal to the empty text and the steps in turn. Those places hold what is
left of a flagged scalar, and all others what they held. -/
theorem redacted_iff_names (p : Policy) (table : String) {record : Json} {address : List Nat} {steps : List String}
    {x : Json.Face} (hnames : Slashless record) (hplace : record.view? address = some (steps, x)) :
    (p.flags table (pathText steps) = true ↔ ∃ rule ∈ p.paths table, Names rule steps) ∧
      (Staging.redacted (p.rulesFor? table) record).view? address =
        some (steps, if ∃ rule ∈ p.paths table, Names rule steps then x.emptied else x) := by
  have hflags : p.flags table (pathText steps) = true ↔ ∃ rule ∈ p.paths table, Names rule steps :=
    Policy.flags_iff_names (hnames.step_of_view hplace)
  refine ⟨hflags, ?_⟩
  rw [view?_redacted, hplace, Option.map_some]
  simp only [hflags]

/-- A rule with a star names the items of a list. -/
theorem redacted_iff_names_items :
    (Staging.redacted (Policy.rulesFor? [("t", ["/name", "/more/*"])] "t")
      (.obj [("name", .null), ("more", .arr [.str "x"])])).view? [1, 0] = some (["more", "0"], .str "") := by
  have hnames : Slashless (.obj [("name", .null), ("more", .arr [.str "x"])]) := by
    intro address steps names h
    match address with
    | [] => cases h; decide
    | [0] => cases h
    | [1] => cases h
    | [1, 0] => cases h
    | 0 :: _ :: _ => cases h
    | 1 :: 0 :: _ :: _ => cases h
    | 1 :: (i + 1) :: _ => cases h
    | (i + 2) :: _ => cases h
  have hplace : Json.view? [1, 0] (.obj [("name", .null), ("more", .arr [.str "x"])]) =
      some (["more", "0"], .str "x") := rfl
  refine (redacted_iff_names [("t", ["/name", "/more/*"])] "t" hnames hplace).2.trans ?_
  rw [if_pos (by decide)]
  rfl

end Redaction

end SnapshotStaging
