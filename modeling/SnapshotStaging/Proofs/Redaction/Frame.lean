import SnapshotStaging.Proofs.Json.Places
import SnapshotStaging.Redaction

/-!
# What redaction reads and what it keeps

A place of the redacted value is a place of the value, reached by the same steps; what is seen there is the same
except that a flagged scalar is the emptiest of its kind. The path that decides whether a scalar is flagged is
written out of these steps. So the redacted value tells nothing of a flagged scalar but its kind: two values that
differ in flagged scalars only, each of the kind of the other, are the same once they are redacted.

Main result: `redact_noninterference`.
-/

namespace SnapshotStaging

open Json

namespace Json.Face

/-- What is left of a flagged scalar: false, zero or the empty text. Nothing else is touched. -/
def emptied : Face → Face
  | .bool _ => .bool false
  | .int _ => .int 0
  | .float _ => .int 0
  | .str _ => .str ""
  | x => x

def isNumber : Face → Bool
  | .int _ => true
  | .float _ => true
  | _ => false

/-- What is seen at one place of two values that may differ in their flagged scalars, though not in the kinds of
these. -/
inductive Alike : Bool → Face → Face → Prop
  | same (flagged : Bool) (x : Face) : Alike flagged x x
  | bool (b c : Bool) : Alike true (.bool b) (.bool c)
  | number {x y : Face} (hx : x.isNumber = true) (hy : y.isNumber = true) : Alike true x y
  | str (s t : String) : Alike true (.str s) (.str t)

variable {x y : Face} {flagged : Bool}

theorem emptied_of_isNumber (h : x.isNumber = true) : x.emptied = .int 0 := by
  cases x with
  | int n => rfl
  | float d => rfl
  | _ => cases h

@[simp]
theorem emptied_emptied (x : Face) : x.emptied.emptied = x.emptied := by
  cases x <;> rfl

theorem Alike.emptied (h : Alike flagged x y) :
    (if flagged then x.emptied else x) = if flagged then y.emptied else y := by
  cases h with
  | same => rfl
  | bool b c => rfl
  | number hx hy => rw [if_pos rfl, if_pos rfl, emptied_of_isNumber hx, emptied_of_isNumber hy]
  | str s t => rfl

end Json.Face

namespace Redaction

/-- The path that is written for steps: a slash and the step's text for each. -/
def pathText : List String → String
  | [] => ""
  | step :: steps => "/" ++ step ++ pathText steps

variable {flagged : String → Bool} {path : String} {v a b : Json}

theorem append_pathText_cons (path step : String) (steps : List String) :
    path ++ pathText (step :: steps) = path ++ "/" ++ step ++ pathText steps := by
  rw [pathText, String.append_assoc, String.append_assoc, String.append_assoc]

theorem redact_scalar (flagged : String → Bool) (path : String) (h : v.isContainer = false) :
    redact flagged path v = if flagged path then emptied v else v := by
  cases v with
  | arr items => cases h
  | obj members => cases h
  | _ => simp [redact, emptied]

theorem face_redact (flagged : String → Bool) (path : String) (v : Json) :
    (redact flagged path v).face = if flagged path then v.face.emptied else v.face := by
  cases v with
  | arr items =>
    have hlength : ∀ index, (redactItems flagged path index items).length = items.length := by
      induction items with
      | nil => exact fun _ => rfl
      | cons v items ih => exact fun index => congrArg (· + 1) (ih (index + 1))
    rw [redact, face, hlength]
    split <;> rfl
  | obj members =>
    have hnames : (redactMembers flagged path members).map Prod.fst = members.map Prod.fst := by
      induction members with
      | nil => rfl
      | cons member members ih => exact congrArg (member.1 :: ·) ih
    rw [redact, face, hnames]
    split <;> rfl
  | _ =>
    rw [redact_scalar _ _ rfl]
    split <;> rfl

/-- The children of a redacted value are its children, each redacted by the path to it. -/
theorem children_redact (flagged : String → Bool) (path : String) (v : Json) :
    (redact flagged path v).children =
      v.children.map fun child => (child.1, redact flagged (path ++ "/" ++ child.1) child.2) := by
  cases v with
  | arr items =>
    have hitems : ∀ index, numbered index (redactItems flagged path index items) =
        (numbered index items).map fun child => (child.1, redact flagged (path ++ "/" ++ child.1) child.2) := by
      induction items with
      | nil => exact fun _ => rfl
      | cons v items ih =>
        intro index
        rw [redactItems, numbered, numbered, List.map_cons, ih]
    rw [redact]
    exact hitems 0
  | obj members =>
    rw [redact]
    change redactMembers flagged path members = members.map _
    induction members with
    | nil => rfl
    | cons member members ih => rw [redactMembers, ih, List.map_cons]
  | _ =>
    rw [redact_scalar _ _ rfl]
    split <;> rfl

/-- At every place the same is seen as before, or what is left of it when its path is flagged. -/
theorem view?_redact (flagged : String → Bool) (path : String) (v : Json) (address : List Nat) :
    (redact flagged path v).view? address =
      (v.view? address).map fun (steps, x) =>
        (steps, if flagged (path ++ pathText steps) then x.emptied else x) := by
  induction address generalizing path v with
  | nil => simp only [view?_nil, Option.map_some, face_redact, pathText, String.append_empty]
  | cons i address ih =>
    rw [view?_cons, view?_cons, children_redact, List.getElem?_map]
    cases v.children[i]? with
    | none => rfl
    | some child =>
      rw [Option.map_some, Option.bind_some, Option.bind_some, ih, Option.map_map, Option.map_map]
      congr 1
      funext (steps, x)
      exact congrArg (fun text => (child.1 :: steps, if flagged text then x.emptied else x))
        (append_pathText_cons path child.1 steps).symm

/-- Redacted values are the same if the values are alike at every place. -/
theorem redact_eq_of_alike
    (h : ∀ address steps x, a.view? address = some (steps, x) →
      ∃ y, b.view? address = some (steps, y) ∧ Face.Alike (flagged (path ++ pathText steps)) x y) :
    redact flagged path a = redact flagged path b := by
  refine eq_of_view _ _ fun address seen hseen => ?_
  rw [view?_redact] at hseen ⊢
  obtain ⟨⟨steps, x⟩, hx, rfl⟩ := Option.map_eq_some_iff.mp hseen
  obtain ⟨y, hy, halike⟩ := h address steps x hx
  rw [hy, Option.map_some]
  exact congrArg (fun z => some (steps, z)) halike.emptied.symm

/-- **Redaction hides what is flagged and keeps all else.** Values that are alike at every place, up to the flagged
scalars, are the same when redacted. Every place of a value is kept, with its steps, with the names of members or the
length seen there, and with every null and every scalar that is not flagged; a flagged truth value, number or text
is replaced by false, zero or the empty text. A redacted value is left as it is. -/
theorem redact_noninterference (flagged : String → Bool) (path : String) :
    (∀ a b : Json,
      (∀ address steps x, a.view? address = some (steps, x) →
        ∃ y, b.view? address = some (steps, y) ∧ Face.Alike (flagged (path ++ pathText steps)) x y) →
      redact flagged path a = redact flagged path b) ∧
    (∀ (v : Json) (address : List Nat),
      (redact flagged path v).view? address =
        (v.view? address).map fun (steps, x) =>
          (steps, if flagged (path ++ pathText steps) then x.emptied else x)) ∧
    ∀ v : Json, redact flagged path (redact flagged path v) = redact flagged path v := by
  refine ⟨fun a b => redact_eq_of_alike, view?_redact flagged path, fun v => ?_⟩
  -- What is seen after the second time is seen after the first, where it was emptied already or is not flagged.
  refine eq_of_view _ _ fun address seen hseen => ?_
  rw [view?_redact] at hseen
  obtain ⟨⟨steps, x⟩, hx, rfl⟩ := Option.map_eq_some_iff.mp hseen
  rw [hx]
  rw [view?_redact] at hx
  obtain ⟨⟨steps', x'⟩, -, heq⟩ := Option.map_eq_some_iff.mp hx
  cases heq
  dsimp only
  split <;> simp

/-- A number and a text within a list, told apart by nothing but their values. -/
theorem redact_noninterference_phones :
    redact (["/phone", "/more/0"].contains ·) ""
        (.obj [("phone", .int 55512), ("more", .arr [.str "55513"])]) =
      redact (["/phone", "/more/0"].contains ·) ""
        (.obj [("phone", .int 0), ("more", .arr [.str "none"])]) := by
  refine (redact_noninterference (["/phone", "/more/0"].contains ·) "").1 _ _ fun address steps x h => ?_
  match address with
  | [] => cases h; exact ⟨_, rfl, .same _ _⟩
  | [0] => cases h; exact ⟨_, rfl, .number rfl rfl⟩
  | [1] => cases h; exact ⟨_, rfl, .same _ _⟩
  | [1, 0] => cases h; exact ⟨_, rfl, .str _ _⟩
  | 0 :: _ :: _ => cases h
  | 1 :: 0 :: _ :: _ => cases h
  | 1 :: (i + 1) :: _ => cases h
  | (i + 2) :: _ => cases h

end Redaction

end SnapshotStaging
