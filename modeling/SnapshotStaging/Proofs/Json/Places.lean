import SnapshotStaging.Json.Basic

/-!
# Places in a value

A place is reached from the value by taking children one after the other, and has an address: which child is taken
at each step. The name of the member or the index of the item that is taken is the step's text. What is seen at a
place is a scalar, the length of an array or the names of an object's members. Repeated members have addresses of
their own, though the steps to them are the same.

Main result: `eq_of_view` — a value is what is seen at its places.
-/

namespace SnapshotStaging.Json

/-- What is seen of a value from outside. -/
inductive Face
  | null
  | bool (b : Bool)
  | int (n : Int)
  | float (x : Double)
  | str (s : String)
  | arr (length : Nat)
  | obj (names : List String)
  deriving DecidableEq

def face : Json → Face
  | .null => .null
  | .bool b => .bool b
  | .int n => .int n
  | .float x => .float x
  | .str s => .str s
  | .arr items => .arr items.length
  | .obj members => .obj (members.map Prod.fst)

/-- The number of children of a value. -/
def Face.arity : Face → Nat
  | .arr length => length
  | .obj names => names.length
  | _ => 0

/-- Items with their indexes, from `index` on. -/
def numbered (index : Nat) : List Json → List (String × Json)
  | [] => []
  | v :: items => (String.ofList (digits index), v) :: numbered (index + 1) items

/-- The values within a value, each with the step that leads to it. -/
def children : Json → List (String × Json)
  | .arr items => numbered 0 items
  | .obj members => members
  | _ => []

/-- The steps to the place at an address, and what is seen there. -/
def view? : List Nat → Json → Option (List String × Face)
  | [], v => some ([], v.face)
  | i :: address, v =>
    v.children[i]?.bind fun child => (view? address child.2).map fun (steps, x) => (child.1 :: steps, x)

variable {v w : Json} {i : Nat} {step : String} {child : Json}

theorem map_snd_numbered (index : Nat) (items : List Json) : (numbered index items).map Prod.snd = items := by
  induction items generalizing index with
  | nil => rfl
  | cons v items ih => rw [numbered, List.map_cons, ih]

/-- A step is an index or the name of a member. -/
theorem step_of_mem_children (h : (step, child) ∈ v.children) :
    (∃ index, step = String.ofList (digits index)) ∨ ∃ names, v.face = .obj names ∧ step ∈ names := by
  cases v with
  | arr items =>
    have hnumbered (items : List Json) :
        ∀ index, (step, child) ∈ numbered index items → ∃ index, step = String.ofList (digits index) := by
      induction items with
      | nil => exact fun _ hmem => absurd hmem List.not_mem_nil
      | cons v items ih =>
        intro index hmem
        rcases List.mem_cons.1 hmem with heq | hmem
        · exact ⟨index, congrArg Prod.fst heq⟩
        · exact ih (index + 1) hmem
    exact .inl (hnumbered items 0 h)
  | obj members => exact .inr ⟨_, rfl, List.mem_map_of_mem (f := Prod.fst) h⟩
  | _ => cases h

theorem mem_of_find? {members : List (String × Json)} {name : String}
    (h : find? name members = some v) : (name, v) ∈ members := by
  induction members with
  | nil => cases h
  | cons m rest ih =>
    obtain ⟨n, w⟩ := m
    rw [find?] at h
    split at h
    · next heq =>
      cases h
      exact heq ▸ List.mem_cons_self ..
    · exact List.mem_cons_of_mem _ (ih h)

theorem mem_children_of_member? {field : String} (h : w.member? field = some v) : (field, v) ∈ w.children := by
  cases w with
  | obj members => exact mem_of_find? h
  | _ => cases h

theorem length_children (v : Json) : v.children.length = v.face.arity := by
  cases v with
  | arr items =>
    have := congrArg List.length (map_snd_numbered 0 items)
    rwa [List.length_map] at this
  | obj members => exact (List.length_map _).symm
  | _ => rfl

/-- A value has nothing but its face and its children. -/
theorem eq_of_face_children (hface : v.face = w.face) (hchildren : v.children = w.children) : v = w := by
  cases v with
  | arr items =>
    cases w with
    | arr others =>
      have hitems : numbered 0 items = numbered 0 others := hchildren
      rw [← map_snd_numbered 0 items, hitems, map_snd_numbered]
    | _ => cases hface
  | obj members =>
    cases w with
    | obj others => exact congrArg Json.obj hchildren
    | _ => cases hface
  | _ =>
    cases w <;> cases hface
    rfl

theorem sizeOf_child_lt (h : (step, child) ∈ v.children) : sizeOf child < sizeOf v := by
  have hmem : child ∈ v.children.map Prod.snd := List.mem_map_of_mem h
  cases v with
  | arr items =>
    have := List.sizeOf_lt_of_mem ((map_snd_numbered 0 items) ▸ hmem)
    grind [Json.arr.sizeOf_spec]
  | obj members =>
    have := List.sizeOf_lt_of_mem (show (step, child) ∈ members from h)
    grind [Json.obj.sizeOf_spec, Prod.mk.sizeOf_spec]
  | _ => cases h

theorem view?_nil (v : Json) : v.view? [] = some ([], v.face) := rfl

theorem view?_cons (v : Json) (i : Nat) (address : List Nat) :
    v.view? (i :: address) =
      v.children[i]?.bind fun child => (child.2.view? address).map fun (steps, x) => (child.1 :: steps, x) :=
  rfl

/-- **What is seen at the places of a value is the value**: if another shows the same at each of them, it is the
same. -/
theorem eq_of_view (v w : Json)
    (h : ∀ address seen, v.view? address = some seen → w.view? address = some seen) : v = w := by
  have hface : v.face = w.face := by
    have := h [] _ (view?_nil v)
    rw [view?_nil] at this
    exact (Prod.ext_iff.mp (Option.some.inj this)).2.symm
  refine eq_of_face_children hface (List.ext_getElem? fun i => ?_)
  cases hv : v.children[i]? with
  | none =>
    have hlength : w.children.length = v.children.length := by rw [length_children, length_children, hface]
    rw [List.getElem?_eq_none_iff, ← hlength] at hv
    exact (List.getElem?_eq_none_iff.mpr hv).symm
  | some child =>
    obtain ⟨step, c⟩ := child
    -- Below the child all is seen through the same child of the other value, since an index names one child.
    have hbelow : ∀ address steps x, c.view? address = some (steps, x) →
        ∃ d, w.children[i]? = some (step, d) ∧ d.view? address = some (steps, x) := by
      intro address steps x hc
      have := h (i :: address) (step :: steps, x) (by rw [view?_cons, hv, Option.bind_some, hc]; rfl)
      rw [view?_cons] at this
      obtain ⟨⟨step', d⟩, hw, hd⟩ := Option.bind_eq_some_iff.mp this
      obtain ⟨⟨steps', x'⟩, hd, heq⟩ := Option.map_eq_some_iff.mp hd
      cases heq
      exact ⟨d, hw, hd⟩
    obtain ⟨d, hw, -⟩ := hbelow [] [] c.face (view?_nil c)
    have hsmaller : sizeOf c < sizeOf v := sizeOf_child_lt (List.mem_of_getElem? hv)
    have : c = d := eq_of_view c d fun address seen hc => by
      obtain ⟨d', hw', hd⟩ := hbelow address seen.1 seen.2 hc
      rw [hw] at hw'
      cases hw'
      exact hd
    rw [hw, this]
termination_by sizeOf v

end SnapshotStaging.Json
