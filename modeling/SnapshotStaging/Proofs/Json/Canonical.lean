import SnapshotStaging.Proofs.Json.Equality
import SnapshotStaging.Proofs.Json.Places

/-!
# Values in canonical order

A value is in order when the names seen at each of its places are. A canonical form is in order, and a value in
order is its own canonical form, so making canonical forms once is enough.

Main results `ordered_canonical` and `Ordered.canonical_eq`.
-/

namespace SnapshotStaging.Json

variable {v w : Json} {members : List (String × Json)}

/-- Names in canonical order. -/
def InOrder (names : List String) : Prop := names.Pairwise fun a b => nameLe a b = true

/-- At every place the members stand in canonical order. -/
def Ordered (v : Json) : Prop :=
  ∀ address steps names, v.view? address = some (steps, .obj names) → InOrder names

/-! ## Canonical forms are in order -/

theorem inOrder_sortMembers (members : List (String × Json)) : InOrder ((sortMembers members).map Prod.fst) :=
  List.pairwise_map.2 (pairwise_sortMembers members)

/-- The values within a canonical form are canonical forms. -/
theorem eq_canonical_of_mem_children {step : String} {c : Json} (h : (step, c) ∈ v.canonical.children) :
    ∃ w : Json, c = w.canonical := by
  cases v with
  | arr items =>
    have hitem : c ∈ (numbered 0 (canonicalItems items)).map Prod.snd := List.mem_map_of_mem (f := Prod.snd) h
    rw [map_snd_numbered, canonicalItems_eq] at hitem
    obtain ⟨w, -, rfl⟩ := List.mem_map.1 hitem
    exact ⟨w, rfl⟩
  | obj members =>
    have hmember : (step, c) ∈ canonicalMembers members := (sortMembers_perm_self _).mem_iff.1 h
    rw [canonicalMembers_eq] at hmember
    obtain ⟨⟨name, w⟩, -, heq⟩ := List.mem_map.1 hmember
    cases heq
    exact ⟨w, rfl⟩
  | _ => cases h

theorem ordered_canonical (v : Json) : v.canonical.Ordered := by
  intro address steps names h
  induction address generalizing v steps with
  | nil =>
    have hface : v.canonical.face = .obj names := (Prod.ext_iff.1 (Option.some.inj h)).2
    cases v with
    | obj members =>
      cases hface
      exact inOrder_sortMembers _
    | _ => cases hface
  | cons i address ih =>
    rw [view?_cons] at h
    obtain ⟨⟨step, c⟩, hchild, hseen⟩ := Option.bind_eq_some_iff.1 h
    obtain ⟨⟨steps', x⟩, hview, heq⟩ := Option.map_eq_some_iff.1 hseen
    cases heq
    obtain ⟨w, rfl⟩ := eq_canonical_of_mem_children (List.mem_of_getElem? hchild)
    exact ih w steps' hview

/-! ## A value in order is its own canonical form -/

theorem Ordered.child (h : v.Ordered) {step : String} {c : Json} (hc : (step, c) ∈ v.children) : c.Ordered := by
  intro address steps names hview
  obtain ⟨i, hi⟩ := List.mem_iff_getElem?.1 hc
  refine h (i :: address) (step :: steps) names ?_
  rw [view?_cons, hi, Option.bind_some, hview]
  rfl

theorem Ordered.item {items : List Json} (h : (arr items).Ordered) (hv : v ∈ items) : v.Ordered := by
  rw [← map_snd_numbered 0 items] at hv
  obtain ⟨⟨step, c⟩, hc, rfl⟩ := List.mem_map.1 hv
  exact Ordered.child (v := arr items) h hc

theorem Ordered.inOrder (h : (obj members).Ordered) : InOrder (members.map Prod.fst) := h [] [] _ rfl

theorem Ordered.member {record v : Json} (h : record.Ordered) {field : String}
    (hv : record.member? field = some v) : v.Ordered :=
  h.child (mem_children_of_member? hv)

/-- **Nothing is left to be sorted in a value in order.** -/
theorem Ordered.canonical_eq {v : Json} (h : v.Ordered) : v.canonical = v := by
  match v, h with
  | .arr items, h =>
    rw [canonical, canonicalItems_eq]
    refine congrArg arr ((List.map_congr_left fun w hw => ?_).trans (List.map_id _))
    have hsmaller := List.sizeOf_lt_of_mem hw
    exact (h.item hw).canonical_eq
  | .obj members, h =>
    have hmembers : canonicalMembers members = members := by
      rw [canonicalMembers_eq]
      refine (List.map_congr_left fun m hm => ?_).trans (List.map_id _)
      have hsmaller : sizeOf m.2 < 1 + sizeOf members := by
        have hchild : (m.1, m.2) ∈ (obj members).children := hm
        simpa using sizeOf_child_lt hchild
      have hvalue : m.2.canonical = m.2 := (h.child (v := obj members) hm).canonical_eq
      rw [hvalue]
      rfl
    have hsorted : members.Pairwise fun a b => nameLe a.1 b.1 = true := List.pairwise_map.1 h.inOrder
    rw [canonical, hmembers, sortMembers, List.mergeSort_of_pairwise hsorted]
  | .null, _ => rfl
  | .bool _, _ => rfl
  | .int _, _ => rfl
  | .float _, _ => rfl
  | .str _, _ => rfl
termination_by sizeOf v

theorem ordered_iff : v.Ordered ↔ v.canonical = v :=
  ⟨Ordered.canonical_eq, fun h => h ▸ ordered_canonical v⟩

/-! ## Whether a value is in order -/

section

variable {σ κ : Type} [DecidableEq σ] [Script σ κ]

mutual

/-- Whether members are in order at every level. -/
def sorted : Json σ → Bool
  | .arr items => sortedItems items
  | .obj members => (members.map Prod.fst).Pairwise (fun a b => nameLe a b = true) && sortedMembers members
  | _ => true

def sortedItems : List (Json σ) → Bool
  | [] => true
  | v :: rest => v.sorted && sortedItems rest

def sortedMembers : List (σ × Json σ) → Bool
  | [] => true
  | (_, v) :: rest => v.sorted && sortedMembers rest

end

mutual

theorem canonical_of_sorted : ∀ {v : Json σ}, v.sorted = true → v.canonical = v
  | .arr _, h => congrArg arr (canonicalItems_of_sorted h)
  | .obj members, h => by
    rw [sorted, Bool.and_eq_true, decide_eq_true_eq] at h
    have hnames : members.Pairwise fun a b => nameLe a.1 b.1 = true := List.pairwise_map.1 h.1
    rw [canonical, canonicalMembers_of_sorted h.2, sortMembers, List.mergeSort_of_pairwise hnames]
  | .null, _ | .bool _, _ | .int _, _ | .float _, _ | .str _, _ => rfl

theorem canonicalItems_of_sorted : ∀ {items : List (Json σ)}, sortedItems items = true → canonicalItems items = items
  | [], _ => rfl
  | _ :: _, h => by
    rw [sortedItems, Bool.and_eq_true] at h
    rw [canonicalItems, canonical_of_sorted h.1, canonicalItems_of_sorted h.2]

theorem canonicalMembers_of_sorted : ∀ {members : List (σ × Json σ)}, sortedMembers members = true →
    canonicalMembers members = members
  | [], _ => rfl
  | (_, _) :: _, h => by
    rw [sortedMembers, Bool.and_eq_true] at h
    rw [canonicalMembers, canonical_of_sorted h.1, canonicalMembers_of_sorted h.2]

end

end

end SnapshotStaging.Json
