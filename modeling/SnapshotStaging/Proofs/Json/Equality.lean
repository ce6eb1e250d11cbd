import Mathlib.Data.List.Perm.Basic
import SnapshotStaging.Proofs.Json.Order
import SnapshotStaging.Proofs.Json.Printing

/-!
# Values that differ only in the order of members

`Json.Reordered` is equality up to the order of members at every level: items are compared in order, scalars by
kind and value. A float's value has its sign, so the two zeros are different numbers. Canonical forms settle it
(`canonical_eq_iff`), since sorting forgets the order of members and nothing else.

Main result `Json.render_canonical_eq_iff`: in every layout two values have one canonical text exactly when they
differ only in the order of members.
-/

namespace SnapshotStaging.Json

variable {σ : Type}

mutual

/-- The same but for the order of members, at every level. -/
inductive Reordered : Json σ → Json σ → Prop
  | scalar {v : Json σ} (h : v.isContainer = false) : Reordered v v
  | arr {items items' : List (Json σ)} (h : ReorderedItems items items') : Reordered (.arr items) (.arr items')
  | obj {members mid members' : List (σ × Json σ)} (h : ReorderedMembers members mid)
      (hperm : mid.Perm members') : Reordered (.obj members) (.obj members')

/-- Item by item. -/
inductive ReorderedItems : List (Json σ) → List (Json σ) → Prop
  | nil : ReorderedItems [] []
  | cons {v w : Json σ} {items items' : List (Json σ)} (h : Reordered v w) (hrest : ReorderedItems items items') :
      ReorderedItems (v :: items) (w :: items')

/-- Member by member, with the same names. -/
inductive ReorderedMembers : List (σ × Json σ) → List (σ × Json σ) → Prop
  | nil : ReorderedMembers [] []
  | cons (name : σ) {v w : Json σ} {members members' : List (σ × Json σ)} (h : Reordered v w)
      (hrest : ReorderedMembers members members') :
      ReorderedMembers ((name, v) :: members) ((name, w) :: members')

end

/-! ## Distinct names -/

theorem distinctMembers_iff {members : List (σ × Json σ)} :
    DistinctMembers members ↔ ∀ m ∈ members, m.2.Distinct := by
  induction members with
  | nil => simp [DistinctMembers]
  | cons m rest ih => simp [DistinctMembers, ih]

variable {κ : Type} [DecidableEq σ] [Script σ κ]

mutual

/-- A canonical form repeats no name that the value does not repeat. -/
theorem Distinct.canonical : ∀ {v : Json σ}, v.Distinct → v.canonical.Distinct
  | .arr items, h => @DistinctItems.canonical items h
  | .obj members, h => by
    have hperm := sortMembers_perm_self (canonicalMembers members)
    refine ⟨?_, distinctMembers_iff.2 ?_⟩
    · rw [(hperm.map Prod.fst).nodup_iff, names_canonicalMembers]
      exact h.1
    · intro m hm
      exact distinctMembers_iff.1 (DistinctMembers.canonical h.2) m (hperm.mem_iff.1 hm)
  | .null, h => h
  | .bool _, h => h
  | .int _, h => h
  | .float _, h => h
  | .str _, h => h

theorem DistinctItems.canonical : ∀ {items : List (Json σ)}, DistinctItems items → DistinctItems (canonicalItems items)
  | [], h => h
  | _ :: _, h => ⟨Distinct.canonical h.1, DistinctItems.canonical h.2⟩

theorem DistinctMembers.canonical : ∀ {members : List (σ × Json σ)}, DistinctMembers members →
    DistinctMembers (canonicalMembers members)
  | [], h => h
  | (_, _) :: _, h => ⟨Distinct.canonical h.1, DistinctMembers.canonical h.2⟩

end

/-! ## Canonical forms of reordered values -/

mutual

theorem Reordered.canonical_eq : ∀ {v w : Json σ}, Reordered v w → v.Distinct → v.canonical = w.canonical
  | _, _, .scalar _, _ => rfl
  | _, _, .arr h, hd => congrArg arr (h.canonical_eq hd)
  | .obj members, .obj members', .obj h hperm, hd => by
    have hmid := h.canonical_eq hd.2
    have hmembers : (canonicalMembers members).Perm (canonicalMembers members') := by
      rw [hmid, canonicalMembers_eq, canonicalMembers_eq]
      exact hperm.map _
    have hnames : ((canonicalMembers members).map Prod.fst).Nodup := by
      rw [names_canonicalMembers]
      exact hd.1
    exact congrArg Json.obj (sortMembers_perm hmembers hnames)

theorem ReorderedItems.canonical_eq : ∀ {items items' : List (Json σ)}, ReorderedItems items items' →
    DistinctItems items → canonicalItems items = canonicalItems items'
  | _, _, .nil, _ => rfl
  | _, _, .cons h hrest, hd => by
    rw [canonicalItems, canonicalItems, h.canonical_eq hd.1, hrest.canonical_eq hd.2]

theorem ReorderedMembers.canonical_eq : ∀ {members members' : List (σ × Json σ)},
    ReorderedMembers members members' → DistinctMembers members →
    canonicalMembers members = canonicalMembers members'
  | _, _, .nil, _ => rfl
  | _, _, .cons _ h hrest, hd => by
    rw [canonicalMembers, canonicalMembers, h.canonical_eq hd.1, hrest.canonical_eq hd.2]

end

/-! ## Values with one canonical form -/

/-- Sorting forgets the order of members only: members with one sorted canonical form are, in another order,
members with one canonical form each. -/
theorem exists_reordering {members members' : List (σ × Json σ)}
    (h : sortMembers (canonicalMembers members) = sortMembers (canonicalMembers members')) :
    ∃ mid, canonicalMembers members = canonicalMembers mid ∧ mid.Perm members' := by
  have hperm := perm_of_sortMembers_eq h
  have hform : List.Forall₂ (fun c m => c = (m.1, m.2.canonical)) (canonicalMembers members') members' := by
    rw [canonicalMembers_eq, List.forall₂_map_left_iff]
    exact List.forall₂_same.2 fun _ _ => rfl
  obtain ⟨mid, hmid, hmidPerm⟩ := List.perm_comp_forall₂ hperm hform
  refine ⟨mid, ?_, hmidPerm⟩
  rw [canonicalMembers_eq mid]
  exact List.forall₂_eq_eq_eq ▸ (List.forall₂_map_right_iff.2 hmid)

mutual

/-- **A canonical form is its own.** -/
theorem canonical_canonical : ∀ v : Json σ, v.canonical.canonical = v.canonical
  | .arr items => congrArg arr (canonicalItems_canonicalItems items)
  | .obj members => by
    have hmembers : canonicalMembers (sortMembers (canonicalMembers members)) =
        sortMembers (canonicalMembers members) := by
      rw [canonicalMembers_eq]
      refine (List.map_congr_left fun m hm => ?_).trans (List.map_id _)
      exact Prod.ext rfl (canonical_of_mem members ((sortMembers_perm_self _).mem_iff.1 hm))
    rw [canonical, canonical, hmembers, sortMembers, List.mergeSort_of_pairwise (pairwise_sortMembers _)]
  | .null | .bool _ | .int _ | .float _ | .str _ => rfl

theorem canonicalItems_canonicalItems : ∀ items : List (Json σ),
    canonicalItems (canonicalItems items) = canonicalItems items
  | [] => rfl
  | v :: items => by
    rw [canonicalItems, canonicalItems, canonical_canonical v, canonicalItems_canonicalItems items]

theorem canonical_of_mem {m : σ × Json σ} : ∀ members : List (σ × Json σ), m ∈ canonicalMembers members →
    m.2.canonical = m.2
  | (_, v) :: members, h => (List.mem_cons.1 h).elim
    (fun h => h ▸ canonical_canonical v) (canonical_of_mem members)

end

theorem canonical_of_scalar {v : Json σ} (h : v.isContainer = false) : v.canonical = v := by
  cases v <;> first | rfl | cases h

theorem isContainer_canonical (v : Json σ) : v.canonical.isContainer = v.isContainer := by
  cases v <;> rfl

theorem reordered_of_scalar {v w : Json σ} (hv : v.isContainer = false) (h : v.canonical = w.canonical) :
    Reordered v w := by
  have hw : w.isContainer = false := by rw [← isContainer_canonical, ← h, isContainer_canonical, hv]
  rw [canonical_of_scalar hv, canonical_of_scalar hw] at h
  subst h
  exact .scalar hv

mutual

theorem reordered_of_canonical_eq : ∀ {v w : Json σ}, v.canonical = w.canonical → Reordered v w
  | .arr items, w, h => by
    cases w with
    | arr items' => exact .arr (reorderedItems_of_canonical_eq (arr.inj h))
    | _ => cases h
  | .obj members, w, h => by
    cases w with
    | obj members' =>
      obtain ⟨mid, hmid, hperm⟩ := exists_reordering (obj.inj h)
      exact .obj (reorderedMembers_of_canonical_eq hmid) hperm
    | _ => cases h
  | .null, _, h => reordered_of_scalar rfl h
  | .bool _, _, h => reordered_of_scalar rfl h
  | .int _, _, h => reordered_of_scalar rfl h
  | .float _, _, h => reordered_of_scalar rfl h
  | .str _, _, h => reordered_of_scalar rfl h

theorem reorderedItems_of_canonical_eq : ∀ {items items' : List (Json σ)},
    canonicalItems items = canonicalItems items' → ReorderedItems items items'
  | [], [], _ => .nil
  | v :: items, w :: items', h => by
    rw [canonicalItems, canonicalItems, List.cons.injEq] at h
    exact .cons (reordered_of_canonical_eq h.1) (reorderedItems_of_canonical_eq h.2)

theorem reorderedMembers_of_canonical_eq : ∀ {members members' : List (σ × Json σ)},
    canonicalMembers members = canonicalMembers members' → ReorderedMembers members members'
  | [], [], _ => .nil
  | (name, v) :: members, (name', w) :: members', h => by
    simp only [canonicalMembers, List.cons.injEq, Prod.mk.injEq] at h
    obtain ⟨⟨rfl, hv⟩, hrest⟩ := h
    exact .cons name (reordered_of_canonical_eq hv) (reorderedMembers_of_canonical_eq hrest)

end

/-- Canonical forms are equal exactly for values that differ only in the order of members. -/
theorem canonical_eq_iff {v w : Json σ} (hv : v.Distinct) : v.canonical = w.canonical ↔ Reordered v w :=
  ⟨reordered_of_canonical_eq, fun h => h.canonical_eq hv⟩

/-- **Canonical text decides equality**: in every layout, two values whose objects repeat no name have one
canonical text exactly when they differ only in the order of members. -/
theorem render_canonical_eq_iff (l : Layout) {v w : Json σ} (hv : v.Distinct) (hw : w.Distinct) :
    v.canonical.render l = w.canonical.render l ↔ Reordered v w := by
  rw [render_inj hv.canonical hw.canonical]
  exact canonical_eq_iff hv

/-- Members change places at two levels; items must not, nor may a number change its kind. -/
theorem render_canonical_nested_eq :
    (obj [("b", arr [obj [("x", null), ("id", str "\"\n")], int 1]), ("id", bool true)]).Distinct ∧
    (obj [("id", bool true), ("b", arr [obj [("id", str "\"\n"), ("x", null)], int 1])]).Distinct ∧
    (obj [("b", arr [obj [("x", null), ("id", str "\"\n")], int 1]), ("id", bool true)]).canonical.pretty =
      (obj [("id", bool true), ("b", arr [obj [("id", str "\"\n"), ("x", null)], int 1])]).canonical.pretty ∧
    (arr [int 0, null] : Json).canonical.compact ≠ (arr [null, int 0] : Json).canonical.compact ∧
    (arr [int 0] : Json).canonical.compact ≠ (arr [float (.finite false ⟨0, by decide⟩)] : Json).canonical.compact := by
  have hleft : (obj [("b", arr [obj [("x", null), ("id", str "\"\n")], int 1]), ("id", bool true)]).Distinct := by
    simp [Distinct, DistinctItems, DistinctMembers]
  have hright : (obj [("id", bool true), ("b", arr [obj [("id", str "\"\n"), ("x", null)], int 1])]).Distinct := by
    simp [Distinct, DistinctItems, DistinctMembers]
  have hinner : Reordered (obj [("x", null), ("id", str "\"\n")]) (obj [("id", str "\"\n"), ("x", null)]) :=
    .obj (.cons "x" (.scalar rfl) (.cons "id" (.scalar rfl) .nil)) (.swap ..)
  have houter : ReorderedMembers [("b", arr [obj [("x", null), ("id", str "\"\n")], int 1]), ("id", bool true)]
      [("b", arr [obj [("id", str "\"\n"), ("x", null)], int 1]), ("id", bool true)] :=
    .cons "b" (.arr (.cons hinner (.cons (.scalar rfl) .nil))) (.cons "id" (.scalar rfl) .nil)
  refine ⟨hleft, hright, (render_canonical_eq_iff _ hleft hright).2 (.obj houter (.swap ..)), ?_, ?_⟩
  · intro h
    have hitems := (render_canonical_eq_iff .compact (by simp [Distinct, DistinctItems])
      (by simp [Distinct, DistinctItems])).1 h
    rcases hitems with _ | ⟨_ | ⟨hfirst, hrest⟩⟩
    cases hfirst
  · intro h
    have hitems := (render_canonical_eq_iff .compact (by simp [Distinct, DistinctItems])
      (by simp [Distinct, DistinctItems])).1 h
    rcases hitems with _ | ⟨_ | ⟨hfirst, hrest⟩⟩
    cases hfirst

end SnapshotStaging.Json
