import SnapshotStaging.Proofs.Json.Equality

/-!
# Halves of surrogate pairs

An escape may name half of a surrogate pair. A text keeps such a half, and a page has another letter for it, so a
string is read in two ways; one whose code points are all characters is not (`Fragment.points_of_paged`). A value with
`String` texts holds no half (`Json.whole_points`), and putting members in order does not depend on what texts are made
of (`Json.canonical_points`).
-/

namespace SnapshotStaging

/-! ## Strings -/

/-- Whether a code point is a character and no half of a pair. -/
def CodePoint.isChar : CodePoint → Bool
  | .char _ => true
  | .half _ => false

namespace Fragment

theorem toNat_of_char? {code : Nat} {c : Char} (h : char? code = some c) : c.toNat = code := by
  rw [char?, Glyph.ofCode] at h
  split at h
  · next d heq =>
    split at heq
    · next hvalid =>
      cases heq
      cases h
      have hsmall : code < UInt32.size := by rcases hvalid with hvalid | ⟨-, hvalid⟩ <;> simp [UInt32.size] <;> omega
      exact UInt32.toNat_ofNat_of_lt' hsmall
    · cases heq
  · cases h

/-- An escape that names a character names no half of a pair. -/
theorem named_of_char? {code : Nat} {c : Char} (h : char? code = some c) : named code = .char c := by
  rw [← toNat_of_char? h, named_toNat]

theorem not_isHigh_of_named {value : Nat} (h : (named value).isChar = true) : ¬ isHigh value = true := by
  intro hhigh
  simp only [isHigh, Bool.and_eq_true, decide_eq_true_eq] at hhigh
  rw [named, dif_pos ⟨hhigh.1, by omega⟩] at h
  cases h

theorem points_ne_none {fs : List Fragment} (h : .stray ∉ fs) : points fs ≠ none := by
  induction fs using points.induct with
  | case1 => exact Option.some_ne_none _
  | case2 p rest ih => simpa [points] using ih (List.not_mem_of_not_mem_cons h)
  | case3 => simp at h
  | case4 high low rest hpair ih => simpa [points, hpair] using ih fun hmem => h (by simp [hmem])
  | case5 high low rest hpair ih => simpa [points, hpair] using ih (List.not_mem_of_not_mem_cons h)
  | case6 value rest hrest ih =>
    rw [points]
    · simpa using ih (List.not_mem_of_not_mem_cons h)
    · exact hrest

theorem stray_notMem_of_paged {fs : List Fragment} {cs : List Char} (h : paged fs = some cs) : .stray ∉ fs := by
  induction fs using paged.induct generalizing cs with
  | case1 => simp
  | case2 c rest ih =>
    obtain ⟨cs, hrest, -⟩ := Option.map_eq_some_iff.1 h
    simpa using ih hrest
  | case3 => cases h
  | case4 => cases h
  | case5 high low rest hhigh ih =>
    rw [paged, if_pos hhigh] at h
    obtain ⟨c, -, h⟩ := Option.bind_eq_some_iff.1 h
    obtain ⟨cs, hrest, -⟩ := Option.map_eq_some_iff.1 h
    simpa using ih hrest
  | case6 high low rest hhigh ih =>
    rw [paged, if_neg hhigh] at h
    obtain ⟨c, -, h⟩ := Option.bind_eq_some_iff.1 h
    obtain ⟨cs, hrest, -⟩ := Option.map_eq_some_iff.1 h
    simpa using ih hrest
  | case7 value rest hlast hhigh ih =>
    rw [paged, if_pos hhigh] at h
    · obtain ⟨cs, hrest, -⟩ := Option.map_eq_some_iff.1 h
      simpa using ih hrest
    · exact hlast
  | case8 value rest hlast hhigh ih =>
    rw [paged, if_neg hhigh] at h
    · obtain ⟨c, -, h⟩ := Option.bind_eq_some_iff.1 h
      obtain ⟨cs, hrest, -⟩ := Option.map_eq_some_iff.1 h
      simpa using ih hrest
    · exact hlast

/-- **A page and a text read a string alike** where the text holds no half of a pair. -/
theorem points_of_paged {fs : List Fragment} {ps : List CodePoint} {cs : List Char} (hcs : paged fs = some cs)
    (hps : points fs = some ps) (hwhole : ∀ p ∈ ps, p.isChar = true) : ps = cs.map .char := by
  induction fs using points.induct generalizing ps cs with
  | case1 =>
    cases hcs
    cases hps
    rfl
  | case2 p rest ih =>
    obtain ⟨ps, htext, rfl⟩ := Option.map_eq_some_iff.1 hps
    obtain ⟨hp, hrest⟩ := List.forall_mem_cons.1 hwhole
    cases p with
    | char c =>
      obtain ⟨cs, hpage, rfl⟩ := Option.map_eq_some_iff.1 hcs
      rw [ih hpage htext hrest, List.map_cons]
    | half d => cases hp
  | case3 => cases hcs
  | case4 high low rest hpair ih =>
    rw [points, if_pos hpair] at hps
    rw [paged, if_pos (Bool.and_eq_true_iff.1 hpair).1] at hcs
    obtain ⟨c, hc, hcs⟩ := Option.bind_eq_some_iff.1 hcs
    obtain ⟨ps, htext, rfl⟩ := Option.map_eq_some_iff.1 hps
    obtain ⟨cs, hpage, rfl⟩ := Option.map_eq_some_iff.1 hcs
    rw [ih hpage htext (List.forall_mem_cons.1 hwhole).2, ← toNat_of_char? hc, Char.ofNat_toNat, List.map_cons]
  | case5 high low rest hpair ih =>
    rw [points, if_neg hpair] at hps
    obtain ⟨ps, htext, rfl⟩ := Option.map_eq_some_iff.1 hps
    obtain ⟨hp, hrest⟩ := List.forall_mem_cons.1 hwhole
    rw [paged, if_neg (not_isHigh_of_named hp)] at hcs
    obtain ⟨c, hc, hcs⟩ := Option.bind_eq_some_iff.1 hcs
    obtain ⟨cs, hpage, rfl⟩ := Option.map_eq_some_iff.1 hcs
    rw [ih hpage htext hrest, named_of_char? hc, List.map_cons]
  | case6 value rest hlast ih =>
    rw [points] at hps
    case x_1 => exact hlast
    obtain ⟨ps, htext, rfl⟩ := Option.map_eq_some_iff.1 hps
    obtain ⟨hp, hrest⟩ := List.forall_mem_cons.1 hwhole
    rw [paged, if_neg (not_isHigh_of_named hp)] at hcs
    case x_1 => exact hlast
    obtain ⟨c, hc, hcs⟩ := Option.bind_eq_some_iff.1 hcs
    obtain ⟨cs, hpage, rfl⟩ := Option.map_eq_some_iff.1 hcs
    rw [ih hpage htext hrest, named_of_char? hc, List.map_cons]

end Fragment

/-! ## Values -/

namespace Json

mutual

/-- A value with its texts in code points. -/
def points : Json → Json (List CodePoint)
  | .null => .null
  | .bool b => .bool b
  | .int n => .int n
  | .float x => .float x
  | .str s => .str (Script.points s)
  | .arr items => .arr (itemPoints items)
  | .obj members => .obj (memberPoints members)

def itemPoints : List Json → List (Json (List CodePoint))
  | [] => []
  | v :: rest => v.points :: itemPoints rest

def memberPoints : List (String × Json) → List (List CodePoint × Json (List CodePoint))
  | [] => []
  | (name, v) :: rest => (Script.points name, v.points) :: memberPoints rest

end

mutual

/-- Whether a value holds no half of a surrogate pair. -/
def whole : Json (List CodePoint) → Bool
  | .str s => s.all CodePoint.isChar
  | .arr items => wholeItems items
  | .obj members => wholeMembers members
  | _ => true

def wholeItems : List (Json (List CodePoint)) → Bool
  | [] => true
  | v :: rest => v.whole && wholeItems rest

def wholeMembers : List (List CodePoint × Json (List CodePoint)) → Bool
  | [] => true
  | (name, v) :: rest => name.all CodePoint.isChar && v.whole && wholeMembers rest

end

theorem wholeMembers_iff {members : List (List CodePoint × Json (List CodePoint))} :
    wholeMembers members = true ↔ ∀ m ∈ members, m.1.all CodePoint.isChar = true ∧ m.2.whole = true := by
  induction members with
  | nil => simp [wholeMembers]
  | cons m rest ih => simp [wholeMembers, ih, and_assoc]

theorem memberPoints_eq (members : List (String × Json)) :
    memberPoints members = members.map fun m => (Script.points m.1, m.2.points) := by
  induction members with
  | nil => rfl
  | cons m rest ih => rw [memberPoints, ih, List.map_cons]

mutual

theorem points_injective : ∀ {v w : Json}, v.points = w.points → v = w
  | .null, w, h => by cases w <;> first | rfl | cases h
  | .bool b, w, h => by cases w <;> first | (cases h; rfl) | cases h
  | .int n, w, h => by cases w <;> first | (cases h; rfl) | cases h
  | .float x, w, h => by cases w <;> first | (cases h; rfl) | cases h
  | .str s, w, h => by
    cases w with
    | str t => exact congrArg str (Script.points_injective (str.inj h))
    | _ => cases h
  | .arr items, w, h => by
    cases w with
    | arr items' => exact congrArg arr (itemPoints_injective (arr.inj h))
    | _ => cases h
  | .obj members, w, h => by
    cases w with
    | obj members' => exact congrArg obj (memberPoints_injective (obj.inj h))
    | _ => cases h

theorem itemPoints_injective : ∀ {items items' : List Json}, itemPoints items = itemPoints items' → items = items'
  | [], [], _ => rfl
  | v :: rest, w :: rest', h => by
    rw [itemPoints, itemPoints, List.cons.injEq] at h
    rw [points_injective h.1, itemPoints_injective h.2]

theorem memberPoints_injective : ∀ {members members' : List (String × Json)},
    memberPoints members = memberPoints members' → members = members'
  | [], [], _ => rfl
  | (name, v) :: rest, (name', w) :: rest', h => by
    simp only [memberPoints, List.cons.injEq, Prod.mk.injEq] at h
    rw [Script.points_injective h.1.1, points_injective h.1.2, memberPoints_injective h.2]

end

/-- A `String` holds characters only. -/
theorem all_isChar_points (s : String) : (Script.points s).all CodePoint.isChar = true := by
  simp [Script.points, Letter.point, CodePoint.isChar]

mutual

theorem whole_points : ∀ v : Json, v.points.whole = true
  | .null | .bool _ | .int _ | .float _ => rfl
  | .str s => all_isChar_points s
  | .arr items => wholeItems_points items
  | .obj members => wholeMembers_points members

theorem wholeItems_points : ∀ items : List Json, wholeItems (itemPoints items) = true
  | [] => rfl
  | v :: rest => by rw [itemPoints, wholeItems, whole_points v, wholeItems_points rest]; rfl

theorem wholeMembers_points : ∀ members : List (String × Json), wholeMembers (memberPoints members) = true
  | [] => rfl
  | (name, v) :: rest => by
    rw [memberPoints, wholeMembers, all_isChar_points, whole_points v, wholeMembers_points rest]
    rfl

end

/-! ### Canonical order -/

theorem nameLe_points (a b : String) : nameLe (Script.points a) (Script.points b) = nameLe a b := by
  have hcodes (s : String) : codes (Script.points s) = codes s := congrArg (List.map CodePoint.code) (List.map_id _)
  have hid (s : String) : Script.points s = Script.ofString idField ↔ s = Script.ofString idField :=
    ⟨fun h => Script.points_injective h, fun h => congrArg Script.points h⟩
  rw [Bool.eq_iff_iff, nameLe_iff, nameLe_iff, hcodes, hcodes, hid]
  exact or_congr_right (and_congr_left' (not_congr (hid b)))

mutual

theorem canonical_points : ∀ v : Json, v.points.canonical = v.canonical.points
  | .null | .bool _ | .int _ | .float _ | .str _ => rfl
  | .arr items => congrArg arr (canonicalItems_points items)
  | .obj members => by
    have hsorted : sortMembers (memberPoints (canonicalMembers members)) =
        memberPoints (sortMembers (canonicalMembers members)) := by
      rw [memberPoints_eq, memberPoints_eq, sortMembers, sortMembers]
      refine (List.map_mergeSort fun a _ b _ => ?_).symm
      exact (nameLe_points a.1 b.1).symm
    rw [points, canonical, canonicalMembers_points members, hsorted]
    rfl

theorem canonicalItems_points : ∀ items : List Json,
    canonicalItems (itemPoints items) = itemPoints (canonicalItems items)
  | [] => rfl
  | v :: rest => by
    rw [itemPoints, canonicalItems, canonical_points v, canonicalItems_points rest]
    rfl

theorem canonicalMembers_points : ∀ members : List (String × Json),
    canonicalMembers (memberPoints members) = memberPoints (canonicalMembers members)
  | [] => rfl
  | (name, v) :: rest => by
    rw [memberPoints, canonicalMembers, canonical_points v, canonicalMembers_points rest]
    rfl

end

mutual

/-- Sorting neither adds halves nor takes them away. -/
theorem whole_canonical : ∀ u : Json (List CodePoint), u.canonical.whole = u.whole
  | .null | .bool _ | .int _ | .float _ | .str _ => rfl
  | .arr items => wholeItems_canonical items
  | .obj members => by
    have hperm := sortMembers_perm_self (canonicalMembers members)
    rw [canonical, whole, whole, ← wholeMembers_canonical members, Bool.eq_iff_iff, wholeMembers_iff, wholeMembers_iff]
    exact forall_congr' fun m => imp_congr_left hperm.mem_iff

theorem wholeItems_canonical : ∀ items : List (Json (List CodePoint)),
    wholeItems (canonicalItems items) = wholeItems items
  | [] => rfl
  | v :: rest => by rw [canonicalItems, wholeItems, whole_canonical v, wholeItems_canonical rest, wholeItems]

theorem wholeMembers_canonical : ∀ members : List (List CodePoint × Json (List CodePoint)),
    wholeMembers (canonicalMembers members) = wholeMembers members
  | [] => rfl
  | (name, v) :: rest => by
    rw [canonicalMembers, wholeMembers, whole_canonical v, wholeMembers_canonical rest, wholeMembers]

end

end Json

end SnapshotStaging
