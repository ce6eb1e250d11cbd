import Mathlib.Data.List.Nodup
import Mathlib.Logic.Relation
import SnapshotStaging.Json.Canonical
import SnapshotStaging.Proofs.Json.Tree

/-!
# The order of members

Two documents are the same but for the order of their members when members with different names have changed
places, at any level; members with one name keep their order, since the last of them counts. Putting members
together in another order gives the same members (`put_put_perm`), and sorting them gives one list, for no name
is there twice. The order of members has no part in what reading and ordering ask of the platform: the pieces of
such documents are the same, and a value takes as many calls as its canonical form.

Main result `Tree.Same.canonical_value`: such documents stand for values with one canonical form.
-/

namespace SnapshotStaging

namespace Json

/-! ## Names -/

section

variable {σ κ : Type} [Script σ κ]

theorem codes_injective {a b : σ} (h : codes a = codes b) : a = b :=
  Script.points_injective (List.map_injective_iff.2 (fun _ _ => CodePoint.code_injective) h)

end

variable {σ : Type} [DecidableEq σ] {name name' : σ} {v v' w : Json σ} {members members' : List (σ × Json σ)}

/-! ## Setting members -/

/-- Setting a member takes all of its name away and adds one. -/
theorem put_perm (h : (members.map Prod.fst).Nodup) :
    (put name v members).Perm ((name, v) :: members.filter (·.1 ≠ name)) := by
  induction members with
  | nil => exact .refl _
  | cons m rest ih =>
    obtain ⟨n, w⟩ := m
    obtain ⟨hnew, hrest⟩ := List.nodup_cons.1 h
    rw [put]
    split
    · next heq =>
      subst heq
      have hkept : rest.filter (·.1 ≠ n) = rest := by
        rw [List.filter_eq_self]
        intro m hm
        have hmem : m.1 ∈ rest.map Prod.fst := List.mem_map_of_mem hm
        exact decide_eq_true fun heq => hnew (heq ▸ hmem)
      rw [List.filter_cons_of_neg (by simp), hkept]
    · next hne =>
      rw [List.filter_cons_of_pos (by simpa using hne)]
      exact ((ih hrest).cons _).trans (.swap ..)

theorem nodup_put (h : (members.map Prod.fst).Nodup) : ((put name v members).map Prod.fst).Nodup := by
  rw [((put_perm h).map Prod.fst).nodup_iff, List.map_cons, List.nodup_cons]
  constructor
  · simp
  · exact h.sublist (List.filter_sublist.map _)

/-- Two members with different names may be set in any order. -/
theorem put_put_perm (hne : name ≠ name') (h : (members.map Prod.fst).Nodup) :
    (put name v (put name' w members)).Perm (put name' w (put name v members)) := by
  have hboth {n n' : σ} {x y : Json σ} (hne : n ≠ n') : (put n x (put n' y members)).Perm
      ((n, x) :: (n', y) :: members.filter fun m => m.1 ≠ n && m.1 ≠ n') := by
    refine (put_perm (nodup_put h)).trans (.cons _ ?_)
    have hput : (put n' y members).Perm ((n', y) :: members.filter (·.1 ≠ n')) := put_perm h
    have hfiltered := hput.filter (·.1 ≠ n)
    rwa [List.filter_cons_of_pos (by simpa using hne.symm), List.filter_filter] at hfiltered
  refine (hboth hne).trans ((List.Perm.swap ..).trans ?_)
  have hother := (hboth (x := w) (y := v) hne.symm).symm
  simpa only [Bool.and_comm] using hother

/-! ## Canonical order -/

variable {κ : Type} [Script σ κ]

theorem canonicalItems_eq (items : List (Json σ)) : canonicalItems items = items.map canonical := by
  induction items with
  | nil => rfl
  | cons v rest ih => rw [canonicalItems, ih, List.map_cons]

theorem canonicalMembers_eq (members : List (σ × Json σ)) :
    canonicalMembers members = members.map fun m => (m.1, m.2.canonical) := by
  induction members with
  | nil => rfl
  | cons m rest ih => rw [canonicalMembers, ih, List.map_cons]

theorem names_canonicalMembers (members : List (σ × Json σ)) :
    (canonicalMembers members).map Prod.fst = members.map Prod.fst := by
  rw [canonicalMembers_eq, List.map_map]
  rfl

theorem canonicalMembers_put (name : σ) (v : Json σ) (members : List (σ × Json σ)) :
    canonicalMembers (put name v members) = put name v.canonical (canonicalMembers members) := by
  induction members with
  | nil => rfl
  | cons m rest ih =>
    obtain ⟨n, w⟩ := m
    by_cases heq : n = name
    · simp [put, canonicalMembers, heq]
    · simp [put, canonicalMembers, heq, ih]

/-- The identifier stands before all other names, which stand in the order of their code points. -/
theorem nameLe_iff {a b : σ} : nameLe a b = true ↔
    a = Script.ofString idField ∨ b ≠ Script.ofString idField ∧ ¬ List.Lex (· < ·) (codes b) (codes a) := by
  simp [nameLe, List.lex_eq_decide_lex]

theorem nameLe_total (a b : σ) : (nameLe a b || nameLe b a) = true := by
  rw [Bool.or_eq_true, nameLe_iff, nameLe_iff]
  by_cases ha : a = Script.ofString idField
  · exact .inl (.inl ha)
  · by_cases hb : b = Script.ofString idField
    · exact .inr (.inl hb)
    · exact (List.le_total (codes a) (codes b)).imp (fun h => .inr ⟨hb, h⟩) fun h => .inr ⟨ha, h⟩

theorem nameLe_trans {a b c : σ} (hab : nameLe a b = true) (hbc : nameLe b c = true) : nameLe a c = true := by
  rw [nameLe_iff] at hab hbc ⊢
  rcases hab with hab | ⟨hb, hab⟩
  · exact .inl hab
  · rcases hbc with hbc | ⟨hc, hbc⟩
    · exact absurd hbc hb
    · exact .inr ⟨hc, List.le_trans hab hbc⟩

theorem nameLe_antisymm {a b : σ} (hab : nameLe a b = true) (hba : nameLe b a = true) : a = b := by
  rw [nameLe_iff] at hab hba
  rcases hab with rfl | ⟨hb, hab⟩
  · rcases hba with hba | ⟨ha, -⟩
    · exact hba.symm
    · exact absurd rfl ha
  · rcases hba with hba | ⟨-, hba⟩
    · exact absurd hba hb
    · exact codes_injective (List.le_antisymm hab hba)

theorem sortMembers_perm_self (members : List (σ × Json σ)) : (sortMembers members).Perm members :=
  List.mergeSort_perm ..

theorem pairwise_sortMembers (members : List (σ × Json σ)) :
    (sortMembers members).Pairwise fun a b => nameLe a.1 b.1 = true := by
  unfold sortMembers
  exact @List.pairwise_mergeSort _ (fun a b : σ × Json σ => nameLe a.1 b.1)
    (fun _ _ _ hab hbc => nameLe_trans hab hbc) (fun a b => nameLe_total a.1 b.1) members

theorem perm_of_sortMembers_eq (h : sortMembers members = sortMembers members') : members.Perm members' :=
  (sortMembers_perm_self members).symm.trans (h ▸ sortMembers_perm_self members')

/-- Members of which no two have one name are sorted into one list. -/
theorem sortMembers_perm (hperm : members.Perm members') (h : (members.map Prod.fst).Nodup) :
    sortMembers members = sortMembers members' := by
  have hboth : (sortMembers members).Perm (sortMembers members') :=
    (sortMembers_perm_self _).trans (hperm.trans (sortMembers_perm_self _).symm)
  refine hboth.eq_of_pairwise ?_ (pairwise_sortMembers _) (pairwise_sortMembers _)
  intro a b ha hb hab hba
  have ha : a ∈ members := (sortMembers_perm_self _).mem_iff.1 ha
  have hb : b ∈ members := hperm.mem_iff.2 ((sortMembers_perm_self _).mem_iff.1 hb)
  exact List.inj_on_of_nodup_map h ha hb (nameLe_antisymm hab hba)

/-- Members that have one canonical form. -/
structure Alike (members members' : List (σ × Json σ)) : Prop where
  perm : (canonicalMembers members).Perm (canonicalMembers members')
  nodup : (members.map Prod.fst).Nodup

theorem Alike.refl (h : (members.map Prod.fst).Nodup) : Alike members members := ⟨.refl _, h⟩

theorem Alike.canonical (h : Alike members members') : (obj members).canonical = (obj members').canonical := by
  rw [Json.canonical, Json.canonical, sortMembers_perm h.perm (by rw [names_canonicalMembers]; exact h.nodup)]

/-- Setting a member to values that have one canonical form. -/
theorem Alike.put (h : Alike members members') (hv : v.canonical = v'.canonical) (name : σ) :
    Alike (put name v members) (put name v' members') := by
  have hnodup : ((canonicalMembers members).map Prod.fst).Nodup := by
    rw [names_canonicalMembers]
    exact h.nodup
  have hnodup' : ((canonicalMembers members').map Prod.fst).Nodup := (h.perm.map _).nodup_iff.1 hnodup
  refine ⟨?_, nodup_put h.nodup⟩
  rw [canonicalMembers_put, canonicalMembers_put, hv]
  exact (put_perm hnodup).trans (((h.perm.filter _).cons _).trans (put_perm hnodup').symm)

theorem Alike.swap (h : (members.map Prod.fst).Nodup) (hne : name ≠ name') :
    Alike (Json.put name v (Json.put name' w members)) (Json.put name' w (Json.put name v members)) := by
  refine ⟨?_, nodup_put (nodup_put h)⟩
  simp only [canonicalMembers_put]
  exact put_put_perm hne (by rw [names_canonicalMembers]; exact h)

/-! ## Calls -/

omit [DecidableEq σ] in
theorem memberCalls_perm (h : members.Perm members') : memberCalls members = memberCalls members' := by
  induction h with
  | nil => rfl
  | cons m _ ih => rw [memberCalls, memberCalls, ih]
  | swap m n rest =>
    simp only [memberCalls]
    omega
  | trans _ _ ih ih' => exact ih.trans ih'

mutual

/-- **A value takes as many calls as its canonical form** to be put into order. -/
theorem orderingCalls_canonical : ∀ v : Json σ, v.canonical.orderingCalls = v.orderingCalls
  | .arr items => by rw [canonical, orderingCalls, orderingCalls, itemCalls_canonicalItems items]
  | .obj members => by
    rw [canonical, orderingCalls, orderingCalls, memberCalls_perm (sortMembers_perm_self _),
      memberCalls_canonicalMembers members]
  | .null | .bool _ | .int _ | .float _ | .str _ => rfl

theorem itemCalls_canonicalItems : ∀ items : List (Json σ), itemCalls (canonicalItems items) = itemCalls items
  | [] => rfl
  | v :: items => by
    rw [canonicalItems, itemCalls, itemCalls, orderingCalls_canonical v, itemCalls_canonicalItems items]

theorem memberCalls_canonicalMembers : ∀ members : List (σ × Json σ),
    memberCalls (canonicalMembers members) = memberCalls members
  | [] => rfl
  | (name, v) :: members => by
    rw [canonicalMembers, memberCalls, memberCalls, orderingCalls_canonical v, memberCalls_canonicalMembers members]

end

theorem order?_eq_some_iff [Platform] :
    v.order? = some w ↔ Platform.limits.admits v.orderingCalls = true ∧ v.canonical = w := by
  rw [order?]
  split <;> simp_all

/-- Values with one canonical form are put into order alike. -/
theorem order?_eq_of_canonical_eq [Platform] (h : v.canonical = w.canonical) : v.order? = w.order? := by
  rw [order?, order?, ← orderingCalls_canonical v, ← orderingCalls_canonical w, h]

end Json

/-! ## Documents -/

namespace Tree

variable {α σ : Type} {t t' : Tree α σ}

/-- Two neighbouring members with different names have changed places, at some level. -/
inductive Swap : Tree α σ → Tree α σ → Prop
  | members (name name' : σ) (h : name ≠ name') (t t' : Tree α σ) (before after : List (σ × Tree α σ)) :
      Swap (.obj (before ++ (name, t) :: (name', t') :: after)) (.obj (before ++ (name', t') :: (name, t) :: after))
  | item {t t' : Tree α σ} (h : Swap t t') (before after : List (Tree α σ)) :
      Swap (.arr (before ++ t :: after)) (.arr (before ++ t' :: after))
  | member {t t' : Tree α σ} (h : Swap t t') (name : σ) (before after : List (σ × Tree α σ)) :
      Swap (.obj (before ++ (name, t) :: after)) (.obj (before ++ (name, t') :: after))

/-- The same but for the order of members with different names. -/
def Same : Tree α σ → Tree α σ → Prop := Relation.ReflTransGen Swap

theorem itemPieces_append (items rest : List (Tree α σ)) (depth : Nat) :
    itemPieces depth (items ++ rest) = itemPieces depth items ++ itemPieces depth rest := by
  induction items with
  | nil => rfl
  | cons t items ih => rw [List.cons_append, itemPieces, itemPieces, ih, List.append_assoc]

theorem memberPieces_append (members rest : List (σ × Tree α σ)) (depth : Nat) :
    memberPieces depth (members ++ rest) = memberPieces depth members ++ memberPieces depth rest := by
  induction members with
  | nil => rfl
  | cons m members ih => rw [List.cons_append, memberPieces, memberPieces, ih, List.append_assoc]

theorem Swap.pieces_perm (h : Swap t t') (depth : Nat) : (t.pieces depth).Perm (t'.pieces depth) := by
  induction h generalizing depth with
  | members name name' hne t t' before after =>
    simp only [pieces, memberPieces_append, memberPieces]
    exact (((List.perm_append_comm_assoc ..).append_left _)).cons _
  | @item t t' h before after ih =>
    simp only [pieces, itemPieces_append, itemPieces]
    exact (((ih _).append_right _).append_left _).cons _
  | @member t t' h name before after ih =>
    simp only [pieces, memberPieces_append, memberPieces]
    exact (((ih _).append_right _).append_left _).cons _

/-- The pieces of such documents are the same. -/
theorem Same.pieces_perm (h : Same t t') (depth : Nat) : (t.pieces depth).Perm (t'.pieces depth) := by
  induction h with
  | refl => exact .refl _
  | tail _ hswap ih => exact ih.trans (hswap.pieces_perm depth)

/-! ### Values -/

variable [DecidableEq σ] {f : α → Json σ}

theorem values_append (items rest : List (Tree α σ)) : values f (items ++ rest) = values f items ++ values f rest := by
  induction items with
  | nil => rfl
  | cons t items ih => rw [List.cons_append, values, values, ih, List.cons_append]

theorem memberValues_append (members rest : List (σ × Tree α σ)) (held : List (σ × Json σ)) :
    memberValues f held (members ++ rest) = memberValues f (memberValues f held members) rest := by
  induction members generalizing held with
  | nil => rfl
  | cons m members ih =>
    obtain ⟨name, t⟩ := m
    exact ih _

theorem nodup_memberValues (members : List (σ × Tree α σ)) :
    ((memberValues f [] members).map Prod.fst).Nodup := by
  have hheld : ∀ held : List (σ × Json σ), (held.map Prod.fst).Nodup →
      ((memberValues f held members).map Prod.fst).Nodup := by
    induction members with
    | nil => exact fun _ h => h
    | cons m members ih => exact fun held h => ih _ (Json.nodup_put h)
  exact hheld [] List.nodup_nil

variable {κ : Type} [Script σ κ]

/-- Members with one canonical form go on to have one. -/
theorem memberValues_alike {held held' : List (σ × Json σ)} (h : Json.Alike held held')
    (members : List (σ × Tree α σ)) :
    Json.Alike (memberValues f held members) (memberValues f held' members) := by
  induction members generalizing held held' with
  | nil => exact h
  | cons m members ih =>
    obtain ⟨name, t⟩ := m
    exact ih (h.put rfl name)

/-- What a document stands for keeps its canonical form. -/
theorem Swap.canonical_value (h : Swap t t') : (t'.value f).canonical = (t.value f).canonical := by
  induction h with
  | members name name' hne t t' before after =>
    rw [Tree.value, Tree.value, memberValues_append, memberValues_append]
    exact (memberValues_alike (.swap (nodup_memberValues before) hne) after).canonical
  | @item t t' h before after ih =>
    simp [Tree.value, values_append, values, Json.canonical, Json.canonicalItems_eq, ih]
  | @member t t' h name before after ih =>
    rw [Tree.value, Tree.value, memberValues_append, memberValues_append]
    exact (memberValues_alike ((Json.Alike.refl (nodup_memberValues before)).put ih name) after).canonical

/-- **Documents that are the same but for the order of members stand for values with one canonical form.** -/
theorem Same.canonical_value (h : Same t t') : (t'.value f).canonical = (t.value f).canonical := by
  induction h with
  | refl => rfl
  | tail _ hswap ih => exact hswap.canonical_value.trans ih

end Tree

end SnapshotStaging
