import SnapshotStaging.Key.Assignment

/-!
# Rows of assignments

Lookups, the greatest key of a scope and the constraints of the table of keys, each by the rows that
it depends on.

Main result `insertAll_eq`: rows that agree with the table and with one another are all added.
-/

namespace SnapshotStaging.Assignment

variable {rows : List Assignment} {scope id : String} {n : Nat}

/-! ## Lookups -/

theorem lookup_cons (a : Assignment) (rows : List Assignment) (scope id : String) :
    lookup scope id (a :: rows) =
      if a.scope = scope ∧ a.id = id then some a.key else lookup scope id rows := rfl

theorem mem_of_lookup (h : lookup scope id rows = some n) : ⟨scope, id, n⟩ ∈ rows := by
  induction rows with
  | nil => cases h
  | cons a rest ih =>
    rw [lookup_cons] at h
    split at h
    · next heq =>
      obtain ⟨rfl, rfl⟩ := heq
      cases h
      exact List.mem_cons_self ..
    · exact List.mem_cons_of_mem _ (ih h)

theorem exists_lookup_of_mem {a : Assignment} (h : a ∈ rows) : ∃ n, lookup a.scope a.id rows = some n := by
  induction rows with
  | nil => cases h
  | cons b rest ih =>
    rw [lookup_cons]
    split
    · exact ⟨_, rfl⟩
    · next hne =>
      rcases List.mem_cons.1 h with rfl | h
      · exact absurd ⟨rfl, rfl⟩ hne
      · exact ih h

theorem lookup_eq_none_iff :
    lookup scope id rows = none ↔ ∀ a ∈ rows, a.scope = scope → a.id ≠ id := by
  constructor
  · rintro h a ha rfl rfl
    obtain ⟨n, hn⟩ := exists_lookup_of_mem ha
    rw [h] at hn
    cases hn
  · intro h
    cases hl : lookup scope id rows with
    | none => rfl
    | some n => exact absurd rfl (h _ (mem_of_lookup hl) rfl)

/-! ## The greatest key -/

theorem foldl_greatest_le_iff (rows : List Assignment) (scope : String) (b n : Nat) :
    rows.foldl (fun n a => if a.scope = scope then max n a.key else n) b ≤ n ↔
      b ≤ n ∧ ∀ a ∈ rows, a.scope = scope → a.key ≤ n := by
  induction rows generalizing b with
  | nil => simp
  | cons a rest ih =>
    rw [List.foldl_cons, ih]
    by_cases hs : a.scope = scope
    · rw [if_pos hs, Nat.max_le, and_assoc]
      simp [hs]
    · simp [hs]

theorem greatest_le_iff : greatest scope rows ≤ n ↔ ∀ a ∈ rows, a.scope = scope → a.key ≤ n := by
  rw [greatest, foldl_greatest_le_iff]
  simp

theorem le_greatest {a : Assignment} (h : a ∈ rows) : a.key ≤ greatest a.scope rows :=
  greatest_le_iff.1 (Nat.le_refl _) a h rfl

theorem le_greatest_of_lookup (h : lookup scope id rows = some n) : n ≤ greatest scope rows :=
  le_greatest (mem_of_lookup h)

theorem greatest_nil (scope : String) : greatest scope [] = 0 := rfl

theorem greatest_cons (a : Assignment) (rows : List Assignment) (scope : String) :
    greatest scope (a :: rows) =
      if a.scope = scope then max a.key (greatest scope rows) else greatest scope rows := by
  refine Nat.le_antisymm (greatest_le_iff.2 fun b hb hs => ?_) ?_
  · rcases List.mem_cons.1 hb with rfl | hb
    · rw [if_pos hs]
      exact Nat.le_max_left ..
    · subst hs
      have := le_greatest hb
      split
      · exact Nat.le_trans this (Nat.le_max_right ..)
      · exact this
  · have hrest : greatest scope rows ≤ greatest scope (a :: rows) := by
      refine greatest_le_iff.2 ?_
      intro b hb hs
      subst hs
      exact le_greatest (List.mem_cons_of_mem _ hb)
    split
    · next hs =>
      subst hs
      exact Nat.max_le.2 ⟨le_greatest (List.mem_cons_self ..), hrest⟩
    · exact hrest

/-! ## Constraints -/

/-- Two rows may stand side by side. -/
def Compatible (a b : Assignment) : Prop := b.scope = a.scope → b.id ≠ a.id ∧ b.key ≠ a.key

theorem admissible_iff {a : Assignment} : admissible rows a = true ↔ ∀ b ∈ rows, Compatible a b := by
  simp only [admissible, List.all_eq_true, Compatible]
  refine forall_congr' fun b => imp_congr_right fun _ => ?_
  by_cases hs : b.scope = a.scope <;> simp [hs]

/-- Rows that agree with the table and with one another are all added. -/
theorem insertAll_eq {new : List Assignment} (h : ∀ a ∈ new, ∀ b ∈ rows, Compatible a b)
    (hnew : new.Pairwise fun b a => Compatible a b) : insertAll rows new = some (rows ++ new) := by
  induction new generalizing rows with
  | nil => simp [insertAll]
  | cons a rest ih =>
    obtain ⟨hfirst, hrest⟩ := List.pairwise_cons.1 hnew
    rw [insertAll, if_pos (admissible_iff.2 (h a (List.mem_cons_self ..))), ih _ hrest]
    · simp
    · intro c hc b hb
      rcases List.mem_append.1 hb with hb | hb
      · exact h c (List.mem_cons_of_mem _ hc) b hb
      · rw [List.mem_singleton.1 hb]
        exact hfirst c hc

/-- Rows that are added agree with the table and with one another. -/
theorem of_insertAll {new all : List Assignment} (h : insertAll rows new = some all) :
    all = rows ++ new ∧ (∀ a ∈ new, ∀ b ∈ rows, Compatible a b) ∧ new.Pairwise fun b a => Compatible a b := by
  induction new generalizing rows with
  | nil =>
    cases h
    simp
  | cons a rest ih =>
    rw [insertAll] at h
    split at h
    · next hadmissible =>
      obtain ⟨rfl, hrows, hrest⟩ := ih h
      have hfirst := admissible_iff.1 hadmissible
      refine ⟨by simp, ?_, List.pairwise_cons.2 ⟨fun b hb => hrows b hb a (by simp), hrest⟩⟩
      intro b hb c hc
      rcases List.mem_cons.1 hb with rfl | hb
      · exact hfirst c hc
      · exact hrows b hb c (List.mem_append_left _ hc)
    · cases h

theorem Compatible.symm {a b : Assignment} (h : Compatible a b) : Compatible b a := by
  intro hs
  obtain ⟨hid, hkey⟩ := h hs.symm
  exact ⟨hid.symm, hkey.symm⟩

/-- Rows of a table that keeps its constraints. -/
def Consistent (rows : List Assignment) : Prop := rows.Pairwise fun b a => Compatible a b

theorem Consistent.append {new : List Assignment} (hrows : Consistent rows)
    (h : ∀ a ∈ new, ∀ b ∈ rows, Compatible a b) (hnew : Consistent new) : Consistent (rows ++ new) :=
  List.pairwise_append.2 ⟨hrows, hnew, fun b hb a ha => h a ha b hb⟩

theorem Consistent.eq_or_compatible {a b : Assignment} (h : Consistent rows) (ha : a ∈ rows) (hb : b ∈ rows) :
    a = b ∨ Compatible a b := by
  induction h with
  | nil => cases ha
  | cons hfirst _ ih =>
    rcases List.mem_cons.1 ha with rfl | haRest
    · rcases List.mem_cons.1 hb with rfl | hbRest
      · exact .inl rfl
      · exact .inr (hfirst b hbRest).symm
    · rcases List.mem_cons.1 hb with rfl | hbRest
      · exact .inr (hfirst a haRest)
      · exact ih haRest hbRest

/-- In a consistent table an identifier has one key, and a key one identifier. -/
theorem Consistent.id_iff {a b : Assignment} (h : Consistent rows) (ha : a ∈ rows) (hb : b ∈ rows)
    (hscope : a.scope = b.scope) : a.id = b.id ↔ a.key = b.key := by
  rcases h.eq_or_compatible ha hb with rfl | hcompatible
  · exact ⟨fun _ => rfl, fun _ => rfl⟩
  · obtain ⟨hid, hkey⟩ := hcompatible hscope.symm
    exact ⟨fun heq => absurd heq.symm hid, fun heq => absurd heq.symm hkey⟩

/-- A single row is refused for a row that it cannot stand beside. -/
theorem insertAll_singleton_eq_none_iff {a : Assignment} :
    insertAll rows [a] = none ↔ ∃ b ∈ rows, ¬ Compatible a b := by
  by_cases hadmissible : admissible rows a = true
  · rw [insertAll, if_pos hadmissible]
    simpa [insertAll] using admissible_iff.1 hadmissible
  · rw [insertAll, if_neg hadmissible]
    rw [admissible_iff] at hadmissible
    simpa using hadmissible

end SnapshotStaging.Assignment
