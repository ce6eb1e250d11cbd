import SnapshotStaging.Key.Memory
import SnapshotStaging.Proofs.Key.Assignment

/-!
# Keys of one process

The keys of a scope are the numbers from one to the greatest, each held by one identifier
(`MemoryKeys.Dense`), and an answered key stays answered.

Main result `answers_empty`: the key of a call is the place of its identifier in the order in which the
identifiers of the scope were first asked for.
-/

namespace SnapshotStaging.MemoryKeys

open Assignment

variable {m : MemoryKeys} {s t i j : String} {n : Nat}

theorem allocate_known (h : lookup s i m.rows = some n) : m.allocate s i = (n, m) := by
  rw [allocate, h]

theorem allocate_new (h : lookup s i m.rows = none) :
    m.allocate s i = (greatest s m.rows + 1, ⟨⟨s, i, greatest s m.rows + 1⟩ :: m.rows⟩) := by
  rw [allocate, h]

theorem lookup_allocate (m : MemoryKeys) (s i : String) :
    lookup s i (m.allocate s i).2.rows = some (m.allocate s i).1 := by
  cases h : lookup s i m.rows with
  | some n => rw [allocate_known h, h]
  | none => rw [allocate_new h, lookup_cons, if_pos ⟨rfl, rfl⟩]

theorem lookup_allocate_of_ne (h : ¬ (s = t ∧ i = j)) :
    lookup t j (m.allocate s i).2.rows = lookup t j m.rows := by
  cases hl : lookup s i m.rows with
  | some n => rw [allocate_known hl]
  | none => rw [allocate_new hl, lookup_cons, if_neg h]

/-- An answered key stays answered. -/
theorem lookup_allocate_of_lookup (s i : String) (h : lookup t j m.rows = some n) :
    lookup t j (m.allocate s i).2.rows = some n := by
  by_cases heq : s = t ∧ i = j
  · obtain ⟨rfl, rfl⟩ := heq
    rw [allocate_known h, h]
  · rw [lookup_allocate_of_ne heq, h]

/-- The keys of a scope are the numbers from one to the greatest, each held by one identifier. -/
structure Dense (m : MemoryKeys) : Prop where
  pos : ∀ {s i n}, lookup s i m.rows = some n → 0 < n
  inj : ∀ {s i j n}, lookup s i m.rows = some n → lookup s j m.rows = some n → i = j
  onto : ∀ {s n}, 0 < n → n ≤ greatest s m.rows → ∃ i, lookup s i m.rows = some n

theorem dense_empty : Dense empty where
  pos h := nomatch h
  inj h := nomatch h
  onto hn hle := by
    rw [empty, greatest_nil] at hle
    omega

theorem greatest_allocate_new (h : lookup s i m.rows = none) (t : String) :
    greatest t (m.allocate s i).2.rows = if s = t then greatest t m.rows + 1 else greatest t m.rows := by
  rw [allocate_new h, greatest_cons]
  split
  · next hs =>
    subst hs
    exact Nat.max_eq_left (Nat.le_succ _)
  · rfl

theorem Dense.allocate (hm : m.Dense) (s i : String) : (m.allocate s i).2.Dense := by
  cases h : lookup s i m.rows with
  | some n =>
    rw [allocate_known h]
    exact hm
  | none =>
    have hnew := lookup_allocate m s i
    rw [show (m.allocate s i).1 = greatest s m.rows + 1 by rw [allocate_new h]] at hnew
    refine ⟨?_, ?_, ?_⟩
    · intro t j n hn
      by_cases heq : s = t ∧ i = j
      · obtain ⟨rfl, rfl⟩ := heq
        rw [hnew] at hn
        cases hn
        omega
      · rw [lookup_allocate_of_ne heq] at hn
        exact hm.pos hn
    · intro t j j' n hj hj'
      -- the new key is greater than every other of its scope
      by_cases heq : s = t ∧ i = j <;> by_cases heq' : s = t ∧ i = j'
      · rw [← heq.2, ← heq'.2]
      · rw [lookup_allocate_of_ne heq'] at hj'
        obtain ⟨rfl, rfl⟩ := heq
        rw [hnew] at hj
        cases hj
        have := le_greatest_of_lookup hj'
        omega
      · rw [lookup_allocate_of_ne heq] at hj
        obtain ⟨rfl, rfl⟩ := heq'
        rw [hnew] at hj'
        cases hj'
        have := le_greatest_of_lookup hj
        omega
      · rw [lookup_allocate_of_ne heq] at hj
        rw [lookup_allocate_of_ne heq'] at hj'
        exact hm.inj hj hj'
    · intro t n hpos hle
      rw [greatest_allocate_new h] at hle
      by_cases hlast : s = t ∧ n = greatest s m.rows + 1
      · obtain ⟨rfl, rfl⟩ := hlast
        exact ⟨i, hnew⟩
      · have hold : n ≤ greatest t m.rows := by
          split at hle
          · next hs =>
            subst hs
            have : n ≠ greatest s m.rows + 1 := fun hn => hlast ⟨rfl, hn⟩
            omega
          · exact hle
        obtain ⟨j, hj⟩ := hm.onto hpos hold
        exact ⟨j, lookup_allocate_of_lookup s i hj⟩

/-! ## Calls in a row -/

/-- The keys answered to calls in a row, each a scope and an identifier. -/
def answers (m : MemoryKeys) : List (String × String) → List Nat
  | [] => []
  | (s, i) :: rest => (m.allocate s i).1 :: (m.allocate s i).2.answers rest

/-- The state after calls in a row. -/
def after (m : MemoryKeys) : List (String × String) → MemoryKeys
  | [] => m
  | (s, i) :: rest => (m.allocate s i).2.after rest

theorem after_append (m : MemoryKeys) (calls rest : List (String × String)) :
    m.after (calls ++ rest) = (m.after calls).after rest := by
  induction calls generalizing m with
  | nil => rfl
  | cons c calls ih => exact ih _

theorem Dense.after (hm : m.Dense) (calls : List (String × String)) : (m.after calls).Dense := by
  induction calls generalizing m with
  | nil => exact hm
  | cons c calls ih => exact ih (hm.allocate c.1 c.2)

theorem lookup_after_of_lookup (calls : List (String × String)) (h : lookup t j m.rows = some n) :
    lookup t j (m.after calls).rows = some n := by
  induction calls generalizing m with
  | nil => exact h
  | cons c calls ih => exact ih (lookup_allocate_of_lookup c.1 c.2 h)

/-- Every call that was made has its key. -/
theorem exists_lookup_after {calls : List (String × String)} (h : (s, i) ∈ calls) :
    ∃ n, lookup s i (m.after calls).rows = some n := by
  induction calls generalizing m with
  | nil => cases h
  | cons c calls ih =>
    rcases List.mem_cons.1 h with rfl | h
    · exact ⟨_, lookup_after_of_lookup calls (lookup_allocate m s i)⟩
    · exact ih h

/-- The identifiers of a scope in the order in which they were first asked for. -/
def requested (s : String) (calls : List (String × String)) : List String :=
  calls.foldl (fun ids c => if c.1 = s ∧ c.2 ∉ ids then ids ++ [c.2] else ids) []

theorem requested_append (s : String) (calls : List (String × String)) (c : String × String) :
    requested s (calls ++ [c]) =
      if c.1 = s ∧ c.2 ∉ requested s calls then requested s calls ++ [c.2] else requested s calls := by
  rw [requested, List.foldl_append]
  rfl

/-- Later calls add identifiers at the end only. -/
theorem requested_prefix (s : String) (calls rest : List (String × String)) :
    requested s calls <+: requested s (calls ++ rest) := by
  induction rest generalizing calls with
  | nil => exact (List.append_nil calls).symm ▸ List.prefix_refl _
  | cons c rest ih =>
    rw [← List.singleton_append, ← List.append_assoc]
    refine List.IsPrefix.trans ?_ (ih (calls ++ [c]))
    rw [requested_append]
    split
    · exact List.prefix_append ..
    · exact List.prefix_refl _

/-- The state after calls, by the order of first requests. -/
structure Tracks (m : MemoryKeys) (calls : List (String × String)) : Prop where
  lookup_eq : ∀ s i, lookup s i m.rows =
    if i ∈ requested s calls then some ((requested s calls).idxOf i + 1) else none
  greatest_eq : ∀ s, greatest s m.rows = (requested s calls).length

theorem tracks_empty : Tracks empty [] := ⟨fun _ _ => rfl, fun _ => rfl⟩

theorem Tracks.allocate {calls : List (String × String)} (h : Tracks m calls) (s i : String) :
    Tracks (m.allocate s i).2 (calls ++ [(s, i)]) := by
  by_cases hi : i ∈ requested s calls
  · have hknown : lookup s i m.rows = some ((requested s calls).idxOf i + 1) := by rw [h.lookup_eq, if_pos hi]
    have hsame (t : String) : requested t (calls ++ [(s, i)]) = requested t calls := by
      rw [requested_append, if_neg]
      rintro ⟨rfl, hnot⟩
      exact hnot hi
    rw [allocate_known hknown]
    exact ⟨fun t j => by rw [hsame, h.lookup_eq], fun t => by rw [hsame, h.greatest_eq]⟩
  · have hnew : lookup s i m.rows = none := by rw [h.lookup_eq, if_neg hi]
    have hlast : requested s (calls ++ [(s, i)]) = requested s calls ++ [i] := by
      rw [requested_append, if_pos ⟨rfl, hi⟩]
    have hother {t : String} (hs : s ≠ t) : requested t (calls ++ [(s, i)]) = requested t calls := by
      rw [requested_append, if_neg fun hst => hs hst.1]
    constructor
    · intro t j
      by_cases heq : s = t ∧ i = j
      · obtain ⟨rfl, rfl⟩ := heq
        rw [lookup_allocate, allocate_new hnew, hlast, if_pos (by simp), h.greatest_eq, List.idxOf_append,
          if_neg hi]
        simp
      · rw [lookup_allocate_of_ne heq, h.lookup_eq]
        by_cases hs : s = t
        · subst hs
          have hne : j ≠ i := fun hj => heq ⟨rfl, hj.symm⟩
          rw [hlast]
          by_cases hj : j ∈ requested s calls
          · rw [if_pos hj, if_pos (List.mem_append_left _ hj), List.idxOf_append, if_pos hj]
          · rw [if_neg hj, if_neg (by simp [hj, hne])]
        · rw [hother hs]
    · intro t
      rw [greatest_allocate_new hnew, h.greatest_eq]
      by_cases hs : s = t
      · subst hs
        rw [if_pos rfl, hlast, List.length_append, List.length_singleton]
      · rw [if_neg hs, hother hs]

theorem answers_eq {calls : List (String × String)} (h : Tracks m calls) (rest : List (String × String)) :
    m.answers rest = rest.map fun c => (requested c.1 (calls ++ rest)).idxOf c.2 + 1 := by
  induction rest generalizing m calls with
  | nil => rfl
  | cons c rest ih =>
    obtain ⟨s, i⟩ := c
    have hnext := h.allocate s i
    have hkey := hnext.lookup_eq s i
    rw [lookup_allocate] at hkey
    obtain ⟨hi, hn⟩ : i ∈ requested s (calls ++ [(s, i)]) ∧
        (m.allocate s i).1 = (requested s (calls ++ [(s, i)])).idxOf i + 1 := by
      split at hkey
      · next hi => exact ⟨hi, Option.some.inj hkey⟩
      · cases hkey
    obtain ⟨later, hlater⟩ := requested_prefix s (calls ++ [(s, i)]) rest
    rw [List.append_assoc, List.singleton_append] at hlater
    rw [answers, ih hnext, List.map_cons, List.append_assoc, List.singleton_append]
    refine congrArg (· :: _) ?_
    rw [hn, ← hlater, List.idxOf_append, if_pos hi]

/-- **The keys of a process**: the key of a call is the place of its identifier in the order in which the
identifiers of the scope were first asked for. -/
theorem answers_empty (calls : List (String × String)) :
    empty.answers calls = calls.map fun c => (requested c.1 calls).idxOf c.2 + 1 :=
  answers_eq tracks_empty calls

end SnapshotStaging.MemoryKeys
