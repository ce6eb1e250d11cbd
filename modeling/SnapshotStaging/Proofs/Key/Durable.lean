import SnapshotStaging.Key.Durable
import SnapshotStaging.Proofs.Key.Memory
import SnapshotStaging.Warehouse

/-!
# Keys that outlive the process, beside keys that do not

`Refines k w m` ties a store `k` over the warehouse `w` to the assignments `m` that have been answered:
what the process remembers and what the table holds are among them, and each of them is in the table or
left over. Every step keeps this. What a new identifier is given is the number after `counter`, and that
number is refused exactly when the table holds it already.

Main results: `allocate_known`, `allocate_fresh` and `allocate_taken`, the three ways an allocation
goes; `Refines.start`, `Refines.commit`, `Refines.rollback`, `Refines.sync` and `Refines.restart`.
-/

namespace SnapshotStaging

/-- The rows of the table of keys that a rollback goes back to. -/
def Warehouse.restored (w : Warehouse) : List Assignment := (w.saved.getD w.tables).keys

@[simp] theorem Warehouse.readable_eq (w : Warehouse) : Database.readable w = (w, true) := rfl

@[simp] theorem Warehouse.commits_eq (w : Warehouse) : Database.commits w = true := rfl

theorem Warehouse.addKeys_eq {w : Warehouse} {new keys : List Assignment}
    (h : Assignment.insertAll w.tables.keys new = some keys) :
    w.addKeys new = ({ w.begun with tables := { w.tables with keys := keys } }, true) := by
  simp only [addKeys, begun, h]

theorem Warehouse.addKeys_none {w : Warehouse} {new : List Assignment}
    (h : Assignment.insertAll w.tables.keys new = none) : w.addKeys new = (w.begun, false) := by
  simp only [addKeys, begun, h]

namespace DurableKeys

open Assignment

/-- The identifiers that were given keys in the open transaction. -/
def written (k : DurableKeys) : List (String × String) := (k.load.map (·.written)).getD []

/-- The store `k` over the warehouse `w` has answered the assignments `m`. -/
structure Refines (k : DurableKeys) (w : Warehouse) (m : MemoryKeys) : Prop where
  /-- No key was answered for two identifiers. -/
  inj : ∀ {s i j n}, lookup s i m.rows = some n → lookup s j m.rows = some n → i = j
  cached : ∀ {s i n}, lookup s i k.cache = some n → lookup s i m.rows = some n
  stored : ∀ a ∈ w.tables.keys, lookup a.scope a.id m.rows = some a.key
  /-- Nothing answered is lost. -/
  held : ∀ {s i n}, lookup s i m.rows = some n → ⟨s, i, n⟩ ∈ w.tables.keys ∨ (s, i) ∈ k.unwritten
  restored_sub : ∀ a ∈ w.restored, a ∈ w.tables.keys
  /-- What a rollback takes away was written in the open transaction. -/
  kept : ∀ a ∈ w.tables.keys, a ∈ w.restored ∨ (a.scope, a.id) ∈ k.written
  idle : k.load = none → w.restored = w.tables.keys
  unwritten_cached : ∀ p ∈ k.unwritten, ∃ n, lookup p.1 p.2 k.cache = some n
  written_cached : ∀ p ∈ k.written, ∃ n, lookup p.1 p.2 k.cache = some n
  unwritten_nodup : k.unwritten.Nodup
  written_nodup : k.written.Nodup
  not_undone : k.load.any (·.undone) = false

/-- The counters are the greatest keys that the process has answered. -/
structure Counts (k : DurableKeys) : Prop where
  known : ∀ {s i n}, lookup s i k.cache = some n → ∃ c, k.counter? s = some c ∧ n ≤ c
  attained : ∀ {s c}, k.counter? s = some c → ∃ i, lookup s i k.cache = some c

/-! ## Counters -/

theorem counter?_remember (k : DurableKeys) (a : Assignment) (s : String) :
    (k.remember a).counter? s =
      if a.scope = s then some (max a.key ((k.counter? a.scope).getD 0)) else k.counter? s := by
  unfold counter? remember
  by_cases hs : a.scope = s
  · rw [List.find?_cons_of_pos (by simpa using hs), if_pos hs]
    rfl
  · have hfilter : ∀ cs : List (String × Nat),
        (cs.filter fun c => c.1 ≠ a.scope).find? (fun c => c.1 = s) = cs.find? fun c => c.1 = s := by
      intro cs
      rw [List.find?_filter]
      refine congrArg (List.find? · cs) (funext fun c => ?_)
      by_cases hc : c.1 = s <;> simp [hc]
      exact fun h => hs h.symm
    rw [List.find?_cons_of_neg (by simpa using hs), hfilter, if_neg hs]

/-- The number before the one that a new identifier of a scope is given. -/
def counter (k : DurableKeys) (rows : List Assignment) (s : String) : Nat :=
  (k.counter? s).getD (greatest s rows)

theorem nextKey_snd (k : DurableKeys) (rows : List Assignment) (s : String) :
    (k.nextKey rows s).2 = k.counter rows s + 1 := by
  unfold nextKey counter
  cases k.counter? s <;> rfl

theorem nextKey_cache (k : DurableKeys) (rows : List Assignment) (s : String) :
    (k.nextKey rows s).1.cache = k.cache := by
  unfold nextKey
  cases k.counter? s <;> rfl

theorem nextKey_unwritten (k : DurableKeys) (rows : List Assignment) (s : String) :
    (k.nextKey rows s).1.unwritten = k.unwritten := by
  unfold nextKey
  cases k.counter? s <;> rfl

theorem nextKey_load (k : DurableKeys) (rows : List Assignment) (s : String) :
    (k.nextKey rows s).1.load = k.load := by
  unfold nextKey
  cases k.counter? s <;> rfl

/-- A new key becomes the counter of its scope. -/
theorem counter?_given (k : DurableKeys) (rows : List Assignment) (s i t : String) :
    ((k.nextKey rows s).1.remember ⟨s, i, k.counter rows s + 1⟩).counter? t =
      if s = t then some (k.counter rows s + 1) else k.counter? t := by
  rw [counter?_remember]
  by_cases hs : s = t
  · subst hs
    have hc : ((k.nextKey rows s).1.counter? s).getD 0 = k.counter rows s := by
      unfold nextKey counter
      cases hk : k.counter? s with
      | some n => simp [hk]
      | none => simp [counter?]
    simp [hc]
  · rw [if_neg hs, if_neg hs]
    unfold nextKey
    cases k.counter? s with
    | some n => rfl
    | none => simp [counter?, hs]

variable {k : DurableKeys} {w : Warehouse} {m : MemoryKeys} {s i : String} {n : Nat}

theorem Counts.remember_known (h : k.Counts) (hnew : lookup s i k.cache = none) :
    (k.remember ⟨s, i, n⟩).Counts where
  known {t j x} hx := by
    rw [counter?_remember]
    rw [show (k.remember ⟨s, i, n⟩).cache = ⟨s, i, n⟩ :: k.cache from rfl, lookup_cons] at hx
    by_cases hs : s = t
    · subst hs
      refine ⟨_, if_pos rfl, ?_⟩
      split at hx
      · cases hx
        exact Nat.le_max_left ..
      · obtain ⟨c, hc, hle⟩ := h.known hx
        rw [hc]
        exact Nat.le_trans hle (Nat.le_max_right ..)
    · rw [if_neg hs]
      rw [if_neg fun hst => hs hst.1] at hx
      exact h.known hx
  attained {t c} hc := by
    rw [counter?_remember] at hc
    rw [show (k.remember ⟨s, i, n⟩).cache = ⟨s, i, n⟩ :: k.cache from rfl]
    have hold {j : String} {c : Nat} (hj : lookup t j k.cache = some c) :
        lookup t j (⟨s, i, n⟩ :: k.cache) = some c := by
      rw [lookup_cons, if_neg, hj]
      rintro ⟨rfl, rfl⟩
      rw [hnew] at hj
      cases hj
    by_cases hs : s = t
    · subst hs
      rw [if_pos rfl, Option.some.injEq] at hc
      rcases Nat.le_total ((k.counter? s).getD 0) n with hle | hle
      · refine ⟨i, ?_⟩
        rw [lookup_cons, if_pos ⟨rfl, rfl⟩, ← hc, Nat.max_eq_left hle]
      · rw [Nat.max_eq_right hle] at hc
        cases hk : k.counter? s with
        | some c' =>
          obtain ⟨j, hj⟩ := h.attained hk
          rw [hk] at hc
          cases hc
          exact ⟨j, hold hj⟩
        | none =>
          rw [hk] at hc hle
          refine ⟨i, ?_⟩
          rw [lookup_cons, if_pos ⟨rfl, rfl⟩, ← hc]
          exact congrArg some (Nat.le_zero.1 hle)
    · rw [if_neg hs] at hc
      obtain ⟨j, hj⟩ := h.attained hc
      exact ⟨j, hold hj⟩

theorem Counts.given (h : k.Counts) (rows : List Assignment) (s i : String) :
    ((k.nextKey rows s).1.remember ⟨s, i, k.counter rows s + 1⟩).Counts where
  known {t j x} hx := by
    rw [counter?_given]
    rw [show ((k.nextKey rows s).1.remember ⟨s, i, k.counter rows s + 1⟩).cache =
      ⟨s, i, k.counter rows s + 1⟩ :: (k.nextKey rows s).1.cache from rfl, nextKey_cache, lookup_cons] at hx
    by_cases hs : s = t
    · subst hs
      refine ⟨_, if_pos rfl, ?_⟩
      split at hx
      · cases hx
        exact Nat.le_refl _
      · obtain ⟨c, hc, hle⟩ := h.known hx
        rw [counter, hc]
        exact Nat.le_succ_of_le hle
    · rw [if_neg hs]
      rw [if_neg fun hst => hs hst.1] at hx
      exact h.known hx
  attained {t c} hc := by
    rw [counter?_given] at hc
    rw [show ((k.nextKey rows s).1.remember ⟨s, i, k.counter rows s + 1⟩).cache =
      ⟨s, i, k.counter rows s + 1⟩ :: (k.nextKey rows s).1.cache from rfl, nextKey_cache]
    by_cases hs : s = t
    · subst hs
      rw [if_pos rfl] at hc
      cases hc
      exact ⟨i, by rw [lookup_cons, if_pos ⟨rfl, rfl⟩]⟩
    · rw [if_neg hs] at hc
      obtain ⟨j, hj⟩ := h.attained hc
      exact ⟨j, by rw [lookup_cons, if_neg fun hst => hs hst.1, hj]⟩

/-! ## Allocation -/

/-- A step that answers for an identifier: the process remembers it, and nothing else is new. -/
structure Answers (k : DurableKeys) (w : Warehouse) (s i : String) (k' : DurableKeys) (w' : Warehouse) :
    Prop where
  cache_iff : ∀ t j, (∃ x, lookup t j k'.cache = some x) ↔ (s = t ∧ i = j) ∨ ∃ x, lookup t j k.cache = some x
  load_eq : k'.load.isSome = k.load.isSome
  unwritten_eq : k'.unwritten = k.unwritten
  relations_eq : w'.tables.relations = w.tables.relations

theorem exists_lookup_cons (cache : List Assignment) (s i t j : String) (n : Nat) :
    (∃ x, lookup t j (⟨s, i, n⟩ :: cache) = some x) ↔ (s = t ∧ i = j) ∨ ∃ x, lookup t j cache = some x := by
  rw [lookup_cons]
  by_cases heq : s = t ∧ i = j
  · simp [heq]
  · simp [heq]

theorem Refines.remember (h : Refines k w m) (hn : lookup s i m.rows = some n) :
    Refines (k.remember ⟨s, i, n⟩) w m where
  inj := h.inj
  cached {t j x} hx := by
    rw [show (k.remember ⟨s, i, n⟩).cache = ⟨s, i, n⟩ :: k.cache from rfl, lookup_cons] at hx
    split at hx
    · next heq =>
      obtain ⟨rfl, rfl⟩ := heq
      cases hx
      exact hn
    · exact h.cached hx
  stored := h.stored
  held := h.held
  restored_sub := h.restored_sub
  kept := h.kept
  idle := h.idle
  unwritten_cached p hp := (exists_lookup_cons ..).2 (.inr (h.unwritten_cached p hp))
  written_cached p hp := (exists_lookup_cons ..).2 (.inr (h.written_cached p hp))
  unwritten_nodup := h.unwritten_nodup
  written_nodup := h.written_nodup
  not_undone := h.not_undone

/-- An identifier that has a key is answered that key. -/
theorem allocate_known (h : Refines k w m) (hc : k.Counts) (hn : lookup s i m.rows = some n) :
    ∃ k', allocate s i (k, w) = .ok n (k', w) ∧ Refines k' w m ∧ k'.Counts ∧ Answers k w s i k' w := by
  cases hcache : lookup s i k.cache with
  | some x =>
    have hx := h.cached hcache
    rw [hn] at hx
    cases hx
    refine ⟨k, ?_, h, hc, ⟨fun t j => ⟨.inr, ?_⟩, rfl, rfl, rfl⟩⟩
    · simp only [allocate, hcache]
    · rintro (⟨rfl, rfl⟩ | hx)
      · exact ⟨n, hcache⟩
      · exact hx
  | none =>
    have hrow : ⟨s, i, n⟩ ∈ w.tables.keys := by
      rcases h.held hn with hrow | hleft
      · exact hrow
      · obtain ⟨x, hx⟩ := h.unwritten_cached _ hleft
        rw [hcache] at hx
        cases hx
    obtain ⟨x, hx⟩ := exists_lookup_of_mem hrow
    have hsame := h.stored _ (mem_of_lookup hx)
    rw [hn] at hsame
    obtain rfl : n = x := Option.some.inj hsame
    refine ⟨k.remember ⟨s, i, n⟩, ?_, h.remember hn, hc.remember_known hcache,
      ⟨fun t j => exists_lookup_cons .., rfl, rfl, rfl⟩⟩
    have hrows : lookup s i (Database.keys w) = some n := hx
    simp only [allocate, hcache, h.not_undone, Warehouse.readable_eq, hrows, Bool.false_eq_true, if_false]

/-- What an identifier without a key meets: neither the process nor the table knows it. -/
theorem Refines.unknown (h : Refines k w m) (hn : lookup s i m.rows = none) :
    lookup s i k.cache = none ∧ lookup s i w.tables.keys = none := by
  constructor
  · cases hcache : lookup s i k.cache with
    | none => rfl
    | some x =>
      rw [h.cached hcache] at hn
      cases hn
  · rw [lookup_eq_none_iff]
    rintro a ha rfl rfl
    rw [h.stored a ha] at hn
    cases hn

/-- A new assignment: the process remembers it, the table holds it, and a rollback takes away at most
what was written. -/
theorem Refines.given (h : Refines k w m) (hn : lookup s i m.rows = none)
    (hfresh : ∀ j, lookup s j m.rows ≠ some n) {k' : DurableKeys} {w' : Warehouse}
    (hcache : k'.cache = ⟨s, i, n⟩ :: k.cache) (hunwritten : k'.unwritten = k.unwritten)
    (hwritten : k'.written = k.written ∨ k'.written = (s, i) :: k.written)
    (hundone : k'.load.any (·.undone) = false) (hkeys : w'.tables.keys = w.tables.keys ++ [⟨s, i, n⟩])
    (hsub : ∀ a ∈ w'.restored, a ∈ w'.tables.keys)
    (hkept : ∀ a ∈ w'.tables.keys, a ∈ w'.restored ∨ (a.scope, a.id) ∈ k'.written)
    (hidle : k'.load = none → w'.restored = w'.tables.keys) :
    Refines k' w' ⟨⟨s, i, n⟩ :: m.rows⟩ where
  inj {t j j' x} hj hj' := by
    rw [lookup_cons] at hj hj'
    split at hj <;> split at hj'
    · next heq heq' => rw [← heq.2, ← heq'.2]
    · next heq _ =>
      obtain ⟨rfl, rfl⟩ := heq
      obtain rfl : n = x := Option.some.inj hj
      exact absurd hj' (hfresh j')
    · next _ heq' =>
      obtain ⟨rfl, rfl⟩ := heq'
      obtain rfl : n = x := Option.some.inj hj'
      exact absurd hj (hfresh j)
    · exact h.inj hj hj'
  cached {t j x} hx := by
    rw [hcache] at hx
    rw [lookup_cons] at hx ⊢
    split
    · next heq => rwa [if_pos heq] at hx
    · next heq =>
      rw [if_neg heq] at hx
      exact h.cached hx
  stored a ha := by
    rw [hkeys] at ha
    rw [lookup_cons]
    rcases List.mem_append.1 ha with ha | ha
    · have hold := h.stored a ha
      rw [if_neg, hold]
      rintro ⟨hs, hi⟩
      rw [← hs, ← hi, hn] at hold
      cases hold
    · rw [List.mem_singleton.1 ha, if_pos ⟨rfl, rfl⟩]
  held {t j x} hx := by
    rw [lookup_cons] at hx
    rw [hkeys, hunwritten]
    split at hx
    · next heq =>
      obtain ⟨rfl, rfl⟩ := heq
      obtain rfl : n = x := Option.some.inj hx
      exact .inl (List.mem_append_right _ (List.mem_singleton.2 rfl))
    · exact (h.held hx).imp_left (List.mem_append_left _)
  restored_sub := hsub
  kept := hkept
  idle := hidle
  unwritten_cached p hp := by
    rw [hcache]
    exact (exists_lookup_cons ..).2 (.inr (h.unwritten_cached p (hunwritten ▸ hp)))
  written_cached p hp := by
    rw [hcache, exists_lookup_cons]
    rcases hwritten with heq | heq
    · exact .inr (h.written_cached p (heq ▸ hp))
    · rw [heq] at hp
      rcases List.mem_cons.1 hp with rfl | hp
      · exact .inl ⟨rfl, rfl⟩
      · exact .inr (h.written_cached p hp)
  unwritten_nodup := hunwritten ▸ h.unwritten_nodup
  written_nodup := by
    rcases hwritten with heq | heq
    · exact heq ▸ h.written_nodup
    · rw [heq, List.nodup_cons]
      refine ⟨?_, h.written_nodup⟩
      intro hmem
      obtain ⟨x, hx⟩ := h.written_cached _ hmem
      rw [(h.unknown hn).1] at hx
      cases hx
  not_undone := hundone

/-- What is done for an identifier that neither the process nor the table knows. -/
theorem allocate_unknown (hcache : lookup s i k.cache = none) (hundone : k.load.any (·.undone) = false)
    (hrows : lookup s i w.tables.keys = none) :
    allocate s i (k, w) =
      match (k.nextKey w.tables.keys s).1.load, w.addKeys [⟨s, i, k.counter w.tables.keys s + 1⟩] with
      | some _, (w', true) =>
        .ok (k.counter w.tables.keys s + 1)
          ((((k.nextKey w.tables.keys s).1.remember ⟨s, i, k.counter w.tables.keys s + 1⟩).wrote
            ⟨s, i, k.counter w.tables.keys s + 1⟩), w')
      | some load, (w', false) =>
        .error (.databaseFailed (.keys true))
          ({ (k.nextKey w.tables.keys s).1 with load := some { load with undone := true } }, w'.rollback)
      | none, (w', true) =>
        .ok (k.counter w.tables.keys s + 1)
          ((k.nextKey w.tables.keys s).1.remember ⟨s, i, k.counter w.tables.keys s + 1⟩, w'.commit)
      | none, (w', false) =>
        .error (.databaseFailed (.keys false)) ((k.nextKey w.tables.keys s).1, w'.rollback) := by
  have hkeys : Database.keys w = w.tables.keys := rfl
  have hstart : Database.start w = w := rfl
  have hadd (rows : List Assignment) : Database.addKeys rows w = w.addKeys rows := rfl
  have hkey := nextKey_snd k w.tables.keys s
  unfold allocate
  simp only [hcache, hundone, Warehouse.readable_eq, hkeys, hrows, hstart, hadd, Warehouse.commits_eq,
    Bool.false_eq_true, if_false, if_true]
  generalize k.nextKey w.tables.keys s = found at hkey ⊢
  obtain ⟨k', x⟩ := found
  obtain rfl : x = k.counter w.tables.keys s + 1 := hkey
  dsimp only
  generalize w.addKeys [⟨s, i, k.counter w.tables.keys s + 1⟩] = added
  obtain ⟨w', _ | _⟩ := added <;> cases k'.load <;> rfl

theorem Counts.wrote (h : k.Counts) (a : Assignment) : (k.wrote a).Counts := ⟨h.known, h.attained⟩

theorem wrote_written {k : DurableKeys} (a : Assignment) (h : k.load.isSome) :
    (k.wrote a).written = (a.scope, a.id) :: k.written := by
  obtain ⟨load, hl⟩ := Option.isSome_iff_exists.1 h
  simp [wrote, written, hl]

/-- The table takes a number that no identifier of the scope has. -/
theorem Refines.insertAll_unused (h : Refines k w m) (hn : lookup s i m.rows = none) {n : Nat}
    (hfresh : ∀ j, lookup s j m.rows ≠ some n) :
    insertAll w.tables.keys [⟨s, i, n⟩] = some (w.tables.keys ++ [⟨s, i, n⟩]) := by
  refine insertAll_eq (fun a ha b hb hs => ?_) (List.pairwise_singleton ..)
  rw [List.mem_singleton.1 ha] at hs ⊢
  have hold := h.stored b hb
  rw [hs] at hold
  constructor
  · intro hid
    rw [hid, hn] at hold
    cases hold
  · intro hbkey
    rw [hbkey] at hold
    exact hfresh _ hold

/-- An identifier without a key is answered the number after the counter, when no identifier of its scope
has that number. -/
theorem allocate_fresh (h : Refines k w m) (hc : k.Counts) (hn : lookup s i m.rows = none)
    (hfresh : ∀ j, lookup s j m.rows ≠ some (k.counter w.tables.keys s + 1)) :
    ∃ k' w', allocate s i (k, w) = .ok (k.counter w.tables.keys s + 1) (k', w') ∧
      Refines k' w' ⟨⟨s, i, k.counter w.tables.keys s + 1⟩ :: m.rows⟩ ∧ k'.Counts ∧ Answers k w s i k' w' := by
  obtain ⟨hcache, hrows⟩ := h.unknown hn
  have hcounts := hc.given w.tables.keys s i
  have hnewcache := nextKey_cache k w.tables.keys s
  have hunwritten := nextKey_unwritten k w.tables.keys s
  have hload := nextKey_load k w.tables.keys s
  rw [allocate_unknown hcache h.not_undone hrows]
  generalize (k.nextKey w.tables.keys s).1 = k1 at *
  generalize k.counter w.tables.keys s + 1 = n at *
  rw [Warehouse.addKeys_eq (h.insertAll_unused hn hfresh)]
  have hremembered : (k1.remember ⟨s, i, n⟩).cache = ⟨s, i, n⟩ :: k.cache := by
    rw [← hnewcache]
    rfl
  have hcacheIff (t j : String) : (∃ x, lookup t j (k1.remember ⟨s, i, n⟩).cache = some x) ↔
      (s = t ∧ i = j) ∨ ∃ x, lookup t j k.cache = some x := by
    rw [hremembered]
    exact exists_lookup_cons ..
  cases hl : k1.load with
  | some load =>
    have hopen : (k1.remember ⟨s, i, n⟩).load.isSome := by
      rw [show (k1.remember ⟨s, i, n⟩).load = k1.load from rfl, hl]
      rfl
    have hwritten : (((k1.remember ⟨s, i, n⟩).wrote ⟨s, i, n⟩)).written = (s, i) :: k.written := by
      rw [wrote_written _ hopen, written, written, ← hload]
      rfl
    refine ⟨_, _, rfl, h.given hn hfresh hremembered hunwritten (.inr hwritten) ?_ rfl ?_ ?_ ?_,
      hcounts.wrote _, hcacheIff, ?_, hunwritten, rfl⟩
    · have hundone := h.not_undone
      rw [← hload, hl] at hundone
      simpa [wrote, remember, hl] using hundone
    · intro a ha
      exact List.mem_append_left _ (h.restored_sub a ha)
    · intro a ha
      rw [hwritten]
      rcases List.mem_append.1 ha with ha | ha
      · exact (h.kept a ha).imp_right (List.mem_cons_of_mem _)
      · rw [List.mem_singleton.1 ha]
        exact .inr (List.mem_cons_self ..)
    · intro hnone
      simp [wrote, remember, hl] at hnone
    · rw [← hload, hl]
      simp [wrote, remember, hl]
  | none =>
    have hwritten : (k1.remember ⟨s, i, n⟩).written = k.written := by
      rw [written, written, ← hload]
      rfl
    refine ⟨_, _, rfl, h.given hn hfresh hremembered hunwritten (.inl hwritten) ?_ rfl ?_ ?_ ?_,
      hcounts, hcacheIff, ?_, hunwritten, rfl⟩
    · rw [show (k1.remember ⟨s, i, n⟩).load = k1.load from rfl, hl]
      rfl
    · exact fun a ha => ha
    · exact fun a ha => .inl ha
    · exact fun _ => rfl
    · rw [show (k1.remember ⟨s, i, n⟩).load = k1.load from rfl, hload]

/-- The number after the counter is refused when an identifier of the scope has it already. -/
theorem allocate_taken (h : Refines k w m) (hc : k.Counts) (hn : lookup s i m.rows = none) {j : String}
    (htaken : lookup s j m.rows = some (k.counter w.tables.keys s + 1)) :
    ∃ st, allocate s i (k, w) = .error (.databaseFailed (.keys k.load.isSome)) st := by
  obtain ⟨hcache, hrows⟩ := h.unknown hn
  have hload := nextKey_load k w.tables.keys s
  have hmem : ⟨s, j, k.counter w.tables.keys s + 1⟩ ∈ w.tables.keys := by
    rcases h.held htaken with hmem | hleft
    · exact hmem
    · -- a left-over key is remembered, so the counter is not below it
      obtain ⟨x, hx⟩ := h.unwritten_cached _ hleft
      have hsame := h.cached hx
      rw [htaken] at hsame
      obtain rfl := Option.some.inj hsame
      obtain ⟨c, hcounter, hle⟩ := hc.known hx
      rw [counter, hcounter, Option.getD_some] at hle
      omega
  have hinsert : insertAll w.tables.keys [⟨s, i, k.counter w.tables.keys s + 1⟩] = none :=
    insertAll_singleton_eq_none_iff.2 ⟨_, hmem, fun hcompatible => (hcompatible rfl).2 rfl⟩
  rw [allocate_unknown hcache h.not_undone hrows, Warehouse.addKeys_none hinsert, hload]
  cases k.load with
  | some load => exact ⟨_, rfl⟩
  | none => exact ⟨_, rfl⟩

/-! ## Transactions -/

theorem Refines.start (h : Refines k w m) (hidle : k.load = none) : Refines k.start (Database.start w) m where
  inj := h.inj
  cached := h.cached
  stored := h.stored
  held := h.held
  restored_sub := h.restored_sub
  kept _ ha := .inl (h.idle hidle ▸ ha)
  idle := nofun
  unwritten_cached := h.unwritten_cached
  written_cached := nofun
  unwritten_nodup := h.unwritten_nodup
  written_nodup := .nil
  not_undone := rfl

theorem Refines.commit (h : Refines k w m) : Refines k.committed (Database.commit w) m where
  inj := h.inj
  cached := h.cached
  stored := h.stored
  held := h.held
  restored_sub _ ha := ha
  kept _ ha := .inl ha
  idle _ := rfl
  unwritten_cached := h.unwritten_cached
  written_cached := nofun
  unwritten_nodup := h.unwritten_nodup
  written_nodup := .nil
  not_undone := rfl

theorem unwritten_rolledBack (k : DurableKeys) :
    k.rolledBack.unwritten = k.written.filter (fun p => !k.unwritten.contains p) ++ k.unwritten := rfl

theorem mem_rolledBack {p : String × String} :
    p ∈ k.rolledBack.unwritten ↔ p ∈ k.written ∨ p ∈ k.unwritten := by
  rw [unwritten_rolledBack, List.mem_append, List.mem_filter]
  by_cases hp : p ∈ k.unwritten <;> simp [hp]

/-- A rollback takes rows away and leaves their assignments unwritten. -/
theorem Refines.rollback (h : Refines k w m) : Refines k.rolledBack (Database.rollback w) m where
  inj := h.inj
  cached := h.cached
  stored a ha := h.stored a (h.restored_sub a ha)
  held {s i n} hn := by
    rw [mem_rolledBack]
    rcases h.held hn with hmem | hleft
    · rcases h.kept _ hmem with hmem | hwritten
      · exact .inl hmem
      · exact .inr (.inl hwritten)
    · exact .inr (.inr hleft)
  restored_sub _ ha := ha
  kept _ ha := .inl ha
  idle _ := rfl
  unwritten_cached p hp := by
    rcases mem_rolledBack.1 hp with hp | hp
    · exact h.written_cached p hp
    · exact h.unwritten_cached p hp
  written_cached := nofun
  unwritten_nodup := by
    rw [unwritten_rolledBack, List.nodup_append]
    refine ⟨h.written_nodup.filter _, h.unwritten_nodup, ?_⟩
    intro p hp q hq heq
    subst heq
    simp [List.mem_filter] at hp
    exact hp.2 hq
  written_nodup := .nil
  not_undone := rfl

/-! ## Left-over assignments -/

theorem mem_missing {rows : List Assignment} {pending : List (String × String)} {a : Assignment} :
    a ∈ k.missing rows pending ↔ (a.scope, a.id) ∈ pending ∧ lookup a.scope a.id rows = none ∧
      lookup a.scope a.id k.cache = some a.key := by
  obtain ⟨s, i, n⟩ := a
  rw [missing, List.mem_filterMap]
  constructor
  · rintro ⟨⟨t, j⟩, hp, ha⟩
    dsimp only at ha
    cases hrows : lookup t j rows with
    | some x => simp [hrows] at ha
    | none =>
      cases hcache : lookup t j k.cache with
      | none => simp [hrows, hcache] at ha
      | some x =>
        simp only [hrows, hcache, Option.isSome_none, Bool.false_eq_true, if_false, Option.map_some,
          Option.some.injEq, Assignment.mk.injEq] at ha
        obtain ⟨rfl, rfl, rfl⟩ := ha
        exact ⟨hp, hrows, hcache⟩
  · rintro ⟨hp, hrows, hcache⟩
    exact ⟨(s, i), hp, by simp [hrows, hcache]⟩

/-- Where the process has answered no key twice, what it has left over is consistent. -/
theorem consistent_missing {rows : List Assignment} {pending : List (String × String)} (hnodup : pending.Nodup)
    (hinj : ∀ {s i j n}, lookup s i k.cache = some n → lookup s j k.cache = some n → i = j) :
    Consistent (k.missing rows pending) := by
  rw [Consistent, missing, List.pairwise_filterMap]
  refine hnodup.imp fun {p q} hne a ha b hb => ?_
  have hof (p : String × String) (a : Assignment)
      (ha : (if (lookup p.1 p.2 rows).isSome then none
        else (lookup p.1 p.2 k.cache).map fun n => (⟨p.1, p.2, n⟩ : Assignment)) = some a) :
      (a.scope, a.id) = p ∧ lookup a.scope a.id k.cache = some a.key := by
    split at ha
    · cases ha
    · obtain ⟨n, hn, rfl⟩ := Option.map_eq_some_iff.1 ha
      exact ⟨rfl, hn⟩
  obtain ⟨rfl, haKey⟩ := hof p a ha
  obtain ⟨rfl, hbKey⟩ := hof q b hb
  intro hs
  have hids : a.id ≠ b.id := fun hid => hne (by rw [hs, hid])
  refine ⟨hids, fun hkey => hids ?_⟩
  rw [hs, hkey] at haKey
  exact hinj haKey hbKey

/-- What is left over and has no row stands beside the rows, where these agree with what was answered. -/
theorem compatible_missing {rows : List Assignment} {pending : List (String × String)}
    (hagrees : ∀ {s i n}, lookup s i k.cache = some n → ∀ b ∈ rows, b.scope = s → b.key = n → b.id = i) :
    ∀ a ∈ k.missing rows pending, ∀ b ∈ rows, Compatible a b := by
  intro a ha b hb hs
  obtain ⟨-, hrows, hcache⟩ := mem_missing.1 ha
  have hids : b.id ≠ a.id := lookup_eq_none_iff.1 hrows b hb hs
  exact ⟨hids, fun hkey => hids (hagrees hcache b hb hs hkey)⟩

/-- The left-over assignments that have no row can all be added. -/
theorem Refines.insertAll_missing (h : Refines k w m) {pending : List (String × String)}
    (hnodup : pending.Nodup) :
    insertAll w.tables.keys (k.missing w.tables.keys pending) =
      some (w.tables.keys ++ k.missing w.tables.keys pending) := by
  refine insertAll_eq (compatible_missing fun hn b hb hs hkey => ?_)
    (consistent_missing hnodup fun hi hj => h.inj (h.cached hi) (h.cached hj))
  have hrow := h.stored b hb
  rw [hs, hkey] at hrow
  exact h.inj hrow (h.cached hn)

/-- Synchronization writes what is left over and never fails. -/
theorem Refines.sync (h : Refines k w m) (hidle : k.load = none) :
    ∃ n k' w', DurableKeys.sync (k, w) = .ok n (k', w') ∧ Refines k' w' m ∧ k'.cache = k.cache ∧
      k'.counters = k.counters ∧ k'.load = none ∧ k'.unwritten = [] := by
  have hmem (p : String × String) : p ∈ k.unwritten.mergeSort pairLe ↔ p ∈ k.unwritten :=
    List.mem_mergeSort
  have hnodup : (k.unwritten.mergeSort pairLe).Nodup :=
    (List.mergeSort_perm _ _).nodup_iff.2 h.unwritten_nodup
  unfold DurableKeys.sync
  dsimp only
  split
  · next hempty =>
    refine ⟨0, k, w, rfl, h, rfl, rfl, hidle, ?_⟩
    rw [List.isEmpty_iff] at hempty
    exact List.eq_nil_iff_forall_not_mem.2 fun p hp => by simpa [hempty] using (hmem p).2 hp
  · have hadd : Database.addKeys (k.missing (Database.keys (Database.start w)) (k.unwritten.mergeSort pairLe))
        (Database.start w) = _ := Warehouse.addKeys_eq (h.insertAll_missing hnodup)
    simp only [Warehouse.readable_eq, hadd, Warehouse.commits_eq, if_true]
    refine ⟨_, _, _, rfl, ?_, rfl, rfl, hidle, rfl⟩
    refine ⟨h.inj, h.cached, fun a ha => ?_, fun {s i n} hn => .inl ?_, fun _ ha => ha, fun _ ha => .inl ha,
      fun _ => rfl, nofun, ?_, .nil, ?_, h.not_undone⟩
    · rcases List.mem_append.1 ha with ha | ha
      · exact h.stored a ha
      · exact h.cached (mem_missing.1 ha).2.2
    · rcases h.held hn with hrow | hleft
      · exact List.mem_append_left _ hrow
      · obtain ⟨x, hx⟩ := h.unwritten_cached _ hleft
        have hsame := h.cached hx
        rw [hn] at hsame
        obtain rfl : n = x := Option.some.inj hsame
        cases hrows : lookup s i w.tables.keys with
        | none => exact List.mem_append_right _ (mem_missing.2 ⟨(hmem _).2 hleft, hrows, hx⟩)
        | some y =>
          have hy := h.stored _ (mem_of_lookup hrows)
          rw [hn] at hy
          obtain rfl : n = y := Option.some.inj hy
          exact List.mem_append_left _ (mem_of_lookup hrows)
    · exact fun p hp => h.written_cached p hp
    · exact h.written_nodup

/-- A new process that finds everything in the table. -/
theorem Refines.restart (h : Refines k w m) (hidle : k.load = none) (hleft : k.unwritten = []) :
    Refines empty w m where
  inj := h.inj
  cached := nofun
  stored := h.stored
  held {s i n} hn := by
    rcases h.held hn with hmem | hmem
    · exact .inl hmem
    · rw [hleft] at hmem
      cases hmem
  restored_sub := h.restored_sub
  kept _ ha := .inl (h.idle hidle ▸ ha)
  idle _ := h.idle hidle
  unwritten_cached := nofun
  written_cached := nofun
  unwritten_nodup := .nil
  written_nodup := .nil
  not_undone := rfl

theorem counts_empty : Counts empty := ⟨nofun, nofun⟩

end DurableKeys

end SnapshotStaging
