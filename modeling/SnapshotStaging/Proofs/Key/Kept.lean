import SnapshotStaging.Proofs.Key.Steps

/-!
# What a durable store keeps

`Kept` ties a store to the table of keys: whatever it has answered has its row, is left over, or was written in
the open transaction, under one key. `Once` adds that nothing left over has a row already. Every step keeps both,
whether it is answered or refused; the only step that must not be made is to commit a transaction that a refusal
has undone, for its keys would be taken to be in the table (`Intact`).

Main results: `Kept.answered`, `Kept.refused`, `Kept.commit`, `Kept.rollback`, `Kept.synced` and
`Kept.insertAll_due`, by which a synchronization breaks no constraint.
-/

namespace SnapshotStaging

open Assignment

namespace DurableKeys

variable {k k' : DurableKeys} {w w' : Warehouse} {s i t : String} {n : Nat} {rows : List Assignment}

/-- All keys that were given in the open transaction are in the table. -/
def Intact (k : DurableKeys) (rows : List Assignment) : Prop := ∀ p ∈ k.written, ∃ n, ⟨p.1, p.2, n⟩ ∈ rows

/-- The assignments that rollbacks have left over. -/
def leftOver (k : DurableKeys) : List Assignment := k.missing [] k.unwritten

/-- Whatever the store has answered has its row, is left over, or was written in the open transaction. -/
structure Kept (k : DurableKeys) (w : Warehouse) : Prop where
  consistent : Consistent w.tables.keys
  restored : w.restored <+: w.tables.keys
  /-- No key was answered for two identifiers. -/
  inj : ∀ {s i j n}, lookup s i k.cache = some n → lookup s j k.cache = some n → i = j
  agrees : ∀ {s i n}, lookup s i k.cache = some n → ∀ a ∈ w.tables.keys, a.scope = s → (a.id = i ↔ a.key = n)
  placed : ∀ {s i n}, lookup s i k.cache = some n →
    ⟨s, i, n⟩ ∈ w.tables.keys ∨ (s, i) ∈ k.unwritten ∨ (s, i) ∈ k.written
  /-- What a rollback takes away was written in the open transaction. -/
  undoes : ∀ a ∈ w.tables.keys, a ∈ w.restored ∨ (a.scope, a.id) ∈ k.written
  idle : k.load = none → w.restored = w.tables.keys
  /-- No counter is below a key that the process has answered. -/
  counted : ∀ {s i n}, lookup s i k.cache = some n → ∃ c, k.counter? s = some c ∧ n ≤ c
  unwritten_cached : ∀ p ∈ k.unwritten, ∃ n, lookup p.1 p.2 k.cache = some n
  written_cached : ∀ p ∈ k.written, ∃ n, lookup p.1 p.2 k.cache = some n
  unwritten_nodup : k.unwritten.Nodup
  written_nodup : k.written.Nodup

/-- What is left over has no row, and what was written in the open transaction had none before it. -/
structure Once (k : DurableKeys) (w : Warehouse) : Prop where
  unwritten : ∀ a ∈ w.tables.keys, (a.scope, a.id) ∉ k.unwritten
  written : ∀ a ∈ w.restored, (a.scope, a.id) ∉ k.written

/-! ## Counters and lookups -/

theorem written_eq_nil (h : k.load = none) : k.written = [] := by
  rw [written, h]
  rfl

/-- The next key is greater than all keys of the scope that the process has answered. -/
theorem Kept.lt_next (h : Kept k w) {j : String} (hj : lookup s j k.cache = some n) (rows : List Assignment) :
    n < k.counter rows s + 1 := by
  obtain ⟨c, hc, hle⟩ := h.counted hj
  rw [counter, hc, Option.getD_some]
  omega

/-- The first look at a counter keeps those that are known. -/
theorem counter?_nextKey {c : Nat} (h : k.counter? t = some c) (rows : List Assignment) (s : String) :
    (k.nextKey rows s).1.counter? t = some c := by
  unfold nextKey
  cases hs : k.counter? s with
  | some m => exact h
  | none =>
    have hne : s ≠ t := by
      rintro rfl
      rw [hs] at h
      cases h
    simpa [counter?, hne] using h

theorem given_cache (k : DurableKeys) (rows : List Assignment) (s i : String) :
    (k.given rows s i).cache = k.next rows s i :: k.cache :=
  congrArg (k.next rows s i :: ·) (nextKey_cache k rows s)

theorem given_unwritten (k : DurableKeys) (rows : List Assignment) (s i : String) :
    (k.given rows s i).unwritten = k.unwritten :=
  nextKey_unwritten k rows s

theorem given_load (k : DurableKeys) (rows : List Assignment) (s i : String) : (k.given rows s i).load = k.load :=
  nextKey_load k rows s

/-- A new process on a table that keeps its constraints, with no transaction open. -/
theorem Kept.fresh (hrows : Consistent w.tables.keys) (hidle : w.saved = none) : Kept .empty w := by
  have hrestored : w.restored = w.tables.keys := by
    rw [Warehouse.restored, hidle]
    rfl
  refine ⟨hrows, hrestored ▸ List.prefix_rfl, nofun, nofun, nofun, ?_, fun _ => hrestored, nofun, nofun, nofun,
    .nil, .nil⟩
  exact fun a ha => .inl (hrestored ▸ ha)

/-! ## Calls for keys -/

/-- Finding a stored key. -/
theorem Kept.remember (h : Kept k w) (hrow : lookup s i w.tables.keys = some n) : Kept (k.remember ⟨s, i, n⟩) w := by
  have hmem := mem_of_lookup hrow
  have hcached {t j : String} : (∃ x, lookup t j k.cache = some x) →
      ∃ x, lookup t j (k.remember ⟨s, i, n⟩).cache = some x :=
    fun hx => (exists_lookup_cons ..).2 (.inr hx)
  have hcases {t j : String} {x : Nat} (hx : lookup t j (k.remember ⟨s, i, n⟩).cache = some x) :
      (s = t ∧ i = j ∧ n = x) ∨ lookup t j k.cache = some x := by
    rw [show (k.remember ⟨s, i, n⟩).cache = ⟨s, i, n⟩ :: k.cache from rfl, lookup_cons] at hx
    split at hx
    · next heq => exact .inl ⟨heq.1, heq.2, Option.some.inj hx⟩
    · exact .inr hx
  refine ⟨h.consistent, h.restored, ?_, ?_, ?_, h.undoes, h.idle, ?_, fun p hp => hcached (h.unwritten_cached p hp),
    fun p hp => hcached (h.written_cached p hp), h.unwritten_nodup, h.written_nodup⟩
  · intro t j j' x hj hj'
    rcases hcases hj with ⟨rfl, rfl, rfl⟩ | hj <;> rcases hcases hj' with ⟨hs, rfl, hn⟩ | hj'
    · rfl
    · exact (h.agrees hj' _ hmem rfl).2 rfl
    · subst hs hn
      exact ((h.agrees hj _ hmem rfl).2 rfl).symm
    · exact h.inj hj hj'
  · intro t j x hj a ha hscope
    rcases hcases hj with ⟨rfl, rfl, rfl⟩ | hj
    · exact h.consistent.id_iff ha hmem hscope
    · exact h.agrees hj a ha hscope
  · intro t j x hj
    rcases hcases hj with ⟨rfl, rfl, rfl⟩ | hj
    · exact .inl hmem
    · exact h.placed hj
  · intro t j x hj
    rw [counter?_remember]
    rcases hcases hj with ⟨rfl, rfl, rfl⟩ | hj
    · exact ⟨_, if_pos rfl, Nat.le_max_left ..⟩
    · obtain ⟨c, hc, hle⟩ := h.counted hj
      by_cases hs : s = t
      · subst hs
        refine ⟨_, if_pos rfl, ?_⟩
        rw [hc]
        exact Nat.le_trans hle (Nat.le_max_right ..)
      · exact ⟨c, (if_neg hs).trans hc, hle⟩

/-- Giving a new key, and writing its row. -/
theorem Kept.given (h : Kept k w) (hcache : lookup s i k.cache = none)
    (hfresh : ∀ b ∈ w.tables.keys, Compatible (k.next w.tables.keys s i) b)
    (hcache' : k'.cache = k.next w.tables.keys s i :: k.cache)
    (hcounter' : ∀ t, k'.counter? t = (k.given w.tables.keys s i).counter? t)
    (hunwritten' : k'.unwritten = k.unwritten) (hsub : ∀ p ∈ k.written, p ∈ k'.written)
    (hwritten' : ∀ p ∈ k'.written, p = (s, i) ∨ p ∈ k.written) (hnodup' : k'.written.Nodup)
    (hkeys' : w'.tables.keys = w.tables.keys ++ [k.next w.tables.keys s i])
    (hrestored' : w'.restored <+: w'.tables.keys)
    (hundoes' : ∀ a ∈ w'.tables.keys, a ∈ w'.restored ∨ (a.scope, a.id) ∈ k'.written)
    (hidle' : k'.load = none → w'.restored = w'.tables.keys) : Kept k' w' := by
  have hcases {t j : String} {x : Nat} (hx : lookup t j k'.cache = some x) :
      (s = t ∧ i = j ∧ k.counter w.tables.keys s + 1 = x) ∨ lookup t j k.cache = some x := by
    rw [hcache', lookup_cons] at hx
    split at hx
    · next heq => exact .inl ⟨heq.1, heq.2, Option.some.inj hx⟩
    · exact .inr hx
  have hcached {t j : String} : (∃ x, lookup t j k.cache = some x) → ∃ x, lookup t j k'.cache = some x := by
    intro hx
    rw [hcache']
    exact (exists_lookup_cons ..).2 (.inr hx)
  have hrows {a : Assignment} (ha : a ∈ w'.tables.keys) :
      a ∈ w.tables.keys ∨ a = k.next w.tables.keys s i := by
    rw [hkeys'] at ha
    rcases List.mem_append.1 ha with ha | ha
    · exact .inl ha
    · exact .inr (List.mem_singleton.1 ha)
  have hnew : k.next w.tables.keys s i ∈ w'.tables.keys := by
    rw [hkeys']
    exact List.mem_append_right _ (List.mem_singleton_self _)
  have hold {a : Assignment} (ha : a ∈ w.tables.keys) : a ∈ w'.tables.keys := by
    rw [hkeys']
    exact List.mem_append_left _ ha
  refine ⟨?_, hrestored', ?_, ?_, ?_, hundoes', hidle', ?_, ?_, ?_, hunwritten' ▸ h.unwritten_nodup, hnodup'⟩
  · rw [hkeys']
    refine h.consistent.append (fun a ha => ?_) (List.pairwise_singleton ..)
    rw [List.mem_singleton.1 ha]
    exact hfresh
  · intro t j j' x hj hj'
    rcases hcases hj with ⟨rfl, rfl, rfl⟩ | hj <;> rcases hcases hj' with ⟨hs, rfl, hn⟩ | hj'
    · rfl
    · exact absurd (h.lt_next hj' w.tables.keys) (Nat.lt_irrefl _)
    · subst hs hn
      exact absurd (h.lt_next hj w.tables.keys) (Nat.lt_irrefl _)
    · exact h.inj hj hj'
  · intro t j x hj a ha hscope
    rcases hcases hj with ⟨rfl, rfl, rfl⟩ | hj
    · rcases hrows ha with ha | rfl
      · obtain ⟨hid, hkey⟩ := hfresh a ha hscope
        exact ⟨fun heq => absurd heq hid, fun heq => absurd heq hkey⟩
      · exact ⟨fun _ => rfl, fun _ => rfl⟩
    · rcases hrows ha with ha | rfl
      · exact h.agrees hj a ha hscope
      · obtain rfl : s = t := hscope
        have hlt := h.lt_next hj w.tables.keys
        constructor
        · rintro rfl
          have hj : lookup s i k.cache = some x := hj
          rw [hcache] at hj
          cases hj
        · rintro rfl
          exact absurd hlt (Nat.lt_irrefl _)
  · intro t j x hj
    rcases hcases hj with ⟨rfl, rfl, rfl⟩ | hj
    · exact .inl hnew
    · rw [hunwritten']
      exact (h.placed hj).imp hold (.imp_right (hsub _))
  · intro t j x hj
    rw [hcounter', DurableKeys.given, next, counter?_given]
    rcases hcases hj with ⟨rfl, rfl, rfl⟩ | hj
    · exact ⟨_, if_pos rfl, Nat.le_refl _⟩
    · obtain ⟨c, hc, hle⟩ := h.counted hj
      by_cases hs : s = t
      · subst hs
        exact ⟨_, if_pos rfl, Nat.le_of_lt (h.lt_next hj w.tables.keys)⟩
      · exact ⟨c, (if_neg hs).trans hc, hle⟩
  · intro p hp
    exact hcached (h.unwritten_cached p (hunwritten' ▸ hp))
  · intro p hp
    rcases hwritten' p hp with rfl | hp
    · rw [hcache']
      exact (exists_lookup_cons ..).2 (.inl ⟨rfl, rfl⟩)
    · exact hcached (h.written_cached p hp)

/-- What was answered is remembered, beside all that was. -/
theorem Answered.remembers (h : Answered k w s i n k' w') :
    lookup s i k'.cache = some n ∧ ∀ {t j x}, lookup t j k.cache = some x → lookup t j k'.cache = some x := by
  have hgiven {m : Nat} (hcache : lookup s i k.cache = none) (hk : k'.cache = ⟨s, i, m⟩ :: k.cache) :
      lookup s i k'.cache = some m ∧ ∀ {t j x}, lookup t j k.cache = some x → lookup t j k'.cache = some x := by
    rw [hk]
    exact ⟨by rw [lookup_cons, if_pos ⟨rfl, rfl⟩], KeyStore.lookup_cons_of_lookup hcache⟩
  cases h with
  | known hcache => exact ⟨hcache, fun h => h⟩
  | found hcache _ => exact hgiven hcache rfl
  | written hcache _ _ _ _ => exact hgiven hcache (given_cache k _ s i)
  | committed hcache _ _ _ => exact hgiven hcache (given_cache k _ s i)

/-- Whatever way an answered call goes, everything answered is kept. -/
theorem Kept.answered (h : Kept k w) (hstep : Answered k w s i n k' w') : Kept k' w' := by
  have hwritten : (k.given w.tables.keys s i).written = k.written := by
    rw [written, written, given_load]
  cases hstep with
  | known _ => exact h
  | found _ hrow => exact h.remember hrow
  | @written load hcache hload _ hrow hfresh =>
    have hopen : (k.given w.tables.keys s i).load.isSome := by
      rw [given_load, hload]
      rfl
    have hlisted : ((k.given w.tables.keys s i).wrote (k.next w.tables.keys s i)).written = (s, i) :: k.written := by
      rw [wrote_written _ hopen, hwritten]
      rfl
    refine h.given hcache hfresh (given_cache k _ s i) (fun _ => rfl) (given_unwritten k _ s i) ?_ ?_ ?_ rfl
      ?_ ?_ ?_
    · intro p hp
      rw [hlisted]
      exact List.mem_cons_of_mem _ hp
    · intro p hp
      rw [hlisted] at hp
      exact List.mem_cons.1 hp
    · rw [hlisted, List.nodup_cons]
      refine ⟨fun hmem => ?_, h.written_nodup⟩
      obtain ⟨x, hx⟩ := h.written_cached _ hmem
      rw [hcache] at hx
      cases hx
    · exact h.restored.trans (List.prefix_append ..)
    · intro a ha
      rw [hlisted]
      rcases List.mem_append.1 ha with ha | ha
      · exact (h.undoes a ha).imp_right (List.mem_cons_of_mem _)
      · rw [List.mem_singleton.1 ha]
        exact .inr (List.mem_cons_self ..)
    · intro hnone
      simp [wrote, given_load, hload] at hnone
  | committed hcache hload hrow hfresh =>
    refine h.given hcache hfresh (given_cache k _ s i) (fun _ => rfl) (given_unwritten k _ s i) ?_ ?_ ?_ rfl
      ?_ ?_ ?_
    · intro p hp
      rwa [hwritten]
    · intro p hp
      rw [hwritten] at hp
      exact .inr hp
    · exact hwritten ▸ h.written_nodup
    · exact List.prefix_rfl
    · exact fun a ha => .inl ha
    · exact fun _ => rfl

theorem Once.answered (h : Once k w) (hk : Kept k w) (hstep : Answered k w s i n k' w') : Once k' w' := by
  have hleft (hcache : lookup s i k.cache = none) : (s, i) ∉ k.unwritten := by
    intro hmem
    obtain ⟨x, hx⟩ := hk.unwritten_cached _ hmem
    rw [hcache] at hx
    cases hx
  have hadded (hcache : lookup s i k.cache = none) {a : Assignment}
      (ha : a ∈ w.tables.keys ++ [k.next w.tables.keys s i]) : (a.scope, a.id) ∉ k.unwritten := by
    rcases List.mem_append.1 ha with ha | ha
    · exact h.unwritten a ha
    · rw [List.mem_singleton.1 ha]
      exact hleft hcache
  cases hstep with
  | known _ => exact h
  | found _ _ => exact ⟨h.unwritten, h.written⟩
  | @written load hcache hload _ hrow _ =>
    refine ⟨fun a ha => ?_, fun a ha => ?_⟩
    · rw [show ((k.given w.tables.keys s i).wrote (k.next w.tables.keys s i)).unwritten = k.unwritten from
        given_unwritten k _ s i]
      exact hadded hcache ha
    · rw [wrote_written _ (by rw [given_load, hload]; rfl), DurableKeys.written, given_load, List.mem_cons, not_or]
      refine ⟨fun heq => ?_, h.written a ha⟩
      obtain ⟨hscope, hid⟩ := Prod.mk.inj heq
      exact lookup_eq_none_iff.1 hrow a (hk.restored.subset ha) hscope hid
  | committed hcache hload _ _ =>
    refine ⟨fun a ha => ?_, fun a _ => ?_⟩
    · rw [given_unwritten]
      exact hadded hcache ha
    · rw [written_eq_nil ((given_load k _ s i).trans hload)]
      exact List.not_mem_nil

/-! ## Rollbacks and refusals -/

/-- A store that differs in its counters, and in whether its transaction was undone. -/
theorem Kept.of_counters (h : Kept k w) (hcache : k'.cache = k.cache) (hunwritten : k'.unwritten = k.unwritten)
    (hwritten : k'.written = k.written) (hload : k'.load = none → k.load = none)
    (hcounters : ∀ {t c}, k.counter? t = some c → k'.counter? t = some c) : Kept k' w where
  consistent := h.consistent
  restored := h.restored
  inj := by
    rw [hcache]
    exact h.inj
  agrees := by
    rw [hcache]
    exact h.agrees
  placed := by
    rw [hcache, hunwritten, hwritten]
    exact h.placed
  undoes := by
    rw [hwritten]
    exact h.undoes
  idle hnone := h.idle (hload hnone)
  counted := by
    rw [hcache]
    intro t j x hj
    obtain ⟨c, hc, hle⟩ := h.counted hj
    exact ⟨c, hcounters hc, hle⟩
  unwritten_cached := by
    rw [hcache, hunwritten]
    exact h.unwritten_cached
  written_cached := by
    rw [hcache, hwritten]
    exact h.written_cached
  unwritten_nodup := hunwritten ▸ h.unwritten_nodup
  written_nodup := hwritten ▸ h.written_nodup

/-- The rows go, and the transaction in which they were written is still to be left. -/
theorem Kept.undone (h : Kept k w) : Kept k w.rollback where
  consistent := h.consistent.sublist h.restored.sublist
  restored := List.prefix_rfl
  inj := h.inj
  agrees hn a ha := h.agrees hn a (h.restored.subset ha)
  placed hn := by
    rcases h.placed hn with hrow | hplace
    · exact (h.undoes _ hrow).imp_right .inr
    · exact .inr hplace
  undoes a ha := .inl ha
  idle _ := rfl
  counted := h.counted
  unwritten_cached := h.unwritten_cached
  written_cached := h.written_cached
  unwritten_nodup := h.unwritten_nodup
  written_nodup := h.written_nodup

theorem Once.undone (h : Once k w) (hk : Kept k w) : Once k w.rollback :=
  ⟨fun a ha => h.unwritten a (hk.restored.subset ha), h.written⟩

theorem spoilt_written {load : LoadTransaction} (hload : k.load = some load) (rows : List Assignment) (s : String) :
    ((k.nextKey rows s).1.spoilt load).written = k.written := by
  rw [written, written, hload]
  rfl

theorem nextKey_written (k : DurableKeys) (rows : List Assignment) (s : String) :
    (k.nextKey rows s).1.written = k.written := by
  rw [written, written, nextKey_load]

theorem Kept.refused (h : Kept k w) (hstep : Refused k w s k' w') : Kept k' w' := by
  cases hstep with
  | nothing => exact h
  | written hload =>
    exact h.undone.of_counters (nextKey_cache ..) (nextKey_unwritten ..) (spoilt_written hload ..) nofun
      (fun hc => counter?_nextKey hc ..)
  | committed hload =>
    exact h.undone.of_counters (nextKey_cache ..) (nextKey_unwritten ..) (nextKey_written ..) (fun _ => hload)
      (fun hc => counter?_nextKey hc ..)

theorem Once.refused (h : Once k w) (hk : Kept k w) (hstep : Refused k w s k' w') : Once k' w' := by
  have hundone := h.undone hk
  cases hstep with
  | nothing => exact h
  | written hload =>
    refine ⟨?_, ?_⟩
    · rw [show ((k.nextKey w.tables.keys s).1.spoilt _).unwritten = k.unwritten from nextKey_unwritten ..]
      exact hundone.unwritten
    · rw [spoilt_written hload]
      exact hundone.written
  | committed hload =>
    refine ⟨?_, ?_⟩
    · rw [nextKey_unwritten]
      exact hundone.unwritten
    · rw [nextKey_written]
      exact hundone.written

/-- A refused call drops nothing. -/
theorem Refused.drops_nothing (hstep : Refused k w s k' w') :
    k'.cache = k.cache ∧ k'.unwritten = k.unwritten ∧ k'.written = k.written := by
  cases hstep with
  | nothing => exact ⟨rfl, rfl, rfl⟩
  | written hload => exact ⟨nextKey_cache .., nextKey_unwritten .., spoilt_written hload ..⟩
  | committed hload => exact ⟨nextKey_cache .., nextKey_unwritten .., nextKey_written ..⟩

/-! ## Transactions -/

theorem Kept.start (h : Kept k w) (hidle : k.load = none) : Kept k.start w where
  consistent := h.consistent
  restored := h.restored
  inj := h.inj
  agrees := h.agrees
  placed hn := by
    rcases h.placed hn with hrow | hleft | hwritten
    · exact .inl hrow
    · exact .inr (.inl hleft)
    · rw [written_eq_nil hidle] at hwritten
      cases hwritten
  undoes a ha := .inl (h.idle hidle ▸ ha)
  idle := nofun
  counted := h.counted
  unwritten_cached := h.unwritten_cached
  written_cached := nofun
  unwritten_nodup := h.unwritten_nodup
  written_nodup := .nil

/-- What was written in a transaction that was not undone has its rows. -/
theorem Kept.row_of_intact (h : Kept k w) (hintact : k.Intact w.tables.keys) (hn : lookup s i k.cache = some n)
    (hwritten : (s, i) ∈ k.written) : ⟨s, i, n⟩ ∈ w.tables.keys := by
  obtain ⟨x, hx⟩ := hintact _ hwritten
  obtain rfl : x = n := (h.agrees hn _ hx rfl).1 rfl
  exact hx

theorem Kept.commit (h : Kept k w) (hintact : k.Intact w.tables.keys) : Kept k.committed w.commit where
  consistent := h.consistent
  restored := List.prefix_rfl
  inj := h.inj
  agrees := h.agrees
  placed hn := by
    rcases h.placed hn with hrow | hleft | hwritten
    · exact .inl hrow
    · exact .inr (.inl hleft)
    · exact .inl (h.row_of_intact hintact hn hwritten)
  undoes a ha := .inl ha
  idle _ := rfl
  counted := h.counted
  unwritten_cached := h.unwritten_cached
  written_cached := nofun
  unwritten_nodup := h.unwritten_nodup
  written_nodup := .nil

theorem Kept.rollback (h : Kept k w) : Kept k.rolledBack w.rollback where
  consistent := h.undone.consistent
  restored := List.prefix_rfl
  inj := h.inj
  agrees := h.undone.agrees
  placed hn := by
    rcases h.undone.placed hn with hrow | hleft | hwritten
    · exact .inl hrow
    · exact .inr (.inl (mem_rolledBack.2 (.inr hleft)))
    · exact .inr (.inl (mem_rolledBack.2 (.inl hwritten)))
  undoes a ha := .inl ha
  idle _ := rfl
  counted := h.counted
  unwritten_cached p hp := by
    rcases mem_rolledBack.1 hp with hp | hp
    · exact h.written_cached p hp
    · exact h.unwritten_cached p hp
  written_cached := nofun
  unwritten_nodup := by
    rw [unwritten_rolledBack, List.nodup_append]
    refine ⟨h.written_nodup.filter _, h.unwritten_nodup, ?_⟩
    rintro p hp _ hq rfl
    simp [List.mem_filter] at hp
    exact hp.2 hq
  written_nodup := .nil

theorem Once.rollback (h : Once k w) (hk : Kept k w) : Once k.rolledBack w.rollback where
  unwritten a ha := by
    rw [mem_rolledBack, not_or]
    exact ⟨h.written a ha, h.unwritten a (hk.restored.subset ha)⟩
  written _ _ := nofun

/-! ## Synchronizations -/

theorem mem_due {rows : List Assignment} {a : Assignment} : a ∈ k.due rows ↔
    (a.scope, a.id) ∈ k.unwritten ∧ lookup a.scope a.id rows = none ∧ lookup a.scope a.id k.cache = some a.key := by
  rw [due, mem_missing, List.mem_mergeSort]

theorem Kept.synced (h : Kept k w) (hstep : Synced k w k' w') : Kept k' w' := by
  cases hstep with
  | idle _ => exact h
  | written hfresh hdue =>
    refine ⟨h.consistent.append hfresh hdue, List.prefix_rfl, h.inj, ?_, ?_, fun a ha => .inl ha, fun _ => rfl,
      h.counted, nofun, h.written_cached, .nil, h.written_nodup⟩
    · intro t j x hj a ha hscope
      rcases List.mem_append.1 ha with ha | ha
      · exact h.agrees hj a ha hscope
      · obtain ⟨-, -, hcached⟩ := mem_due.1 ha
        subst hscope
        constructor
        · rintro rfl
          rw [hcached] at hj
          exact Option.some.inj hj
        · rintro rfl
          exact h.inj hcached hj
    · intro t j x hj
      rcases h.placed hj with hrow | hleft | hwritten
      · exact .inl (List.mem_append_left _ hrow)
      · refine .inl ?_
        cases hrow : lookup t j w.tables.keys with
        | none => exact List.mem_append_right _ (mem_due.2 ⟨hleft, hrow, hj⟩)
        | some y =>
          have hmem := mem_of_lookup hrow
          obtain rfl : y = x := (h.agrees hj _ hmem rfl).1 rfl
          exact List.mem_append_left _ hmem
      · exact .inr (.inr hwritten)

theorem Synced.cache_eq (hstep : Synced k w k' w') : k'.cache = k.cache := by
  cases hstep <;> rfl

theorem Synced.load_eq (hstep : Synced k w k' w') : k'.load = k.load := by
  cases hstep <;> rfl

/-- A synchronization opens no transaction that stays open. -/
theorem Synced.saved (hstep : Synced k w k' w') (hidle : w.saved = none) : w'.saved = none := by
  cases hstep with
  | idle _ => exact hidle
  | written _ _ => rfl

/-- A synchronization leaves nothing over. -/
theorem Synced.unwritten_eq (hstep : Synced k w k' w') : k'.unwritten = [] := by
  cases hstep with
  | idle hnone => exact hnone
  | written _ _ => rfl

theorem Once.synced (h : Once k w) (hidle : k.load = none) (hstep : Synced k w k' w') : Once k' w' := by
  cases hstep with
  | idle _ => exact h
  | written _ _ =>
    refine ⟨fun _ _ => List.not_mem_nil, fun a _ => ?_⟩
    rw [show ({ k with unwritten := [] } : DurableKeys).written = k.written from rfl, written_eq_nil hidle]
    exact List.not_mem_nil

/-- The insertions of a synchronization break no constraint. -/
theorem Kept.insertAll_due (h : Kept k w) :
    insertAll w.tables.keys (k.due w.tables.keys) = some (w.tables.keys ++ k.due w.tables.keys) :=
  insertAll_eq (compatible_missing fun hn b hb hs hkey => (h.agrees hn b hb hs).2 hkey)
    (consistent_missing ((List.mergeSort_perm ..).nodup_iff.2 h.unwritten_nodup) h.inj)

end DurableKeys

end SnapshotStaging
