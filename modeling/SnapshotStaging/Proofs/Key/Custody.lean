import SnapshotStaging.Proofs.Key.Kept

/-!
# No key is lost

What one process does with its durable store is a `KeyHistory`: keys are given inside and outside of
transactions, calls and synchronizations are refused, transactions are committed or rolled back, and what they
leave over is written by synchronizations. The database is any that follows the warehouse.

Main result `KeyHistory.accounted`: whatever was handed out is in the table or left over, under one key. What is
not promised is that every insertion keeps the constraints of the table. A counter that was set by finding a
stored identifier may stand below a stored key, and then the next new key is refused
(`KeyHistory.refused_stored`).
-/

namespace SnapshotStaging

open Assignment DurableKeys

/-- What one process has done with a database since `origin`; `handed` are the assignments that it was answered,
latest first. One transaction is open at a time, and none is committed that a refusal has undone. `inside` tells
whether synchronizations come inside of transactions as well. -/
inductive KeyHistory {σ : Type} [Database σ] (origin : σ) (inside : Bool) :
    List Assignment → DurableKeys → σ → Prop
  | fresh : KeyHistory origin inside [] .empty origin
  | answered {handed : List Assignment} {k k' : DurableKeys} {db db' : σ} {s i : String} {n : Nat}
      (h : KeyHistory origin inside handed k db) (hstep : allocate s i (k, db) = .ok n (k', db')) :
      KeyHistory origin inside (⟨s, i, n⟩ :: handed) k' db'
  | refused {handed : List Assignment} {k k' : DurableKeys} {db db' : σ} {s i : String} {err : Error}
      (h : KeyHistory origin inside handed k db) (hstep : allocate s i (k, db) = .error err (k', db')) :
      KeyHistory origin inside handed k' db'
  | started {handed : List Assignment} {k : DurableKeys} {db : σ} (h : KeyHistory origin inside handed k db)
      (hidle : k.load = none) : KeyHistory origin inside handed k.start (Database.start db)
  | committed {handed : List Assignment} {k : DurableKeys} {db : σ} (h : KeyHistory origin inside handed k db)
      (hopen : k.load.isSome) (hintact : k.Intact (Database.keys db)) (hcommits : Database.commits db = true) :
      KeyHistory origin inside handed k.committed (Database.commit db)
  | rolledBack {handed : List Assignment} {k : DurableKeys} {db : σ} (h : KeyHistory origin inside handed k db)
      (hopen : k.load.isSome) : KeyHistory origin inside handed k.rolledBack (Database.rollback db)
  | synced {handed : List Assignment} {k k' : DurableKeys} {db db' : σ} {n : Nat}
      (h : KeyHistory origin inside handed k db) (hinside : inside = true ∨ k.load = none)
      (hstep : sync (k, db) = .ok n (k', db')) : KeyHistory origin inside handed k' db'
  | unsynced {handed : List Assignment} {k k' : DurableKeys} {db db' : σ} {err : Error}
      (h : KeyHistory origin inside handed k db) (hinside : inside = true ∨ k.load = none)
      (hstep : sync (k, db) = .error err (k', db')) : KeyHistory origin inside handed k' db'

variable {σ : Type} [Database σ] {view : σ → Warehouse} {origin : σ} {inside : Bool} {handed : List Assignment}
  {k k' : DurableKeys} {w w' : Warehouse} {db db' : σ} {s i : String} {n : Nat}

namespace KeyHistory

/-- What every step of a history keeps. -/
structure Custody (inside : Bool) (handed : List Assignment) (k : DurableKeys) (w : Warehouse) : Prop where
  kept : k.Kept w
  remembered : ∀ a ∈ handed, lookup a.scope a.id k.cache = some a.key
  once : inside = false → k.Once w

theorem Custody.fresh (hrows : Consistent w.tables.keys) (hidle : w.saved = none) :
    Custody inside [] .empty w where
  kept := .fresh hrows hidle
  remembered := nofun
  once _ := ⟨fun _ _ => List.not_mem_nil, fun _ _ => List.not_mem_nil⟩

theorem Custody.answered (h : Custody inside handed k w) (hstep : Answered k w s i n k' w') :
    Custody inside (⟨s, i, n⟩ :: handed) k' w' := by
  obtain ⟨hnew, hcache⟩ := hstep.remembers
  refine ⟨h.kept.answered hstep, ?_, fun hinside => (h.once hinside).answered h.kept hstep⟩
  intro a ha
  rcases List.mem_cons.1 ha with rfl | ha
  · exact hnew
  · exact hcache (h.remembered a ha)

/-- A history starts on a table that keeps its constraints, with no transaction open. -/
theorem custody (hview : Follows view) (hrows : Consistent (view origin).tables.keys)
    (hidle : (view origin).saved = none) (h : KeyHistory origin inside handed k db) :
    Custody inside handed k (view db) := by
  induction h with
  | fresh => exact .fresh hrows hidle
  | answered _ hstep ih => exact ih.answered (DurableKeys.answered hview hstep)
  | refused _ hstep ih =>
    have hstep := (DurableKeys.refused hview hstep).2
    refine ⟨ih.kept.refused hstep, ?_, fun hinside => (ih.once hinside).refused ih.kept hstep⟩
    rw [hstep.drops_nothing.1]
    exact ih.remembered
  | started _ hidle ih =>
    rw [hview.start]
    exact ⟨ih.kept.start hidle, ih.remembered, fun hinside => ⟨(ih.once hinside).unwritten, fun _ _ => nofun⟩⟩
  | committed _ _ hintact _ ih =>
    rw [hview.keys] at hintact
    rw [hview.commit]
    exact ⟨ih.kept.commit hintact, ih.remembered, fun hinside => ⟨(ih.once hinside).unwritten, fun _ _ => nofun⟩⟩
  | rolledBack _ _ ih =>
    rw [hview.rollback]
    exact ⟨ih.kept.rollback, ih.remembered, fun hinside => (ih.once hinside).rollback ih.kept⟩
  | synced _ hinside hstep ih =>
    have hstep := DurableKeys.synced hview hstep
    refine ⟨ih.kept.synced hstep, ?_, fun houtside => (ih.once houtside).synced ?_ hstep⟩
    · rw [hstep.cache_eq]
      exact ih.remembered
    · exact hinside.resolve_left (by simp [houtside])
  | unsynced _ _ hstep ih =>
    obtain ⟨rfl, hdb⟩ := DurableKeys.unsynced hview hstep
    rw [hdb]
    exact ⟨ih.kept.undone, ih.remembered, fun hinside => (ih.once hinside).undone ih.kept⟩

end KeyHistory

/-! ## What is left over -/

namespace DurableKeys

theorem mem_leftOver {a : Assignment} :
    a ∈ k.leftOver ↔ (a.scope, a.id) ∈ k.unwritten ∧ lookup a.scope a.id k.cache = some a.key := by
  rw [leftOver, mem_missing]
  exact ⟨fun h => ⟨h.1, h.2.2⟩, fun h => ⟨h.1, rfl, h.2⟩⟩

theorem Kept.consistent_leftOver (h : k.Kept w) : Consistent k.leftOver :=
  consistent_missing h.unwritten_nodup h.inj

/-- What is left over agrees with the rows. -/
theorem Kept.agrees_leftOver (h : k.Kept w) {a b : Assignment} (ha : a ∈ k.leftOver) (hb : b ∈ w.tables.keys) :
    a = b ∨ Compatible a b := by
  have hagrees := h.agrees (mem_leftOver.1 ha).2 b hb
  by_cases hscope : b.scope = a.scope
  · by_cases hid : b.id = a.id
    · left
      have hkey := (hagrees hscope).1 hid
      obtain ⟨_, _, _⟩ := a
      obtain ⟨_, _, _⟩ := b
      simp_all
    · exact .inr fun _ => ⟨hid, fun hkey => hid ((hagrees hscope).2 hkey)⟩
  · exact .inr fun heq => absurd heq hscope

theorem Once.compatible_leftOver (h : k.Once w) (hk : k.Kept w) {a b : Assignment} (ha : a ∈ k.leftOver)
    (hb : b ∈ w.tables.keys) : Compatible a b := by
  rcases hk.agrees_leftOver ha hb with rfl | hcompatible
  · exact absurd (mem_leftOver.1 ha).1 (h.unwritten a hb)
  · exact hcompatible

/-- The row of a new identifier breaks a constraint exactly when the number after a counter that the process knows
is stored. -/
theorem insertAll_next_iff (k : DurableKeys) (hrow : lookup s i w.tables.keys = none) :
    Assignment.insertAll w.tables.keys [k.next w.tables.keys s i] = none ↔
      ∃ c j, k.counter? s = some c ∧ ⟨s, j, c + 1⟩ ∈ w.tables.keys := by
  rw [insertAll_singleton_eq_none_iff]
  constructor
  · rintro ⟨⟨t, j, x⟩, hb, hnot⟩
    have hclash : s = t ∧ (j = i ∨ x = k.counter w.tables.keys s + 1) := by
      simp only [Compatible, next, Classical.not_imp, Classical.not_and_iff_not_or_not, Classical.not_not] at hnot
      exact ⟨hnot.1.symm, hnot.2⟩
    obtain ⟨rfl, hid | rfl⟩ := hclash
    · exact absurd hid (lookup_eq_none_iff.1 hrow _ hb rfl)
    · cases hcounter : k.counter? s with
      | some c =>
        rw [counter, hcounter] at hb
        exact ⟨c, j, rfl, hb⟩
      | none =>
        -- a counter that is read from the table is the greatest key there
        have hle := le_greatest hb
        simp only [counter, hcounter, Option.getD_none] at hle
        omega
  · rintro ⟨c, j, hcounter, hj⟩
    refine ⟨_, hj, fun hcompatible => (hcompatible rfl).2 ?_⟩
    simp [next, counter, hcounter]

end DurableKeys

/-! ## Histories -/

/-- What is promised of the keys that a history has handed out. -/
structure Accounted (view : σ → Warehouse) (inside : Bool) (handed : List Assignment) (k : DurableKeys) (db : σ) :
    Prop where
  /-- What was handed out is remembered under one key. -/
  remembered : ∀ a ∈ handed, lookup a.scope a.id k.cache = some a.key
  /-- Its row is in the table, committed or in the open transaction, or it is left over. When a refusal has undone
  the open transaction it waits for that to be left. -/
  placed : ∀ a ∈ handed, a ∈ (view db).tables.keys ∨ (a.scope, a.id) ∈ k.unwritten ∨
    (¬ k.Intact (view db).tables.keys ∧ (a.scope, a.id) ∈ k.written)
  /-- Rows and what is left over never hold two keys for an identifier or two identifiers for a key. -/
  consistent : ((view db).tables.keys ++ k.leftOver).Pairwise fun b a => a = b ∨ Compatible a b
  /-- Nothing left over has a row, unless a synchronization came inside of a transaction. -/
  once : inside = false → Consistent ((view db).tables.keys ++ k.leftOver)
  /-- A new row breaks a constraint exactly when the number after a known counter is stored. -/
  breaks : ∀ s i, lookup s i (view db).tables.keys = none →
    (Assignment.insertAll (view db).tables.keys [k.next (view db).tables.keys s i] = none ↔
      ∃ c j, k.counter? s = some c ∧ ⟨s, j, c + 1⟩ ∈ (view db).tables.keys)
  /-- The rows that a synchronization writes break none. -/
  due : Assignment.insertAll (view db).tables.keys (k.due (view db).tables.keys) =
    some ((view db).tables.keys ++ k.due (view db).tables.keys)
  /-- A refused call drops nothing. -/
  refused : ∀ {s i err k' db'}, allocate s i (k, db) = .error err (k', db') →
    k'.cache = k.cache ∧ k'.unwritten = k.unwritten
  unsynced : ∀ {err k' db'}, sync (k, db) = .error err (k', db') → k' = k
  /-- After a synchronization with no transaction open all that was handed out is committed. -/
  synced : ∀ {n k' db'}, k.load = none → sync (k, db) = .ok n (k', db') →
    k'.unwritten = [] ∧ ∀ a ∈ handed, a ∈ (view db').restored

namespace KeyHistory

theorem Custody.placed (h : Custody inside handed k w) {a : Assignment} (ha : a ∈ handed) :
    a ∈ w.tables.keys ∨ (a.scope, a.id) ∈ k.unwritten ∨ (¬ k.Intact w.tables.keys ∧ (a.scope, a.id) ∈ k.written) := by
  have hcached := h.remembered a ha
  rcases h.kept.placed hcached with hrow | hleft | hwritten
  · exact .inl hrow
  · exact .inr (.inl hleft)
  · by_cases hintact : k.Intact w.tables.keys
    · exact .inl (h.kept.row_of_intact hintact hcached hwritten)
    · exact .inr (.inr ⟨hintact, hwritten⟩)

theorem Custody.consistent (h : Custody inside handed k w) :
    (w.tables.keys ++ k.leftOver).Pairwise fun b a => a = b ∨ Compatible a b := by
  refine List.pairwise_append.2 ⟨h.kept.consistent.imp fun hab => .inr hab,
    h.kept.consistent_leftOver.imp fun hab => .inr hab, ?_⟩
  exact fun b hb a ha => h.kept.agrees_leftOver ha hb

theorem Custody.consistent_once (h : Custody inside handed k w) (hinside : inside = false) :
    Consistent (w.tables.keys ++ k.leftOver) :=
  h.kept.consistent.append (fun _ ha _ hb => (h.once hinside).compatible_leftOver h.kept ha hb)
    h.kept.consistent_leftOver

theorem Custody.committed (h : Custody inside handed k w) (hidle : k.load = none) (hleft : k.unwritten = [])
    {a : Assignment} (ha : a ∈ handed) : a ∈ w.restored := by
  rw [h.kept.idle hidle]
  rcases h.kept.placed (h.remembered a ha) with hrow | hmem | hmem
  · exact hrow
  · rw [hleft] at hmem
    cases hmem
  · rw [written_eq_nil hidle] at hmem
    cases hmem

/-- **No key is lost**: in every state of a process, whatever was refused, each assignment that it was answered is
in the table or left over, under one key; refusals drop nothing, and a synchronization commits all. -/
theorem accounted (hview : Follows view) (hrows : Consistent (view origin).tables.keys)
    (hidle : (view origin).saved = none) (h : KeyHistory origin inside handed k db) :
    Accounted view inside handed k db := by
  have hcustody := h.custody hview hrows hidle
  refine ⟨hcustody.remembered, fun a ha => hcustody.placed ha, hcustody.consistent, hcustody.consistent_once,
    fun s i hrow => insertAll_next_iff k hrow, hcustody.kept.insertAll_due, ?_, ?_, ?_⟩
  · intro s i err k' db' hstep
    obtain ⟨hcache, hunwritten, -⟩ := (DurableKeys.refused hview hstep).2.drops_nothing
    exact ⟨hcache, hunwritten⟩
  · intro err k' db' hstep
    exact (DurableKeys.unsynced hview hstep).1
  · intro n k' db' hload hstep
    have hafter := (h.synced (.inr hload) hstep).custody hview hrows hidle
    have hdone := DurableKeys.synced hview hstep
    have hnone : k'.unwritten = [] := hdone.unwritten_eq
    exact ⟨hnone, fun a ha => hafter.committed (hdone.load_eq.trans hload) hnone ha⟩

/-- A process whose second insertion was refused in a transaction, and that has left it. -/
theorem accounted_rolledBack :
    ∃ k u, KeyHistory (⟨.empty, [6], 0⟩ : Unreliable) false [⟨"items", "b", 2⟩, ⟨"items", "a", 1⟩] k u ∧
      u.warehouse.tables.keys = [⟨"items", "a", 1⟩] ∧ k.leftOver = [⟨"items", "b", 2⟩] ∧
      Accounted Unreliable.warehouse false [⟨"items", "b", 2⟩, ⟨"items", "a", 1⟩] k u := by
  have hfresh : KeyHistory (⟨.empty, [6], 0⟩ : Unreliable) false [] .empty ⟨.empty, [6], 0⟩ := .fresh
  have hfirst := hfresh.answered (s := "items") (i := "a") rfl
  have hsecond := (hfirst.started rfl).answered (s := "items") (i := "b") rfl
  have hthird := (hsecond.refused (s := "items") (i := "c") rfl).rolledBack rfl
  have hrows : Consistent (Warehouse.empty.tables.keys) := .nil
  exact ⟨_, _, hthird, rfl, rfl, accounted follows_unreliable hrows rfl hthird⟩

/-- A process that has found a stored key below another gives the next new identifier that other key: the
insertion breaks a constraint, and the call is refused. -/
theorem refused_stored :
    ∃ (origin : Warehouse) (k : DurableKeys), Consistent origin.tables.keys ∧ origin.saved = none ∧
      KeyHistory origin false [⟨"items", "a", 1⟩] k origin ∧
      Assignment.insertAll origin.tables.keys [k.next origin.tables.keys "items" "c"] = none ∧
      ∃ k', allocate "items" "c" (k, origin) = .error (.databaseFailed (.keys false)) (k', origin) := by
  let origin : Warehouse :=
    { Warehouse.empty with tables := { Warehouse.empty.tables with keys := [⟨"items", "a", 1⟩, ⟨"items", "b", 2⟩] } }
  have hfound : KeyHistory origin false [⟨"items", "a", 1⟩] (DurableKeys.empty.remember ⟨"items", "a", 1⟩) origin :=
    KeyHistory.fresh.answered rfl
  have hrows : Consistent origin.tables.keys := by
    simp [Consistent, Compatible, origin]
  exact ⟨origin, _, hrows, rfl, hfound, rfl, _, rfl⟩

end KeyHistory

end SnapshotStaging
