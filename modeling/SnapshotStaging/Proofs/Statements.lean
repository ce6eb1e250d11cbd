import SnapshotStaging.Proofs.Tables

/-!
# What statements do

`Executed` lists, for each kind of statement, what it has found and what it has done when it succeeds; whatever
is known of a statement is read off that list. Definitions of tables are committed at once when no transaction
is open; the statements that change rows belong to one (`Executed.saved`). Each works on the tables that it names,
and leaves what is found under all other names (`Executed.kept`).
-/

namespace SnapshotStaging

namespace TableName

/-- The tables that the turn of a table works on. -/
def touched (table : String) : List String := [table, loading table, history table, latest table]

end TableName

namespace Statement

/-- The tables that a statement defines, fills, renames or takes away. -/
def targets : Statement → List String
  | .drop name => [name]
  | .createLoading table _ | .comment table _ | .grant table _ => [TableName.loading table]
  | .insert table _ | .deleteKey table _ => [TableName.loading table]
  | .createHistory table | .appendChanges table => [TableName.history table]
  | .createLatest table => [TableName.latest table]
  | .rename name target => [name, target]

/-- A statement works on tables of one turn only. -/
def WorksOn (table : String) (st : Statement) : Prop := st.targets ⊆ TableName.touched table

end Statement

/-- What is found under a name. -/
def Tables.find? (t : Tables) (name : String) : Option Relation :=
  (t.relations.find? fun r => r.1 = Warehouse.fold name).map (·.2)

namespace Warehouse

variable {w w' : Warehouse} {st : Statement} {n : Int} {table name other : String} {rows new all : List Row}

theorem find?_eq (w : Warehouse) (name : String) : w.find? name = w.tables.find? name := rfl

/-- The tables that a rollback goes back to, and that others see. -/
def committed (w : Warehouse) : Tables := w.saved.getD w.tables

theorem committed_eq (h : w.saved = none) : w.committed = w.tables := by
  rw [committed, h]
  rfl

/-- What a statement that succeeds has found and done. -/
inductive Executed (w : Warehouse) : Statement → Int → Warehouse → Prop
  | drop {name : String} (hname : isName name = true) : Executed w (.drop name) (-1) (w.without name)
  | createLoading {table : String} {columns : List Column} (hnone : w.find? (TableName.loading table) = none) :
      Executed w (.createLoading table columns) (-1) (w.put (TableName.loading table) (.snapshot columns []))
  | insert {table : String} {columns : List Column} {rows new : List Row}
      (hfound : w.find? (TableName.loading table) = some (.snapshot columns rows)) :
      Executed w (.insert table new) new.length
        (w.begun.put (TableName.loading table) (.snapshot columns (rows ++ new)))
  | deleteKey {table : String} {sk : Int} {columns : List Column} {rows : List Row} {n : Int}
      (hfound : w.find? (TableName.loading table) = some (.snapshot columns rows)) :
      Executed w (.deleteKey table sk) n
        (w.begun.put (TableName.loading table) (.snapshot columns (rows.filter fun r => r.sk ≠ sk)))
  | keepHistory {table : String} {r : Relation} (hfound : w.find? (TableName.history table) = some r) :
      Executed w (.createHistory table) (-1) w
  | createHistory {table : String} (hnone : w.find? (TableName.history table) = none) :
      Executed w (.createHistory table) (-1) (w.put (TableName.history table) (.history []))
  | createLatest {table : String} {versions : List Version}
      (hfound : w.find? (TableName.history table) = some (.history versions)) :
      Executed w (.createLatest table) (-1) (w.put (TableName.latest table) (.latest (latestOf versions)))
  | appendChanges {table : String} {versions latest : List Version} {columns : List Column} {rows : List Row}
      (hhistory : w.find? (TableName.history table) = some (.history versions))
      (hloading : w.find? (TableName.loading table) = some (.snapshot columns rows))
      (hlatest : w.find? (TableName.latest table) = some (.latest latest)) :
      Executed w (.appendChanges table) (rows.flatMap (changes w.now latest)).length
        (w.begun.put (TableName.history table) (.history (versions ++ rows.flatMap (changes w.now latest))))
  | rename {name target : String} {r : Relation} (hfound : w.find? name = some r)
      (hnone : w.find? target = none) : Executed w (.rename name target) (-1) ((w.without name).put target r)

theorem of_insertAll (h : insertAll rows new = some all) : all = rows ++ new := by
  induction new generalizing rows with
  | nil =>
    cases h
    rw [List.append_nil]
  | cons r new ih =>
    rw [insertAll] at h
    split at h
    · rw [ih h, List.append_assoc, List.singleton_append]
    · cases h

theorem of_execute (h : execute st w = .ok n w') : Executed w st n w' := by
  cases st <;> simp only [execute, changesRows, if_true, Bool.false_eq_true, if_false, apply, fail] at h
  case drop name =>
    split at h
    · next hname =>
      cases h
      exact .drop hname
    · cases h
  case createLoading table columns =>
    split at h
    · next hfree =>
      cases h
      simp only [Bool.and_eq_true, Option.isNone_iff_eq_none] at hfree
      exact .createLoading hfree.1.1.2
    · cases h
  case comment => cases h
  case grant => cases h
  case insert table new =>
    split at h
    · next hfound =>
      split at h
      · cases h
      · split at h
        · next hall =>
          cases h
          rw [of_insertAll hall]
          exact .insert hfound
        · cases h
    · cases h
  case deleteKey table sk =>
    split at h
    · next hfound =>
      cases h
      exact .deleteKey hfound
    · cases h
  case createHistory table =>
    split at h
    · cases h
    · split at h
      · next hsome =>
        cases h
        obtain ⟨r, hr⟩ := Option.isSome_iff_exists.1 hsome
        exact .keepHistory hr
      · next hnone =>
        cases h
        exact .createHistory (by simpa using hnone)
  case createLatest table =>
    split at h
    · next hfound _ =>
      cases h
      exact .createLatest hfound
    · cases h
  case appendChanges table =>
    split at h
    · next hhistory hloading hlatest _ =>
      cases h
      exact .appendChanges hhistory hloading hlatest
    · cases h
  case rename name target =>
    split at h
    · next hfound =>
      split at h
      · next hfree =>
        cases h
        simp only [Bool.and_eq_true, Option.isNone_iff_eq_none] at hfree
        exact .rename hfound hfree.2
      · cases h
    · cases h

/-- Statements on rows open a transaction; the others leave it as it is. -/
theorem Executed.saved (h : Executed w st n w') :
    w'.saved = if changesRows st then some w.committed else w.saved := by
  cases h <;> rfl

/-- A statement leaves all tables as they are but those that it works on. -/
theorem Executed.kept (h : Executed w st n w') (hother : ∀ name ∈ st.targets, fold other ≠ fold name) :
    w'.find? other = w.find? other := by
  cases h with
  | drop hname => exact find?_without_of_ne w (hother _ (List.mem_singleton_self _))
  | keepHistory hfound => rfl
  | rename hfound hnone =>
    simp only [Statement.targets, List.forall_mem_cons] at hother
    exact (find?_put_of_ne _ _ hother.2.1).trans (find?_without_of_ne w hother.1)
  | _ => exact find?_put_of_ne _ _ (hother _ (List.mem_singleton_self _))

/-- No statement touches the table of keys. -/
theorem Executed.keys (h : Executed w st n w') : w'.tables.keys = w.tables.keys := by
  cases h <;> rfl

/-- What others see after a statement: what they saw before it, or its outcome. -/
theorem Executed.committed_eq (h : Executed w st n w') :
    w'.committed = w.committed ∨ w.saved = none ∧ changesRows st = false ∧ w'.committed = w'.tables := by
  have hsaved := h.saved
  cases hrows : changesRows st with
  | true =>
    rw [hrows, if_pos rfl] at hsaved
    left
    rw [committed, hsaved]
    rfl
  | false =>
    rw [hrows, if_neg (by decide)] at hsaved
    cases hopen : w.saved with
    | none => exact .inr ⟨rfl, rfl, Warehouse.committed_eq (hsaved.trans hopen)⟩
    | some t =>
      left
      rw [committed, committed, hsaved, hopen]
      rfl

end Warehouse

end SnapshotStaging
