import SnapshotStaging.Proofs.Key.Steps
import SnapshotStaging.Proofs.Page.Layouts
import SnapshotStaging.Proofs.Stage.Invariants

/-!
# What a failed load leaves behind

A load drops its loading table and creates it anew before any row changes, so no transaction is open yet and both
take effect at once. What comes after them, rows and keys alike, is taken back when the load fails. The old loading
table is not: a failed load leaves it as it was only when it has not come to drop it.

`Chronicled` is a database with a list of the statements that it has carried out. Main result `stage_leaves_behind`:
that list tells what a failed load has left of the loading table, and all else is as it was.
-/

namespace SnapshotStaging

open Warehouse

variable {σ : Type} {view : σ → Warehouse}

/-- A database with a list of what it has done. -/
structure Chronicled (σ : Type) where
  database : σ
  /-- The statements that succeeded, latest first. -/
  done : List Statement

namespace Chronicled

/-- The warehouse of a database whose statements are listed. -/
def warehouse (view : σ → Warehouse) (c : Chronicled σ) : Warehouse := view c.database

variable [Database σ]

def execute (st : Statement) : EStateM Error (Chronicled σ) Int := fun c =>
  match Database.execute st c.database with
  | .ok n db => .ok n ⟨db, st :: c.done⟩
  | .error err db => .error err ⟨db, c.done⟩

instance : Database (Chronicled σ) where
  start c := { c with database := Database.start c.database }
  commits c := Database.commits c.database
  commit c := { c with database := Database.commit c.database }
  rollback c := { c with database := Database.rollback c.database }
  execute := execute
  readable c := ({ c with database := (Database.readable c.database).1 }, (Database.readable c.database).2)
  keys c := Database.keys c.database
  addKeys rows c := ({ c with database := (Database.addKeys rows c.database).1 },
    (Database.addKeys rows c.database).2)

theorem follows (hview : Follows view) : Follows (warehouse view) where
  start c := hview.start _
  commit c := hview.commit _
  rollback c := hview.rollback _
  keys c := hview.keys _
  readable c := hview.readable _
  executed {st c n c'} h := by
    have h : execute st c = .ok n c' := h
    unfold execute at h
    split at h
    · next heq =>
      cases h
      exact hview.executed heq
    · cases h
  notExecuted {st c err c'} h := by
    have h : execute st c = .error err c' := h
    unfold execute at h
    split at h
    · cases h
    · next heq =>
      cases h
      exact hview.notExecuted heq
  added {rows c c'} h := by
    obtain ⟨rfl, hadded⟩ := Prod.mk.inj h
    exact hview.added (Prod.ext rfl hadded)
  notAdded {rows c c'} h := by
    obtain ⟨rfl, hadded⟩ := Prod.mk.inj h
    exact hview.notAdded (Prod.ext rfl hadded)

/-- A statement that succeeds is listed. -/
theorem execute_leaves (hview : Follows view) {st : Statement} {R U : Session (Chronicled σ) → Prop}
    {Q : Int → Session (Chronicled σ) → Prop}
    (hok : ∀ s db n, R s → Executed (warehouse view s.database) st n (view db) →
      Q n { s with database := ⟨db, st :: s.database.done⟩ })
    (herror : ∀ s db, R s → view db = warehouse view s.database ∨ view db = (warehouse view s.database).begun →
      U { s with database := ⟨db, s.database.done⟩ }) : Leaves R (Task.execute st) Q U := by
  intro s hs
  unfold Task.execute
  rw [show (Database.execute st : EStateM Error (Chronicled σ) Int) = execute st from rfl]
  unfold execute
  cases hexecute : Database.execute st s.database.database with
  | ok n db => exact hok s db n hs (of_execute (hview.executed hexecute))
  | error err db => exact herror s db hs (hview.notExecuted hexecute)

/-- What requests for keys do is not listed. -/
theorem preserved_done (p : List Statement → Prop) : Preserved fun c : Chronicled σ => p c.done where
  start _ h := h
  commit _ h := h
  rollback _ h := h
  readable _ h := h
  addKeys _ _ h := h

end Chronicled

/-! ## Keys given within a load -/

namespace KeyStore

/-- The keys that are given belong to the transaction of a load. -/
def InLoad : KeyStore → Prop
  | .memory _ => True
  | .durable k => k.load.isSome

end KeyStore

/-- Within a load a call for a key changes nothing that is committed. -/
theorem Task.resolve_committed [Database σ] (hview : Follows view) (t : Tables) (scope id : String) :
    Leaves (fun s : Session σ => (view s.database).committed = t ∧ s.keys.InLoad) (Task.resolve scope id)
      (fun _ s => (view s.database).committed = t ∧ s.keys.InLoad)
      fun s => (view s.database).committed = t ∧ s.keys.InLoad := by
  rintro ⟨db, k, log⟩ ⟨hcommitted, hload⟩
  cases k with
  | memory k => exact ⟨hcommitted, trivial⟩
  | durable k =>
    have hload : k.load.isSome := hload
    have hcommitted : (view db).committed = t := hcommitted
    unfold resolve onDurable
    dsimp only
    cases hallocate : DurableKeys.allocate scope id (k, db) with
    | ok n st =>
      obtain ⟨k', db'⟩ := st
      have hanswered := DurableKeys.answered hview hallocate
      show (view db').committed = t ∧ k'.load.isSome
      generalize view db' = w' at hanswered
      cases hanswered with
      | known h => exact ⟨hcommitted, hload⟩
      | found hcache h => exact ⟨hcommitted, hload⟩
      | written hcache hopen hundone hrow hfresh =>
        have hnext := DurableKeys.nextKey_load k (view db).tables.keys scope
        refine ⟨hcommitted, ?_⟩
        simp [DurableKeys.wrote, DurableKeys.given, DurableKeys.remember, hnext, hload]
      | committed hcache hclosed hrow hfresh => simp [hclosed] at hload
    | error err st =>
      obtain ⟨k', db'⟩ := st
      have hrefused := (DurableKeys.refused hview hallocate).2
      show (view db').committed = t ∧ k'.load.isSome
      generalize view db' = w' at hrefused
      cases hrefused with
      | nothing => exact ⟨hcommitted, hload⟩
      | written hopen => exact ⟨hcommitted, rfl⟩
      | committed hclosed => simp [hclosed] at hload

/-! ## What is left -/

namespace Staging

/-- What becomes of a loading table with the statements that a failed load has carried out. -/
inductive Remnant (table : String) (columns : List Column) (before : Option Relation) :
    List Statement → Option Relation → Prop
  | untouched : Remnant table columns before [] before
  | dropped : Remnant table columns before [.drop (TableName.loading table)] none
  | created (later : List Statement) : Remnant table columns before
      (.drop (TableName.loading table) :: .createLoading table columns :: later) (some (.snapshot columns []))

/-- The tables `t` are those of `t₀` but for the loading table, of which statements that were carried out have left
what they say. -/
structure LeftBehind (table : String) (columns : List Column) (done : List Statement) (t₀ t : Tables) : Prop where
  keys : t.keys = t₀.keys
  others : ∀ name, fold name ≠ fold (TableName.loading table) → t.find? name = t₀.find? name
  loading : Remnant table columns (t₀.find? (TableName.loading table)) done (t.find? (TableName.loading table))

variable {table : String} {columns : List Column} {w : Warehouse} {D : List Statement}

theorem leftBehind_dropped (w : Warehouse) : LeftBehind table columns [.drop (TableName.loading table)] w.tables
    (w.without (TableName.loading table)).tables where
  keys := rfl
  others _ hname := find?_without_of_ne w hname
  loading := by
    have hnone : (w.without (TableName.loading table)).tables.find? (TableName.loading table) = none :=
      find?_without w rfl
    rw [hnone]
    exact .dropped

theorem leftBehind_created (w : Warehouse) (later : List Statement) : LeftBehind table columns
    (.drop (TableName.loading table) :: .createLoading table columns :: later) w.tables
    ((w.without (TableName.loading table)).put (TableName.loading table) (.snapshot columns [])).tables where
  keys := rfl
  others _ hname := (find?_put_of_ne _ _ hname).trans (find?_without_of_ne w hname)
  loading := by
    have hfound : ((w.without (TableName.loading table)).put (TableName.loading table)
        (.snapshot columns [])).tables.find? (TableName.loading table) = some (.snapshot columns []) :=
      find?_put _ _ rfl
    rw [hfound]
    exact .created later

/-! ## The steps of a load -/

/-- The warehouse is `w` and nothing was done since, but the transaction of a load was begun. -/
structure Begun (view : σ → Warehouse) (w : Warehouse) (D : List Statement) (s : Session (Chronicled σ)) : Prop where
  warehouse : view s.database.database = w
  done : s.database.done = D
  keys : s.keys.InLoad

/-- The loading table was created, and what is committed has not changed since. -/
structure Created (view : σ → Warehouse) (table : String) (columns : List Column) (w : Warehouse) (D : List Statement)
    (s : Session (Chronicled σ)) : Prop where
  committed : (view s.database.database).committed =
    ((w.without (TableName.loading table)).put (TableName.loading table) (.snapshot columns [])).tables
  done : ∃ later, s.database.done =
    later ++ .createLoading table columns :: .drop (TableName.loading table) :: D
  keys : s.keys.InLoad

/-- A rollback leaves behind what the statements since have left. -/
def Failed (view : σ → Warehouse) (table : String) (columns : List Column) (w : Warehouse) (D : List Statement)
    (s : Session (Chronicled σ)) : Prop :=
  ∃ done, s.database.done = done.reverse ++ D ∧
    LeftBehind table columns done w.tables (view s.database.database).committed

theorem Created.failed {s : Session (Chronicled σ)} (h : Created view table columns w D s) :
    Failed view table columns w D s := by
  obtain ⟨later, hdone⟩ := h.done
  refine ⟨.drop (TableName.loading table) :: .createLoading table columns :: later.reverse, by simp [hdone], ?_⟩
  rw [h.committed]
  exact leftBehind_created w _

variable [Database σ] {settings : Settings} {store : PageStore} {d : Definition}

/-- A statement on rows, or one that a warehouse refuses whatever is in it. -/
def AfterCreation (st : Statement) : Prop := changesRows st = true ∨ ∀ w n w', ¬ Executed w st n w'

/-- Nothing that is asked for after the loading table was created changes what is committed. -/
theorem invariant_created (hview : Follows view) (table : String) (columns : List Column) (w : Warehouse)
    (D : List Statement) : Invariant AfterCreation (Created view table columns w D) where
  blind _ _ h := ⟨h.committed, h.done, h.keys⟩
  resolve scope id := by
    refine leaves_of_resulting fun s result h hresult => ?_
    have hkeys := Task.resolve_committed (Chronicled.follows hview)
      ((w.without (TableName.loading table)).put (TableName.loading table) (.snapshot columns [])).tables scope id s
      ⟨h.committed, h.keys⟩
    have hdone := Task.resolve_leaves (Chronicled.preserved_done (σ := σ) fun done => ∃ later, done =
      later ++ .createLoading table columns :: .drop (TableName.loading table) :: D) scope id s h.done
    subst hresult
    cases hresult : Task.resolve scope id s with
    | ok n s' =>
      rw [hresult] at hkeys hdone
      exact ⟨hkeys.1, hdone, hkeys.2⟩
    | error err s' =>
      rw [hresult] at hkeys hdone
      exact ⟨hkeys.1, hdone, hkeys.2⟩
  execute {st} hst := by
    refine Chronicled.execute_leaves hview ?_ ?_
    · rintro s db n ⟨hcommitted, ⟨later, hdone⟩, hkeys⟩ hdb
      refine ⟨?_, ⟨st :: later, congrArg _ hdone⟩, hkeys⟩
      show (view db).committed = _
      rcases hst with hrows | hnever
      · rcases hdb.committed_eq with heq | ⟨-, hnone, -⟩
        · exact heq.trans hcommitted
        · cases hrows.symm.trans hnone
      · exact absurd hdb (hnever _ _ _)
    · rintro s db ⟨hcommitted, hdone, hkeys⟩ hdb
      refine ⟨?_, hdone, hkeys⟩
      show (view db).committed = _
      rcases hdb with heq | heq
      · rw [heq]
        exact hcommitted
      · rw [heq]
        exact hcommitted

/-- A statement takes the warehouse from one state to the next, or nothing committed is changed. -/
theorem execute_leaves (hview : Follows view) (st : Statement) :
    Leaves (Begun view w D) (Task.execute st)
      (fun n s => ∃ w', Executed w st n w' ∧ Begun view w' (st :: D) s)
      fun s => s.database.done = D ∧ (view s.database.database).committed = w.committed := by
  refine Chronicled.execute_leaves hview ?_ ?_
  · rintro s db n ⟨rfl, hdone, hkeys⟩ hdb
    exact ⟨view db, hdb, rfl, congrArg _ hdone, hkeys⟩
  · rintro s db ⟨rfl, hdone, -⟩ hdb
    refine ⟨hdone, ?_⟩
    show (view db).committed = _
    rcases hdb with heq | heq
    · rw [heq]
      rfl
    · rw [heq]
      rfl

/-- Creating the loading table takes effect at once. -/
theorem createLoadingTable_leaves (hview : Follows view) (hidle : w.saved = none) :
    Leaves (Begun view w D) (createLoadingTable settings d columns) (fun _ => Created view d.label columns w D)
      (Failed view d.label columns w D) := by
  let dropped := w.without (TableName.loading d.label)
  let created := dropped.put (TableName.loading d.label) (.snapshot columns [])
  have hdrop : Leaves (Begun view w D) (Task.execute (.drop (TableName.loading d.label)))
      (fun _ => Begun view dropped (.drop (TableName.loading d.label) :: D)) (Failed view d.label columns w D) := by
    refine (execute_leaves hview _).mono (fun _ h => h) ?_ ?_
    · rintro n s ⟨w', hexecuted, hs⟩
      cases hexecuted
      exact hs
    · rintro s ⟨hdone, hcommitted⟩
      refine ⟨[], hdone, ?_⟩
      rw [hcommitted, committed_eq hidle]
      exact ⟨rfl, fun _ _ => rfl, .untouched⟩
  have hcreate : Leaves (Begun view dropped (.drop (TableName.loading d.label) :: D))
      (Task.execute (.createLoading d.label columns))
      (fun _ => Begun view created (.createLoading d.label columns :: .drop (TableName.loading d.label) :: D))
      (Failed view d.label columns w D) := by
    refine (execute_leaves hview _).mono (fun _ h => h) ?_ ?_
    · rintro n s ⟨w', hexecuted, hs⟩
      cases hexecuted
      exact hs
    · rintro s ⟨hdone, hcommitted⟩
      refine ⟨[.drop (TableName.loading d.label)], hdone, ?_⟩
      rw [hcommitted, committed_eq (show dropped.saved = none from hidle)]
      exact leftBehind_dropped w
  have hdescribe : Leaves (Created view d.label columns w D) (describe settings d)
      (fun _ => Created view d.label columns w D) (Created view d.label columns w D) :=
    (invariant_created hview d.label columns w D).task_closed.describe (fun _ _ => .inr nofun) (fun _ => .inr nofun)
      (fun _ _ => trivial) fun _ _ _ => trivial
  rw [createLoadingTable_eq]
  refine hdrop.discard.bind fun _ => hcreate.discard.bind fun _ => ?_
  refine hdescribe.mono ?_ (fun _ _ h => h) fun _ h => h.failed
  rintro s ⟨hwarehouse, hdone, hkeys⟩
  refine ⟨?_, ⟨[], hdone⟩, hkeys⟩
  rw [hwarehouse, committed_eq (show created.saved = none from hidle)]

/-- A page with a record that has no identifier. -/
def unidentified : List UInt8 := "[\x7b\"x\":1\x7d]".toUTF8.toList

end Staging

end SnapshotStaging
