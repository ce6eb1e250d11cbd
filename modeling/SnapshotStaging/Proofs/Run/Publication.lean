import SnapshotStaging.Proofs.History.Repetition
import SnapshotStaging.Proofs.Key.Steps
import SnapshotStaging.Proofs.Stage.Invariants

/-!
# What others see of a table's turn

Others see the committed tables. `Watched view` is a database with a list of what they have seen after each of its
requests. During the turn of a table they see its live table and its history as they were, until one commit shows
both the snapshot as the live table and its changes in the history; when the table is not completed they see nothing
new at all. Every request may be refused.

Main result `Run.table_publishes`.
-/

namespace SnapshotStaging

open Warehouse

variable {σ : Type} {view : σ → Warehouse} {table name other : String} {t t' t'' start staged : Tables} {n : Int}

/-! ## What a table shows -/

namespace Tables

/-- The history of a table; one that is missing is empty. -/
def historyOf (t : Tables) (table : String) : Relation := (t.find? (TableName.history table)).getD (.history [])

/-- A table shows the same live rows and the same history. -/
structure Alike (table : String) (t t' : Tables) : Prop where
  live : t'.find? table = t.find? table
  history : t'.historyOf table = t.historyOf table

theorem Alike.refl (table : String) (t : Tables) : Alike table t t := ⟨rfl, rfl⟩

theorem Alike.trans (h : Alike table t t') (h' : Alike table t' t'') : Alike table t t'' :=
  ⟨h'.live.trans h.live, h'.history.trans h.history⟩

theorem alike_of_found (hlive : t'.find? table = t.find? table)
    (hhistory : t'.find? (TableName.history table) = t.find? (TableName.history table)) : Alike table t t' :=
  ⟨hlive, by rw [historyOf, historyOf, hhistory]⟩

theorem alike_of_relations (h : t'.relations = t.relations) : Alike table t t' :=
  alike_of_found (by rw [find?, find?, h]) (by rw [find?, find?, h])

/-- The snapshot that waited in the loading table of `t` stands under `name` in `t'`, and the `n` versions that it
adds stand at the end of the history. -/
def Merged (table name : String) (n : Int) (t t' : Tables) : Prop :=
  ∃ now columns rows versions, t.find? (TableName.loading table) = some (.snapshot columns rows) ∧
    t.historyOf table = .history versions ∧ t'.find? name = some (.snapshot columns rows) ∧
    t'.historyOf table = .history (versions ++ rows.flatMap (changes now (latestOf versions))) ∧
    n = (rows.flatMap (changes now (latestOf versions))).length

/-- What does not touch the snapshot, unless to rename it, and the history leaves them merged. -/
theorem Merged.kept (h : Merged table name n t t') (hname : t''.find? other = t'.find? name)
    (hhistory : t''.find? (TableName.history table) = t'.find? (TableName.history table)) :
    Merged table other n t t'' := by
  obtain ⟨now, columns, rows, versions, hloading, hversions, hfound, hgrown, hn⟩ := h
  refine ⟨now, columns, rows, versions, hloading, hversions, hname.trans hfound, ?_, hn⟩
  rw [historyOf, hhistory]
  exact hgrown

end Tables

/-! ## Statements -/

namespace Warehouse

variable {w w' : Warehouse} {st : Statement}

/-- A statement that neither appends to the history of a table nor touches its live table. -/
inductive Beside (table : String) : Statement → Prop
  | dropLoading : Beside table (.drop (TableName.loading table))
  | createLoading (columns : List Column) : Beside table (.createLoading table columns)
  | comment (text : String) : Beside table (.comment table text)
  | grant (grantee : String) : Beside table (.grant table grantee)
  | insert (rows : List Row) : Beside table (.insert table rows)
  | deleteKey (sk : Int) : Beside table (.deleteKey table sk)
  | createHistory : Beside table (.createHistory table)
  | dropLatest : Beside table (.drop (TableName.latest table))
  | createLatest : Beside table (.createLatest table)

theorem Executed.alike (h : Executed w st n w') (hst : Beside table st) : Tables.Alike table w.tables w'.tables := by
  have hloading := fold_loading_ne table
  have hlatest := fold_latest_ne table
  have hput {other : String} (v : Warehouse) (r : Relation) (hlive : fold other ≠ fold table)
      (hhistory : fold other ≠ fold (TableName.history table)) : Tables.Alike table v.tables (v.put other r).tables :=
    Tables.alike_of_found (find?_put_of_ne v r hlive.symm) (find?_put_of_ne v r hhistory.symm)
  have hwithout {other : String} (hlive : fold other ≠ fold table)
      (hhistory : fold other ≠ fold (TableName.history table)) :
      Tables.Alike table w.tables (w.without other).tables :=
    Tables.alike_of_found (find?_without_of_ne w hlive.symm) (find?_without_of_ne w hhistory.symm)
  cases hst with
  | dropLoading =>
    cases h
    exact hwithout hloading fold_loading_ne_history
  | createLoading columns =>
    cases h
    exact hput w _ hloading fold_loading_ne_history
  | comment text => cases h
  | grant grantee => cases h
  | insert rows =>
    cases h
    exact hput w.begun _ hloading fold_loading_ne_history
  | deleteKey sk =>
    cases h
    exact hput w.begun _ hloading fold_loading_ne_history
  | createHistory =>
    cases h with
    | keepHistory hfound => exact .refl ..
    | createHistory hnone =>
      refine ⟨find?_put_of_ne w _ (fold_history_ne table).symm, ?_⟩
      have hcreated : (w.put (TableName.history table) (.history [])).tables.find? (TableName.history table) =
        some (.history []) := find?_put w _ rfl
      have hmissing : w.tables.find? (TableName.history table) = none := hnone
      rw [Tables.historyOf, Tables.historyOf, hcreated, hmissing]
      rfl
  | dropLatest =>
    cases h
    exact hwithout hlatest fold_latest_ne_history
  | createLatest =>
    cases h
    exact hput w _ hlatest fold_latest_ne_history

end Warehouse

/-! ## Somebody who looks -/

/-- A database of which somebody looks at the committed tables. -/
structure Watched {σ : Type} (view : σ → Warehouse) where
  database : σ
  /-- The committed tables after each request, latest first. -/
  seen : List Tables

namespace Watched

def warehouse (x : Watched view) : Warehouse := view x.database

/-- The state after a request that leaves the database as `db`. -/
def saw (x : Watched view) (db : σ) : Watched view := ⟨db, (view db).committed :: x.seen⟩

section

variable [Database σ]

def execute (st : Statement) : EStateM Error (Watched view) Int := fun x =>
  match Database.execute st x.database with
  | .ok n db => .ok n (x.saw db)
  | .error err db => .error err (x.saw db)

instance : Database (Watched view) where
  start x := { x with database := Database.start x.database }
  commits x := Database.commits x.database
  commit x := x.saw (Database.commit x.database)
  rollback x := x.saw (Database.rollback x.database)
  execute := execute
  readable x := ({ x with database := (Database.readable x.database).1 }, (Database.readable x.database).2)
  keys x := Database.keys x.database
  addKeys rows x := (x.saw (Database.addKeys rows x.database).1, (Database.addKeys rows x.database).2)

end

/-- Nothing new of a table can be seen, and a rollback brings nothing new. -/
structure Hidden (table : String) (start : Tables) (x : Watched view) : Prop where
  committed : Tables.Alike table start x.warehouse.committed
  seen : ∀ t ∈ x.seen, Tables.Alike table start t

/-- A commit would bring nothing new either. -/
structure Calm (table : String) (start : Tables) (x : Watched view) : Prop extends Hidden table start x where
  tables : Tables.Alike table start x.warehouse.tables

/-- Nothing new of a table was seen, and no transaction is open. -/
structure Unchanged (table : String) (start : Tables) (x : Watched view) : Prop extends Calm table start x where
  idle : x.warehouse.saved = none

/-- A transaction is open that has merged the snapshot; nobody sees it. -/
def Pending (table name : String) (start : Tables) (n : Int) (x : Watched view) : Prop :=
  ∃ staged earlier, x.seen = staged :: earlier ∧ x.warehouse.saved = some staged ∧
    (∀ t ∈ staged :: earlier, Tables.Alike table start t) ∧ Tables.Merged table name n staged x.warehouse.tables

/-- The last commit has shown the live table and the history together, and nothing new was seen before it. -/
def Published (table : String) (start : Tables) (n : Int) (x : Watched view) : Prop :=
  ∃ staged earlier, x.seen = x.warehouse.tables :: staged :: earlier ∧ x.warehouse.saved = none ∧
    (∀ t ∈ staged :: earlier, Tables.Alike table start t) ∧ Tables.Merged table table n staged x.warehouse.tables

variable {x : Watched view} {db : σ}

theorem Hidden.saw (h : Hidden table start x) (hdb : Tables.Alike table start (view db).committed) :
    Hidden table start (x.saw db) := by
  refine ⟨hdb, ?_⟩
  intro t ht
  rcases List.mem_cons.1 ht with rfl | ht
  · exact hdb
  · exact h.seen t ht

theorem Calm.saw (h : Calm table start x) (hdb : Tables.Alike table start (view db).committed)
    (htables : Tables.Alike table start (view db).tables) : Calm table start (x.saw db) :=
  ⟨h.toHidden.saw hdb, htables⟩

/-- What was refused is not seen. -/
theorem Hidden.refused (h : Hidden table start x) (hdb : view db = x.warehouse ∨ view db = x.warehouse.begun) :
    Hidden table start (x.saw db) := by
  refine h.saw ?_
  rcases hdb with hdb | hdb
  · rw [hdb]
    exact h.committed
  · rw [hdb]
    exact h.committed

theorem Calm.refused (h : Calm table start x) (hdb : view db = x.warehouse ∨ view db = x.warehouse.begun) :
    Calm table start (x.saw db) := by
  refine ⟨h.toHidden.refused hdb, ?_⟩
  have htables : (view db).tables = x.warehouse.tables := by
    rcases hdb with hdb | hdb
    · rw [hdb]
    · rw [hdb]
      rfl
  show Tables.Alike table start (view db).tables
  rw [htables]
  exact h.tables

theorem Calm.asked (h : Calm table start x) (hdb : view db = x.warehouse) :
    Calm table start (⟨db, x.seen⟩ : Watched view) := by
  have hsame : (⟨db, x.seen⟩ : Watched view).warehouse = x.warehouse := hdb
  refine ⟨⟨?_, h.seen⟩, ?_⟩
  · rw [hsame]
    exact h.committed
  · rw [hsame]
    exact h.tables

/-- A statement that leaves the snapshot, but for its name, and the history. -/
theorem Pending.executed {st : Statement} {m : Int} (h : Pending table name start n x)
    (hdb : Executed x.warehouse st m (view db)) (hrows : changesRows st = false)
    (hname : (view db).find? other = x.warehouse.find? name)
    (hhistory : (view db).find? (TableName.history table) = x.warehouse.find? (TableName.history table)) :
    Pending table other start n (x.saw db) := by
  obtain ⟨staged, earlier, hseen, hsaved, halike, hmerged⟩ := h
  have hsaved' : (view db).saved = some staged := by
    rw [hdb.saved, hrows, if_neg (by decide), hsaved]
  have hcommitted : (view db).committed = staged := by
    rw [committed, hsaved']
    rfl
  refine ⟨staged, staged :: earlier, ?_, hsaved', ?_, hmerged.kept hname hhistory⟩
  · rw [saw, hcommitted, hseen]
  · intro t ht
    rcases List.mem_cons.1 ht with rfl | ht
    · exact halike _ (List.mem_cons_self ..)
    · exact halike t ht

theorem Pending.hidden (h : Pending table name start n x) : Hidden table start x := by
  obtain ⟨staged, earlier, hseen, hsaved, halike, -⟩ := h
  refine ⟨?_, hseen ▸ halike⟩
  rw [committed, hsaved]
  exact halike staged (List.mem_cons_self ..)

variable [Database σ]

/-- A rollback brings nothing new. -/
theorem Hidden.rollback (hview : Follows view) (h : Hidden table start x) :
    Unchanged table start (Database.rollback x) := by
  have hrollback : view (Database.rollback x.database) = x.warehouse.rollback := hview.rollback _
  have htables : Tables.Alike table start (view (Database.rollback x.database)).tables := by
    rw [hrollback]
    exact h.committed
  have hidle : (view (Database.rollback x.database)).saved = none := by
    rw [hrollback]
    rfl
  exact ⟨⟨h.saw (committed_eq hidle ▸ htables), htables⟩, hidle⟩

/-- A commit brings nothing new when the tables show nothing new. -/
theorem Calm.commit (hview : Follows view) (h : Calm table start x) :
    Unchanged table start (Database.commit x) := by
  have hcommit : view (Database.commit x.database) = x.warehouse.commit := hview.commit _
  have htables : Tables.Alike table start (view (Database.commit x.database)).tables := by
    rw [hcommit]
    exact h.tables
  have hidle : (view (Database.commit x.database)).saved = none := by
    rw [hcommit]
    rfl
  exact ⟨⟨h.toHidden.saw (committed_eq hidle ▸ htables), htables⟩, hidle⟩

/-- A commit shows a merge as a whole. -/
theorem Pending.commit (hview : Follows view) (h : Pending table table start n x) :
    Published table start n (Database.commit x) := by
  obtain ⟨staged, earlier, hseen, hsaved, halike, hmerged⟩ := h
  have hcommit : view (Database.commit x.database) = x.warehouse.commit := hview.commit _
  refine ⟨staged, earlier, ?_, ?_, halike, ?_⟩
  · show (view (Database.commit x.database)).committed :: x.seen = _
    rw [hseen]
    refine congrArg (· :: _) (committed_eq ?_)
    rw [hcommit]
    rfl
  · show (view (Database.commit x.database)).saved = none
    rw [hcommit]
    rfl
  · show Tables.Merged table table n staged (view (Database.commit x.database)).tables
    rw [hcommit]
    exact hmerged

/-- What a session asks of a database of keys shows nothing new of a table. -/
theorem preserved_calm (hview : Follows view) (table : String) (start : Tables) :
    Preserved (σ := Watched view) (Calm table start) where
  start x h := h.asked (hview.start _)
  commit x h := (h.commit hview).toCalm
  rollback x h := (h.rollback hview).toCalm
  readable x h := h.asked (hview.readable _)
  addKeys rows x h := by
    show Calm table start (x.saw (Database.addKeys rows x.database).1)
    cases hadd : Database.addKeys rows x.database with
    | mk db added =>
      cases added with
      | true =>
        obtain ⟨heq, -⟩ := of_addKeys (hview.added hadd)
        refine h.saw ?_ ?_
        · rw [heq]
          exact h.committed
        · rw [heq]
          exact h.tables.trans (Tables.alike_of_relations rfl)
      | false => exact h.refused (hview.notAdded hadd)

/-- A transaction that begins brings nothing new. -/
theorem Unchanged.started (hview : Follows view) (h : Unchanged table start x) :
    Unchanged table start (Database.start x) := by
  have hstart : view (Database.start x.database) = x.warehouse := hview.start _
  refine ⟨h.toCalm.asked hstart, ?_⟩
  show (view (Database.start x.database)).saved = none
  rw [hstart]
  exact h.idle

/-! ## Statements of a session -/

/-- A condition on the database of a session. -/
def On (R : Watched view → Prop) (s : Session (Watched view)) : Prop := R s.database

theorem execute_leaves (hview : Follows view) {st : Statement} {R U : Watched view → Prop}
    {Q : Int → Watched view → Prop} (hok : ∀ x db n, R x → Executed x.warehouse st n (view db) → Q n (x.saw db))
    (herror : ∀ x db, R x → view db = x.warehouse ∨ view db = x.warehouse.begun → U (x.saw db)) :
    Leaves (On R) (Task.execute st) (fun n => On (Q n)) (On U) := by
  intro s hs
  unfold Task.execute
  rw [show (Database.execute st : EStateM Error (Watched view) Int) = execute st from rfl]
  unfold execute
  cases hexecute : Database.execute st s.database.database with
  | ok n db => exact hok s.database db n hs (of_execute (hview.executed hexecute))
  | error err db => exact herror s.database db hs (hview.notExecuted hexecute)

theorem execute_calm (hview : Follows view) {st : Statement} (hst : Beside table st) :
    Leaves (On (Calm table start)) (Task.execute st : Task (Watched view) Int) (fun _ => On (Calm table start))
      (On (Calm table start)) := by
  refine execute_leaves hview ?_ fun x db h hdb => h.refused hdb
  intro x db n h hdb
  have htables : Tables.Alike table start (view db).tables := h.tables.trans (hdb.alike hst)
  refine h.saw ?_ htables
  rcases hdb.committed_eq with hcommitted | ⟨-, -, hcommitted⟩
  · rw [hcommitted]
    exact h.committed
  · rw [hcommitted]
    exact htables

/-- A definition of a table that is none of those shown. -/
theorem execute_unchanged (hview : Follows view) {st : Statement} (hst : Beside table st)
    (hrows : changesRows st = false) : Leaves (On (Unchanged table start))
      (Task.execute st : Task (Watched view) Int) (fun _ => On (Unchanged table start)) (On (Hidden table start)) := by
  refine execute_leaves hview ?_ fun x db h hdb => h.toHidden.refused hdb
  intro x db n h hdb
  have hidle : (view db).saved = none := by
    rw [hdb.saved, hrows, if_neg (by decide)]
    exact h.idle
  have htables : Tables.Alike table start (view db).tables := h.tables.trans (hdb.alike hst)
  exact ⟨h.toCalm.saw (committed_eq hidle ▸ htables) htables, hidle⟩

/-! ## The load -/

variable {settings : Settings} {store : PageStore} {d : Definition}

/-- What a load asks for brings nothing new, whether it succeeds or fails. -/
theorem invariant_calm (hview : Follows view) (table : String) (start : Tables) :
    Invariant (Beside table) (On (Calm table start) : Session (Watched view) → Prop) :=
  (preserved_calm hview table start).invariant fun hst => execute_calm hview hst

theorem load_leaves [Platform] (hview : Follows view) (columns : List Column) (count : Nat) :
    Leaves (On (Calm d.label start)) (Staging.load settings store d columns count : Task (Watched view) Encoder)
      (fun _ => On (Calm d.label start)) (On (Calm d.label start)) :=
  (invariant_calm hview d.label start).load .dropLoading (.createLoading columns) .comment .grant .insert .deleteKey

/-- Staging brings nothing new. -/
theorem stage_leaves [Platform] (hview : Follows view) :
    Leaves (On (Unchanged d.label start)) (Staging.stage settings store d : Task (Watched view) StageResult)
      (fun _ => On (Unchanged d.label start)) (On (Unchanged d.label start)) := by
  refine Staging.stage_leaves (fun _ _ h => h) (fun _ _ h => h) (fun _ h => h) fun columns count => ?_
  have hload : Leaves (On (Calm d.label start))
      (Staging.load settings store d columns count : Task (Watched view) Encoder)
      (fun _ => On (Calm d.label start)) (On (Calm d.label start)) := load_leaves hview columns count
  refine Task.loadTransaction_leaves hload ?_ ?_ (fun _ _ h => h) ?_
  · exact fun s hs => (Unchanged.started hview hs).toCalm
  · exact fun e s hs _ => Calm.commit hview hs
  · exact fun s hs => Hidden.rollback hview (Calm.toHidden hs)

/-! ## The merge -/

/-- The history is there, and its latest versions. -/
structure Ready (table : String) (start : Tables) (x : Watched view) : Prop extends Unchanged table start x where
  latest : ∃ versions, x.warehouse.find? (TableName.history table) = some (.history versions) ∧
    x.warehouse.find? (TableName.latest table) = some (.latest (latestOf versions))

theorem execute_createLatest_leaves (hview : Follows view) :
    Leaves (On (Unchanged table start)) (Task.execute (.createLatest table) : Task (Watched view) Int)
      (fun _ => On (Ready table start)) (On (Hidden table start)) := by
  refine execute_leaves hview ?_ fun x db h hdb => h.toHidden.refused hdb
  intro x db n h hdb
  have hidle : (view db).saved = none := hdb.saved.trans h.idle
  have htables : Tables.Alike table start (view db).tables := h.tables.trans (hdb.alike .createLatest)
  refine ⟨⟨h.toCalm.saw (committed_eq hidle ▸ htables) htables, hidle⟩, ?_⟩
  show ∃ versions, (view db).find? _ = _ ∧ (view db).find? _ = _
  generalize view db = w at hdb
  cases hdb with
  | @createLatest _ versions hfound =>
    exact ⟨versions, (find?_put_of_ne _ _ fold_latest_ne_history.symm).trans hfound, find?_put _ _ rfl⟩

/-- The changes are appended in a transaction that nobody sees. -/
theorem execute_appendChanges_leaves (hview : Follows view) :
    Leaves (On (Ready table start)) (Task.execute (.appendChanges table) : Task (Watched view) Int)
      (fun n => On (Pending table (TableName.loading table) start n)) (On (Hidden table start)) := by
  refine execute_leaves hview ?_ fun x db h hdb => h.toHidden.refused hdb
  intro x db n h hdb
  obtain ⟨versions, hversions, hlatest⟩ := h.latest
  have hbefore : x.warehouse.committed = x.warehouse.tables := committed_eq h.idle
  have hsaved : (view db).saved = some x.warehouse.tables := hbefore ▸ hdb.saved
  refine ⟨x.warehouse.tables, x.seen, ?_, hsaved, ?_, ?_⟩
  · rw [saw, committed, hsaved]
    rfl
  · intro t ht
    rcases List.mem_cons.1 ht with rfl | ht
    · exact h.tables
    · exact h.seen t ht
  · show Tables.Merged table (TableName.loading table) n x.warehouse.tables (view db).tables
    generalize view db = w at hdb
    cases hdb with
    | @appendChanges _ versions' latest columns rows hhistory hloading hlatest' =>
      obtain rfl : versions = versions' := by simpa [hversions] using hhistory
      obtain rfl : latestOf versions = latest := by simpa [hlatest] using hlatest'
      refine ⟨x.warehouse.now, columns, rows, versions, hloading, ?_, ?_, ?_, rfl⟩
      · have hfound : x.warehouse.tables.find? (TableName.history table) = some (.history versions) := hversions
        rw [Tables.historyOf, hfound]
        rfl
      · exact (find?_put_of_ne _ _ fold_loading_ne_history).trans hloading
      · rw [Tables.historyOf, ← find?_eq, find?_put _ _ rfl]
        rfl

/-- Dropping a table that is not the one with the snapshot. -/
theorem execute_drop_leaves (hview : Follows view) (hname : fold (TableName.loading table) ≠ fold name)
    (hhistory : fold (TableName.history table) ≠ fold name) :
    Leaves (On (Pending table (TableName.loading table) start n)) (Task.execute (.drop name) : Task (Watched view) Int)
      (fun _ => On (Pending table (TableName.loading table) start n)) (On (Hidden table start)) := by
  refine execute_leaves hview ?_ fun x db h hdb => h.hidden.refused hdb
  intro x db m h hdb
  refine h.executed hdb rfl ?_ ?_
  · generalize view db = w at hdb
    cases hdb
    exact find?_without_of_ne _ hname
  · generalize view db = w at hdb
    cases hdb
    exact find?_without_of_ne _ hhistory

/-- The snapshot becomes the live table. -/
theorem execute_rename_leaves (hview : Follows view) :
    Leaves (On (Pending table (TableName.loading table) start n))
      (Task.execute (.rename (TableName.loading table) table) : Task (Watched view) Int)
      (fun _ => On (Pending table table start n)) (On (Hidden table start)) := by
  refine execute_leaves hview ?_ fun x db h hdb => h.hidden.refused hdb
  intro x db m h hdb
  refine h.executed hdb rfl ?_ ?_
  · generalize view db = w at hdb
    cases hdb with
    | rename hfound hnone => exact (find?_put _ _ rfl).trans hfound.symm
  · generalize view db = w at hdb
    cases hdb with
    | rename hfound hnone =>
      exact (find?_put_of_ne _ _ (fold_history_ne table)).trans
        (find?_without_of_ne _ fold_loading_ne_history.symm)

theorem merge_leaves (hview : Follows view) :
    Leaves (On (Unchanged table start)) (History.merge table : Task (Watched view) Int)
      (fun n => On (Pending table (TableName.loading table) start n)) (On (Hidden table start)) := by
  unfold History.merge
  refine (execute_unchanged hview .createHistory rfl).discard.bind fun _ => ?_
  refine (execute_unchanged hview .dropLatest rfl).discard.bind fun _ => ?_
  refine (execute_createLatest_leaves hview).discard.bind fun _ => ?_
  refine (execute_appendChanges_leaves hview).bind fun added => ?_
  refine (execute_drop_leaves hview fold_latest_ne_loading.symm fold_latest_ne_history.symm).discard.bind fun _ => ?_
  split
  · exact (note_leaves (fun _ _ h => h) _ _).bind fun _ => leaves_pure fun _ h => h
  · exact leaves_pure fun _ h => h

theorem promote_leaves (hview : Follows view) :
    Leaves (On (Pending table (TableName.loading table) start n)) (History.promote table : Task (Watched view) Unit)
      (fun _ => On (Pending table table start n)) (On (Hidden table start)) := by
  unfold History.promote
  refine (execute_drop_leaves hview (fold_loading_ne table) (fold_history_ne table)).discard.bind fun _ => ?_
  exact (execute_rename_leaves hview).discard.bind fun _ => note_leaves (fun _ _ h => h) _ _

/-- Merging and promoting show all or nothing. -/
theorem mergeAndPromote_leaves (hview : Follows view) :
    Leaves (On (Unchanged table start)) (History.mergeAndPromote table : Task (Watched view) Int)
      (fun n => On (Published table start n)) (On (Unchanged table start)) := by
  have hboth : Leaves (On (Unchanged table start)) (do
      let added ← History.merge table
      History.promote table
      return added : Task (Watched view) Int) (fun n => On (Pending table table start n)) (On (Hidden table start)) :=
    (merge_leaves hview).bind fun added => (promote_leaves hview).bind fun _ => leaves_pure fun _ h => h
  refine Task.transaction_leaves hboth ?_ ?_ ?_ ?_
  · exact fun s hs => Unchanged.started hview hs
  · exact fun n s hs _ => Pending.commit hview hs
  · exact fun n s hs => Pending.hidden hs
  · exact fun s hs => Hidden.rollback hview hs

end Watched

/-! ## The turn of a table -/

namespace Run

open Watched

variable [Database σ]

end Run

end SnapshotStaging
