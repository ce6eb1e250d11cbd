import SnapshotStaging.Proofs.History.Repetition
import SnapshotStaging.Proofs.Load.Repetition
import SnapshotStaging.Proofs.Stage.Failures

/-!
# Staging the same records again

Whether a loading table can be created is a matter of its name, its columns and the dialects
(`Creatable`), and the columns are a matter of the records. So staging a table again, from pages that hold the
same records, loads the same rows, wherever the keys are given again.

Main results: `load_reloads` and `stage_restages`.
-/

namespace SnapshotStaging

open Warehouse Session

namespace Staging

variable {settings : Settings} {store again : PageStore} {d : Definition} {columns : List Column} {count count' : Nat}
  {s s' : Session Warehouse}

/-! ## What the catalog is told -/

/-- Nobody is to be let read the loading table. -/
def Unshared (settings : Settings) : Prop := ∀ grantee, settings.grantee = some grantee → grantee = ""

/-- There is nothing to tell. -/
def Quiet (settings : Settings) (d : Definition) : Prop :=
  settings.dialect.hasCatalog = true → comment? d = .ok none ∧ Unshared settings

theorem grant_unshared (h : Unshared settings) (s : Session Warehouse) : grant settings d s = .ok () s := by
  unfold grant
  cases hgrantee : settings.grantee with
  | none => rfl
  | some grantee =>
    rw [h grantee hgrantee]
    rfl

theorem describe_quiet (h : Quiet settings d) (s : Session Warehouse) : describe settings d s = .ok () s := by
  unfold describe
  by_cases hcatalog : settings.dialect.hasCatalog = true
  · obtain ⟨hcomment, hunshared⟩ := h hcatalog
    simp only [hcatalog, hcomment, if_true]
    exact grant_unshared hunshared s
  · rw [if_neg hcatalog]
    rfl

/-- A statement that a warehouse refuses whatever is in it. -/
theorem refused {st : Statement} (h : ∀ w, execute st w = fail w) (s : Session Warehouse) :
    discard (Task.execute st) s = .error (.databaseFailed .statement) s := by
  refine discard_error ?_
  rw [Task.execute, show Database.execute st s.database = _ from h s.database]
  rfl

theorem of_grant (h : grant settings d s = .ok () s') : Unshared settings := by
  intro grantee hgrantee
  by_contra hne
  have hrefused : discard (Task.execute (.grant d.label grantee)) s = _ := refused (fun _ => rfl) s
  simp only [grant, hgrantee, ne_eq, hne, not_false_eq_true, if_true, hrefused] at h
  cases h

/-- A warehouse has no catalog that could be told anything. -/
theorem of_describe (h : describe settings d s = .ok () s') : Quiet settings d := by
  intro hcatalog
  unfold describe at h
  simp only [hcatalog, if_true] at h
  cases hcomment : comment? d with
  | error err =>
    simp only [hcomment] at h
    cases h
  | ok comment =>
    cases comment with
    | none =>
      simp only [hcomment] at h
      exact ⟨rfl, of_grant h⟩
    | some c =>
      simp only [hcomment] at h
      obtain ⟨_, mid, -, h⟩ := of_bind_ok h
      cases c with
      | str text => cases (bind_error (refused (fun _ => rfl) mid)).symm.trans h
      | _ => cases h

/-! ## Creating the loading table -/

/-- The loading table of a table can be created on a warehouse of a dialect. -/
structure Creatable (settings : Settings) (d : Definition) (columns : List Column) (dialect : Dialect) : Prop where
  name : isFreeName (TableName.loading d.label) = true
  columns : definable columns = true
  definitions : takesDefinitions dialect = true
  quiet : Quiet settings d

/-- What creating a loading table leaves behind. -/
theorem createLoadingTable_ok (h : Creatable settings d columns s.database.dialect) :
    ∃ s', createLoadingTable settings d columns s = .ok () s' ∧
      s'.loading? d.label = some (.snapshot columns []) ∧ s.SameKeys s' ∧ s.Near d.label s' := by
  have hdrop := execute_drop (Bool.and_eq_true_iff.1 h.name).1 s.database
  let w₁ := s.database.without (TableName.loading d.label)
  have hnone : w₁.find? (TableName.loading d.label) = none := find?_without _ rfl
  have hcreate : execute (.createLoading d.label columns) w₁ =
      .ok (-1) (w₁.put (TableName.loading d.label) (.snapshot columns [])) := by
    have htakes : takesDefinitions w₁.dialect = true := h.definitions
    simp [execute, changesRows, apply, h.name, h.columns, htakes, hnone]
  refine ⟨{ s with database := w₁.put (TableName.loading d.label) (.snapshot columns []) }, ?_, find?_put _ _ rfl,
    ⟨rfl, rfl, ?_⟩, ⟨?_, given?_congr rfl rfl⟩⟩
  · rw [createLoadingTable_eq, bind_ok (discard_ok (Task.execute_ok hdrop)),
      bind_ok (discard_ok (Task.execute_ok hcreate))]
    exact describe_quiet h.quiet _
  · show (s.database.saved.getD _).keys = (s.database.saved.getD _).keys
    cases s.database.saved <;> rfl
  · exact ⟨fun other hother => (find?_put_of_ne _ _ hother).trans (find?_without_of_ne _ hother), rfl, rfl⟩

/-- A loading table that was created could be created. -/
theorem of_createLoadingTable (h : createLoadingTable settings d columns s = .ok () s') :
    Creatable settings d columns s.database.dialect := by
  rw [createLoadingTable_eq] at h
  obtain ⟨_, s₁, hdrop, h⟩ := of_bind_ok h
  obtain ⟨_, s₂, hcreate, h⟩ := of_bind_ok h
  obtain ⟨_, hdrop⟩ := of_discard_ok hdrop
  obtain ⟨_, hcreate⟩ := of_discard_ok hcreate
  obtain ⟨-, hdrop⟩ := of_drop (Task.of_execute_ok hdrop)
  have hcreate := Task.of_execute_ok hcreate
  simp only [execute, changesRows, Bool.false_eq_true, if_false, apply] at hcreate
  split at hcreate
  · next hname =>
    simp only [Bool.and_eq_true] at hname
    rw [hdrop] at hname
    exact ⟨hname.1.1.1, hname.1.2, hname.2, of_describe h⟩
  · cases hcreate

/-! ## The second pass -/

/-- The encoder that a load begins with. -/
def encoderOf (settings : Settings) (d : Definition) (columns : List Column) : Encoder :=
  Encoder.start d.label columns settings.dialect settings.tenant settings.maxValueLength settings.flushThreshold

/-- What a load does once its loading table is there. -/
def fill [Platform] (settings : Settings) (store : PageStore) (d : Definition) (columns : List Column) (count : Nat) :
    Task Warehouse Encoder := do
  Task.note .info s!"Staging: {d.label}: load"
  running (encoderOf settings d columns) do
    runPass store d.label .load count
      (loadPage d.label (Redaction.Policy.rulesFor? settings.redaction d.label))
    Encoder.finish

theorem load_eq [Platform] {name : String} (hname : d.name = .str name) (settings : Settings) (store : PageStore)
    (columns : List Column) (count : Nat) :
    load settings store d columns count =
      createLoadingTable settings d columns >>= fun _ => fill settings store d columns count := by
  unfold load
  simp only [hname]
  rfl

variable {e : Encoder}

theorem of_load [Platform] (h : load settings store d columns count s = .ok e s') :
    (∃ name, d.name = .str name) ∧ ∃ mid, createLoadingTable settings d columns s = .ok () mid ∧
      fill settings store d columns count mid = .ok e s' := by
  cases hname : d.name with
  | str name =>
    rw [load_eq hname] at h
    obtain ⟨_, mid, hcreate, hfill⟩ := of_bind_ok h
    exact ⟨⟨name, rfl⟩, mid, hcreate, hfill⟩
  | _ =>
    unfold load at h
    simp only [hname] at h
    cases h

/-- The session in which the pass of a load begins. -/
def noted (d : Definition) (s : Session Warehouse) : Session Warehouse :=
  { s with log := ⟨.info, s!"Staging: {d.label}: load", none⟩ :: s.log }

theorem fill_ok_iff [Platform] : fill settings store d columns count s = .ok e s' ↔
    ∃ st, runPass store d.label .load count (loadPage d.label (Redaction.Policy.rulesFor? settings.redaction d.label))
        (encoderOf settings d columns, noted d s) = .ok () st ∧ Encoder.finish st = .ok () (e, s') := by
  unfold fill
  rw [bind_ok (show Task.note _ _ s = .ok () (noted d s) from rfl)]
  unfold running
  constructor
  · intro h
    split at h
    · next hpass =>
      cases h
      obtain ⟨_, st, hrun, hfinish⟩ := of_bind_ok hpass
      exact ⟨st, hrun, hfinish⟩
    · cases h
  · rintro ⟨st, hrun, hfinish⟩
    rw [(bind_ok hrun).trans hfinish]

/-- What a load did to a session it does again to others, from other pages with the same records. -/
structure Reloads [Platform] (settings : Settings) (store : PageStore) (d : Definition) (columns : List Column)
    (count : Nat) (s : Session Warehouse) (e : Encoder) (s' : Session Warehouse) : Prop where
  failure : failure? d.label (pages store d.label count) = none
  tables : s.database.SameBut (TableName.loading d.label) s'.database
  sound : Relation.Sound columns (s'.loading? d.label)
  again : ∀ again count' v, failure? d.label (pages again d.label count') = none →
    recordsOf d.label (pages again d.label count') = recordsOf d.label (pages store d.label count) →
    Gives s'.keys v → v.database.dialect = s.database.dialect →
    ∃ v', load settings again d columns count' v = .ok e v' ∧ v'.loading? d.label = s'.loading? d.label ∧
      v.Near d.label v'

theorem load_reloads [Platform] (h : load settings store d columns count s = .ok e s') :
    Reloads settings store d columns count s e s' := by
  obtain ⟨⟨name, hname⟩, mid, hcreate, hfill⟩ := of_load h
  have hcreatable := of_createLoadingTable hcreate
  obtain ⟨mid', hcreate', hloading, -, hnear⟩ := createLoadingTable_ok hcreatable
  obtain rfl : mid = mid' := by
    rw [hcreate] at hcreate'
    cases hcreate'
    rfl
  obtain ⟨⟨e₁, s₁⟩, hrun, hfinish⟩ := fill_ok_iff.1 hfill
  have howner : (encoderOf settings d columns).table = d.label := rfl
  obtain ⟨hfailure, hwrites⟩ := runPass_repeats howner hrun
  have hfinishes := repeating_finish d.label _ _ _ hwrites.own hfinish
  refine ⟨hfailure, ?_, ?_, ?_⟩
  · exact hnear.tables.trans (hwrites.tables.trans hfinishes.tables)
  · exact hfinishes.sound columns (hwrites.sound columns ⟨[], hloading, .nil⟩)
  · intro again count' v hfailure' hrecords hgives hdialect
    obtain ⟨v₁, hcreate₁, hloading₁, -, hnear₁⟩ := createLoadingTable_ok (hdialect ▸ hcreatable)
    have hnear₂ : v.Near d.label (noted d v₁) := hnear₁.trans ⟨.refl .., given?_congr rfl rfl⟩
    obtain ⟨v₃, hwritten, hloading₃, hnear₃⟩ := hwrites.again (noted d v₁)
      ((hgives.of_extends hfinishes.keys).near hnear₂) (hloading₁.trans hloading.symm)
    rw [← hrecords] at hwritten
    have hleads : Leads (Redaction.Policy.rulesFor? settings.redaction d.label) d.label e₁ (s₁.loading? d.label)
        (recordsOf d.label (pages again d.label count')) (encoderOf settings d columns, noted d v₁) :=
      ⟨howner, v₃, hwritten, hloading₃, hnear₃⟩
    obtain ⟨v₄, hrun₄, hloading₄, hnear₄⟩ := runPass_again hfailure' hleads
    obtain ⟨v₅, hfinish₅, hloading₅, hnear₅⟩ := hfinishes.again v₄ (hgives.near (hnear₂.trans hnear₄)) hloading₄
    refine ⟨v₅, ?_, hloading₅, hnear₂.trans (hnear₄.trans hnear₅)⟩
    rw [load_eq hname, bind_ok hcreate₁]
    exact fill_ok_iff.2 ⟨_, hrun₄, hfinish₅⟩

/-! ## Both passes -/

/-- The columns that the records of a table call for. -/
def columnsOf [Platform] (store : PageStore) (table : String) (count : Nat) : List Column :=
  Column.infer ColumnType.select (Statistics.ofRecords (recordsOf table (pages store table count)))

/-- What staging a table comes to when it succeeds: a load in a session in which only the log is another. -/
theorem of_stage [Platform] {result : StageResult} (h : stage settings store d s = .ok result s') :
    ∃ count v e mid, store.pageCount d.label = .ok count ∧ s.LogOnly v ∧
      load settings store d (columnsOf store d.label (count.getD 0)) (count.getD 0) v.loadStarted = .ok e mid ∧
      mid.loadCommitted.LogOnly s' := by
  unfold stage at h
  obtain ⟨n, s₁, hcounted, h⟩ := of_bind_ok h
  obtain ⟨_, s₂, hnoted, h⟩ := of_bind_ok h
  obtain ⟨found, s₃, hanalyzed, h⟩ := of_bind_ok h
  obtain ⟨e, s₄, hloaded, h⟩ := of_bind_ok h
  obtain ⟨_, s₅, hended, h⟩ := of_bind_ok h
  obtain ⟨hs₁, count, hcount, rfl⟩ := (pageCount_ends store d.label s).of_ok ⟨rfl, rfl⟩ hcounted
  have hs₂ : s.LogOnly s₂ := by
    cases hnoted
    exact hs₁
  obtain ⟨-, hs₃, rfl⟩ := (analyze_ends store d.label (count.getD 0) s).of_ok hs₂ hanalyzed
  obtain ⟨mid, hload, rfl⟩ := Task.of_loadTransaction_ok hloaded
  cases hended
  cases h
  exact ⟨count, s₃, e, mid, hcount, hs₃, hload, rfl, rfl⟩

/-- A table is staged when its pages are counted, none fails, and the load succeeds. -/
theorem stage_ok [Platform] {count : Option Nat} (hcount : store.pageCount d.label = .ok count)
    (hfailure : failure? d.label (pages store d.label (count.getD 0)) = none) (s : Session Warehouse) :
    ∃ v, s.LogOnly v ∧ ∀ e mid,
      load settings store d (columnsOf store d.label (count.getD 0)) (count.getD 0) v.loadStarted = .ok e mid →
      ∃ result s', stage settings store d s = .ok result s' ∧ mid.loadCommitted.LogOnly s' := by
  obtain ⟨n, s₁, hcounted, hs₁, count', hcount', rfl⟩ := (pageCount_ends store d.label s).exists_ok ⟨rfl, rfl⟩
    fun err herr => by cases hcount.symm.trans herr
  cases hcount.symm.trans hcount'
  let s₂ : Session Warehouse :=
    { s₁ with log := ⟨.info, s!"Staging: {d.label}: page count: {count.getD 0}", none⟩ :: s₁.log }
  obtain ⟨found, s₃, hanalyzed, -, hs₃, rfl⟩ := (analyze_ends store d.label (count.getD 0) s).exists_ok
    (show s.LogOnly s₂ from hs₁) fun err herr => by cases hfailure.symm.trans herr
  refine ⟨s₃, hs₃, ?_⟩
  intro e mid hload
  have htransaction : Task.loadTransaction (load settings store d (columnsOf store d.label (count.getD 0))
      (count.getD 0)) s₃ = .ok e mid.loadCommitted := by
    rw [Task.loadTransaction, hload]
    rfl
  unfold stage
  rw [bind_ok hcounted, bind_ok (show Task.note _ _ s₁ = .ok () s₂ from rfl), bind_ok hanalyzed]
  exact ⟨_, _, bind_ok htransaction, rfl, rfl⟩

/-- What staging a table did to a session it does again to others, from other pages with the same records. -/
structure Restages [Platform] (settings : Settings) (store : PageStore) (d : Definition) (count : Nat)
    (s s' : Session Warehouse) : Prop where
  failure : failure? d.label (pages store d.label count) = none
  tables : s.database.SameBut (TableName.loading d.label) s'.database
  sound : ∃ columns, Relation.Sound columns (s'.loading? d.label)
  again : ∀ again count' v, again.pageCount d.label = .ok count' →
    failure? d.label (pages again d.label (count'.getD 0)) = none →
    recordsOf d.label (pages again d.label (count'.getD 0)) = recordsOf d.label (pages store d.label count) →
    Gives s'.keys v → v.database.dialect = s.database.dialect →
    ∃ result v', stage settings again d v = .ok result v' ∧ v'.loading? d.label = s'.loading? d.label ∧
      v.database.SameBut (TableName.loading d.label) v'.database

/-- **Staging a table does again what it has done.** -/
theorem stage_restages [Platform] {result : StageResult} (h : stage settings store d s = .ok result s') :
    ∃ count, store.pageCount d.label = .ok count ∧ Restages settings store d (count.getD 0) s s' := by
  obtain ⟨count, ⟨database, keys, log⟩, e, mid, hcount, ⟨rfl, rfl⟩, hload, hs'⟩ := of_stage h
  obtain ⟨database', keys', log'⟩ := s'
  obtain ⟨rfl, rfl⟩ := hs'
  have hreloads := load_reloads hload
  have hcommitted (v : Session Warehouse) :
      v.database.SameBut (TableName.loading d.label) v.loadCommitted.database := ⟨fun _ _ => rfl, rfl, rfl⟩
  refine ⟨count, hcount, hreloads.failure, hreloads.tables.trans (hcommitted mid), ⟨_, hreloads.sound⟩, ?_⟩
  intro again count' v hcount' hfailure' hrecords hgives hdialect
  obtain ⟨v₁, ⟨hdatabase, hkeys⟩, hstage⟩ := @stage_ok settings again d _ count' hcount' hfailure' v
  have hcolumns : columnsOf again d.label (count'.getD 0) = columnsOf store d.label (count.getD 0) := by
    rw [columnsOf, columnsOf, hrecords]
  rw [hcolumns] at hstage
  have hgives' : Gives mid.keys v₁.loadStarted := by
    intro scope id n hn
    have hgiven : v₁.given? = v.given? := given?_congr hkeys (by rw [hdatabase])
    refine given?_loadStarted rfl ?_
    rw [hgiven]
    exact hgives ((KeyStore.extends_committed mid.keys).keys hn)
  obtain ⟨v₂, hload', hloading, hnear⟩ := hreloads.again again (count'.getD 0) v₁.loadStarted hfailure' hrecords
    hgives' ((congrArg Warehouse.dialect hdatabase).trans hdialect)
  obtain ⟨result', v₃, hstaged, hdatabase', -⟩ := hstage e v₂ hload'
  refine ⟨result', v₃, hstaged, ?_, ?_⟩
  · rw [loading?, hdatabase']
    exact hloading
  · rw [hdatabase']
    have htables : v₁.loadStarted.database = v.database := hdatabase
    have hsame := hnear.tables
    rw [htables] at hsame
    exact hsame.trans (hcommitted v₂)

end Staging

end SnapshotStaging
