import SnapshotStaging.Proofs.Load.Closure
import SnapshotStaging.Proofs.Refusals
import SnapshotStaging.Proofs.Stage.Pages
import SnapshotStaging.Proofs.Statements
import SnapshotStaging.Run

/-!
# What staging leaves behind, whether it succeeds or fails

Rules for `Leaves`, in the order of the program: statements and calls for keys, transactions, passes, the staging
of a table, and its turn in a run. Each takes what the parts leave and says what the whole leaves, in the state
after a failure too, for a failed table has its effects as well.

Main results: `Staging.stage_leaves`, `Run.table_leaves` and `Run.all_leaves`.
-/

namespace SnapshotStaging

variable {σ τ α : Type}

/-- The log does not matter to a condition on sessions. -/
def Session.Blind (R : Session σ → Prop) : Prop := ∀ s log, R s → R { s with log := log }

/-! ## Sessions and passes -/

section

variable {R U : Session σ → Prop} {Q : α → Session σ → Prop}

theorem note_leaves (h : Session.Blind R) (level : Log.Level) (message : String) :
    Leaves R (Task.note level message) (fun _ => R) U :=
  fun s hs => h s _ hs

theorem onSession_leaves {task : Task σ α} {P : τ × Session σ → Prop} {Q : α → τ × Session σ → Prop}
    {U : τ × Session σ → Prop}
    (h : ∀ t, Leaves (fun s => P (t, s)) task (fun a s => Q a (t, s)) fun s => U (t, s)) :
    Leaves P (Pass.onSession task) Q U := by
  rintro ⟨t, s⟩ hst
  cases htask : task s with
  | ok a s' =>
    simp only [Pass.onSession, htask]
    exact (h t).of_ok hst htask
  | error err s' =>
    simp only [Pass.onSession, htask]
    exact (h t).of_error hst htask

/-- A step that looks at what the pass has of its own. -/
theorem own_leaves {f : τ → Pass τ σ α} {P : τ × Session σ → Prop} {Q : α → τ × Session σ → Prop}
    {U : τ × Session σ → Prop} (h : ∀ t, Leaves (fun st => st.1 = t ∧ P st) (f t) Q U) :
    Leaves P (Pass.own >>= f) Q U :=
  fun st hst => h st.1 st ⟨rfl, hst⟩

theorem running_leaves {initial : τ} {pass : Pass τ σ Unit} {Q : τ × Session σ → Prop}
    (h : Leaves (fun st => st.1 = initial ∧ R st.2) pass (fun _ => Q) (fun st => U st.2)) :
    Leaves R (Staging.running initial pass) (fun t s => Q (t, s)) U := by
  intro s hs
  unfold Staging.running
  cases hpass : pass (initial, s) with
  | ok _ st => exact h.of_ok ⟨rfl, hs⟩ hpass
  | error err st => exact h.of_error ⟨rfl, hs⟩ hpass

end

/-! ## Statements, keys and transactions -/

variable [Database σ]

/-- What every request of a store of keys to the database preserves. -/
structure Preserved (I : σ → Prop) : Prop where
  start : ∀ db, I db → I (Database.start db)
  commit : ∀ db, I db → I (Database.commit db)
  rollback : ∀ db, I db → I (Database.rollback db)
  readable : ∀ db, I db → I (Database.readable db).1
  addKeys : ∀ rows db, I db → I (Database.addKeys rows db).1

namespace Preserved

variable {I : σ → Prop} {db db' : σ} {b : Bool} {rows : List Assignment}

theorem asked (h : Preserved I) (hdb : I db) (hread : Database.readable db = (db', b)) : I db' := by
  have hread' := h.readable db hdb
  rwa [hread] at hread'

theorem added (h : Preserved I) (hdb : I db) (hadd : Database.addKeys rows db = (db', b)) : I db' := by
  have hadd' := h.addKeys rows db hdb
  rwa [hadd] at hadd'

end Preserved

theorem DurableKeys.allocate_leaves {I : σ → Prop} (h : Preserved I) (scope id : String) :
    Leaves (fun st : DurableKeys × σ => I st.2) (DurableKeys.allocate scope id) (fun _ st => I st.2)
      (fun st => I st.2) := by
  refine leaves_of_resulting fun ⟨k, db⟩ result hdb hresult => ?_
  have hdb : I db := hdb
  simp only [DurableKeys.allocate] at hresult
  split at hresult
  · exact hresult ▸ hdb
  · split at hresult
    · exact hresult ▸ hdb
    · split at hresult
      · next hread => exact hresult ▸ h.asked hdb hread
      · next hread =>
        have hread := h.asked hdb hread
        split at hresult
        · exact hresult ▸ hread
        · split at hresult
          · split at hresult
            · next hadd => exact hresult ▸ h.added hread hadd
            · next hadd => exact hresult ▸ h.rollback _ (h.added hread hadd)
          · split at hresult
            · next hadd =>
              have hadd := h.added (h.start _ hread) hadd
              split at hresult
              · exact hresult ▸ h.commit _ hadd
              · exact hresult ▸ h.rollback _ hadd
            · next hadd => exact hresult ▸ h.rollback _ (h.added (h.start _ hread) hadd)

namespace Task

theorem resolve_leaves {I : σ → Prop} (h : Preserved I) (scope id : String) :
    Leaves (fun s : Session σ => I s.database) (resolve scope id) (fun _ s => I s.database)
      (fun s => I s.database) := by
  rintro ⟨db, k, log⟩ hdb
  cases k with
  | memory k => exact hdb
  | durable k =>
    have hstep := DurableKeys.allocate_leaves h scope id (k, db) hdb
    unfold resolve onDurable
    dsimp only
    cases hallocate : DurableKeys.allocate scope id (k, db) with
    | ok n st =>
      rw [hallocate] at hstep
      exact hstep
    | error err st =>
      rw [hallocate] at hstep
      exact hstep

variable {view : σ → Warehouse} {R U : Session σ → Prop} {st : Statement}

/-- A statement does what it does in the warehouse, or is refused. -/
theorem execute_leaves (hview : Follows view) {Q : Int → Session σ → Prop}
    (hok : ∀ s db n, R s → Warehouse.Executed (view s.database) st n (view db) → Q n { s with database := db })
    (herror : ∀ s db, R s → view db = view s.database ∨ view db = (view s.database).begun →
      U { s with database := db }) : Leaves R (execute st) Q U := by
  intro s hs
  unfold execute
  cases hexecute : Database.execute st s.database with
  | ok n db => exact hok s db n hs (Warehouse.of_execute (hview.executed hexecute))
  | error err db => exact herror s db hs (hview.notExecuted hexecute)

variable {task : Task σ α} {Q Q' : α → Session σ → Prop} {R' U' : Session σ → Prop}

/-- What a task leaves is committed, or taken back. -/
theorem transaction_leaves (htask : Leaves R' task Q' U')
    (hstart : ∀ s, R s → R' { s with database := Database.start s.database })
    (hcommit : ∀ a s, Q' a s → Database.commits s.database = true →
      Q a { s with database := Database.commit s.database })
    (hundo : ∀ a s, Q' a s → U' s)
    (hrollback : ∀ s, U' s → U { s with database := Database.rollback s.database }) :
    Leaves R (transaction task) Q U := by
  intro s hs
  unfold transaction
  cases hresult : task { s with database := Database.start s.database } with
  | error err s' => exact hrollback _ (htask.of_error (hstart s hs) hresult)
  | ok a s' =>
    have hs' := htask.of_ok (hstart s hs) hresult
    cases hcommits : Database.commits s'.database with
    | true => simpa [hcommits] using hcommit a s' hs' hcommits
    | false => simpa [hcommits] using hrollback s' (hundo a s' hs')

theorem loadTransaction_leaves (htask : Leaves R' task Q' U') (hstart : ∀ s, R s → R' s.loadStarted)
    (hcommit : ∀ a s, Q' a s → Database.commits s.database = true → Q a s.loadCommitted)
    (hundo : ∀ a s, Q' a s → U' s) (hrollback : ∀ s, U' s → U s.loadRolledBack) :
    Leaves R (loadTransaction task) Q U := by
  intro s hs
  unfold loadTransaction
  cases hresult : task s.loadStarted with
  | error err s' => exact hrollback _ (htask.of_error (hstart s hs) hresult)
  | ok a s' =>
    have hs' := htask.of_ok (hstart s hs) hresult
    cases hcommits : Database.commits s'.database with
    | true => simpa [hcommits] using hcommit a s' hs' hcommits
    | false => simpa [hcommits] using hrollback s' (hundo a s' hs')

end Task

/-! ## Staging -/

namespace Staging

variable {settings : Settings} {store : PageStore} {d : Definition} {table : String} {mode : PassMode} {count : Nat}

section

variable {step : List UInt8 → Pass τ σ Nat} {I U : τ × Session σ → Prop}

omit [Database σ] in
theorem blind_note_leaves (h : Staging.Blind I) (level : Log.Level) (message : String) :
    Leaves I (Pass.onSession (Task.note level message) : Pass τ σ Unit) (fun _ => I) U :=
  fun st hst => h st.1 st.2 _ hst

omit [Database σ] in
theorem numberedPages_leaves (hlog : Staging.Blind I) (fuel page : Nat)
    (hstep : ∀ bytes ∈ numbered store table count fuel page, Leaves I (step bytes) (fun _ => I) U) :
    Leaves I (numberedPages store table mode count step fuel page) (fun _ => I) U := by
  induction fuel generalizing page with
  | zero => exact leaves_pure fun _ h => h
  | succ fuel ih =>
    unfold numberedPages
    unfold numbered at hstep
    split
    · exact leaves_pure fun _ h => h
    · next hcount =>
      rw [if_neg hcount] at hstep
      split
      · exact blind_note_leaves hlog _ _
      · next bytes hpage =>
        simp only [hpage, List.forall_mem_cons] at hstep
        exact hstep.1.bind fun _ => (blind_note_leaves hlog _ _).bind fun _ => ih _ hstep.2

omit [Database σ] in
/-- A pass leaves what each page leaves. -/
theorem runPass_leaves (hlog : Staging.Blind I)
    (hstep : ∀ bytes ∈ pages store table count, Leaves I (step bytes) (fun _ => I) U) :
    Leaves I (runPass store table mode count step) (fun _ => I) U := by
  unfold pages at hstep
  rw [List.forall_mem_append] at hstep
  unfold runPass
  refine (numberedPages_leaves hlog _ _ hstep.1).bind fun _ => ?_
  split
  · exact leaves_pure fun _ h => h
  · next bytes htest =>
    have hlast := hstep.2 bytes (by simp [htest])
    exact (blind_note_leaves hlog _ _).bind fun _ => hlast.bind fun _ => blind_note_leaves hlog _ _

end

variable {R Q U : Session σ → Prop}

omit [Database σ] in
theorem failing_leaves {I U : τ × Session σ → Prop} (failure : Option Error) (hU : ∀ st, I st → U st) :
    Leaves I (failing failure : Pass τ σ Unit) (fun _ => I) U := by
  cases failure with
  | none => exact leaves_pure fun _ h => h
  | some err => exact leaves_throw hU

omit [Database σ] in
/-- The first pass changes nothing but the log. -/
theorem analyze_leaves [Platform] (hlog : Session.Blind R) (store : PageStore) (table : String) (count : Nat) :
    Leaves R (analyze store table count) (fun _ => R) R := by
  let I (st : Statistics × Session σ) : Prop := R st.2
  have hpage : ∀ bytes ∈ pages store table count, Leaves I (analyzePage table bytes) (fun _ => I) I := by
    intro bytes _
    unfold analyzePage
    generalize Page.records table bytes = page
    obtain ⟨records, failure⟩ := page
    exact Leaves.bind (Q := fun _ => I) (fun _ h => h) fun _ =>
      (failing_leaves failure fun _ h => h).bind fun _ => leaves_pure fun _ h => h
  have hpass : Leaves (fun st => st.1 = {} ∧ R st.2) (runPass store table .analyze count (analyzePage table))
      (fun _ => I) (fun st => R st.2) :=
    (runPass_leaves (fun t s log h => hlog s log h) hpage).mono (fun _ h => h.2) (fun _ _ h => h) fun _ h => h
  unfold analyze
  refine (note_leaves hlog _ _).bind fun _ => (running_leaves hpass).bind fun statistics => ?_
  intro s hs
  exact hlog s _ hs

omit [Database σ] in
theorem pageCount_leaves [Platform] (hlog : Session.Blind R) (store : PageStore) (table : String) :
    Leaves R (pageCount store table) (fun _ => R) R := by
  intro s hs
  unfold pageCount
  cases store.pageCount table with
  | ok count =>
    cases count with
    | none => exact hlog s _ hs
    | some n => exact hs
  | error err => exact hs

/-- The second pass, from what creating the loading table leaves. -/
theorem load_leaves [Platform] {W : Session σ → Prop} {columns : List Column} (hlog : Session.Blind W)
    (hcreate : Leaves R (createLoadingTable settings d columns) (fun _ => W) U) (hU : ∀ s, R s → U s)
    (hpass : Leaves (fun st => st.1 = Encoder.start d.label columns settings.dialect settings.tenant
        settings.maxValueLength settings.flushThreshold ∧ W st.2)
      (do
        runPass store d.label .load count
          (loadPage d.label (Redaction.Policy.rulesFor? settings.redaction d.label))
        Encoder.finish) (fun _ st => Q st.2) (fun st => U st.2)) :
    Leaves R (load settings store d columns count) (fun _ => Q) U := by
  have hrest : Leaves R (do
      createLoadingTable settings d columns
      Task.note .info s!"Staging: {d.label}: load"
      running (Encoder.start d.label columns settings.dialect settings.tenant settings.maxValueLength
          settings.flushThreshold) do
        runPass store d.label .load count
          (loadPage d.label (Redaction.Policy.rulesFor? settings.redaction d.label))
        Encoder.finish : Task σ Encoder) (fun _ => Q) U :=
    hcreate.bind fun _ => (note_leaves hlog _ _).bind fun _ => running_leaves hpass
  unfold load
  cases hname : d.name with
  | str name => exact hrest
  | _ => exact Leaves.bind (Q := fun _ => R) (leaves_throw hU) fun _ => hrest

/-- **Staging a table** leaves what the transaction of its load leaves. -/
theorem stage_leaves [Platform] (hR : Session.Blind R) (hQ : Session.Blind Q) (hU : ∀ s, R s → U s)
    (hload : ∀ columns count, Leaves R (Task.loadTransaction (load settings store d columns count)) (fun _ => Q) U) :
    Leaves R (stage settings store d) (fun _ => Q) U := by
  unfold stage
  refine ((pageCount_leaves hR _ _).mono (fun _ h => h) (fun _ _ h => h) hU).bind fun n => ?_
  refine (note_leaves hR _ _).bind fun _ => ?_
  refine ((analyze_leaves hR _ _ _).mono (fun _ h => h) (fun _ _ h => h) hU).bind fun found => ?_
  exact (hload _ _).bind fun e => (note_leaves hQ _ _).bind fun _ => leaves_pure fun _ h => h

end Staging

/-! ## A table's turn in a run -/

namespace Run

variable {settings : Settings} {store : PageStore} {d : Definition} {R Q U : Session σ → Prop}

omit [Database σ] in
/-- A failure that is reported leaves what the failure leaves. -/
theorem reported_leaves {task : Task σ α} {Q : α → Session σ → Prop} (h : Leaves R task Q U) :
    Leaves R (reported task) (fun x s => match x with | .ok a => Q a s | .error _ => U s) U := by
  intro s hs
  unfold reported
  cases htask : task s with
  | ok a s' => exact h.of_ok hs htask
  | error err s' =>
    have hs' := h.of_error hs htask
    cases hreport : err.report? <;> simpa [hreport] using hs'

omit [Database σ] in
theorem failed_leaves (hU : Session.Blind U) (stage : Option StageResult) (report : Report) :
    Leaves U (failed d stage report : Task σ TableResult) (fun r s => r.status = .failed ∧ U s) U :=
  fun s hs => ⟨rfl, hU s _ hs⟩

/-- **The turn of a table** leaves what the merge leaves when the table is completed, and else what a failure of
staging or merging leaves. -/
theorem table_leaves [Platform] {V : Int → Session σ → Prop} (hR : Session.Blind R) (hU : Session.Blind U)
    (hRU : ∀ s, R s → U s) (hstage : Leaves R (Staging.stage settings store d) (fun _ => Q) U)
    (hmerge : Leaves Q (History.mergeAndPromote d.label) V U) :
    Leaves R (Run.table settings store d)
      (fun r s => r.status = .completed ∧ V r.appended s ∨ r.status ≠ .completed ∧ U s) U := by
  have hfailed (stage : Option StageResult) (report : Report) : Leaves U (failed d stage report)
      (fun r s => r.status = .completed ∧ V r.appended s ∨ r.status ≠ .completed ∧ U s) U := by
    refine (failed_leaves hU stage report).mono (fun _ h => h) ?_ fun _ h => h
    rintro r s ⟨hstatus, hs⟩
    exact .inr ⟨by simp [hstatus], hs⟩
  unfold Run.table
  split
  · refine (note_leaves hR _ _).bind fun _ => leaves_pure fun s hs => .inr ⟨?_, hRU s hs⟩
    simp
  · refine (reported_leaves hstage).bind fun staged => ?_
    cases staged with
    | error report => exact hfailed _ _
    | ok result =>
      refine (reported_leaves hmerge).bind fun merged => ?_
      cases merged with
      | error report => exact hfailed _ _
      | ok added => exact leaves_pure fun s hs => .inl ⟨rfl, hs⟩

end Run

end SnapshotStaging
