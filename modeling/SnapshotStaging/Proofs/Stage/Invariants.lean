import SnapshotStaging.Proofs.Stage.Outcomes
import SnapshotStaging.Proofs.Stage.Repetition

/-!
# What a load leaves as it was

A condition on sessions that log entries, calls for keys and the statements of a load leave as it was, in both
outcomes, is left as it was by the whole load, wherever it ends: after the last row, or at a page, a record or a
statement that fails.

Main results: `Invariant.load`, and `Preserved.table` for a condition on the database alone and the whole turn of a
table.
-/

namespace SnapshotStaging

variable {σ : Type} [Database σ]

/-- A condition on sessions that the steps of a load leave as it was, whether they succeed or fail, as long as they
ask only for statements of `asks`. -/
structure Invariant (asks : Statement → Prop) (R : Session σ → Prop) : Prop where
  blind : Session.Blind R
  resolve : ∀ scope id, Leaves R (Task.resolve scope id) (fun _ => R) R
  execute : ∀ {st}, asks st → Leaves R (Task.execute st) (fun _ => R) R

/-- A condition on the database alone. -/
theorem Preserved.invariant {asks : Statement → Prop} {I : σ → Prop} (h : Preserved I)
    (hexecute : ∀ {st}, asks st → Leaves (fun s : Session σ => I s.database) (Task.execute st)
      (fun _ s => I s.database) fun s => I s.database) :
    Invariant asks fun s : Session σ => I s.database where
  blind _ _ hs := hs
  resolve := Task.resolve_leaves h
  execute := hexecute

namespace Invariant

variable {asks : Statement → Prop} {R : Session σ → Prop} {settings : Settings} {store : PageStore} {d : Definition}
  {table : String} {columns : List Column} {count : Nat}

theorem task_closed (h : Invariant asks R) :
    Task.Closed (fun _ x => Leaves R x (fun _ => R) R) asks fun _ => True where
  pure _ := leaves_pure fun _ hs => hs
  bind hx hf := hx.bind hf
  throw _ := leaves_throw fun _ hs => hs
  log _ s hs := h.blind s _ hs
  execute hst := h.execute hst

/-- The encoder is one for the table, and the session is in order. -/
def Within (table : String) (R : Session σ → Prop) (st : Encoder × Session σ) : Prop :=
  st.1.table = table ∧ R st.2

theorem encoder_closed (h : Invariant asks R) (table : String) :
    Encoder.Closed table (fun _ x => Leaves (Within table R) x (fun _ => Within table R) fun st => R st.2) asks
      fun _ => True where
  pure _ := leaves_pure fun _ hst => hst
  bind hx hf := hx.bind hf
  throw _ := leaves_throw fun _ hst => hst.2
  look hf st hst := hf st.1 hst.1 st hst
  own hf st hst := ⟨(hf st.1).trans hst.1, hst.2⟩
  log _ st hst := ⟨hst.1, h.blind st.2 _ hst.2⟩
  execute hst := onSession_leaves fun e => (h.execute hst).keeping (p := e.table = table)
  resolve scope id := onSession_leaves fun e => (h.resolve scope id).keeping (p := e.table = table)

theorem loadPage [Platform] (h : Invariant asks R) (hinsert : ∀ rows, asks (.insert table rows))
    (hdelete : ∀ sk, asks (.deleteKey table sk)) (rules : Option Redaction.Rules) (bytes : List UInt8) :
    Leaves (Within table R) (Staging.loadPage table rules bytes) (fun _ => Within table R) fun st => R st.2 := by
  unfold Staging.loadPage
  generalize Page.records table bytes = page
  obtain ⟨records, failure⟩ := page
  have hwrites : Leaves (Within table R) (Staging.writeAll rules records) (fun _ => Within table R) fun st => R st.2 :=
    (h.encoder_closed table).writeAll hinsert hdelete rules fun _ _ _ _ => trivial
  exact hwrites.bind fun _ => (Staging.failing_leaves failure fun _ hst => hst.2).bind fun _ =>
    leaves_pure fun _ hst => hst

/-- **The pass of a load** leaves as it was what its steps leave so. -/
theorem pass [Platform] (h : Invariant asks R) (hinsert : ∀ rows, asks (.insert d.label rows))
    (hdelete : ∀ sk, asks (.deleteKey d.label sk)) :
    Leaves (fun st => st.1 = Encoder.start d.label columns settings.dialect settings.tenant
        settings.maxValueLength settings.flushThreshold ∧ R st.2)
      (do
        Staging.runPass store d.label .load count
          (Staging.loadPage d.label (Redaction.Policy.rulesFor? settings.redaction d.label))
        Encoder.finish) (fun _ st => R st.2) fun st => R st.2 := by
  have hpages : Leaves (Within d.label R) (Staging.runPass store d.label .load count
      (Staging.loadPage d.label (Redaction.Policy.rulesFor? settings.redaction d.label)))
      (fun _ => Within d.label R) fun st => R st.2 :=
    Staging.runPass_leaves (fun e s _ hst => ⟨hst.1, h.blind s _ hst.2⟩) fun bytes _ =>
      h.loadPage hinsert hdelete _ bytes
  have hfinish : Leaves (Within d.label R) (Encoder.finish : Encoder.Step σ Unit) (fun _ => Within d.label R)
      fun st => R st.2 := (h.encoder_closed d.label).flush hinsert
  refine (hpages.bind fun _ => hfinish).mono ?_ (fun _ _ hst => hst.2) fun _ hs => hs
  rintro st ⟨hst, hs⟩
  exact ⟨by rw [hst]; rfl, hs⟩

/-- **A load** leaves as it was what its steps leave so. -/
theorem load [Platform] (h : Invariant asks R) (hdrop : asks (.drop (TableName.loading d.label)))
    (hcreate : asks (.createLoading d.label columns)) (hcomment : ∀ text, asks (.comment d.label text))
    (hgrant : ∀ grantee, asks (.grant d.label grantee)) (hinsert : ∀ rows, asks (.insert d.label rows))
    (hdelete : ∀ sk, asks (.deleteKey d.label sk)) :
    Leaves R (Staging.load settings store d columns count) (fun _ => R) R :=
  Staging.load_leaves h.blind
    (h.task_closed.createLoadingTable hdrop hcreate (fun text _ => hcomment text) hgrant (fun _ _ => trivial)
      fun _ _ _ => trivial)
    (fun _ hs => hs) (h.pass hinsert hdelete)

end Invariant

namespace Staging

variable {settings : Settings} {store : PageStore} {d : Definition} {R Q U : Session σ → Prop}

/-- The columns that the pages of a table call for, once they are counted. -/
def inferred [Platform] (store : PageStore) (table : String) : List Column :=
  match store.pageCount table with
  | .ok count => columnsOf store table (count.getD 0)
  | .error _ => []

/-- The only page calls for columns by its records. -/
theorem inferred_single [Platform] {table : String} (h : Filed table) (bytes : List UInt8) :
    inferred (single table bytes) table =
      Column.infer ColumnType.select (Statistics.ofRecords (Page.records table bytes).1) := by
  rw [inferred, (single_spec h bytes).1]
  dsimp only
  rw [Option.getD_some, columnsOf, (single_records h bytes).1]

/-- **Staging a table** leaves what its load leaves, which begins only when the pages are counted and none of them
fails, and has the columns that they call for. -/
theorem stage_loads [Platform] (hR : Session.Blind R) (hQ : Session.Blind Q) (hU : ∀ s, R s → U s)
    (hload : ∀ count, store.pageCount d.label = .ok count →
      failure? d.label (pages store d.label (count.getD 0)) = none →
      Leaves R (Task.loadTransaction (load settings store d (inferred store d.label) (count.getD 0))) (fun _ => Q) U) :
    Leaves R (stage settings store d) (fun _ => Q) U := by
  have hcounted : Leaves R (pageCount store d.label)
      (fun n s => (∃ count, store.pageCount d.label = .ok count ∧ n = count.getD 0) ∧ R s) U := by
    refine leaves_of_outcomes (fun s n s' hs hn => ?_) fun s err s' hs herr => ?_
    · exact ⟨((pageCount_ends store d.label s).of_ok ⟨rfl, rfl⟩ hn).2, (pageCount_leaves hR _ _).of_ok hs hn⟩
    · exact hU s' ((pageCount_leaves hR _ _).of_error hs herr)
  have hanalyzed (count : Nat) : Leaves R (analyze store d.label count)
      (fun found s => (failure? d.label (pages store d.label count) = none ∧
        found.2 = columnsOf store d.label count) ∧ R s) U := by
    refine leaves_of_outcomes (fun s found s' hs hfound => ?_) fun s err s' hs herr => ?_
    · obtain ⟨hnone, -, rfl⟩ := (analyze_ends store d.label count s).of_ok ⟨rfl, rfl⟩ hfound
      exact ⟨⟨hnone, rfl⟩, (analyze_leaves hR _ _ _).of_ok hs hfound⟩
    · exact hU s' ((analyze_leaves hR _ _ _).of_error hs herr)
  unfold stage
  refine hcounted.bind fun n => .assuming ?_
  rintro ⟨count, hcount, rfl⟩
  refine (note_leaves hR _ _).bind fun _ => (hanalyzed _).bind fun found => .assuming ?_
  rintro ⟨hnone, hfound⟩
  obtain ⟨statistics, columns⟩ := found
  obtain rfl : columns = inferred store d.label := by
    rw [inferred, hcount]
    exact hfound
  exact (hload count hcount hnone).bind fun e => (note_leaves hQ _ _).bind fun _ => leaves_pure fun _ h => h

end Staging

namespace Preserved

variable {I : σ → Prop} {settings : Settings} {store : PageStore} {d : Definition}

/-- **The turn of a table** leaves as it was what all requests leave so, with statements on the tables that it works
on. -/
theorem table [Platform] (h : Preserved I) (hexecute : ∀ {st}, st.WorksOn d.label →
      Leaves (fun s : Session σ => I s.database) (Task.execute st) (fun _ s => I s.database) fun s => I s.database) :
    Leaves (fun s => I s.database) (Run.table settings store d) (fun _ s => I s.database) fun s => I s.database := by
  have hinvariant := h.invariant hexecute
  have hloading {st : Statement} (hst : st.targets = [TableName.loading d.label]) : st.WorksOn d.label := by
    simp [Statement.WorksOn, hst, TableName.touched]
  have hstage : Leaves (fun s => I s.database) (Staging.stage settings store d) (fun _ s => I s.database)
      fun s => I s.database := by
    refine Staging.stage_leaves hinvariant.blind hinvariant.blind (fun _ hs => hs) fun columns count => ?_
    exact Task.loadTransaction_leaves
      (hinvariant.load (hloading rfl) (hloading rfl) (fun _ => hloading rfl) (fun _ => hloading rfl)
        (fun _ => hloading rfl) fun _ => hloading rfl)
      (fun _ => h.start _) (fun _ _ hs _ => h.commit _ hs) (fun _ _ hs => hs) fun _ => h.rollback _
  have hmerged : Leaves (fun s => I s.database) (do
      let added ← History.merge d.label
      History.promote d.label
      return added : Task σ Int) (fun _ s => I s.database) fun s => I s.database := by
    have hmerge : Leaves (fun s => I s.database) (History.merge d.label : Task σ Int) (fun _ s => I s.database)
        fun s => I s.database :=
      hinvariant.task_closed.merge (by simp [Statement.WorksOn, Statement.targets, TableName.touched])
    have hpromote : Leaves (fun s => I s.database) (History.promote d.label : Task σ Unit) (fun _ s => I s.database)
        fun s => I s.database :=
      hinvariant.task_closed.promote (by simp [Statement.WorksOn, Statement.targets, TableName.touched])
        (by simp [Statement.WorksOn, Statement.targets, TableName.touched])
    exact hmerge.bind fun _ => hpromote.bind fun _ => leaves_pure fun _ hs => hs
  have hmerge : Leaves (fun s => I s.database) (History.mergeAndPromote d.label) (fun _ s => I s.database)
      fun s => I s.database :=
    Task.transaction_leaves hmerged (fun _ => h.start _) (fun _ _ hs _ => h.commit _ hs) (fun _ _ hs => hs)
      fun _ => h.rollback _
  refine (Run.table_leaves hinvariant.blind hinvariant.blind (fun _ hs => hs) hstage hmerge).mono (fun _ hs => hs) ?_
    fun _ hs => hs
  rintro r s (⟨-, hs⟩ | ⟨-, hs⟩) <;> exact hs

end Preserved

end SnapshotStaging
