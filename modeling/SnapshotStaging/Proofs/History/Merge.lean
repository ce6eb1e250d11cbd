import SnapshotStaging.History
import SnapshotStaging.Proofs.History.Law
import SnapshotStaging.Proofs.Tables

/-!
# Runs of merges

A merge finds the loading table, the history, and no table of latest versions once it has dropped the one
that may be there; so none of its statements fails, it leaves all other tables alone, and the history
grows at its end by what the law says (`merge_ok`).

Main result `history_law`: the history after every merge of a run, and what each merge added.
-/

namespace SnapshotStaging

namespace Warehouse

variable {w : Warehouse} {table name : String} {versions latest : List Version} {columns : List Column}
  {rows : List Row}

/-! ## Names -/

/-- No reserved word has an underscore. -/
theorem not_reserved (h : '_' ∈ name.toList) : reserved.contains (fold name) = false := by
  have hnone : ∀ word ∈ reserved, '_' ∉ word.toList := by decide
  rw [Bool.eq_false_iff, Ne, List.contains_iff_mem]
  intro hmem
  refine hnone _ hmem ?_
  rw [show fold name = name.map Char.toLower from rfl, String.toList_map]
  exact List.mem_map.2 ⟨'_', h, by decide⟩

/-- Where a history can have its name so can the table of its latest versions. -/
theorem isName_latest (h : isName (TableName.history table) = true) :
    isName (TableName.latest table) = true := by
  have hreserved : reserved.contains (fold (TableName.latest table)) = false :=
    not_reserved (by simp [TableName.latest])
  unfold isName at h ⊢
  rw [hreserved, TableName.latest, String.toList_append]
  rw [TableName.history, String.toList_append] at h
  cases htable : table.toList with
  | nil => decide
  | cons c rest =>
    rw [htable] at h
    simp only [List.cons_append, List.all_append, Bool.and_eq_true] at h ⊢
    exact ⟨⟨h.1.1, h.1.2.1, by decide⟩, rfl⟩

/-! ## The statements of a merge -/

/-- The history of a table, empty before it is created. -/
def HasHistory (table : String) (versions : List Version) (w : Warehouse) : Prop :=
  w.find? (TableName.history table) = some (.history versions) ∨
    w.find? (TableName.history table) = none ∧ versions = []

/-- Creating a history leaves one that is there. -/
theorem execute_createHistory (hname : isFreeName (TableName.history table) = true)
    (hsqlite : w.dialect = .sqlite) (h : HasHistory table versions w) :
    ∃ w', execute (.createHistory table) w = .ok (-1) w' ∧
      w'.find? (TableName.history table) = some (.history versions) ∧
      (∀ other, fold other ≠ fold (TableName.history table) → w'.find? other = w.find? other) ∧
      w'.now = w.now ∧ w'.dialect = w.dialect := by
  have htakes : takesDefinitions w.dialect = true := by rw [hsqlite]; decide
  rcases h with hfound | ⟨hnone, rfl⟩
  · refine ⟨w, ?_, hfound, fun _ _ => rfl, rfl, rfl⟩
    simp [execute, changesRows, apply, hname, htakes, hfound]
  · refine ⟨w.put (TableName.history table) (.history []), ?_, find?_put _ _ rfl,
      fun _ hother => find?_put_of_ne _ _ hother, rfl, rfl⟩
    simp [execute, changesRows, apply, hname, htakes, hnone]

theorem execute_drop (hname : isName name = true) (w : Warehouse) :
    execute (.drop name) w = .ok (-1) (w.without name) := by
  simp [execute, changesRows, apply, hname]

theorem execute_createLatest (hhistory : w.find? (TableName.history table) = some (.history versions))
    (hnone : w.find? (TableName.latest table) = none) :
    execute (.createLatest table) w =
      .ok (-1) (w.put (TableName.latest table) (.latest (latestOf versions))) := by
  simp [execute, changesRows, apply, hhistory, hnone]

theorem execute_appendChanges (hsqlite : w.dialect = .sqlite)
    (hhistory : w.find? (TableName.history table) = some (.history versions))
    (hloading : w.find? (TableName.loading table) = some (.snapshot columns rows))
    (hlatest : w.find? (TableName.latest table) = some (.latest (latestOf versions))) :
    execute (.appendChanges table) w =
      .ok (added ⟨columns, rows, w.now⟩ versions).length (w.begun.put (TableName.history table)
        (.history (versions ++ added ⟨columns, rows, w.now⟩ versions))) := by
  have hhistory : w.begun.find? (TableName.history table) = some (.history versions) := hhistory
  have hloading : w.begun.find? (TableName.loading table) = some (.snapshot columns rows) := hloading
  have hlatest : w.begun.find? (TableName.latest table) = some (.latest (latestOf versions)) := hlatest
  have htakes : takesCasts w.begun.dialect = true := by
    show takesCasts w.dialect = true
    rw [hsqlite]
    decide
  simp only [execute, changesRows, if_true, apply, hhistory, hloading, hlatest, htakes]
  rfl

end Warehouse

open Warehouse

variable {table : String} {s : Session Warehouse} {versions : List Version} {snaps done : List Snapshot}

/-! ## One merge -/

/-- A merge appends what its snapshot adds, answers how much that is, and leaves all other tables as they
were. -/
theorem merge_ok {snap : Snapshot} (hname : isFreeName (TableName.history table) = true)
    (hsqlite : s.database.dialect = .sqlite) (hhistory : HasHistory table versions s.database)
    (hloading : s.database.find? (TableName.loading table) = some (.snapshot snap.columns snap.rows))
    (htime : s.database.now = snap.time) :
    ∃ s', History.merge table s = .ok (added snap versions).length s' ∧
      s'.database.find? (TableName.history table) = some (.history (versions ++ added snap versions)) ∧
      s'.database.dialect = .sqlite ∧
      ∀ other, fold other ≠ fold (TableName.history table) → fold other ≠ fold (TableName.latest table) →
        s'.database.find? other = s.database.find? other := by
  have hlatest : isName (TableName.latest table) = true :=
    isName_latest (Bool.and_eq_true_iff.1 hname).1
  obtain ⟨w₁, hcreate, hfound, hothers, hnow, hdialect⟩ :=
    execute_createHistory hname hsqlite hhistory
  have hhl : fold (TableName.history table) ≠ fold (TableName.latest table) := fold_latest_ne_history.symm
  have hlh : fold (TableName.loading table) ≠ fold (TableName.history table) := fold_loading_ne_history
  have hll : fold (TableName.loading table) ≠ fold (TableName.latest table) := fold_latest_ne_loading.symm
  let w₂ := w₁.without (TableName.latest table)
  let w₃ := w₂.put (TableName.latest table) (.latest (latestOf versions))
  let w₄ := w₃.begun.put (TableName.history table) (.history (versions ++ added snap versions))
  have hdrop : execute (.drop (TableName.latest table)) w₁ = .ok (-1) w₂ := execute_drop hlatest w₁
  have hextract : execute (.createLatest table) w₂ = .ok (-1) w₃ :=
    execute_createLatest ((find?_without_of_ne _ hhl).trans hfound) (find?_without _ rfl)
  have happend : execute (.appendChanges table) w₃ = .ok (added snap versions).length w₄ := by
    have hsnap : snap = ⟨snap.columns, snap.rows, w₃.now⟩ := by
      rw [show w₃.now = snap.time from hnow.trans htime]
    have h := execute_appendChanges (w := w₃) (hdialect.trans hsqlite)
      (((find?_put_of_ne _ _ hhl).trans (find?_without_of_ne _ hhl)).trans hfound)
      (((find?_put_of_ne _ _ hll).trans (find?_without_of_ne _ hll)).trans ((hothers _ hlh).trans hloading))
      (find?_put _ _ rfl)
    rwa [← hsnap] at h
  have hclean : execute (.drop (TableName.latest table)) w₄ =
      .ok (-1) (w₄.without (TableName.latest table)) := execute_drop hlatest w₄
  have hmerge : ∃ log, History.merge table s = .ok (added snap versions).length
      { s with database := w₄.without (TableName.latest table), log := log } := by
    rw [History.merge, bind_ok (discard_ok (Task.execute_ok hcreate)),
      bind_ok (discard_ok (Task.execute_ok hdrop)), bind_ok (discard_ok (Task.execute_ok hextract)),
      bind_ok (Task.execute_ok happend), bind_ok (discard_ok (Task.execute_ok hclean)),
      if_pos (Int.natCast_nonneg _)]
    exact ⟨_, rfl⟩
  obtain ⟨log, hmerge⟩ := hmerge
  refine ⟨_, hmerge, ?_, hdialect.trans hsqlite, ?_⟩
  · exact (find?_without_of_ne _ hhl).trans (find?_put _ _ rfl)
  · intro other hhistory hlatest
    calc (w₄.without (TableName.latest table)).find? other
        = w₄.find? other := find?_without_of_ne _ hlatest
      _ = w₃.find? other := find?_put_of_ne _ _ hhistory
      _ = w₂.find? other := find?_put_of_ne _ _ hlatest
      _ = w₁.find? other := find?_without_of_ne _ hlatest
      _ = s.database.find? other := hothers _ hhistory

/-! ## Runs -/

/-- A load has left a snapshot in the loading table. -/
def arrive (table : String) (snap : Snapshot) : Task Warehouse Unit :=
  modify fun s =>
    let w : Warehouse := { s.database with now := snap.time }
    { s with database := w.put (TableName.loading table) (.snapshot snap.columns snap.rows) }

/-- Merges snapshots in turn; answers what the merges answer. -/
def mergeAll (table : String) : List Snapshot → Task Warehouse (List Int)
  | [] => return []
  | snap :: rest => do
    arrive table snap
    let n ← History.merge table
    return n :: (← mergeAll table rest)

/-- One more merge: the run goes on from a history that it has grown. -/
theorem mergeAll_cons {snap : Snapshot} (hname : isFreeName (TableName.history table) = true)
    (hsqlite : s.database.dialect = .sqlite) (hhistory : HasHistory table versions s.database) :
    ∃ s₁ : Session Warehouse, s₁.database.dialect = .sqlite ∧
      HasHistory table (versions ++ added snap versions) s₁.database ∧
      ∀ rest ns s', mergeAll table rest s₁ = .ok ns s' →
        mergeAll table (snap :: rest) s = .ok ((added snap versions).length :: ns) s' := by
  let w : Warehouse := { s.database with now := snap.time }
  let s₀ : Session Warehouse :=
    { s with database := w.put (TableName.loading table) (.snapshot snap.columns snap.rows) }
  have hhistory₀ : HasHistory table versions s₀.database := by
    rw [HasHistory, find?_put_of_ne _ _ fold_loading_ne_history.symm]
    exact hhistory
  obtain ⟨s₁, hmerge, hfound, hsqlite₁, -⟩ := merge_ok (s := s₀) hname hsqlite hhistory₀
    (find?_put _ _ rfl) rfl
  refine ⟨s₁, hsqlite₁, .inl hfound, ?_⟩
  intro rest ns s' hrest
  rw [mergeAll, bind_ok (show arrive table snap s = .ok () s₀ from rfl), bind_ok hmerge, bind_ok hrest]
  rfl

/-- A run of merges on a history that earlier ones have made. -/
theorem mergeAll_spec (hname : isFreeName (TableName.history table) = true)
    (hsqlite : s.database.dialect = .sqlite) (hhistory : HasHistory table versions s.database)
    (hlawful : Lawful done versions) (hids : ∀ snap ∈ snaps, (snap.rows.map (·.id)).Nodup)
    (htimes : (done ++ snaps).Pairwise (·.time < ·.time)) :
    ∃ parts : List (List Version), parts.length = snaps.length ∧
      (∀ part ∈ parts, ∀ tenant id, (ofRecord tenant id part).length ≤ 1) ∧
      ∀ k ≤ snaps.length,
        (∃ s', mergeAll table (snaps.take k) s = .ok ((parts.take k).map fun part => (part.length : Int)) s' ∧
          HasHistory table (versions ++ (parts.take k).flatten) s'.database) ∧
        Lawful (done ++ snaps.take k) (versions ++ (parts.take k).flatten) := by
  induction snaps generalizing s versions done with
  | nil =>
    refine ⟨[], rfl, nofun, ?_⟩
    intro k hk
    obtain rfl : k = 0 := Nat.le_zero.1 hk
    exact ⟨⟨s, rfl, by simpa using hhistory⟩, by simpa using hlawful⟩
  | cons snap rest ih =>
    have hsnap := hids snap (List.mem_cons_self ..)
    have hearlier : ∀ earlier ∈ done, earlier.time < snap.time := fun earlier hdone =>
      (List.pairwise_append.1 htimes).2.2 earlier hdone snap (List.mem_cons_self ..)
    obtain ⟨s₁, hsqlite₁, hhistory₁, hrun⟩ := mergeAll_cons hname hsqlite hhistory
    rw [List.append_cons] at htimes
    obtain ⟨parts, hlength, hone, hprefix⟩ := ih hsqlite₁ hhistory₁ (hlawful.append hsnap hearlier)
      (fun snap hsnap => hids snap (List.mem_cons_of_mem _ hsnap)) htimes
    refine ⟨added snap versions :: parts, by simp [hlength], ?_, ?_⟩
    · intro part hpart tenant id
      rcases List.mem_cons.1 hpart with rfl | hpart
      · exact (hlawful.ofRecord_added hsnap tenant id).1
      · exact hone part hpart tenant id
    · intro k hk
      cases k with
      | zero => exact ⟨⟨s, rfl, by simpa using hhistory⟩, by simpa using hlawful⟩
      | succ k =>
        obtain ⟨⟨s', hrest, hhistory'⟩, hlawful'⟩ := hprefix k (Nat.le_of_succ_le_succ hk)
        rw [List.take_succ_cons, List.take_succ_cons, List.flatten_cons, ← List.append_assoc, List.append_cons]
        exact ⟨⟨s', hrun _ _ _ hrest, hhistory'⟩, hlawful'⟩

/-- **The law of histories**: merging snapshots in turn, each later than the one before and without
repeated identifiers, into a history that is empty or not there. No merge fails, and each appends one part:
at most one version of a record of a tenant, none without payload, as many as it answers. After any number
of merges the versions of a record of a tenant are in the order of their times, and their payloads are the
ones that it had in the snapshots so far, without consecutive repeats. -/
theorem history_law (table : String) (snaps : List Snapshot) (s : Session Warehouse)
    (hname : isFreeName (TableName.history table) = true) (hsqlite : s.database.dialect = .sqlite)
    (hempty : HasHistory table [] s.database) (hids : ∀ snap ∈ snaps, (snap.rows.map (·.id)).Nodup)
    (htimes : snaps.Pairwise (·.time < ·.time)) :
    ∃ parts : List (List Version), parts.length = snaps.length ∧
      (∀ part ∈ parts, (∀ tenant id, (ofRecord tenant id part).length ≤ 1) ∧ ∀ v ∈ part, v.data ≠ none) ∧
      ∀ k ≤ snaps.length,
        (∃ s', mergeAll table (snaps.take k) s = .ok ((parts.take k).map fun part => (part.length : Int)) s' ∧
          HasHistory table (parts.take k).flatten s'.database) ∧
        ∀ tenant id,
          (ofRecord tenant id (parts.take k).flatten).map (·.data) =
            ((offered tenant id (snaps.take k)).destutter (· ≠ ·)).map some ∧
          (ofRecord tenant id (parts.take k).flatten).Pairwise (·.updated < ·.updated) := by
  obtain ⟨parts, hlength, hone, hprefix⟩ := mergeAll_spec hname hsqlite hempty lawful_nil hids
    (by rwa [List.nil_append])
  refine ⟨parts, hlength, fun part hpart => ⟨hone part hpart, fun v hv => ?_⟩, ?_⟩
  · obtain ⟨-, hlawful⟩ := hprefix _ (Nat.le_refl _)
    refine hlawful.data_ne_none ?_
    rw [List.nil_append, ← hlength, List.take_length]
    exact List.mem_flatten_of_mem hpart hv
  · intro k hk
    obtain ⟨hrun, hlawful⟩ := hprefix k hk
    exact ⟨hrun, fun tenant id => ⟨hlawful.payloads tenant id, hlawful.ordered tenant id⟩⟩

/-- A payload that comes back is a version again; one that is missing in between is not. -/
theorem history_law_returning : ∃ ns s' versions,
    mergeAll "items" [⟨[], [⟨1, "x", [], some "a", 1⟩], "1"⟩, ⟨[], [⟨1, "x", [], none, 1⟩], "2"⟩,
      ⟨[], [⟨1, "x", [], some "a", 1⟩], "3"⟩, ⟨[], [⟨1, "x", [], some "c", 2⟩], "4"⟩,
      ⟨[], [⟨1, "x", [], some "b", 1⟩], "5"⟩, ⟨[], [⟨1, "x", [], some "a", 1⟩], "6"⟩]
      ⟨Warehouse.empty, .memory .empty, []⟩ = .ok ns s' ∧
    HasHistory "items" versions s'.database ∧
    (ofRecord 1 "x" versions).map (·.data) = [some "a", some "b", some "a"] := by
  obtain ⟨parts, -, -, hprefix⟩ := history_law "items" [⟨[], [⟨1, "x", [], some "a", 1⟩], "1"⟩,
    ⟨[], [⟨1, "x", [], none, 1⟩], "2"⟩, ⟨[], [⟨1, "x", [], some "a", 1⟩], "3"⟩,
    ⟨[], [⟨1, "x", [], some "c", 2⟩], "4"⟩, ⟨[], [⟨1, "x", [], some "b", 1⟩], "5"⟩,
    ⟨[], [⟨1, "x", [], some "a", 1⟩], "6"⟩] ⟨Warehouse.empty, .memory .empty, []⟩
    (by decide +kernel) rfl (.inr ⟨rfl, rfl⟩) (by decide) (by decide)
  obtain ⟨⟨s', hrun, hhistory⟩, hlaw⟩ := hprefix 6 (by decide)
  exact ⟨_, s', _, hrun, hhistory, (hlaw 1 "x").1.trans (by decide)⟩

end SnapshotStaging
