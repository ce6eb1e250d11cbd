import SnapshotStaging.Proofs.History.Merge
import SnapshotStaging.Proofs.Load.Closure

/-!
# Merging a snapshot again

A snapshot that was merged later than every version before it is known to the history row by row: the latest
versions of a record are those that it added, or they have its payload already. So merging its rows again
adds nothing, whenever that is.

Main result `added_again`. `of_mergeAndPromote` says what a merge has found when it succeeds, and
`mergeAndPromote_ok` that it succeeds where it finds that.
-/

namespace SnapshotStaging

variable {now : String} {versions : List Version} {snap again : Snapshot}

namespace Warehouse

/-- Versions of a later time take the place of all latest versions. -/
theorem latest_append {l part : List Version} (hlate : ∀ v ∈ l, v.updated < now) (hpart : ∀ v ∈ part, v.updated = now)
    (hne : part ≠ []) :
    ((l ++ part).filter fun v => !(l ++ part).any fun w => v.updated < w.updated) = part := by
  obtain ⟨w, hw⟩ := List.exists_mem_of_ne_nil part hne
  have hearlier : (l.filter fun v => !(l ++ part).any fun w => v.updated < w.updated) = [] := by
    rw [List.filter_eq_nil_iff]
    intro v hv
    have hlater : ((l ++ part).any fun w => v.updated < w.updated) = true :=
      List.any_eq_true.2 ⟨w, List.mem_append_right l hw, by simpa [hpart w hw] using hlate v hv⟩
    rw [hlater]
    decide
  have hlatest : (part.filter fun v => !(l ++ part).any fun w => v.updated < w.updated) = part := by
    rw [List.filter_eq_self]
    intro v hv
    have hnone : ((l ++ part).any fun w => v.updated < w.updated) = false := by
      rw [List.any_eq_false]
      intro w hw
      rw [decide_eq_true_iff, hpart v hv]
      rcases List.mem_append.1 hw with hw | hw
      · exact String.lt_asymm (hlate w hw)
      · rw [hpart w hw]
        exact String.lt_irrefl _
    rw [hnone]
    rfl
  rw [List.filter_append, hearlier, hlatest, List.nil_append]

/-- Among identifiers that are not repeated a row alone adds the versions of its record. -/
theorem ofRecord_added_row (hids : (snap.rows.map (·.id)).Nodup) {r : Row} (hr : r ∈ snap.rows) :
    ofRecord r.tenant r.id (added snap versions) = changes snap.time (latestOf versions) r := by
  have hmem : r ∈ snap.rowsOf r.tenant r.id := List.mem_filter.2 ⟨hr, by simp⟩
  rw [ofRecord_added]
  rcases snap.rowsOf_cases hids r.tenant r.id with hrows | ⟨r', hrows, -, -⟩
  · rw [hrows] at hmem
    cases hmem
  · rw [hrows] at hmem ⊢
    rw [List.mem_singleton.1 hmem, List.flatMap_singleton]

/-- A row adds nothing to a history that its snapshot was merged into. -/
theorem changes_again (hids : (snap.rows.map (·.id)).Nodup) (hlate : ∀ v ∈ versions, v.updated < snap.time)
    (now : String) {r : Row} (hr : r ∈ snap.rows) :
    changes now (latestOf (versions ++ added snap versions)) r = [] := by
  cases hdata : r.data with
  | none => simp [changes, hdata]
  | some data =>
    have hpart : ofRecord r.tenant r.id (added snap versions) = changes snap.time (latestOf versions) r :=
      ofRecord_added_row hids hr
    have hof : ofRecord r.tenant r.id (versions ++ added snap versions) =
        ofRecord r.tenant r.id versions ++ changes snap.time (latestOf versions) r :=
      (List.filter_append ..).trans (congrArg _ hpart)
    rw [changes_some now _ hdata, ofRecord_latestOf_eq, hof]
    by_cases hnone : changes snap.time (latestOf versions) r = []
    · -- nothing was added, so the record was known with this payload
      rw [hnone, List.append_nil, ← ofRecord_latestOf_eq]
      rw [changes_some _ _ hdata] at hnone
      split at hnone
      · cases hnone
      · next hknown =>
        simpa using hnone
    · -- what was added is all that is latest now
      have hsame (v : Version) (hv : v ∈ changes snap.time (latestOf versions) r) :
          v.updated = snap.time ∧ v.data = some data := by
        refine ⟨(mem_changes hv).2.2, ?_⟩
        rw [changes_some _ _ hdata] at hv
        split at hv
        · rw [List.mem_singleton.1 hv]
        · obtain ⟨w, -, rfl⟩ := List.mem_map.1 hv
          rfl
      rw [latest_append (fun v hv => hlate v (mem_ofRecord.1 hv).1) (fun v hv => (hsame v hv).1) hnone]
      split
      · next heq => exact absurd heq hnone
      · rw [List.map_eq_nil_iff, List.filter_eq_nil_iff]
        intro v hv
        simp [(hsame v hv).2]

/-- **A snapshot that was merged adds nothing when its rows are merged again.** -/
theorem added_again (hids : (snap.rows.map (·.id)).Nodup) (hlate : ∀ v ∈ versions, v.updated < snap.time)
    (hrows : again.rows = snap.rows) : added again (versions ++ added snap versions) = [] := by
  rw [added, hrows, List.flatMap_eq_nil_iff]
  exact fun r hr => changes_again hids hlate again.time hr

/-! ## What the statements of a merge have found -/

variable {w w' : Warehouse} {table name target : String} {n : Int}

theorem of_drop (h : execute (.drop name) w = .ok n w') : isName name = true ∧ w' = w.without name := by
  simp only [execute, changesRows, Bool.false_eq_true, if_false, apply] at h
  split at h
  · next hname =>
    cases h
    exact ⟨hname, rfl⟩
  · cases h

theorem of_createHistory (h : execute (.createHistory table) w = .ok n w') :
    isFreeName (TableName.history table) = true ∧ w'.dialect = w.dialect ∧
      (w' = w ∨ w.find? (TableName.history table) = none ∧ w' = w.put (TableName.history table) (.history [])) := by
  simp only [execute, changesRows, Bool.false_eq_true, if_false, apply] at h
  split at h
  · cases h
  · next hname =>
    have hname : isFreeName (TableName.history table) = true := by simp_all
    split at h
    · cases h
      exact ⟨hname, rfl, .inl rfl⟩
    · next hnone =>
      cases h
      exact ⟨hname, rfl, .inr ⟨by simpa using hnone, rfl⟩⟩

theorem of_createLatest (h : execute (.createLatest table) w = .ok n w') :
    ∃ versions, w.find? (TableName.history table) = some (.history versions) ∧
      w' = w.put (TableName.latest table) (.latest (latestOf versions)) := by
  simp only [execute, changesRows, Bool.false_eq_true, if_false, apply] at h
  split at h
  · next versions hhistory _ =>
    cases h
    exact ⟨versions, hhistory, rfl⟩
  · cases h

theorem of_appendChanges (h : execute (.appendChanges table) w = .ok n w') :
    w.dialect = .sqlite ∧
      ∃ columns rows, w.find? (TableName.loading table) = some (.snapshot columns rows) := by
  simp only [execute, changesRows, if_true, apply] at h
  split at h
  · next hloading _ htakes => exact ⟨of_decide_eq_true htakes, _, _, hloading⟩
  · cases h

theorem of_rename (h : execute (.rename name target) w = .ok n w') : isFreeName target = true := by
  simp only [execute, changesRows, Bool.false_eq_true, if_false, apply] at h
  split at h
  · split at h
    · next hfree => exact (Bool.and_eq_true_iff.1 hfree).1
    · cases h
  · cases h

end Warehouse

open Warehouse

variable {table : String} {columns : List Column} {rows : List Row} {n : Int} {s s' : Session Warehouse}

theorem Task.of_execute_ok {st : Statement} (h : Task.execute st s = .ok n s') :
    Warehouse.execute st s.database = .ok n s'.database := by
  unfold Task.execute at h
  split at h
  · next heq =>
    cases h
    exact heq
  · cases h

/-! ## Merging and promoting -/

/-- What merging and promoting a loading table finds. -/
structure Promotable (table : String) (versions : List Version) (columns : List Column) (rows : List Row)
    (w : Warehouse) : Prop where
  history : isFreeName (TableName.history table) = true
  live : isFreeName table = true
  dialect : w.dialect = .sqlite
  versions : HasHistory table versions w
  loading : w.find? (TableName.loading table) = some (.snapshot columns rows)

/-- A merge that succeeds has found a loading table, and a history or none. -/
theorem of_merge (h : History.merge table s = .ok n s') :
    isFreeName (TableName.history table) = true ∧ s.database.dialect = .sqlite ∧
      (∃ versions, HasHistory table versions s.database) ∧
      ∃ columns rows, s.database.find? (TableName.loading table) = some (.snapshot columns rows) := by
  have hhl : fold (TableName.history table) ≠ fold (TableName.latest table) := fold_latest_ne_history.symm
  have hlh : fold (TableName.loading table) ≠ fold (TableName.history table) := fold_loading_ne_history
  have hll : fold (TableName.loading table) ≠ fold (TableName.latest table) := fold_latest_ne_loading.symm
  unfold History.merge at h
  obtain ⟨_, s₁, hcreate, h⟩ := of_bind_ok h
  obtain ⟨_, s₂, hdrop, h⟩ := of_bind_ok h
  obtain ⟨_, s₃, hextract, h⟩ := of_bind_ok h
  obtain ⟨_, s₄, happend, -⟩ := of_bind_ok h
  obtain ⟨_, hcreate⟩ := of_discard_ok hcreate
  obtain ⟨_, hdrop⟩ := of_discard_ok hdrop
  obtain ⟨_, hextract⟩ := of_discard_ok hextract
  obtain ⟨hname, hdialect, hcreated⟩ := of_createHistory (Task.of_execute_ok hcreate)
  obtain ⟨-, hdrop⟩ := of_drop (Task.of_execute_ok hdrop)
  obtain ⟨versions, hversions, hextract⟩ := of_createLatest (Task.of_execute_ok hextract)
  obtain ⟨hsqlite, columns, rows, hloading⟩ := of_appendChanges (Task.of_execute_ok happend)
  rw [hdrop, find?_without_of_ne _ hhl] at hversions
  rw [hextract, find?_put_of_ne _ _ hll, hdrop, find?_without_of_ne _ hll] at hloading
  rw [hextract] at hsqlite
  have hsqlite : s₂.database.dialect = .sqlite := hsqlite
  rw [hdrop] at hsqlite
  refine ⟨hname, hdialect ▸ hsqlite, ?_⟩
  rcases hcreated with heq | ⟨hnone, heq⟩
  · rw [heq] at hversions hloading
    exact ⟨⟨versions, .inl hversions⟩, columns, rows, hloading⟩
  · rw [heq, find?_put_of_ne _ _ hlh] at hloading
    exact ⟨⟨[], .inr ⟨hnone, rfl⟩⟩, columns, rows, hloading⟩

theorem fold_loading_ne (table : String) : fold (TableName.loading table) ≠ fold table := by
  have h := @fold_append_ne table "_loading" "" (by decide)
  rwa [String.append_empty] at h

theorem fold_history_ne (table : String) : fold (TableName.history table) ≠ fold table := by
  have h := @fold_append_ne table "_history" "" (by decide)
  rwa [String.append_empty] at h

theorem fold_latest_ne (table : String) : fold (TableName.latest table) ≠ fold table := by
  have h := @fold_append_ne table "_latest_history" "" (by decide)
  rwa [String.append_empty] at h

/-- The loading table takes the place of the live table. -/
theorem promote_ok {r : Relation} (hlive : isFreeName table = true)
    (hloading : s.database.find? (TableName.loading table) = some r) :
    ∃ s', History.promote table s = .ok () s' ∧ s'.database.find? table = some r ∧
      s'.database.dialect = s.database.dialect ∧
      ∀ other, fold other ≠ fold table → fold other ≠ fold (TableName.loading table) →
        s'.database.find? other = s.database.find? other := by
  have hne := fold_loading_ne table
  have hname : isName table = true := (Bool.and_eq_true_iff.1 hlive).1
  let w₁ := s.database.without table
  have hfound : w₁.find? (TableName.loading table) = some r := (find?_without_of_ne _ hne).trans hloading
  have hnone : w₁.find? table = none := find?_without _ rfl
  have hrename : execute (.rename (TableName.loading table) table) w₁ =
      .ok (-1) ((w₁.without (TableName.loading table)).put table r) := by
    simp [execute, changesRows, apply, hfound, hnone, hlive]
  have hpromote : ∃ log, History.promote table s = .ok ()
      { s with database := (w₁.without (TableName.loading table)).put table r, log := log } := by
    rw [History.promote, bind_ok (discard_ok (Task.execute_ok (execute_drop hname s.database))),
      bind_ok (discard_ok (Task.execute_ok hrename))]
    exact ⟨_, rfl⟩
  obtain ⟨log, hpromote⟩ := hpromote
  refine ⟨_, hpromote, find?_put _ _ rfl, rfl, ?_⟩
  intro other hlive hother
  exact (find?_put_of_ne _ _ hlive).trans ((find?_without_of_ne _ hother).trans (find?_without_of_ne _ hlive))

theorem of_mergeAndPromote (h : History.mergeAndPromote table s = .ok n s') :
    ∃ versions columns rows, Promotable table versions columns rows s.database := by
  obtain ⟨mid, h, -⟩ := Task.of_transaction_ok h
  obtain ⟨added, s₁, hmerge, h⟩ := of_bind_ok h
  obtain ⟨_, s₂, hpromote, -⟩ := of_bind_ok h
  obtain ⟨hhistory, hdialect, ⟨versions, hversions⟩, columns, rows, hloading⟩ := of_merge hmerge
  unfold History.promote at hpromote
  obtain ⟨_, s₃, -, h⟩ := of_bind_ok hpromote
  obtain ⟨_, s₄, hrename, -⟩ := of_bind_ok h
  obtain ⟨_, hrename⟩ := of_discard_ok hrename
  exact ⟨versions, columns, rows, hhistory, of_rename (Task.of_execute_ok hrename), hdialect, hversions, hloading⟩

/-- **Merging and promoting**: the history grows by what the rows add, and the loading table is the live table. -/
theorem mergeAndPromote_ok (h : Promotable table versions columns rows s.database) :
    ∃ s', History.mergeAndPromote table s =
        .ok (added ⟨columns, rows, s.database.now⟩ versions).length s' ∧
      s'.database.find? (TableName.history table) =
        some (.history (versions ++ added ⟨columns, rows, s.database.now⟩ versions)) ∧
      s'.database.find? table = some (.snapshot columns rows) ∧ s'.database.dialect = .sqlite := by
  let snap : Snapshot := ⟨columns, rows, s.database.now⟩
  have hfound : s.database.find? (TableName.loading table) = some (.snapshot snap.columns snap.rows) := h.loading
  obtain ⟨s₁, hmerge, hhistory, hdialect, hothers⟩ := merge_ok h.history h.dialect h.versions hfound rfl
  have hloading : s₁.database.find? (TableName.loading table) = some (.snapshot columns rows) :=
    (hothers _ fold_loading_ne_history fold_latest_ne_loading.symm).trans h.loading
  obtain ⟨s₂, hpromote, hlive, hsame, hkept⟩ := promote_ok h.live hloading
  have hall : (do
      let added ← History.merge table
      History.promote table
      return added) s = .ok (added ⟨columns, rows, s.database.now⟩ versions).length s₂ :=
    (bind_ok hmerge).trans (bind_ok hpromote)
  refine ⟨{ s₂ with database := s₂.database.commit }, ?_, ?_, hlive, hsame.trans hdialect⟩
  · unfold History.mergeAndPromote Task.transaction
    rw [show ({ s with database := Database.start s.database } : Session Warehouse) = s from rfl, hall]
    rfl
  · exact (hkept _ (fold_history_ne table) fold_loading_ne_history.symm).trans hhistory

/-- A merge asks for no key. -/
theorem keys_mergeAndPromote (h : History.mergeAndPromote table s = .ok n s') : s'.keys = s.keys := by
  have hclosed : Task.Closed (σ := Warehouse)
      (fun _ x => Ends (·.keys = s.keys) x (fun _ s' => s'.keys = s.keys) fun _ => True) (fun _ => True)
      fun _ => True := {
    pure := fun _ => ends_pure fun _ h => h
    bind := fun hx hf => hx.bind hf
    throw := fun _ => ends_throw trivial
    log := fun _ _ h => h
    execute := fun {st} _ s' hs' => by
      unfold Task.execute
      cases Database.execute st s'.database with
      | ok n w => exact hs'
      | error err w => trivial }
  have hends : Ends (fun s' : Session Warehouse => s'.keys = s.keys) (do
      let added ← History.merge table
      History.promote table
      return added) (fun _ s' => s'.keys = s.keys) fun _ => True :=
    hclosed.bind (hclosed.merge fun _ _ => trivial) fun added =>
      hclosed.bind (hclosed.promote trivial trivial) fun _ => hclosed.pure added
  obtain ⟨mid, hmid, rfl⟩ := Task.of_transaction_ok h
  have hmid := hends.of_ok rfl hmid
  exact hmid

end SnapshotStaging
