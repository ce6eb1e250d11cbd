import Mathlib.Data.List.Destutter
import SnapshotStaging.Warehouse

/-!
# The law of a history

The versions of one record of one tenant, in the order of the history, have the payloads that the
snapshots offered for it, without those that repeat the one before (`Lawful`). The query for latest
versions finds the last of them, since times increase, and the join adds at most one more.

Main results: `ofRecord_latestOf`, the latest version of a record, `changes_eq`, the versions that a row
adds, and `Lawful.append`: what a merge adds keeps the law.
-/

namespace SnapshotStaging

/-! ## Repeats -/

section

variable {α : Type} [DecidableEq α]

theorem destutter'_concat (l : List α) (a b : α) : (l ++ [a]).destutter' (· ≠ ·) b =
    if (l.destutter' (· ≠ ·) b).getLast? = some a then l.destutter' (· ≠ ·) b
    else l.destutter' (· ≠ ·) b ++ [a] := by
  induction l generalizing b with
  | nil => by_cases hab : b = a <;> simp [hab]
  | cons c l ih =>
    by_cases hbc : b = c
    · have hrepeat : ¬ b ≠ c := by simpa using hbc
      rw [List.cons_append, List.destutter'_cons_neg _ hrepeat, List.destutter'_cons_neg _ hrepeat, ih]
    · rw [List.cons_append, List.destutter'_cons_pos _ hbc, List.destutter'_cons_pos _ hbc, ih,
        List.getLast?_cons_of_ne_nil (List.destutter'_ne_nil l _), List.cons_append]
      split <;> rfl

/-- A further item is kept unless it is the one that was kept last. -/
theorem destutter_concat (l : List α) (a : α) : (l ++ [a]).destutter (· ≠ ·) =
    if (l.destutter (· ≠ ·)).getLast? = some a then l.destutter (· ≠ ·)
    else l.destutter (· ≠ ·) ++ [a] := by
  cases l with
  | nil => rfl
  | cons b l => exact destutter'_concat l a b

end

/-! ## Snapshots -/

/-- What is in the loading table when a merge begins, and the time of the merge. -/
structure Snapshot where
  columns : List Column
  rows : List Row
  time : String

/-- The rows of a record of a tenant. -/
def Snapshot.rowsOf (snap : Snapshot) (tenant : Int) (id : String) : List Row :=
  snap.rows.filter fun r => r.tenant = tenant && r.id = id

/-- The payloads of a record of a tenant in snapshots in turn; those without one are passed over. -/
def offered (tenant : Int) (id : String) (snaps : List Snapshot) : List String :=
  snaps.flatMap fun snap => (snap.rowsOf tenant id).filterMap (·.data)

/-- The versions of a record of a tenant. -/
def ofRecord (tenant : Int) (id : String) (versions : List Version) : List Version :=
  versions.filter fun v => v.tenant = tenant && v.id = id

/-- A history that is made of snapshots. -/
structure Lawful (snaps : List Snapshot) (versions : List Version) : Prop where
  payloads : ∀ tenant id, (ofRecord tenant id versions).map (·.data) =
    ((offered tenant id snaps).destutter (· ≠ ·)).map some
  ordered : ∀ tenant id, (ofRecord tenant id versions).Pairwise (·.updated < ·.updated)
  dated : ∀ v ∈ versions, ∃ snap ∈ snaps, v.updated = snap.time

theorem lawful_nil : Lawful [] [] := ⟨fun _ _ => rfl, fun _ _ => .nil, nofun⟩

variable {snap : Snapshot} {snaps : List Snapshot} {versions : List Version} {tenant : Int} {id now : String}

theorem mem_ofRecord {v : Version} :
    v ∈ ofRecord tenant id versions ↔ v ∈ versions ∧ v.tenant = tenant ∧ v.id = id := by
  simp [ofRecord]

/-- Among identifiers that are not repeated a record has one row at most. -/
theorem Snapshot.rowsOf_cases (hids : (snap.rows.map (·.id)).Nodup) (tenant : Int) (id : String) :
    snap.rowsOf tenant id = [] ∨ ∃ r, snap.rowsOf tenant id = [r] ∧ r.tenant = tenant ∧ r.id = id := by
  have hmem (r : Row) (hr : r ∈ snap.rowsOf tenant id) : r.tenant = tenant ∧ r.id = id := by
    simpa [rowsOf] using (List.mem_filter.1 hr).2
  have hnodup : ((snap.rowsOf tenant id).map (·.id)).Nodup := hids.sublist (List.filter_sublist.map _)
  match hrows : snap.rowsOf tenant id with
  | [] => exact .inl rfl
  | [r] => exact .inr ⟨r, rfl, hmem r (hrows ▸ List.mem_singleton_self r)⟩
  | a :: b :: rest =>
    rw [hrows] at hmem hnodup
    have ha := hmem a (by simp)
    have hb := hmem b (by simp)
    simp [ha.2, hb.2] at hnodup

/-- No version of a history that is made of snapshots is without payload. -/
theorem Lawful.data_ne_none (h : Lawful snaps versions) {v : Version} (hv : v ∈ versions) : v.data ≠ none := by
  have hmem : v.data ∈ (ofRecord v.tenant v.id versions).map (·.data) :=
    List.mem_map_of_mem (mem_ofRecord.2 ⟨hv, rfl, rfl⟩)
  rw [h.payloads, List.mem_map] at hmem
  obtain ⟨data, -, hdata⟩ := hmem
  rw [← hdata]
  exact Option.some_ne_none data

/-! ## Latest versions -/

namespace Warehouse

theorem filter_latest {l : List Version} (h : l.Pairwise (·.updated < ·.updated)) :
    (l.filter fun v => !l.any fun w => v.updated < w.updated) = l.getLast?.toList := by
  induction l using List.reverseRecOn with
  | nil => rfl
  | append_singleton l a _ =>
    obtain ⟨hl, -, hlast⟩ := List.pairwise_append.1 h
    rw [List.filter_append, List.getLast?_concat, Option.toList_some]
    have hearlier : (l.filter fun v => !(l ++ [a]).any fun w => v.updated < w.updated) = [] := by
      rw [List.filter_eq_nil_iff]
      intro v hv
      have hlater : ((l ++ [a]).any fun w => v.updated < w.updated) = true :=
        List.any_eq_true.2 ⟨a, by simp, decide_eq_true (hlast v hv a (List.mem_singleton_self a))⟩
      rw [hlater]
      decide
    have hlatest : ((l ++ [a]).any fun w => a.updated < w.updated) = false := by
      rw [List.any_eq_false]
      intro w hw
      rw [decide_eq_true_iff]
      rcases List.mem_append.1 hw with hw | hw
      · exact String.lt_asymm (hlast w hw a (List.mem_singleton_self a))
      · rw [List.mem_singleton.1 hw]
        exact String.lt_irrefl _
    rw [hearlier, List.filter_cons_of_pos (by rw [hlatest]; rfl)]
    rfl

/-- Whether a version is the latest is a matter of the versions of its record. -/
theorem ofRecord_latestOf_eq (tenant : Int) (id : String) (versions : List Version) :
    ofRecord tenant id (latestOf versions) = (ofRecord tenant id versions).filter fun v =>
      !(ofRecord tenant id versions).any fun w => v.updated < w.updated := by
  rw [ofRecord, ofRecord, latestOf, List.filter_filter, List.filter_filter]
  refine List.filter_congr ?_
  intro v _
  by_cases hv : v.tenant = tenant ∧ v.id = id
  · obtain ⟨rfl, rfl⟩ := hv
    have hsame (w : Version) : sameRecord v w = (decide (w.tenant = v.tenant) && decide (w.id = v.id)) := by
      simp only [sameRecord, eq_comm]
    simp only [List.any_filter, hsame, decide_true, Bool.and_self, Bool.and_true, Bool.true_and]
  · have hother : (decide (v.tenant = tenant) && decide (v.id = id)) = false := by simpa using hv
    rw [hother, Bool.false_and, Bool.and_false]

/-- Where the times of a record increase its latest version is its last. -/
theorem ofRecord_latestOf (h : (ofRecord tenant id versions).Pairwise (·.updated < ·.updated)) :
    ofRecord tenant id (latestOf versions) = (ofRecord tenant id versions).getLast?.toList := by
  rw [ofRecord_latestOf_eq, filter_latest h]

/-! ## What a merge adds -/

/-- The versions that a merge of a snapshot adds to a history. -/
def added (snap : Snapshot) (versions : List Version) : List Version :=
  snap.rows.flatMap (changes snap.time (latestOf versions))

theorem mem_changes {latest : List Version} {r : Row} {v : Version} (h : v ∈ changes now latest r) :
    v.tenant = r.tenant ∧ v.id = r.id ∧ v.updated = now := by
  unfold changes at h
  cases hdata : r.data with
  | none => simp [hdata] at h
  | some data =>
    rw [hdata] at h
    dsimp only at h
    split at h
    · rw [List.mem_singleton.1 h]
      exact ⟨rfl, rfl, rfl⟩
    · obtain ⟨w, -, rfl⟩ := List.mem_map.1 h
      exact ⟨rfl, rfl, rfl⟩

/-- The versions of a record that a merge adds are those that its row adds. -/
theorem ofRecord_added (snap : Snapshot) (versions : List Version) (tenant : Int) (id : String) :
    ofRecord tenant id (added snap versions) =
      (snap.rowsOf tenant id).flatMap (changes snap.time (latestOf versions)) := by
  rw [added, Snapshot.rowsOf]
  induction snap.rows with
  | nil => rfl
  | cons r rows ih =>
    rw [List.flatMap_cons, ofRecord, List.filter_append, ← ofRecord, ← ofRecord, ih]
    by_cases hr : r.tenant = tenant ∧ r.id = id
    · rw [List.filter_cons_of_pos (by simpa using hr), List.flatMap_cons, ofRecord, List.filter_eq_self.2]
      intro v hv
      simp [mem_changes hv, hr]
    · rw [List.filter_cons_of_neg (by simpa using hr), ofRecord, List.filter_eq_nil_iff.2, List.nil_append]
      intro v hv
      simpa [mem_changes hv] using hr

/-- What a row with a payload adds is a matter of the latest versions of its record. -/
theorem changes_some (now : String) (latest : List Version) {r : Row} {data : String} (hdata : r.data = some data) :
    changes now latest r =
      match ofRecord r.tenant r.id latest with
      | [] => [⟨r.id, some data, now, r.tenant⟩]
      | known => (known.filter fun v => v.data.any (· ≠ data)).map fun _ => ⟨r.id, some data, now, r.tenant⟩ := by
  have hknown : latest.filter (sameRecord ⟨r.id, some data, now, r.tenant⟩) = ofRecord r.tenant r.id latest := by
    refine List.filter_congr ?_
    intro v _
    simp only [sameRecord, eq_comm]
  cases hof : ofRecord r.tenant r.id latest <;> simp only [changes, hdata, hknown, hof]

/-- A row with a payload adds a version unless it repeats the payload that was kept last. -/
theorem changes_eq (h : Lawful snaps versions) (now : String) {r : Row} {data : String}
    (hdata : r.data = some data) :
    changes now (latestOf versions) r =
      if ((offered r.tenant r.id snaps).destutter (· ≠ ·)).getLast? = some data then []
      else [⟨r.id, some data, now, r.tenant⟩] := by
  have hlast := congrArg List.getLast? (h.payloads r.tenant r.id)
  rw [List.getLast?_map, List.getLast?_map] at hlast
  rw [changes_some now _ hdata, ofRecord_latestOf (h.ordered r.tenant r.id)]
  cases hv : (ofRecord r.tenant r.id versions).getLast? with
  | none =>
    rw [hv, Option.map_none, eq_comm, Option.map_eq_none_iff] at hlast
    rw [hlast]
    rfl
  | some v =>
    rw [hv, Option.map_some] at hlast
    obtain ⟨kept, hkept, hv⟩ := Option.map_eq_some_iff.1 hlast.symm
    rw [hkept]
    by_cases hrepeat : kept = data
    · simp [← hv, hrepeat]
    · simp [← hv, hrepeat]

end Warehouse

open Warehouse

theorem offered_append (snaps : List Snapshot) (snap : Snapshot) (tenant : Int) (id : String) :
    offered tenant id (snaps ++ [snap]) =
      offered tenant id snaps ++ (snap.rowsOf tenant id).filterMap (·.data) := by
  rw [offered, List.flatMap_append, List.flatMap_singleton, offered]

/-- What a merge adds of a record is what makes its payloads those that were offered, without repeats. -/
theorem Lawful.ofRecord_added (h : Lawful snaps versions) (hids : (snap.rows.map (·.id)).Nodup)
    (tenant : Int) (id : String) :
    (ofRecord tenant id (added snap versions)).length ≤ 1 ∧
      ((offered tenant id snaps).destutter (· ≠ ·)).map some ++
        (ofRecord tenant id (added snap versions)).map (·.data) =
          ((offered tenant id (snaps ++ [snap])).destutter (· ≠ ·)).map some := by
  rw [Warehouse.ofRecord_added, offered_append]
  rcases snap.rowsOf_cases hids tenant id with hrows | ⟨r, hrows, rfl, rfl⟩
  · simp [hrows]
  · rw [hrows, List.flatMap_singleton, List.filterMap_cons, List.filterMap_nil]
    cases hdata : r.data with
    | none => simp [changes, hdata]
    | some data =>
      rw [changes_eq h _ hdata, destutter_concat]
      split <;> simp

/-- A merge keeps the law. -/
theorem Lawful.append (h : Lawful snaps versions) (hids : (snap.rows.map (·.id)).Nodup)
    (htime : ∀ earlier ∈ snaps, earlier.time < snap.time) :
    Lawful (snaps ++ [snap]) (versions ++ added snap versions) := by
  have hnew {v : Version} (hv : v ∈ added snap versions) : v.updated = snap.time := by
    obtain ⟨r, -, hv⟩ := List.mem_flatMap.1 hv
    exact (mem_changes hv).2.2
  have hof (tenant : Int) (id : String) : ofRecord tenant id (versions ++ added snap versions) =
      ofRecord tenant id versions ++ ofRecord tenant id (added snap versions) := List.filter_append ..
  refine ⟨?_, ?_, ?_⟩
  · intro tenant id
    rw [hof, List.map_append, h.payloads, (h.ofRecord_added hids tenant id).2]
  · intro tenant id
    rw [hof, List.pairwise_append]
    refine ⟨h.ordered tenant id, ?_, ?_⟩
    · have hone := (h.ofRecord_added hids tenant id).1
      match ofRecord tenant id (added snap versions), hone with
      | [], _ => exact .nil
      | [v], _ => exact List.pairwise_singleton ..
    · intro v hv w hw
      obtain ⟨earlier, hearlier, hv⟩ := h.dated v (mem_ofRecord.1 hv).1
      rw [hv, hnew (mem_ofRecord.1 hw).1]
      exact htime earlier hearlier
  · intro v hv
    rcases List.mem_append.1 hv with hv | hv
    · obtain ⟨earlier, hearlier, hv⟩ := h.dated v hv
      exact ⟨earlier, List.mem_append_left _ hearlier, hv⟩
    · exact ⟨snap, by simp, hnew hv⟩

end SnapshotStaging
