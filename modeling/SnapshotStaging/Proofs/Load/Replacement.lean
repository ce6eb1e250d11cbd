import Mathlib.Data.List.Dedup
import SnapshotStaging.Proofs.Key.Seen
import SnapshotStaging.Proofs.Load.Rows
import SnapshotStaging.Proofs.Tables
import SnapshotStaging.Staging

/-!
# Later duplicates win

The rows that wait in the buffer and the rows of the loading table make one list: the rows of the records
that no later record with the same identifier follows (`lastOnes`), in order. `Holds` says so of an
encoder and its loading table, with the bitmap, the identifiers of the buffer and the counts in step; it
holds between any two statements, wherever the threshold makes the buffer send its rows.

Main results: `write_spec`, what one record changes, and `load_spec`, what is there after all of them.
-/

namespace SnapshotStaging

/-! ## Last occurrences -/

section

variable {α β : Type} [DecidableEq β] {f : α → β}

/-- The items that no later item of the same name follows. -/
def lastOnes (f : α → β) : List α → List α
  | [] => []
  | a :: rest => if f a ∈ rest.map f then lastOnes f rest else a :: lastOnes f rest

/-- One item is left of every name. -/
theorem map_lastOnes (f : α → β) (l : List α) : (lastOnes f l).map f = (l.map f).dedup := by
  induction l with
  | nil => rfl
  | cons a rest ih =>
    rw [lastOnes, List.map_cons]
    by_cases ha : f a ∈ rest.map f
    · rw [if_pos ha, List.dedup_cons_of_mem ha, ih]
    · rw [if_neg ha, List.dedup_cons_of_notMem ha, List.map_cons, ih]

theorem mem_of_mem_lastOnes {a : α} {l : List α} (h : a ∈ lastOnes f l) : a ∈ l := by
  induction l with
  | nil => exact h
  | cons b rest ih =>
    rw [lastOnes] at h
    split at h
    · exact List.mem_cons_of_mem _ (ih h)
    · exact (List.mem_cons.1 h).elim (fun hab => hab ▸ List.mem_cons_self ..)
        fun h => List.mem_cons_of_mem _ (ih h)

theorem nodup_map_lastOnes (f : α → β) (l : List α) : ((lastOnes f l).map f).Nodup :=
  map_lastOnes f l ▸ List.nodup_dedup _

/-- A further item takes the place of the one of its name. -/
theorem lastOnes_append_singleton (f : α → β) (l : List α) (a : α) :
    lastOnes f (l ++ [a]) = (lastOnes f l).filter (f · ≠ f a) ++ [a] := by
  induction l with
  | nil => simp [lastOnes]
  | cons b rest ih =>
    have hmem : f b ∈ (rest ++ [a]).map f ↔ f b ∈ rest.map f ∨ f b = f a := by simp
    rw [List.cons_append, lastOnes, lastOnes]
    by_cases hb : f b ∈ rest.map f
    · rw [if_pos (hmem.2 (.inl hb)), if_pos hb, ih]
    · rw [if_neg hb]
      by_cases hab : f b = f a
      · rw [if_pos (hmem.2 (.inr hab)), ih, List.filter_cons_of_neg (by simp [hab])]
      · rw [if_neg fun h => (hmem.1 h).elim hb hab, ih, List.filter_cons_of_pos (by simp [hab]),
          List.cons_append]

theorem filter_lastOnes_of_notMem {l : List α} {b : β} (h : b ∉ l.map f) :
    (lastOnes f l).filter (f · ≠ b) = lastOnes f l := by
  rw [List.filter_eq_self]
  intro a ha
  have hne : f a ≠ b := fun hab => h (hab ▸ List.mem_map_of_mem (mem_of_mem_lastOnes ha))
  simpa using hne

theorem length_filter_lastOnes_of_mem {l : List α} {b : β} (h : b ∈ l.map f) :
    ((lastOnes f l).filter (f · ≠ b)).length + 1 = (lastOnes f l).length := by
  have hnodup := nodup_map_lastOnes f l
  have hmem : b ∈ (lastOnes f l).map f := by rwa [map_lastOnes, List.mem_dedup]
  have herase : ((lastOnes f l).filter (f · ≠ b)).map f = ((lastOnes f l).map f).erase b := by
    rw [hnodup.erase_eq_filter, List.filter_map]
    refine congrArg (List.map f) (congrArg (List.filter · _) (funext fun a => ?_))
    rw [Function.comp_apply, bne, decide_not, beq_eq_decide]
  have hpos := List.length_pos_of_mem hmem
  have hlength := congrArg List.length herase
  rw [List.length_erase_of_mem hmem, List.length_map, List.length_map] at hlength
  rw [List.length_map] at hpos
  omega

theorem length_lastOnes_le (f : α → β) (l : List α) : (lastOnes f l).length ≤ l.length := by
  have hle := (List.dedup_sublist (l.map f)).length_le
  rwa [← map_lastOnes, List.length_map, List.length_map] at hle

end

namespace Encoder

/-! ## Records and their rows -/

/-- Whether a record has an identifier. -/
def Identified (record : Json) : Prop := ∃ v, record.member? idField = some v ∧ v ≠ .null

/-- The identifier of a record that has one. -/
def idOf (record : Json) : String := valueText ((record.member? idField).getD .null)

theorem identifier_eq {record : Json} (h : Identified record) (table : String) :
    identifier table record = .ok (idOf record) := by
  obtain ⟨v, hv, hnull⟩ := h
  cases record with
  | obj members =>
    rw [idOf, hv, Option.getD_some]
    cases v with
    | null => exact absurd rfl hnull
    | _ => simp only [identifier, Json.asRecord, bind, Except.bind, hv]
  | _ => cases hv

/-- The key of a record's identifier. -/
def keyOf (M : MemoryKeys) (table : String) (record : Json) : Nat := M.key table (idOf record)

/-- The calls for keys that writing a record brings about. -/
def requests (table : String) (columns : List Column) (record : Json) : List (String × String) :=
  (table, idOf record) :: references columns record

/-- The row of a record under its own key. -/
def row? (e₀ : Encoder) (M : MemoryKeys) (record : Json) : Option Row :=
  rowOf e₀ M record (idOf record) (keyOf M e₀.table record)

/-- `row` gives the rows of records. -/
structure Encodes (e₀ : Encoder) (M : MemoryKeys) (row : Json → Row) : Prop where
  sk : ∀ d, (row d).sk = keyOf M e₀.table d
  id : ∀ d, (row d).id = idOf d
  width : ∀ d, (row d).literals.length = (Warehouse.columnNames e₀.columns).length
  yields : ∀ d, Yields e₀ M (encode d (idOf d) (keyOf M e₀.table d)) (references e₀.columns d) (row d)

theorem exists_encodes (e₀ : Encoder) (M : MemoryKeys) : ∃ row, Encodes e₀ M row := by
  have h (d : Json) := encode_spec e₀ M d (idOf d) (keyOf M e₀.table d)
  choose row hsk hid hwidth hyields using h
  exact ⟨row, hsk, hid, hwidth, hyields⟩

/-- All records have keys, and no two identifiers have the same. -/
structure Keyed (M : MemoryKeys) (table : String) (records : List Json) : Prop where
  dense : M.Dense
  known : ∀ d ∈ records, ∃ n, Assignment.lookup table (idOf d) M.rows = some n

variable {e₀ : Encoder} {M : MemoryKeys} {row : Json → Row} {kept met : List Json} {record : Json}
  {n k : Nat} {e : Encoder} {r : Option Relation}

theorem Keyed.id_eq {table : String} {records : List Json} (h : Keyed M table records) {d d' : Json}
    (hd : d ∈ records) (hd' : d' ∈ records) (heq : keyOf M table d = keyOf M table d') :
    idOf d = idOf d' := by
  obtain ⟨a, ha⟩ := h.known d hd
  obtain ⟨b, hb⟩ := h.known d' hd'
  rw [keyOf, keyOf, MemoryKeys.key, MemoryKeys.key, ha, hb] at heq
  obtain rfl : a = b := heq
  exact h.dense.inj ha hb

theorem Keyed.of_subset {table : String} {records others : List Json} (h : Keyed M table records)
    (hsub : others ⊆ records) : Keyed M table others :=
  ⟨h.dense, fun d hd => h.known d (hsub hd)⟩

/-- The rows of records with different identifiers may stand in one table. -/
theorem Encodes.pairwise_distinct (hrow : Encodes e₀ M row) (hkeyed : Keyed M e₀.table kept)
    (hkept : (kept.map idOf).Nodup) : (kept.map row).Pairwise Warehouse.Distinct := by
  rw [List.Nodup, List.pairwise_map] at hkept
  rw [List.pairwise_map]
  refine hkept.imp_of_mem fun {d d'} hd hd' hne => ⟨fun hsk => hne ?_, fun hid => hne ?_⟩
  · rw [hrow.sk, hrow.sk] at hsk
    exact hkeyed.id_eq hd hd' (Int.ofNat_inj.1 hsk)
  · rwa [hrow.id, hrow.id] at hid

/-! ## The buffer and the table -/

/-- The rows of `kept` are those of the loading table and of the buffer, the keys of `met` are marked, `n`
records were written and `k` replaced. -/
structure Holds (e₀ : Encoder) (M : MemoryKeys) (row : Json → Row) (kept met : List Json) (n k : Nat)
    (e : Encoder) (r : Option Relation) : Prop where
  alike : Alike e₀ e
  table : e.table = e₀.table
  stored : ∃ sent, r = some (.snapshot e₀.columns sent) ∧ sent ++ e.buffer.waiting = kept.map row
  ids : e.buffer.ids = e.buffer.pending.map (·.id)
  marked : ∀ key, e.seen.contains key = true ↔ ∃ d ∈ met, keyOf M e₀.table d = key
  written : e.written = n
  replaced : e.replaced = k

theorem Holds.start (table : String) (columns : List Column) (dialect : Dialect)
    (tenant limit threshold : Int) (h : Alike e₀ (start table columns dialect tenant limit threshold))
    (htable : table = e₀.table) :
    Holds e₀ M row [] [] 0 0 (start table columns dialect tenant limit threshold)
      (some (.snapshot e₀.columns [])) where
  alike := h
  table := htable
  stored := ⟨[], rfl, rfl⟩
  ids := rfl
  marked key := by simp [Encoder.start, SeenKeys.contains_empty]
  written := rfl
  replaced := rfl

/-- Sending the rows that wait moves them to the table. -/
theorem send_spec (hrow : Encodes e₀ M row) (hkeyed : Keyed M e₀.table kept)
    (hkept : (kept.map idOf).Nodup) {s : Session Warehouse}
    (h : Holds e₀ M row kept met n k e (s.database.find? (TableName.loading e₀.table))) :
    ∃ s', send e₀.table e.buffer.waiting s = .ok () s' ∧ s.SameKeys s' ∧
      s'.database.find? (TableName.loading e₀.table) = some (.snapshot e₀.columns (kept.map row)) := by
  obtain ⟨sent, hfound, hrows⟩ := h.stored
  have hwidth : ∀ x ∈ e.buffer.waiting, x.literals.length = (Warehouse.columnNames e₀.columns).length := by
    intro x hx
    obtain ⟨d, -, rfl⟩ := List.mem_map.1 (hrows ▸ List.mem_append_right sent hx)
    exact hrow.width d
  have hdistinct := hrow.pairwise_distinct hkeyed hkept
  rw [← hrows] at hdistinct ⊢
  have hexecute (log : List Log.Entry) := Task.execute_ok (s := { s with log := log })
    (Warehouse.execute_insert hfound hwidth hdistinct)
  exact ⟨_, discard_ok (hexecute _), ⟨rfl, rfl, rfl⟩, Warehouse.find?_put _ _ rfl⟩

/-- The table holds all rows and none waits. -/
theorem Holds.sent (h : Holds e₀ M row kept met n k e r) :
    Holds e₀ M row kept met n k { e with buffer := e.buffer.sent }
      (some (.snapshot e₀.columns (kept.map row))) where
  alike := h.alike
  table := h.table
  stored := ⟨kept.map row, rfl, List.append_nil _⟩
  ids := rfl
  marked := h.marked
  written := h.written
  replaced := h.replaced

/-- The row of one more record waits. -/
theorem Holds.push (hrow : Encodes e₀ M row) (h : Holds e₀ M row kept met n k e r) (length : Nat) :
    Holds e₀ M row (kept ++ [record]) met n k
      { e with buffer := e.buffer.push (row record) length (some (idOf record)) } r where
  alike := h.alike
  table := h.table
  stored := by
    obtain ⟨sent, hfound, hrows⟩ := h.stored
    refine ⟨sent, hfound, ?_⟩
    rw [InsertBuffer.waiting, InsertBuffer.push, List.reverse_cons, ← List.append_assoc, List.map_append,
      ← hrows]
    rfl
  ids := by
    show idOf record :: e.buffer.ids = (row record).id :: e.buffer.pending.map (·.id)
    rw [h.ids, hrow.id]
  marked := h.marked
  written := h.written
  replaced := h.replaced

theorem flush_ok (hrow : Encodes e₀ M row) (hkeyed : Keyed M e₀.table kept)
    (hkept : (kept.map idOf).Nodup) {s : Session Warehouse}
    (h : Holds e₀ M row kept met n k e (s.database.find? (TableName.loading e₀.table))) :
    ∃ b e' s', onBuffer (InsertBuffer.flush (send e₀.table)) (e, s) = .ok b (e', s') ∧ s.SameKeys s' ∧
      Holds e₀ M row kept met n k e' (s'.database.find? (TableName.loading e₀.table)) ∧
      e'.buffer.pending = [] := by
  by_cases hnone : e.buffer.pending = []
  · refine ⟨false, e, s, ?_, .refl s, h, hnone⟩
    simp only [onBuffer, InsertBuffer.flush, hnone, List.isEmpty_nil, if_true]
  · obtain ⟨s', hsend, hsame, hfound⟩ := send_spec hrow hkeyed hkept h
    refine ⟨true, _, s', ?_, hsame, hfound ▸ h.sent, rfl⟩
    simp only [onBuffer, InsertBuffer.flush, List.isEmpty_iff, hnone, if_false, hsend]

/-- Sending what waits changes no row. -/
theorem flush_spec (hrow : Encodes e₀ M row) (hkeyed : Keyed M e₀.table kept)
    (hkept : (kept.map idOf).Nodup) :
    Meets (TableName.loading e₀.table) M flush [] (Holds e₀ M row kept met n k)
      fun _ e r => Holds e₀ M row kept met n k e r ∧ e.buffer.pending = [] := by
  unfold flush
  refine Meets.own ?_
  intro e r hP
  rw [hP.table]
  refine meets_quiet ?_
  intro e s h
  obtain ⟨b, e', s', heq, hsame, hholds⟩ := flush_ok hrow hkeyed hkept h
  exact ⟨(), e', s', discard_ok heq, hsame, hholds⟩

/-- A row that is added waits or is sent with the others. -/
theorem add_spec (hrow : Encodes e₀ M row) (hkeyed : Keyed M e₀.table (kept ++ [record]))
    (hkept : ((kept ++ [record]).map idOf).Nodup) (length : Nat) :
    Meets (TableName.loading e₀.table) M
      (onBuffer (InsertBuffer.add (send e₀.table) (row record) length (some (idOf record)))) []
      (Holds e₀ M row kept met n k) fun _ => Holds e₀ M row (kept ++ [record]) met n k := by
  refine meets_quiet ?_
  intro e s h
  have hpush : Holds e₀ M row (kept ++ [record]) met n k _ _ := h.push hrow length
  by_cases hfull : (e.buffer.push (row record) length (some (idOf record))).full = true
  · obtain ⟨b, e', s', heq, hsame, hholds, -⟩ := flush_ok hrow hkeyed hkept hpush
    refine ⟨(), e', s', ?_, hsame, hholds⟩
    simp only [onBuffer, InsertBuffer.add, hfull, if_true] at heq ⊢
    split at heq
    · next hflush =>
      rw [hflush]
      cases heq
      rfl
    · cases heq
  · refine ⟨(), _, s, ?_, .refl s, hpush⟩
    simp only [onBuffer, InsertBuffer.add, hfull]
    rfl

/-! ## One record -/

/-- The key of a record is marked, and it is told whether it was marked before. -/
theorem markSeen_spec (name : String) :
    Meets name M (markSeen (keyOf M e₀.table record)) [] (Holds e₀ M row kept met n k) fun before e r =>
      (before = true ↔ ∃ d ∈ met, keyOf M e₀.table d = keyOf M e₀.table record) ∧
        Holds e₀ M row kept (met ++ [record]) n k e r := by
  refine meets_local ?_
  intro e s h
  refine ⟨(e.seen.add (keyOf M e₀.table record)).2, { e with seen := (e.seen.add (keyOf M e₀.table record)).1 }, s.log,
    rfl, by rw [SeenKeys.add_snd, h.marked], { h with marked := fun key => ?_ }⟩
  show (e.seen.add (keyOf M e₀.table record)).1.contains key = true ↔ _
  rw [SeenKeys.contains_add, Bool.or_eq_true, decide_eq_true_iff, h.marked]
  simp [or_and_right, exists_or, or_comm]

/-- Deleting a key takes back the row of its identifier, when no row of it waits. -/
theorem delete_spec (hrow : Encodes e₀ M row) (hkeyed : Keyed M e₀.table (kept ++ [record])) :
    Meets (TableName.loading e₀.table) M
      (discard (Pass.onSession (Task.execute (.deleteKey e₀.table (keyOf M e₀.table record))))) []
      (fun e r => Holds e₀ M row kept met n k e r ∧ ∀ x ∈ e.buffer.pending, x.id ≠ idOf record)
      fun _ => Holds e₀ M row (kept.filter fun d => idOf d ≠ idOf record) met n k := by
  refine meets_quiet ?_
  intro e s h
  obtain ⟨h, hwaits⟩ := h
  obtain ⟨sent, hfound, hrows⟩ := h.stored
  obtain ⟨count, hdelete⟩ := Warehouse.execute_deleteKey hfound (keyOf M e₀.table record)
  -- among the rows of `kept` the key tells the identifier
  have hkey (d : Json) (hd : d ∈ kept) :
      (row d).sk ≠ keyOf M e₀.table record ↔ idOf d ≠ idOf record := by
    rw [hrow.sk, not_iff_not, Int.ofNat_inj]
    refine ⟨hkeyed.id_eq (List.mem_append_left _ hd) (by simp), ?_⟩
    intro heq
    rw [keyOf, keyOf, heq]
  have hwaiting : e.buffer.waiting.filter (fun x : Row => x.sk ≠ keyOf M e₀.table record) =
      e.buffer.waiting := by
    rw [List.filter_eq_self]
    intro x hx
    obtain ⟨d, hd, rfl⟩ := List.mem_map.1 (hrows ▸ List.mem_append_right sent hx)
    have hid := hwaits _ (List.mem_reverse.1 hx)
    rw [hrow.id] at hid
    exact decide_eq_true ((hkey d hd).2 hid)
  refine ⟨(), e, _, discard_ok (Pass.onSession_ok (Task.execute_ok hdelete) e), ⟨rfl, rfl, rfl⟩,
    { h with stored := ⟨_, Warehouse.find?_put _ _ rfl, ?_⟩ }⟩
  calc sent.filter (fun x : Row => x.sk ≠ keyOf M e₀.table record) ++ e.buffer.waiting
      = (sent ++ e.buffer.waiting).filter fun x : Row => x.sk ≠ keyOf M e₀.table record := by
        rw [List.filter_append, hwaiting]
    _ = (kept.filter fun d => (row d).sk ≠ keyOf M e₀.table record).map row := by
        rw [hrows, List.filter_map]
        rfl
    _ = (kept.filter fun d => idOf d ≠ idOf record).map row := by
        rw [List.filter_congr fun d hd => decide_eq_decide.2 (hkey d hd)]

/-- Taking back the row of an identifier. -/
theorem replaceEarlier_spec (hrow : Encodes e₀ M row) (hkeyed : Keyed M e₀.table (kept ++ [record]))
    (hkept : (kept.map idOf).Nodup) :
    Meets (TableName.loading e₀.table) M (replaceEarlier (idOf record) (keyOf M e₀.table record)) []
      (Holds e₀ M row kept met n k)
      fun _ => Holds e₀ M row (kept.filter fun d => idOf d ≠ idOf record) met n (k + 1) := by
  have hkeyed' : Keyed M e₀.table kept := hkeyed.of_subset (List.subset_append_left _ _)
  unfold replaceEarlier
  refine meets_own.then fun e₁ => Meets.assuming (fun e r h => h.1 ▸ h.2.table) fun htable => ?_
  dsimp only
  rw [htable]
  have hrest : Meets (TableName.loading e₀.table) M (do
      discard (Pass.onSession (Task.execute (.deleteKey e₀.table (keyOf M e₀.table record))))
      Pass.update fun e => { e with replaced := e.replaced + 1 }
      Pass.onSession (Task.note .debug
        s!"Record replaced by later occurrence: {e₀.table}: id {idOf record}")) []
      (fun e r => Holds e₀ M row kept met n k e r ∧ ∀ x ∈ e.buffer.pending, x.id ≠ idOf record)
      fun _ => Holds e₀ M row (kept.filter fun d => idOf d ≠ idOf record) met n (k + 1) := by
    refine (delete_spec hrow hkeyed).then fun _ => Meets.then ?_ fun _ => meets_note _ _
    exact meets_update _ _ fun e r h => { h with replaced := congrArg (· + 1) h.replaced }
  by_cases hwaits : e₁.buffer.holds (idOf record) = true
  · rw [if_pos hwaits]
    refine Meets.then ?_ fun _ => hrest
    exact (flush_spec hrow hkeyed' hkept).mono (fun _ _ h => h.2) fun _ e r h => ⟨h.1, by simp [h.2]⟩
  · rw [if_neg hwaits]
    refine hrest.mono ?_ fun _ _ _ h => h
    rintro _ r ⟨rfl, h⟩
    refine ⟨h, fun x hx hid => hwaits ?_⟩
    rw [InsertBuffer.holds, h.ids, List.contains_iff_mem, ← hid]
    exact List.mem_map_of_mem hx

/-- Encoding a record and adding its row. -/
theorem append_spec (hrow : Encodes e₀ M row) (hkeyed : Keyed M e₀.table (kept ++ [record]))
    (hkept : ((kept ++ [record]).map idOf).Nodup) (dialect : Dialect) :
    Meets (TableName.loading e₀.table) M (do
        let x ← encode record (idOf record) (keyOf M e₀.table record)
        onBuffer (InsertBuffer.add (send e₀.table) x (x.sql dialect).length (some (idOf record)))
        Pass.update fun e => { e with written := e.written + 1 })
      (references e₀.columns record) (Holds e₀ M row kept met n k)
      fun _ => Holds e₀ M row (kept ++ [record]) met (n + 1) k := by
  rw [← List.append_nil (references e₀.columns record)]
  have hencode := hrow.yields record (TableName.loading e₀.table) (Holds e₀ M row kept met n k)
    (fun _ _ h => h.alike)
    fun _ _ h => ⟨h.alike, h.table, h.stored, h.ids, h.marked, h.written, h.replaced⟩
  refine hencode.bind fun x => Meets.of_and fun hx => ?_
  rw [hx]
  refine (add_spec hrow hkeyed hkept _).then ?_
  intro _
  exact meets_update _ _ fun e r h => { h with written := congrArg (· + 1) h.written }

/-- The encoder and its loading table after the records of `done`: the last one of every identifier is
kept, and all others were replaced. -/
def Wrote (e₀ : Encoder) (M : MemoryKeys) (row : Json → Row) (done : List Json) :
    Encoder → Option Relation → Prop :=
  Holds e₀ M row (lastOnes idOf done) done done.length (done.length - (lastOnes idOf done).length)

/-- Writing one more record. -/
theorem write_spec (hrow : Encodes e₀ M row) {done : List Json}
    (hkeyed : Keyed M e₀.table (done ++ [record])) (hid : Identified record) :
    Meets (TableName.loading e₀.table) M (write record) (requests e₀.table e₀.columns record)
      (Wrote e₀ M row done) fun _ => Wrote e₀ M row (done ++ [record]) := by
  have hlast := lastOnes_append_singleton idOf done record
  have hkeyed' : Keyed M e₀.table ((lastOnes idOf done).filter (idOf · ≠ idOf record) ++ [record]) :=
    hlast ▸ hkeyed.of_subset fun _ => mem_of_mem_lastOnes
  have hsub : lastOnes idOf done ++ [record] ⊆ done ++ [record] :=
    List.append_subset.2
      ⟨fun _ hd => List.mem_append_left _ (mem_of_mem_lastOnes hd), List.subset_append_right ..⟩
  have hkept := nodup_map_lastOnes idOf (done ++ [record])
  rw [hlast] at hkept
  unfold write Wrote
  refine Meets.own ?_
  intro e₁ r h
  rw [h.table, identifier_eq hid]
  simp only [pure_bind]
  refine Meets.bind (meets_resolve _ _) fun sk => Meets.of_and fun hsk => ?_
  rw [hsk]
  refine (markSeen_spec _).then fun before => Meets.of_and fun hbefore => ?_
  have hmem : before = true ↔ idOf record ∈ done.map idOf := by
    rw [hbefore, List.mem_map]
    refine exists_congr fun d => and_congr_right fun hd => ⟨?_, fun heq => by rw [keyOf, keyOf, heq]⟩
    exact hkeyed.id_eq (List.mem_append_left _ hd) (by simp)
  have hle := length_lastOnes_le idOf done
  rw [hlast, List.length_append, List.length_append, List.length_singleton]
  by_cases hseen : before = true
  · have hlength := length_filter_lastOnes_of_mem (hmem.1 hseen)
    have hcount : done.length + 1 - (((lastOnes idOf done).filter (idOf · ≠ idOf record)).length + 1) =
        done.length - (lastOnes idOf done).length + 1 := by omega
    rw [if_pos hseen, hcount]
    exact (replaceEarlier_spec hrow (hkeyed.of_subset hsub) (nodup_map_lastOnes _ _)).then fun _ =>
      append_spec hrow hkeyed' hkept _
  · have hsame := filter_lastOnes_of_notMem fun h => hseen (hmem.2 h)
    rw [if_neg hseen]
    rw [hsame] at hkeyed' hkept ⊢
    rw [Nat.add_sub_add_right]
    exact append_spec hrow hkeyed' hkept _

/-! ## All records -/

/-- Writing records in turn. -/
theorem writeAll_spec (hrow : Encodes e₀ M row) (rules : Option Redaction.Rules) (records : List Json)
    (done : List Json) (hkeyed : Keyed M e₀.table (done ++ records.map (Staging.redacted rules)))
    (hid : ∀ d ∈ records.map (Staging.redacted rules), Identified d) :
    Meets (TableName.loading e₀.table) M (Staging.writeAll rules records)
      ((records.map (Staging.redacted rules)).flatMap (requests e₀.table e₀.columns)) (Wrote e₀ M row done)
      fun _ => Wrote e₀ M row (done ++ records.map (Staging.redacted rules)) := by
  induction records generalizing done with
  | nil =>
    refine meets_pure () ?_
    intro e r h
    rwa [List.map_nil, List.append_nil]
  | cons record records ih =>
    rw [List.map_cons, List.append_cons] at hkeyed
    have hfirst := write_spec hrow (hkeyed.of_subset (List.subset_append_left _ _))
      (hid _ (List.mem_cons_self ..))
    have hrest := ih (done ++ [Staging.redacted rules record]) hkeyed fun d hd =>
      hid d (List.mem_cons_of_mem _ hd)
    rw [List.append_assoc, List.singleton_append] at hrest
    exact hfirst.bind fun _ => hrest

theorem keyed_after {m : MemoryKeys} (hm : m.Dense) (table : String) (columns : List Column)
    (records : List Json) :
    Keyed (m.after (records.flatMap (requests table columns))) table records :=
  ⟨hm.after _, fun d hd => MemoryKeys.exists_lookup_after
    (List.mem_flatMap.2 ⟨d, hd, List.mem_cons_self ..⟩)⟩

end Encoder

end SnapshotStaging
