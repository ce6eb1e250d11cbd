import SnapshotStaging.Proofs.Field.Selection
import SnapshotStaging.Proofs.Json.Equality
import SnapshotStaging.Proofs.Stage.Pages

/-!
# Columns do not depend on order

The statistics of records hold the fields in the order in which they came, but the columns follow the names of the
fields, and a type is a matter of the values of a field as a collection. So records, pages and members may come in
any order.

Main result `infer_exact`: which columns records call for.
-/

namespace SnapshotStaging

/-- The same records in any order, each with its members in any order. -/
def Rearranged (records records' : List Json) : Prop :=
  ∃ mid, records.Perm mid ∧ List.Forall₂ Json.Reordered mid records'

namespace Statistics

variable {records records' : List Json}

/-! ## The values of a field -/

theorem valuesOf_flatMap (field : String) (records : List Json) :
    valuesOf field (records.flatMap membersOf) = records.flatMap fun r => valuesOf field (membersOf r) := by
  rw [valuesOf, List.filter_flatMap, List.map_flatMap]
  rfl

theorem valuesOf_ne_nil_iff {field : String} : valuesOf field (records.flatMap membersOf) ≠ [] ↔
    ∃ record ∈ records, ∃ v, (field, v) ∈ membersOf record ∧ v.isContainer = false := by
  constructor
  · intro hvalues
    obtain ⟨v, hv⟩ := List.exists_mem_of_ne_nil _ hvalues
    obtain ⟨⟨record, hrecord, hmember⟩, hscalar⟩ := mem_valuesOf.1 hv
    exact ⟨record, hrecord, v, hmember, hscalar⟩
  · rintro ⟨record, hrecord, v, hmember, hscalar⟩
    exact List.ne_nil_of_mem (mem_valuesOf.2 ⟨⟨record, hrecord, hmember⟩, hscalar⟩)

theorem valuesOf_cons (field : String) (m : String × Json) (members : List (String × Json)) :
    valuesOf field (m :: members) =
      if m.1 = field && !m.2.isContainer then m.2 :: valuesOf field members else valuesOf field members := by
  by_cases h : (m.1 = field && !m.2.isContainer) = true <;> simp [valuesOf, h]

theorem valuesOf_reorderedMembers (field : String) {members members' : List (String × Json)}
    (h : Json.ReorderedMembers members members') : valuesOf field members = valuesOf field members' := by
  induction members generalizing members' with
  | nil =>
    cases h
    rfl
  | cons m members ih =>
    cases h with
    | cons name hv hrest =>
      rw [valuesOf_cons, valuesOf_cons, ih hrest]
      cases hv <;> simp [Json.isContainer]

theorem valuesOf_reordered {r r' : Json} (h : r.Reordered r') (field : String) :
    (valuesOf field (membersOf r)).Perm (valuesOf field (membersOf r')) := by
  cases h with
  | scalar => exact .refl _
  | arr => exact .refl _
  | @obj members mid members' h hperm =>
    rw [membersOf, valuesOf_reorderedMembers field h]
    exact (hperm.filter _).map _

/-- Rearranged records have the same values of a field, in another order. -/
theorem valuesOf_rearranged (h : Rearranged records records') (field : String) :
    (valuesOf field (records.flatMap membersOf)).Perm (valuesOf field (records'.flatMap membersOf)) := by
  obtain ⟨mid, hperm, hmid⟩ := h
  rw [valuesOf_flatMap, valuesOf_flatMap]
  refine (hperm.flatMap_right _).trans ?_
  induction hmid generalizing records with
  | nil => exact .refl _
  | cons hfirst _ ih =>
    rw [List.flatMap_cons, List.flatMap_cons]
    exact (valuesOf_reordered hfirst field).append (ih (.refl _))

end Statistics

namespace Counts

/-- The counts of values do not depend on their order. -/
theorem of_perm {vs ws : List Json} (h : vs.Perm ws) : of vs = of ws := by
  simp only [of_eq, h.length_eq, h.countP_eq]

end Counts

namespace Statistics

variable {records records' : List Json} {members members' : List (String × Json)} {s s' : Statistics}

/-! ## The fields in order -/

/-- The same values for every field give the same entries. -/
theorem Tracks.perm {fields fields' : List (String × Counts)} (h : Tracks fields members)
    (h' : Tracks fields' members') (hvalues : ∀ field, (valuesOf field members).Perm (valuesOf field members')) :
    fields.Perm fields' := by
  refine (List.perm_ext_iff_of_nodup h.nodup.of_map h'.nodup.of_map).2 ?_
  rintro ⟨f, c⟩
  rw [h.mem_iff, h'.mem_iff, Counts.of_perm (hvalues f), ne_eq, ne_eq, ← List.perm_nil, ← List.perm_nil,
    (hvalues f).congr_left]

end Statistics

namespace Column

open Statistics

variable {records records' : List Json}

/-! ## The columns of records -/

theorem map_source_infer (select : Counts → String → ColumnType) (s : Statistics) :
    (infer select s).map source = (fieldsOf s).map Prod.fst :=
  map_source_ofFields select reserved (fieldsOf s)

theorem pairwise_source_infer (select : Counts → String → ColumnType) {s : Statistics}
    (hnodup : (s.fields.map Prod.fst).Nodup) : ((infer select s).map source).Pairwise (· < ·) := by
  have hle : ((fieldsOf s).map Prod.fst).Pairwise (· ≤ ·) :=
    List.pairwise_map.2 ((pairwise_sorted s).sublist List.filter_sublist)
  rw [map_source_infer]
  refine (hle.and (nodup_fieldsOf hnodup)).imp ?_
  rintro a b ⟨hab, hne⟩
  exact lt_of_le_of_ne hab hne

/-- There is a column for each field but the identifier that has a scalar value in some record. -/
theorem mem_source_infer (select : Counts → String → ColumnType) (field : String) :
    field ∈ (infer select (.ofRecords records)).map source ↔
      field ≠ idField ∧ ∃ record ∈ records, ∃ v, (field, v) ∈ membersOf record ∧ v.isContainer = false := by
  have htracks := (ofRecords_spec records).2
  rw [map_source_infer, ← valuesOf_ne_nil_iff]
  constructor
  · intro h
    obtain ⟨⟨f, c⟩, hmem, rfl⟩ := List.mem_map.1 h
    obtain ⟨hfield, hid⟩ := mem_fieldsOf.1 hmem
    exact ⟨hid, ((htracks.mem_iff f c).1 hfield).1⟩
  · rintro ⟨hid, hvalues⟩
    exact List.mem_map.2 ⟨(field, _), mem_fieldsOf.2 ⟨(htracks.mem_iff ..).2 ⟨hvalues, rfl⟩, hid⟩, rfl⟩

theorem infer_rearranged (select : Counts → String → ColumnType) (h : Rearranged records records') :
    infer select (.ofRecords records') = infer select (.ofRecords records) := by
  have htracks := (ofRecords_spec records).2
  have hperm := htracks.perm (ofRecords_spec records').2 (valuesOf_rearranged h)
  rw [infer, infer, sorted_eq_of_perm hperm htracks.nodup]

/-- **The columns that records call for**, by name of their fields.

* There is one for each field but the identifier that has a scalar value in some record.
* Its type is the one that the values of its field call for.
* Rearranged records have the same columns, and a first pass over pages finds these columns however the records are
  arranged on them. -/
theorem infer_exact [Platform] (records : List Json) :
    ((infer ColumnType.select (.ofRecords records)).map source).Pairwise (· < ·) ∧
    (∀ field, field ∈ (infer ColumnType.select (.ofRecords records)).map source ↔
      field ≠ idField ∧ ∃ record ∈ records, ∃ v, (field, v) ∈ membersOf record ∧ v.isContainer = false) ∧
    (∀ c ∈ infer ColumnType.select (.ofRecords records),
      c.type = ColumnType.ofValues c.source (valuesOf c.source (records.flatMap membersOf))) ∧
    (∀ records', Rearranged records records' →
      infer ColumnType.select (.ofRecords records') = infer ColumnType.select (.ofRecords records)) ∧
    ∀ {σ : Type} (store : PageStore) (table : String) (count : Nat) (s s' : Session σ)
      (found : Statistics × List Column),
      Rearranged records (Staging.recordsOf table (Staging.pages store table count)) →
      Staging.analyze store table count s = .ok found s' →
      found.2 = infer ColumnType.select (.ofRecords records) := by
  have htracks := (ofRecords_spec records).2
  refine ⟨pairwise_source_infer _ htracks.nodup, mem_source_infer _, ?_, fun _ => infer_rearranged _, ?_⟩
  · intro c hc
    obtain ⟨counts, hcounts, htype⟩ := type_of_mem_ofFields hc
    obtain ⟨-, rfl⟩ := (htracks.mem_iff _ _).1 (mem_fieldsOf.1 hcounts).1
    rw [htype, Counts.select_of]
  · intro σ store table count s s' found h hanalyze
    obtain ⟨-, -, rfl⟩ := (Staging.analyze_ends store table count s).of_ok ⟨rfl, rfl⟩ hanalyze
    exact infer_rearranged _ h

/-- A field of two kinds is text, one of integers and floats numeric; a null, a list and the order of records and
members do not count. -/
theorem infer_exact_mixed :
    let records : List Json :=
      [.obj [("id", .str "1"), ("n", .int 1), ("at", .null), ("tags", .arr []), ("mix", .bool true)],
        .obj [("at", .str "2024-01-01T00:00:00Z"), ("n", .float (.finite false ⟨1, by decide⟩)), ("mix", .int 0)]]
    let records' : List Json :=
      [.obj [("mix", .int 0), ("n", .float (.finite false ⟨1, by decide⟩)), ("at", .str "2024-01-01T00:00:00Z")],
        .obj [("n", .int 1), ("id", .str "1"), ("at", .null), ("tags", .arr []), ("mix", .bool true)]]
    Rearranged records records' ∧ infer ColumnType.select (.ofRecords records') =
      [⟨"at", "at", .timestamp⟩, ⟨"mix", "mix", .text⟩, ⟨"n", "n", .numeric⟩] := by
  intro records records'
  have hsame {v : Json} (hv : v.isContainer = false) : v.Reordered v := .scalar hv
  have hrearranged : Rearranged records records' := by
    refine ⟨_, .swap .., .cons ?_ (.cons ?_ .nil)⟩
    · refine .obj (.cons _ (hsame rfl) (.cons _ (hsame rfl) (.cons _ (hsame rfl) .nil))) ?_
      exact (List.reverse_perm _).symm
    · refine .obj (.cons _ (hsame rfl) (.cons _ (hsame rfl) (.cons _ (hsame rfl)
        (.cons _ (.arr .nil) (.cons _ (hsame rfl) .nil))))) ?_
      exact .swap ..
  have hinfer := (infer_exact records).2.2.2.1 records' hrearranged
  exact ⟨hrearranged, hinfer.trans ((infer_eq_insertionSort _ (by decide +kernel)).trans (by decide +kernel))⟩

end Column

end SnapshotStaging
