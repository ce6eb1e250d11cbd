import SnapshotStaging.Proofs.Field.Inference
import SnapshotStaging.Proofs.Field.Naming

/-!
# Quotes in names

Neither the search for words nor small letters nor the loop of renaming takes a quote out of a name or brings one
in, so the quotes in the names of columns are those in the names of their fields.

Main result `quote_mem_infer`.
-/

namespace SnapshotStaging

namespace Text

/-- No run of letters is taken as far down as the quote. -/
theorem lowering_above_quote : ∀ run ∈ lowering, 34 < run.1 + run.2.2.2 := by
  decide +kernel

theorem lowerChar_eq_quote {c : Char} : lowerChar c = '"' ↔ c = '"' := by
  constructor
  · intro h
    unfold lowerChar at h
    split at h
    · cases hupper : c.isUpper with
      | false => rwa [toLower_of_not_isUpper hupper] at h
      | true =>
        have hcode : c.toLower.toNat = 34 := congrArg Char.toNat h
        rw [toNat_toLower_of_isUpper hupper] at hcode
        have hrange := isUpper_iff.1 hupper
        omega
    · split at h
      · next low high step distance hfind =>
        have habove := lowering_above_quote _ (List.mem_of_find?_eq_some hfind)
        have hrange := List.find?_some hfind
        have hcode : (Char.ofNat (c.toNat + distance).toNat).toNat = 34 := congrArg Char.toNat h
        have hnumber := toNat_ofNat (c.toNat + distance).toNat
        simp only [Bool.and_eq_true, decide_eq_true_eq] at habove hrange
        omega
      · exact h
  · rintro rfl
    decide

theorem quote_mem_lowerOnto {before done cs : List Char} :
    '"' ∈ lowerOnto before done cs ↔ '"' ∈ done ∨ '"' ∈ cs := by
  induction cs generalizing before done with
  | nil => simp [lowerOnto]
  | cons c rest ih =>
    rw [lowerOnto]
    split_ifs with hsigma hdotted
    · rw [ih, hsigma]
      split <;> simp
    · rw [ih, hdotted]
      simp
    · rw [ih]
      simp only [List.mem_cons, eq_comm (a := '"'), lowerChar_eq_quote]
      tauto

end Text

namespace FieldName

theorem quote_mem_separated {before : Option Char} {cs : List Char} : '"' ∈ separated before cs ↔ '"' ∈ cs := by
  induction cs generalizing before with
  | nil => rfl
  | cons c rest ih =>
    rw [separated]
    split <;> simp [ih]

theorem quote_mem_columnName {field : String} : '"' ∈ (columnName field).toList ↔ '"' ∈ field.toList := by
  rw [columnName, String.toList_ofList, Text.lower, Text.quote_mem_lowerOnto, quote_mem_separated]
  simp

end FieldName

namespace Column

open Statistics

variable {select : Counts → String → ColumnType}

theorem Renames.quote_mem {taken : List String} {type : ColumnType} {name result : String}
    (h : Renames taken type name result) : '"' ∈ result.toList ↔ '"' ∈ name.toList := by
  induction h with
  | kept => rfl
  | again _ _ ih => simp [ih]

theorem quote_mem_keyName {name : String} : '"' ∈ (keyName name).toList ↔ '"' ∈ name.toList := by
  simp [keyName]

theorem quote_mem_name {s : Statistics} {c : Column} (hc : c ∈ infer select s) :
    '"' ∈ c.name.toList ↔ '"' ∈ c.source.toList := by
  obtain ⟨before, after, hsplit⟩ := List.append_of_mem hc
  rw [((infer_names_apart select s).2.1 before c after hsplit).quote_mem, FieldName.quote_mem_columnName]

/-- The columns of records have no quotes in their names exactly when the members that count have none. -/
theorem quote_mem_infer (select : Counts → String → ColumnType) (records : List Json) :
    (∀ c ∈ infer select (.ofRecords records), '"' ∉ c.name.toList) ↔
      ∀ record ∈ records, ∀ m ∈ membersOf record, m.2.isContainer = false → '"' ∉ m.1.toList := by
  constructor
  · intro h record hrecord m hm hscalar hquote
    have hid : m.1 ≠ idField := by
      intro hid
      rw [hid] at hquote
      exact absurd hquote (by decide)
    have hsource := (mem_source_infer select m.1).2 ⟨hid, record, hrecord, m.2, hm, hscalar⟩
    obtain ⟨c, hc, hname⟩ := List.mem_map.1 hsource
    exact h c hc ((quote_mem_name hc).2 (hname ▸ hquote))
  · intro h c hc hquote
    obtain ⟨-, record, hrecord, v, hmember, hscalar⟩ := (mem_source_infer select _).1 (List.mem_map_of_mem hc)
    exact h record hrecord (c.source, v) hmember hscalar ((quote_mem_name hc).1 hquote)

end Column

end SnapshotStaging
