import Mathlib.Data.List.Nodup
import SnapshotStaging.Proofs.Field.Selection

/-!
# No two columns share a name

A name that is taken, or whose column of keys would have a taken name, gets underscores until it is free. Each
taken name can be met twice at most, once as a column and once as a column of keys, and a longer name meets fewer
(`obstacles_lt`), so the loop ends (`renames_freed`). Names have no ASCII capitals, which neither a letter's small
form nor what is appended brings in, so names that differ do so without regard to case.

Main result `infer_names_apart`.
-/

namespace SnapshotStaging

namespace Text

theorem isUpper_iff {c : Char} : c.isUpper = true ↔ 65 ≤ c.toNat ∧ c.toNat ≤ 90 :=
  decide_eq_true_iff.trans (and_congr UInt32.le_iff_toNat_le UInt32.le_iff_toNat_le)

/-- The character with a number has this number, unless no character has it. -/
theorem toNat_ofNat (n : Nat) : (Char.ofNat n).toNat = n ∨ (Char.ofNat n).toNat = 0 := by
  by_cases h : n.isValidChar
  · exact .inl (congrArg Char.toNat (dif_pos h))
  · exact .inr (congrArg Char.toNat (dif_neg h))

theorem toLower_of_not_isUpper {c : Char} (h : c.isUpper = false) : c.toLower = c := dif_neg (of_decide_eq_false h)

theorem toNat_toLower_of_isUpper {c : Char} (h : c.isUpper = true) : c.toLower.toNat = c.toNat + 32 := by
  obtain ⟨-, hhigh⟩ := isUpper_iff.1 h
  have hlower : c.toLower.toNat = (c.val + 32).toNat := congrArg Char.toNat (dif_pos (of_decide_eq_true h))
  rw [hlower, UInt32.toNat_add, Char.toNat_val]
  exact Nat.mod_eq_of_lt (by simp; omega)

theorem isUpper_toLower (c : Char) : c.toLower.isUpper = false := by
  cases h : c.isUpper with
  | false => rw [toLower_of_not_isUpper h, h]
  | true =>
    rw [Bool.eq_false_iff, ne_eq, isUpper_iff, toNat_toLower_of_isUpper h]
    have hrange := isUpper_iff.1 h
    omega

/-- No run of letters is taken to ASCII capitals. -/
theorem lowering_apart : ∀ run ∈ lowering, 90 < run.1 + run.2.2.2 ∨ run.2.1 + run.2.2.2 < 65 := by
  decide +kernel

theorem isUpper_lowerChar (c : Char) : (lowerChar c).isUpper = false := by
  by_contra hupper
  rw [Bool.not_eq_false] at hupper
  unfold lowerChar at hupper
  split at hupper
  · rw [isUpper_toLower] at hupper
    cases hupper
  · split at hupper
    · next low high step distance hfind =>
      have hapart := lowering_apart _ (List.mem_of_find?_eq_some hfind)
      have hrange := List.find?_some hfind
      have hcapital := isUpper_iff.1 hupper
      have hcode := toNat_ofNat (c.toNat + distance).toNat
      simp only [Bool.and_eq_true, decide_eq_true_eq] at hapart hrange
      omega
    · have hcapital := isUpper_iff.1 hupper
      omega

theorem isUpper_of_mem_lowerOnto {before done cs : List Char} (hdone : ∀ c ∈ done, c.isUpper = false) :
    ∀ c ∈ lowerOnto before done cs, c.isUpper = false := by
  induction cs generalizing before done with
  | nil => simpa [lowerOnto] using hdone
  | cons c rest ih =>
    rw [lowerOnto]
    split_ifs with hsigma hdotted
    · exact ih (by split <;> simpa using hdone)
    · exact ih (by simpa using hdone)
    · exact ih (by simpa [isUpper_lowerChar] using hdone)

theorem isUpper_of_mem_lower (cs : List Char) : ∀ c ∈ lower cs, c.isUpper = false :=
  isUpper_of_mem_lowerOnto (by simp)

end Text

namespace Column

variable {taken taken' : List String} {type : ColumnType} {name result : String}

/-! ## The loop of renaming -/

/-- A name that is free is kept; one that is not gets an underscore, and it is tried again. -/
inductive Renames (taken : List String) (type : ColumnType) : String → String → Prop
  | kept {name : String} (h : isFree taken type name = true) : Renames taken type name name
  | again {name result : String} (h : isFree taken type name = false)
      (hrest : Renames taken type (name ++ "_") result) : Renames taken type name result

/-- A name is free when the names that a column of this name would take are. -/
theorem isFree_iff {source : String} :
    isFree taken type name = true ↔ ∀ n ∈ names ⟨name, source, type⟩, n ∉ taken := by
  by_cases htype : type = .reference <;> simp [isFree, names, htype]

theorem isFree_congr (h : ∀ n, n ∈ taken ↔ n ∈ taken') : isFree taken type name = isFree taken' type name := by
  have hcontains (n : String) : taken.contains n = taken'.contains n := by
    rw [Bool.eq_iff_iff, List.contains_iff_mem, List.contains_iff_mem, h]
  rw [isFree, isFree, hcontains, hcontains]

theorem Renames.congr (hrenames : Renames taken type name result) (h : ∀ n, n ∈ taken ↔ n ∈ taken') :
    Renames taken' type name result := by
  induction hrenames with
  | kept hfree => exact .kept (isFree_congr h ▸ hfree)
  | again hfree _ ih => exact .again (isFree_congr h ▸ hfree) ih

theorem Renames.isFree (h : Renames taken type name result) : isFree taken type result = true := by
  induction h with
  | kept hfree => exact hfree
  | again _ _ ih => exact ih

/-! ## The loop ends -/

/-- How many taken names are long enough to be met, as a column or as a column of keys. -/
def obstacles (taken : List String) (name : String) : Nat :=
  taken.countP (name.length ≤ ·.length) + taken.countP ((keyName name).length ≤ ·.length)

theorem obstacles_le (taken : List String) (name : String) : obstacles taken name ≤ 2 * taken.length := by
  have hname := List.countP_le_length (p := fun t : String => decide (name.length ≤ t.length)) (l := taken)
  have hkey := List.countP_le_length (p := fun t : String => decide ((keyName name).length ≤ t.length)) (l := taken)
  unfold obstacles
  omega

theorem countP_length_eq (taken : List String) (n : Nat) : taken.countP (n ≤ ·.length) =
    taken.countP (n + 1 ≤ ·.length) + taken.countP (·.length = n) := by
  induction taken with
  | nil => rfl
  | cons t rest ih =>
    simp only [List.countP_cons, decide_eq_true_eq, ih]
    split_ifs <;> omega

/-- A name that is not free has a taken one of its own length in its way, which a longer name has not. -/
theorem obstacles_lt (h : Column.isFree taken type name = false) :
    obstacles taken (name ++ "_") < obstacles taken name := by
  have hone : "_".length = 1 := rfl
  have hname := countP_length_eq taken name.length
  have hkey := countP_length_eq taken (keyName name).length
  have hmet {n : String} (hn : n ∈ taken) : 0 < taken.countP (·.length = n.length) :=
    List.countP_pos_iff.2 ⟨n, hn, by simp⟩
  have hlonger : (keyName (name ++ "_")).length = (keyName name).length + 1 := by
    simp only [keyName, String.length_append]
    omega
  rw [obstacles, obstacles, hname, hkey, hlonger, String.length_append, hone]
  simp only [Column.isFree, Bool.and_eq_false_iff, Bool.not_eq_false', List.contains_iff_mem,
    Bool.and_eq_true] at h
  rcases h with htaken | ⟨-, htaken⟩
  · have hpos := hmet htaken
    omega
  · have hpos := hmet htaken
    omega

/-- With more tries than obstacles the loop ends by itself. -/
theorem renames_freed {tries : Nat} (h : obstacles taken name < tries) :
    Renames taken type name (freed taken type tries name) := by
  induction tries generalizing name with
  | zero => omega
  | succ tries ih =>
    rw [freed]
    split
    · next hfree => exact .kept hfree
    · next hfree =>
      have hfree : Column.isFree taken type name = false := by simpa using hfree
      have hlt := obstacles_lt hfree
      exact .again hfree (ih (by omega))

variable {select : Counts → String → ColumnType}

theorem renames_ofField (select : Counts → String → ColumnType) (taken : List String) (field : String)
    (counts : Counts) : Renames taken (select counts field) (FieldName.columnName field)
      (ofField select taken field counts).name := by
  have hle := obstacles_le taken (FieldName.columnName field)
  exact renames_freed (by omega)

/-- Every column has the name that the loop ends with, beside the names taken before. -/
theorem renames_of_ofFields {fields : List (String × Counts)} {before after : List Column} {c : Column}
    (h : ofFields select taken fields = before ++ c :: after) :
    Renames (taken ++ before.flatMap names) c.type (FieldName.columnName c.source) c.name := by
  induction fields generalizing taken before with
  | nil => simp [ofFields] at h
  | cons entry rest ih =>
    obtain ⟨field, counts⟩ := entry
    rw [ofFields] at h
    cases before with
    | nil =>
      obtain ⟨rfl, -⟩ := List.cons.inj h
      rw [List.flatMap_nil, List.append_nil]
      exact renames_ofField select taken field counts
    | cons first before =>
      obtain ⟨rfl, hrest⟩ := List.cons.inj h
      refine (ih hrest).congr fun n => ?_
      simp only [List.mem_append, List.flatMap_cons]
      tauto

/-! ## No name is taken twice -/

theorem nodup_names (c : Column) : c.names.Nodup := by
  have hne : c.name ≠ keyName c.name := by simp [keyName, String.ext_iff]
  unfold names
  split
  · simp [hne]
  · simp

theorem nodup_ofFields (htaken : taken.Nodup) (fields : List (String × Counts)) :
    (taken ++ (ofFields select taken fields).flatMap names).Nodup := by
  induction fields generalizing taken with
  | nil => simpa [ofFields] using htaken
  | cons entry rest ih =>
    obtain ⟨field, counts⟩ := entry
    let c := ofField select taken field counts
    have hfree : ∀ n ∈ c.names, n ∉ taken := isFree_iff.1 (renames_ofField select taken field counts).isFree
    have hnext : (c.names ++ taken).Nodup :=
      List.nodup_append'.2 ⟨nodup_names c, htaken, fun n hn => hfree n hn⟩
    rw [ofFields, List.flatMap_cons, ← List.append_assoc]
    exact ((List.perm_append_comm.append_right _).nodup_iff).1 (ih hnext)

/-- No column that is found from records has the name of the payload's column, or of another that every table has. -/
theorem infer_notMem_reserved {statistics : Statistics} {c : Column} (h : c ∈ infer select statistics) :
    c.name ∉ reserved := by
  have hnodup : (reserved ++ (infer select statistics).flatMap names).Nodup := nodup_ofFields (by decide) _
  have hname : c.name ∈ c.names := by
    unfold names
    split <;> simp
  exact fun hmem => (List.nodup_append'.1 hnodup).2.2 hmem (List.mem_flatMap.2 ⟨c, h, hname⟩)

/-! ## Small letters -/

/-- A name without ASCII capitals. -/
def Small (name : String) : Prop := ∀ c ∈ name.toList, c.isUpper = false

theorem Small.append {a b : String} (ha : Small a) (hb : Small b) : Small (a ++ b) := by
  intro c hc
  rw [String.toList_append, List.mem_append] at hc
  exact hc.elim (ha c) (hb c)

theorem Small.toLower (h : Small name) : name.toLower = name := by
  have hmap : name.toLower = name.map Char.toLower := rfl
  rw [← String.toList_inj, hmap, String.toList_map]
  refine (List.map_congr_left fun c hc => ?_).trans (List.map_id _)
  exact Text.toLower_of_not_isUpper (h c hc)

theorem small_columnName (field : String) : Small (FieldName.columnName field) := by
  intro c hc
  rw [FieldName.columnName, String.toList_ofList] at hc
  exact Text.isUpper_of_mem_lower _ c hc

theorem Renames.small (h : Renames taken type name result) (hname : Small name) : Small result := by
  induction h with
  | kept => exact hname
  | again _ _ ih => exact ih (hname.append (by simp [Small]))

theorem small_names {c : Column} (h : Small c.name) : ∀ n ∈ c.names, Small n := by
  have hkey : Small (keyName c.name) := h.append (by simp [Small])
  unfold names
  split <;> simp [h, hkey]

theorem small_ofFields {fields : List (String × Counts)} {c : Column} (h : c ∈ ofFields select taken fields) :
    Small c.name := by
  obtain ⟨before, after, hsplit⟩ := List.append_of_mem h
  exact (renames_of_ofFields hsplit).small (small_columnName _)

/-- **No two columns share a name**, whatever the statistics and however types are selected.

* Each field but the identifier has its column, and the loop of renaming ends for it with the name of the column.
* The names that every loading table has, those of the columns and those of their columns of keys are pairwise
  different, in large and small letters of ASCII alike. -/
theorem infer_names_apart (select : Counts → String → ColumnType) (s : Statistics) :
    (infer select s).map source = (s.sorted.map Prod.fst).filter (· ≠ idField) ∧
    (∀ before c after, infer select s = before ++ c :: after →
      Renames (reserved ++ before.flatMap names) c.type (FieldName.columnName c.source) c.name) ∧
    (reserved ++ (infer select s).flatMap names).Nodup ∧
    ((reserved ++ (infer select s).flatMap names).map String.toLower).Nodup := by
  have hnodup : (reserved ++ (infer select s).flatMap names).Nodup := nodup_ofFields (by decide) _
  have hsmall : ∀ n ∈ reserved ++ (infer select s).flatMap names, Small n := by
    intro n hn
    rcases List.mem_append.1 hn with hn | hn
    · have hreserved : ∀ n ∈ reserved, Small n := by simp [reserved, Small]
      exact hreserved n hn
    · obtain ⟨c, hc, hn⟩ := List.mem_flatMap.1 hn
      exact small_names (small_ofFields hc) n hn
  refine ⟨?_, fun _ _ _ => renames_of_ofFields, hnodup, ?_⟩
  · rw [infer, map_source_ofFields, List.filter_map]
    rfl
  · rwa [List.map_congr_left fun n hn => (hsmall n hn).toLower, List.map_id']

/-- The column of keys of a reference would have the name of a column that stands before it. -/
theorem infer_names_apart_clash :
    let select (_ : Counts) (field : String) : ColumnType := if field = "r" then .reference else .text
    let s : Statistics := ⟨1, [("r", {}), ("R_sk", {}), ("id", {})]⟩
    infer select s = [⟨"r_sk", "R_sk", .text⟩, ⟨"r_", "r", .reference⟩] ∧
      Renames (reserved ++ ["r_sk"]) .reference "r" "r_" := by
  intro select s
  have hinfer : infer select s = [⟨"r_sk", "R_sk", .text⟩, ⟨"r_", "r", .reference⟩] :=
    (infer_eq_insertionSort select (by decide)).trans (by decide +kernel)
  have hrenames := (infer_names_apart select s).2.1 [⟨"r_sk", "R_sk", .text⟩] ⟨"r_", "r", .reference⟩ [] hinfer
  have hname : FieldName.columnName "r" = "r" := by decide +kernel
  rw [hname] at hrenames
  exact ⟨hinfer, hrenames⟩

end Column

end SnapshotStaging
