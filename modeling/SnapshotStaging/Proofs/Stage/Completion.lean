import SnapshotStaging.Proofs.Load.Replacement
import SnapshotStaging.Proofs.Stage.Repetition

/-!
# Tables that are staged

When the pages of a table are counted and none fails, its loading table can be created, every record has an
identifier and the keys can be given, nothing is left that could fail.

Main results: `runPass_meets`, the specification of a pass, and `stage_total`: such a table is staged.
-/

namespace SnapshotStaging

open Encoder Session

namespace Staging

variable {settings : Settings} {store : PageStore} {table : String} {d : Definition} {columns : List Column}
  {mode : PassMode} {count : Nat} {m M : MemoryKeys} {asked : List (String × String)} {s : Session Warehouse}

/-- **A pass meets what its pages meet**: its calls for keys are theirs in order. -/
theorem runPass_meets {name : String} {step : List UInt8 → Step Warehouse Nat}
    {reqs : List UInt8 → List (String × String)} {P : List (List UInt8) → Encoder → Option Relation → Prop}
    (hstep : ∀ done bytes later, pages store table count = done ++ bytes :: later →
      Meets name M (step bytes) (reqs bytes) (P done) fun _ => P (done ++ [bytes])) :
    Meets name M (runPass store table mode count step) ((pages store table count).flatMap reqs) (P [])
      fun _ => P (pages store table count) := by
  intro e s m asked hs hM hP
  let all := pages store table count
  -- what is known after some pages, and why a page may be the last
  let Known (done : List (List UInt8)) (st : Encoder × Session Warehouse) : Prop :=
    st.2.Answered (m.after (done.flatMap reqs)) ((done.flatMap reqs).reverse ++ asked) ∧
      st.2.keys.isDurable = s.keys.isDurable ∧ prompt s.keys.isDurable m asked (done.flatMap reqs) = true ∧
      P done st.1 (st.2.database.find? name)
  let Refused (err : Error) : Prop :=
    prompt s.keys.isDurable m asked (all.flatMap reqs) = false ∧ ∃ b, err = .databaseFailed (.keys b)
  have hpass : Ends (Known []) (runPass store table mode count step) (fun _ => Known all) Refused := by
    refine runPass_ends (fun done t s log h => ⟨h.1.congr (.of_log s log), h.2⟩) ?_
    rintro done bytes later hall ⟨e₁, s₁⟩ ⟨hs₁, hdurable, hprompt, hP₁⟩
    have hcalls : all.flatMap reqs = done.flatMap reqs ++ (reqs bytes ++ later.flatMap reqs) := by
      rw [show all = done ++ bytes :: later from hall, List.flatMap_append, List.flatMap_cons]
    have hdone : (done ++ [bytes]).flatMap reqs = done.flatMap reqs ++ reqs bytes := by
      rw [List.flatMap_append, List.flatMap_singleton]
    have hwithin : ((m.after (done.flatMap reqs)).after (reqs bytes)).Within M := by
      rw [show (pages store table count).flatMap reqs = _ from hcalls, MemoryKeys.after_append,
        MemoryKeys.after_append] at hM
      exact (MemoryKeys.within_after _ _).trans hM
    rcases hstep done bytes later hall e₁ s₁ _ _ hs₁ hwithin hP₁ with
      ⟨hquick, n, e₂, s₂, heq, hs₂, hdurable₂, hP₂⟩ | ⟨hslow, b, st, heq⟩
    · rw [heq]
      refine ⟨?_, hdurable₂.trans hdurable, ?_, hP₂⟩
      · rwa [hdone, MemoryKeys.after_append, List.reverse_append, List.append_assoc]
      · rw [hdone, prompt_append, hprompt, ← hdurable, hquick]
        rfl
    · rw [heq]
      refine ⟨?_, b, rfl⟩
      rw [hcalls, prompt_append, prompt_append, ← hdurable, hslow, Bool.false_and, Bool.and_false]
  have hends := hpass (e, s) ⟨hs, rfl, prompt_nil .., hP⟩
  cases hrun : runPass store table mode count step (e, s) with
  | ok a st =>
    rw [hrun] at hends
    obtain ⟨hs', hdurable, hprompt, hP'⟩ := hends
    exact .inl ⟨hprompt, a, st.1, st.2, rfl, hs', hdurable, hP'⟩
  | error err st =>
    rw [hrun] at hends
    obtain ⟨hslow, b, rfl⟩ := hends
    exact .inr ⟨hslow, b, st, rfl⟩

/-! ## The second pass -/

/-- The records of pages as they are written. -/
def given [Platform] (settings : Settings) (table : String) (pages : List (List UInt8)) : List Json :=
  (recordsOf table pages).map (redacted (Redaction.Policy.rulesFor? settings.redaction table))

/-- The calls for keys that they bring about. -/
def calls [Platform] (settings : Settings) (table : String) (columns : List Column) (pages : List (List UInt8)) :
    List (String × String) :=
  pages.flatMap fun bytes => (given settings table [bytes]).flatMap (requests table columns)

theorem given_append [Platform] (settings : Settings) (table : String) (done rest : List (List UInt8)) :
    given settings table (done ++ rest) = given settings table done ++ given settings table rest := by
  simp [given, recordsOf]

theorem calls_eq [Platform] (settings : Settings) (table : String) (columns : List Column) (pages : List (List UInt8)) :
    calls settings table columns pages = (given settings table pages).flatMap (requests table columns) := by
  simp [calls, given, recordsOf, List.flatMap_assoc, List.map_flatMap]

/-- Loading a page whose records have identifiers. -/
theorem loadPage_spec [Platform] {e₀ : Encoder} {row : Json → Row} {done : List (List UInt8)} {bytes : List UInt8}
    (hrow : Encodes e₀ M row) (hkeyed : Keyed M e₀.table (given settings e₀.table (done ++ [bytes])))
    (hpage : (Page.records e₀.table bytes).2 = none)
    (hid : ∀ record ∈ given settings e₀.table [bytes], Identified record) :
    Meets (TableName.loading e₀.table) M
      (loadPage e₀.table (Redaction.Policy.rulesFor? settings.redaction e₀.table) bytes)
      ((given settings e₀.table [bytes]).flatMap (requests e₀.table e₀.columns))
      (Wrote e₀ M row (given settings e₀.table done))
      fun _ => Wrote e₀ M row (given settings e₀.table (done ++ [bytes])) := by
  have hrecords : given settings e₀.table [bytes] = (Page.records e₀.table bytes).1.map
      (redacted (Redaction.Policy.rulesFor? settings.redaction e₀.table)) := by
    simp [given, recordsOf]
  rw [given_append, hrecords] at hkeyed ⊢
  rw [hrecords] at hid
  have hwrites := writeAll_spec hrow (Redaction.Policy.rulesFor? settings.redaction e₀.table)
    (Page.records e₀.table bytes).1 (given settings e₀.table done) hkeyed hid
  unfold loadPage
  generalize Page.records e₀.table bytes = page at hpage hwrites ⊢
  obtain ⟨records, failure⟩ := page
  cases hpage
  rw [← List.append_nil (List.flatMap ..)]
  exact hwrites.bind fun _ => meets_pure _ fun _ _ h => h

/-- A load that finds an empty loading table, and keys for its records, fills it. -/
theorem fill_total [Platform] (hs : s.Answered m asked) (hloading : s.loading? d.label = some (.snapshot columns []))
    (hfailure : failure? d.label (pages store d.label count) = none)
    (hid : ∀ record ∈ given settings d.label (pages store d.label count), Identified record)
    (hprompt : prompt s.keys.isDurable m asked
      (calls settings d.label columns (pages store d.label count)) = true) :
    ∃ e s', fill settings store d columns count s = .ok e s' := by
  let all := pages store d.label count
  let e₀ := encoderOf settings d columns
  obtain ⟨row, hrow⟩ := exists_encodes e₀ (m.after (calls settings d.label columns all))
  have hkeyed : Keyed (m.after (calls settings d.label columns all)) d.label (given settings d.label all) := by
    rw [calls_eq]
    exact keyed_after hs.dense d.label columns _
  have hpass := @runPass_meets store d.label .load count (m.after (calls settings d.label columns all))
    (TableName.loading d.label) (loadPage d.label (Redaction.Policy.rulesFor? settings.redaction d.label)) _
    (fun done => Wrote e₀ _ row (given settings d.label done)) fun done bytes later hall => by
      have hgiven : given settings d.label all = given settings d.label (done ++ [bytes]) ++
          given settings d.label later := by
        rw [← given_append, List.append_assoc, List.singleton_append]
        exact congrArg _ hall
      refine loadPage_spec hrow (hkeyed.of_subset ?_) ?_ fun record hmem => hid record ?_
      · rw [hgiven]
        exact List.subset_append_left ..
      · exact List.findSome?_eq_none_iff.1 hfailure bytes (by simp [hall])
      · show record ∈ given settings d.label all
        rw [hgiven, given_append]
        exact List.mem_append_left _ (List.mem_append_right _ hmem)
  have hall := hpass.bind fun _ => flush_spec hrow (hkeyed.of_subset fun _ => mem_of_mem_lastOnes)
    (nodup_map_lastOnes idOf (given settings d.label all))
  rw [List.append_nil] at hall
  have hstart : Wrote e₀ (m.after (calls settings d.label columns all)) row (given settings d.label []) e₀
      ((noted d s).database.find? (TableName.loading d.label)) := by
    rw [show (noted d s).database.find? (TableName.loading d.label) = _ from hloading]
    exact Holds.start d.label columns settings.dialect settings.tenant settings.maxValueLength
      settings.flushThreshold ⟨rfl, rfl, rfl⟩ rfl
  rcases hall e₀ (noted d s) m asked (hs.congr (.of_log ..)) (fun _ _ _ h => h) hstart with
    ⟨-, _, e, s', heq, -⟩ | ⟨hslow, -⟩
  · obtain ⟨_, mid, hrun, hfinish⟩ := of_bind_ok heq
    exact ⟨e, s', fill_ok_iff.2 ⟨mid, hrun, hfinish⟩⟩
  · cases hprompt.symm.trans hslow

/-- **Staging is total** on tables whose pages can be read, whose loading table can be created, whose records have
identifiers and for whose identifiers keys can be given. -/
theorem stage_total [Platform] {count : Option Nat} {name : String} (hname : d.name = .str name)
    (hcount : store.pageCount d.label = .ok count)
    (hfailure : failure? d.label (pages store d.label (count.getD 0)) = none)
    (hcreatable : Creatable settings d (columnsOf store d.label (count.getD 0)) s.database.dialect)
    (hid : ∀ record ∈ given settings d.label (pages store d.label (count.getD 0)), Identified record)
    (hs : s.loadStarted.Answered m asked)
    (hprompt : prompt s.keys.isDurable m asked
      (calls settings d.label (columnsOf store d.label (count.getD 0)) (pages store d.label (count.getD 0))) = true) :
    ∃ result s', stage settings store d s = .ok result s' := by
  obtain ⟨⟨database, keys, log⟩, ⟨rfl, rfl⟩, hstage⟩ := @stage_ok settings store d _ count hcount hfailure s
  obtain ⟨s₁, hcreate, hloading, hkeys, -⟩ := @createLoadingTable_ok settings d
    (columnsOf store d.label (count.getD 0)) (loadStarted ⟨s.database, s.keys, log⟩) hcreatable
  have hdurable : s₁.keys.isDurable = s.keys.isDurable := by
    rw [hkeys.store]
    exact (KeyStore.extends_started s.keys).kind
  have hlogged : s.loadStarted.SameKeys (loadStarted ⟨s.database, s.keys, log⟩) := ⟨rfl, rfl, rfl⟩
  have hs₁ : s₁.Answered m asked := (hs.congr hlogged).congr hkeys
  obtain ⟨e, mid, hfill⟩ : ∃ e mid, fill settings store d (columnsOf store d.label (count.getD 0)) (count.getD 0) s₁ =
      .ok e mid := fill_total hs₁ hloading hfailure hid (hdurable ▸ hprompt)
  obtain ⟨result, s', hresult, -⟩ := hstage e mid (by
    rw [load_eq hname, bind_ok hcreate]
    exact hfill)
  exact ⟨result, s', hresult⟩

end Staging

end SnapshotStaging
