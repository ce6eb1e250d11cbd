import SnapshotStaging.Proofs.Field.Selection
import SnapshotStaging.Proofs.Page.Files
import SnapshotStaging.Proofs.Steps
import SnapshotStaging.Staging

/-!
# The pages of a table

Both passes over a table read the same pages: the numbered ones up to the first that is missing, and the
page for tests. `runPass_ends` is the rule for a pass: what each page preserves holds after all of them. The
first pass touches neither database nor keys, so what it answers is known outright.

Main result `analyze_ends`: the first pass fails for the first page that fails, and else answers the
statistics of all records.
-/

namespace SnapshotStaging

/-- Nothing but the log has changed since. -/
def Session.LogOnly {σ : Type} (s₀ s : Session σ) : Prop := s.database = s₀.database ∧ s.keys = s₀.keys

namespace Staging

/-! ## Pages and their records -/

/-- The numbered pages from `page` on, as a pass reads them. -/
def numbered (store : PageStore) (table : String) (count : Nat) : Nat → Nat → List (List UInt8)
  | 0, _ => []
  | fuel + 1, page =>
    if count ≤ page then []
    else
      match store.page? table page with
      | none => []
      | some bytes => bytes :: numbered store table count fuel (page + 1)

/-- The pages that a pass reads. -/
def pages (store : PageStore) (table : String) (count : Nat) : List (List UInt8) :=
  numbered store table count (store.files.length + 1) 0 ++ (store.testPage? table).toList

/-- The records that pages hand over, in order. -/
def recordsOf [Platform] (table : String) (pages : List (List UInt8)) : List Json :=
  pages.flatMap fun bytes => (Page.records table bytes).1

/-- Why the first page that fails does so. -/
def failure? [Platform] (table : String) (pages : List (List UInt8)) : Option Error :=
  pages.findSome? fun bytes => (Page.records table bytes).2

theorem recordsOf_append [Platform] (table : String) (done : List (List UInt8)) (bytes : List UInt8) :
    recordsOf table (done ++ [bytes]) = recordsOf table done ++ (Page.records table bytes).1 := by
  simp [recordsOf]

theorem failure?_append [Platform] {table : String} {done : List (List UInt8)} (h : failure? table done = none)
    (bytes : List UInt8) (rest : List (List UInt8)) :
    failure? table (done ++ bytes :: rest) =
      (Page.records table bytes).2.or (failure? table rest) := by
  have hdone : done.findSome? (fun bytes => (Page.records table bytes).2) = none := h
  rw [failure?, List.findSome?_append, hdone, Option.none_or, List.findSome?_cons]
  cases (Page.records table bytes).2 <;> rfl

/-! ## A single page -/

/-- A word that is not too long has not too many digits. -/
theorem legible?_of_short [Platform] {word : List Char} (h : word.length ≤ 640) :
    PageStore.legible? word = PageStore.integer? word := by
  rw [PageStore.legible?, if_neg]
  have hcount := List.countP_le_length (p := fun c => (Text.digitValue? c).isSome) (l := word)
  have hlimit := Platform.legible
  cases hmost : Platform.limits.digitLimit with
  | none => exact Bool.false_ne_true
  | some most =>
    rw [hmost, Option.all_some, decide_eq_true_eq] at hlimit
    simp only [Option.any_some, decide_eq_true_eq]
    omega

/-- A directory with a single page of a table. -/
def single (table : String) (bytes : List UInt8) : PageStore :=
  ⟨"", [(PageStore.pageName table 0, bytes), (PageStore.countName table, "1".toUTF8.toList)], false⟩

/-- The names of its two files are steps of a path, and one is not the other. -/
structure Filed (table : String) : Prop where
  page : Path.IsStep (PageStore.pageName table 0)
  count : Path.IsStep (PageStore.countName table)
  ne : PageStore.pageName table 0 ≠ PageStore.countName table

theorem filed_t : Filed "t" := ⟨by decide, by decide, by decide⟩

theorem Filed.steps {table : String} (h : Filed table) (bytes : List UInt8) :
    ∀ f ∈ (single table bytes).files, Path.IsStep f.1 := by
  simp [single, h.page, h.count]

/-- Its only page is found. -/
theorem single_page {table : String} (h : Filed table) (bytes : List UInt8) :
    (single table bytes).page? table 0 = some bytes := by
  rw [PageStore.page?, PageStore.find?_eq (h.steps bytes) h.page]
  simp [single]

/-- A table is counted, and its only page read. -/
theorem single_spec [Platform] {table : String} (h : Filed table) (bytes : List UInt8) :
    (single table bytes).pageCount table = .ok (some 1) ∧ pages (single table bytes) table 1 = [bytes] := by
  have hcounted : (single table bytes).find? (PageStore.countName table) = some "1".toUTF8.toList := by
    rw [PageStore.find?_eq (h.steps bytes) h.count]
    simp [single, h.ne]
  have hfound := single_page h bytes
  have hone : (Octets.decode? "1".toUTF8.toList).bind (fun cs => PageStore.legible? (Text.firstWord cs)) =
      some 1 := by
    have hword : (Octets.decode? "1".toUTF8.toList).map Text.firstWord = some ['1'] := by decide +kernel
    obtain ⟨cs, hcs, hfirst⟩ := Option.map_eq_some_iff.1 hword
    rw [hcs, Option.bind_some, hfirst, legible?_of_short (by decide)]
    rfl
  have hend (fuel : Nat) : numbered (single table bytes) table 1 fuel 1 = [] := by cases fuel <;> rfl
  constructor
  · rw [PageStore.pageCount, hcounted]
    dsimp only
    rw [hone]
  · have htest : (single table bytes).testPage? table = none := rfl
    simp [pages, numbered, hfound, hend, htest]

/-- The records of its only page are those of the table. -/
theorem single_records [Platform] {table : String} (h : Filed table) (bytes : List UInt8) :
    recordsOf table (pages (single table bytes) table 1) = (Page.records table bytes).1 ∧
      failure? table (pages (single table bytes) table 1) = (Page.records table bytes).2 := by
  rw [(single_spec h bytes).2, recordsOf, failure?, List.flatMap_singleton, List.findSome?_cons,
    List.findSome?_nil]
  cases (Page.records table bytes).2 <;> exact ⟨rfl, rfl⟩

section

variable [Platform] {σ τ : Type} {table : String} {bytes : List UInt8} {records : List Json}

omit [Platform] in
/-- A pass over its only page. -/
theorem runPass_single (hfound : (single table bytes).page? table 0 = some bytes) (mode : PassMode)
    (step : List UInt8 → Pass τ σ Nat) :
    runPass (single table bytes) table mode 1 step = (do
      let n ← step bytes
      Pass.onSession (Task.note .debug s!"Staging: {table}: {mode.name}: page: {(0 : Nat)}: {n} records")) := by
  have htest : (single table bytes).testPage? table = none := rfl
  funext st
  rw [runPass, htest, numberedPages, if_neg (by decide)]
  dsimp only
  rw [show ((0 : Nat) : Int) = 0 from rfl, hfound]
  cases hstep : step bytes st with
  | ok n mid =>
    rw [bind_ok hstep]
    have hpages : (do
        let n ← step bytes
        Pass.onSession (Task.note .debug s!"Staging: {table}: {mode.name}: page: {(0 : Nat)}: {n} records")
        numberedPages (single table bytes) table mode 1 step 2 1 : Pass τ σ Unit) st =
        Pass.onSession (Task.note .debug s!"Staging: {table}: {mode.name}: page: {(0 : Nat)}: {n} records") mid := by
      rw [bind_ok hstep]
      rfl
    exact bind_ok hpages
  | error err mid =>
    rw [bind_error hstep]
    exact bind_error (bind_error hstep)

/-- The first pass over its only page. -/
theorem analyze_single (hfound : (single table bytes).page? table 0 = some bytes)
    (hrecords : Page.records table bytes = (records, none)) :
    (analyze (single table bytes) table 1 : Task σ (Statistics × List Column)) = (do
      Task.note .info s!"Staging: {table}: analyze"
      Task.note .debug s!"Staging: {table}: {PassMode.analyze.name}: page: {(0 : Nat)}: {records.length} records"
      let statistics := Statistics.ofRecords records
      noteAll (statistics.sorted.map fun (field, counts) =>
        ⟨.debug, s!"Stats: {table}: field {field}: {String.ofList counts.toJson.inspect}", none⟩)
      let columns := Column.infer ColumnType.select statistics
      noteAll (columns.map fun c => ⟨.debug, s!"Column: {table}: {c.name} {c.type.name}", none⟩)
      return (statistics, columns)) := by
  have hpage : (analyzePage table bytes : Pass Statistics σ Nat) = (do
      Pass.update fun s => records.foldl Statistics.addRecord s
      return records.length) := by
    unfold analyzePage
    rw [hrecords]
    rfl
  unfold analyze
  rw [runPass_single hfound, hpage]
  rfl

/-- A page without a failure is loaded by writing its records. -/
theorem loadPage_ok [Database σ] (hrecords : Page.records table bytes = (records, none))
    (rules : Option Redaction.Rules) : (loadPage table rules bytes : Pass Encoder σ Nat) = (do
      writeAll rules records
      return records.length) := by
  unfold loadPage
  rw [hrecords]
  rfl

theorem pageCount_ok {store : PageStore} {n : Nat} (h : store.pageCount table = .ok (some n)) :
    (Staging.pageCount store table : Task σ Nat) = pure n := by
  unfold Staging.pageCount
  rw [h]

end

/-! ## Passes -/

variable {σ τ : Type} {store : PageStore} {table : String} {mode : PassMode} {count : Nat}
  {step : List UInt8 → Pass τ σ Nat} {P : List (List UInt8) → τ × Session σ → Prop} {E : Error → Prop}

/-- The log does not matter to a condition on a pass. -/
def Blind (P : τ × Session σ → Prop) : Prop :=
  ∀ t s log, P (t, s) → P (t, { s with log := log })

theorem blind_note {Q : τ × Session σ → Prop} (h : Blind Q) (level : Log.Level) (message : String) :
    Ends Q (Pass.onSession (Task.note level message) : Pass τ σ Unit) (fun _ => Q) E :=
  fun st hst => h st.1 st.2 _ hst

/-- The pages from `page` on. What is assumed of a step may depend on the pages before and after it. -/
theorem numberedPages_ends {all : List (List UInt8)} (hlog : ∀ done, Blind (P done))
    (hstep : ∀ done bytes later, all = done ++ bytes :: later →
      Ends (P done) (step bytes) (fun _ => P (done ++ [bytes])) E)
    (fuel page : Nat) (done rest : List (List UInt8))
    (hall : all = done ++ (numbered store table count fuel page ++ rest)) :
    Ends (P done) (numberedPages store table mode count step fuel page)
      (fun _ => P (done ++ numbered store table count fuel page)) E := by
  induction fuel generalizing page done with
  | zero => exact ends_pure fun st h => by simpa [numbered] using h
  | succ fuel ih =>
    unfold numberedPages
    unfold numbered at hall ⊢
    by_cases hcount : count ≤ page
    · simp only [if_pos hcount]
      exact ends_pure fun st h => by simpa using h
    · simp only [if_neg hcount] at hall ⊢
      cases hpage : store.page? table page with
      | none => exact (blind_note (hlog done) _ _).mono (fun _ h => h) (fun _ _ h => by simpa using h) fun _ h => h
      | some bytes =>
        simp only [hpage, List.cons_append] at hall ⊢
        refine (hstep done bytes _ hall).bind fun n => (blind_note (hlog _) _ _).bind fun _ => ?_
        have hrest := ih (page + 1) (done ++ [bytes]) (by simpa using hall)
        simpa using hrest

/-- **One pass**: what each page preserves, given the pages before it, holds after all pages. -/
theorem runPass_ends (hlog : ∀ done, Blind (P done))
    (hstep : ∀ done bytes later, pages store table count = done ++ bytes :: later →
      Ends (P done) (step bytes) (fun _ => P (done ++ [bytes])) E) :
    Ends (P []) (runPass store table mode count step) (fun _ => P (pages store table count)) E := by
  unfold runPass
  refine (numberedPages_ends hlog hstep (store.files.length + 1) 0 [] (store.testPage? table).toList rfl).bind
    fun _ => ?_
  unfold pages at hstep ⊢
  cases htest : store.testPage? table with
  | none => exact ends_pure fun st h => by simpa using h
  | some bytes =>
    simp only [htest, Option.toList_some] at hstep ⊢
    exact (blind_note (hlog _) _ _).bind fun _ => (hstep _ bytes [] rfl).bind fun n => blind_note (hlog _) _ _

/-- A pass that is run from a state of its own. -/
theorem running_ends {initial : τ} {pass : Pass τ σ Unit} {R : Session σ → Prop} {Q : τ × Session σ → Prop}
    (h : Ends (fun st => st.1 = initial ∧ R st.2) pass (fun _ => Q) E) :
    Ends R (running initial pass) (fun t s => Q (t, s)) E := by
  intro s hs
  have hpass := h (initial, s) ⟨rfl, hs⟩
  unfold running
  cases heq : pass (initial, s) with
  | ok a st =>
    rw [heq] at hpass
    exact hpass
  | error err st =>
    rw [heq] at hpass
    exact hpass

/-! ## The first pass -/

/-- The number of pages is told, or zero when nothing tells it. -/
theorem pageCount_ends [Platform] (store : PageStore) (table : String) (s₀ : Session σ) :
    Ends s₀.LogOnly (pageCount store table)
      (fun n s => s₀.LogOnly s ∧ ∃ count, store.pageCount table = .ok count ∧ n = count.getD 0)
      (fun err => store.pageCount table = .error err) := by
  intro s hs
  unfold pageCount
  cases hcount : store.pageCount table with
  | ok count =>
    cases count with
    | none => exact ⟨hs, _, rfl, rfl⟩
    | some n => exact ⟨hs, _, rfl, rfl⟩
  | error err => rfl

theorem failing_ends {Q : τ × Session σ → Prop} (failure : Option Error) :
    Ends Q (failing failure : Pass τ σ Unit) (fun _ st => Q st ∧ failure = none)
      (fun err => failure = some err) := by
  cases failure with
  | none => exact ends_pure fun _ h => ⟨h, rfl⟩
  | some err => exact fun _ _ => rfl

/-- The first pass fails for the first page that fails, and else answers the statistics of all records. It
changes nothing but the log. -/
theorem analyze_ends [Platform] (store : PageStore) (table : String) (count : Nat) (s₀ : Session σ) :
    Ends (Session.LogOnly s₀) (analyze store table count)
      (fun a s => failure? table (pages store table count) = none ∧ s₀.LogOnly s ∧
        a = (Statistics.ofRecords (recordsOf table (pages store table count)),
          Column.infer ColumnType.select (Statistics.ofRecords (recordsOf table (pages store table count)))))
      (fun err => failure? table (pages store table count) = some err) := by
  let all := pages store table count
  let P (done : List (List UInt8)) (st : Statistics × Session σ) : Prop :=
    failure? table done = none ∧ s₀.LogOnly st.2 ∧ st.1 = Statistics.ofRecords (recordsOf table done)
  have hpass : Ends (P []) (runPass store table .analyze count (analyzePage table)) (fun _ => P all)
      (fun err => failure? table all = some err) := by
    refine runPass_ends (fun done t s log h => h) ?_
    intro done bytes later hall
    refine Ends.assuming (fun _ h => h.1) fun hdone => ?_
    have hfailure := failure?_append hdone bytes later
    have hnext := failure?_append hdone bytes []
    have hrecords := recordsOf_append table done bytes
    rw [← hall] at hfailure
    unfold analyzePage
    generalize Page.records table bytes = page at hfailure hnext hrecords ⊢
    obtain ⟨records, failure⟩ := page
    refine Ends.bind
      (Q := fun _ st => s₀.LogOnly st.2 ∧ st.1 = Statistics.ofRecords (recordsOf table (done ++ [bytes])))
      ?_ fun _ => ?_
    · rintro ⟨t, s⟩ ⟨-, hs, rfl⟩
      refine ⟨hs, ?_⟩
      rw [hrecords, Statistics.ofRecords_append]
    · refine ((failing_ends failure).mono (fun _ h => h) (fun _ _ h => h) ?_).bind fun _ => ends_pure ?_
      · rintro err rfl
        exact hfailure
      · rintro st ⟨⟨hs, ht⟩, rfl⟩
        exact ⟨hnext, hs, ht⟩
  have hrunning : Ends s₀.LogOnly (running {} (runPass store table .analyze count (analyzePage table)))
      (fun t s => P all (t, s)) (fun err => failure? table all = some err) := by
    refine running_ends (hpass.mono ?_ (fun _ _ h => h) fun _ h => h)
    rintro ⟨t, s⟩ ⟨rfl, hs⟩
    exact ⟨rfl, hs, rfl⟩
  unfold analyze
  refine Ends.bind (Q := fun _ => s₀.LogOnly) (fun s hs => hs) fun _ => hrunning.bind fun statistics => ?_
  rintro s ⟨hnone, hs, rfl⟩
  exact ⟨hnone, hs, rfl⟩

end Staging

end SnapshotStaging
