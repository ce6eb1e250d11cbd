import SnapshotStaging.Proofs.Load.Closure
import SnapshotStaging.Proofs.Load.Insertions
import SnapshotStaging.Proofs.Page.Layouts
import SnapshotStaging.Proofs.Stage.Failures

/-!
# The two passes agree

The first pass selects a type for each field from the counts of all its values, the second encodes value by
value. Both see the same records, so the type of a column suits every value that is written to it, and no
value of a kind that the column cannot hold is ever met.

Main result `passes_agree`: what the insertions of a table that was staged hold for each scalar member of each
record.
-/

namespace SnapshotStaging

open Journaled Encoder

/-! ## Values as they are stored -/

/-- A text is stored as it is, or as nothing when it is too long. -/
def StoresText (d : Dialect) (limit : Int) (s : String) (f : Sql.Field) : Prop :=
  if limit < s.length then f = .word "NULL".toList else f = .text (d.kept s)

/-- The field of a column holds a scalar without loss. -/
def Stores (d : Dialect) (limit : Int) (type : ColumnType) (v : Json) (f : Sql.Field) : Prop :=
  match type, v with
  | .bigint, .int n => f = .word (signedDigits n)
  | .boolean, .bool b => f = .word (if b then "TRUE" else "FALSE").toList
  | .numeric, .int n => f = .word (signedDigits n)
  | .numeric, .float x => f = .word (x.text Double.plainWords)
  | .timestamp, .str s => Shape.isDateTime s = true ∧ StoresText d limit s f
  | .reference, .str s => Shape.isUuid s = true ∧ StoresText d limit s f
  | .text, .str s => StoresText d limit s f
  | .text, v => StoresText d limit v.compact f
  | _, _ => False

theorem storesText_textOf (d : Dialect) (limit : Int) (s : String) :
    StoresText d limit s (Sql.fieldOf d (textOf limit s)) := by
  unfold StoresText textOf
  split <;> rfl

/-- A value that suits a column is stored there without loss. -/
theorem stores_of_suits (d : Dialect) (limit : Int) {type : ColumnType} {v : Json} (hnull : v.isNull = false)
    (h : type.Suits v) : Stores d limit type v (Sql.fieldOf d (type.literal limit v)) := by
  have htext (s : String) := storesText_textOf d limit s
  cases type with
  | bigint =>
    cases v with
    | int n => rfl
    | _ => cases h
  | boolean =>
    cases v with
    | bool b => cases b <;> rfl
    | _ => cases h
  | numeric =>
    cases v with
    | int n => rfl
    | float x => rfl
    | _ => cases h
  | timestamp =>
    cases v with
    | str s => exact ⟨h, htext s⟩
    | _ => cases h
  | text =>
    cases v with
    | null => cases hnull
    | _ => exact htext _
  | reference =>
    cases v with
    | str s => exact ⟨h, htext s⟩
    | _ => cases h

/-- A column has its place among the places of its table. -/
theorem Slot.value_mem_all {columns : List Column} {column : Column} (h : column ∈ columns) :
    .value column ∈ Slot.all columns := by
  have hcolumn : .value column ∈ Slot.ofColumn column := by
    unfold Slot.ofColumn
    split <;> simp
  simp only [Slot.all, List.mem_append, List.mem_flatMap]
  exact .inl (.inr ⟨column, h, hcolumn⟩)

/-- The field in the place of a column. -/
theorem Encoder.Shows.exists_field {d : Dialect} {e : Encoder} {k : KeyStore} {record : Json}
    {fields : List Sql.Field} (h : Shows d e k record fields) {column : Column} (hc : column ∈ e.columns) :
    (Slot.value column, Sql.fieldOf d (column.type.literal e.maxValueLength (column.valueIn record))) ∈
      (Slot.all e.columns).zip fields := by
  obtain ⟨f, hmem, l, hl, rfl⟩ := Slot.exists_mem_zip h (Slot.value_mem_all hc)
  cases hl
  exact hmem

namespace Staging

variable {σ : Type} {settings : Settings} {store : PageStore} {d : Definition}

/-! ## What a load asks for before its rows -/

/-- Since `s₀` statements with `p` were asked for. -/
def Asked (p : Statement → Prop) (s₀ s : Session (Journaled σ)) : Prop :=
  ∃ asked : List Statement, s.database.journal = asked.reverse ++ s₀.database.journal ∧ ∀ st ∈ asked, p st

/-- A task that fails for any reason, or has asked for statements with `p` only. -/
def Asks (p : Statement → Prop) {α : Type} (task : Task (Journaled σ) α) : Prop :=
  ∀ s₀, Ends (Asked p s₀) task (fun _ => Asked p s₀) fun _ => True

variable [Database σ]

theorem asks_closed (p : Statement → Prop) :
    Task.Closed (σ := Journaled σ) (fun _ => Asks p) p fun _ => True where
  pure _ _ := ends_pure fun _ h => h
  bind hx hf s₀ := (hx s₀).bind fun a => hf a s₀
  throw _ _ := ends_throw trivial
  log _ _ _ h := h
  execute {st} hst s₀ := by
    rintro s ⟨asked, hJ, hasked⟩
    have h := execute_ends st s
    split at h
    · next heq =>
      rw [heq]
      refine ⟨asked ++ [st], by simp [h.1, hJ], ?_⟩
      simpa [or_imp, forall_and] using ⟨hasked, hst⟩
    · next heq =>
      rw [heq]
      trivial

/-- Creating the loading table inserts nothing. -/
theorem asks_createLoadingTable (columns : List Column) :
    Asks (fun st => st.isInsertion = false)
      (createLoadingTable settings d columns : Task (Journaled σ) Unit) :=
  (asks_closed _).createLoadingTable rfl rfl (fun _ _ => rfl) (fun _ => rfl) (fun _ _ => trivial)
    fun _ _ _ => trivial

/-! ## The second pass -/

/-- The pass of a load, whose records are those of the pages as the rules leave them. -/
theorem loadPages_ends [Platform] (rules : Option Redaction.Rules) (count : Nat) (e₀ : Encoder)
    (he₀ : e₀.buffer.pending = []) (J₀ : List Statement) (k₀ : KeyStore) :
    Ends (Is e₀ J₀ k₀)
      (do runPass store d.label .load count (loadPage d.label rules); finish : Step (Journaled σ) Unit)
      (fun _ st => failure? d.label (pages store d.label count) = none ∧
        At (fun e J k => Written e₀ J₀ k₀ ((recordsOf d.label (pages store d.label count)).map (redacted rules))
          ((recordsOf d.label (pages store d.label count)).map (redacted rules)).length e J k ∧
            e.buffer.pending = []) st)
      fun _ => True := by
  let given (done : List (List UInt8)) : List Json := (recordsOf d.label done).map (redacted rules)
  let P (done : List (List UInt8)) (st : Encoder × Session (Journaled σ)) : Prop :=
    failure? d.label done = none ∧ At (Written e₀ J₀ k₀ (given done) (given done).length) st
  have hpass : Ends (P []) (runPass store d.label .load count (loadPage d.label rules))
      (fun _ => P (pages store d.label count)) fun _ => True := by
    refine runPass_ends (fun done t s log h => h) ?_
    intro done bytes later _
    refine Ends.assuming (fun _ h => h.1) fun hdone => ?_
    have hnext := failure?_append hdone bytes []
    have hrecords : given (done ++ [bytes]) = given done ++ (Page.records d.label bytes).1.map (redacted rules) := by
      simp only [given, recordsOf_append, List.map_append]
    unfold loadPage
    generalize Page.records d.label bytes = page at hnext hrecords ⊢
    obtain ⟨records, failure⟩ := page
    have hwritten := @writeAll_ends σ e₀ J₀ k₀ (given done) (fun _ => True) _ (fun _ _ => trivial) rules records
      fun _ _ _ _ => trivial
    have hlength : (given done).length + records.length = (given (done ++ [bytes])).length := by
      rw [hrecords, List.length_append]
      exact congrArg _ (List.length_map _).symm
    rw [← hrecords, hlength] at hwritten
    refine (hwritten.mono (fun _ h => h.2) (fun _ _ h => h) fun _ h => h).bind fun _ => ?_
    refine ((failing_ends failure).mono (fun _ h => h) (fun _ _ h => h) fun _ _ => trivial).bind fun _ =>
      ends_pure ?_
    rintro st ⟨h, rfl⟩
    exact ⟨hnext, h⟩
  refine Ends.mono (P := P []) ?_ ?_ (fun _ _ h => h) fun _ h => h
  · exact hpass.bind fun _ => Ends.assuming (fun _ h => h.1) fun hnone =>
      (finish_ends fun _ _ => trivial).mono (fun _ h => h.2) (fun _ _ h => ⟨hnone, h⟩) fun _ h => h
  · rintro ⟨e, s⟩ ⟨rfl, rfl, rfl⟩
    exact ⟨rfl, Written.refl he₀⟩

/-- What a load of a table without rules has done when it succeeds. -/
structure Loaded [Platform] (settings : Settings) (store : PageStore) (d : Definition) (columns : List Column)
    (count : Nat) (J₀ : List Statement) (e : Encoder) (J : List Statement) : Prop where
  failure : failure? d.label (pages store d.label count) = none
  written : e.written = (recordsOf d.label (pages store d.label count)).length
  warnings : e.warnings = ((recordsOf d.label (pages store d.label count)).map (Encoder.start d.label columns
    settings.dialect settings.tenant settings.maxValueLength settings.flushThreshold).warningsOf).sum
  rows : ∃ asked rows k, J = asked.reverse ++ J₀ ∧ Statement.Lists settings.dialect d.label asked rows ∧
    List.Forall₂ (Shows settings.dialect (Encoder.start d.label columns settings.dialect settings.tenant
      settings.maxValueLength settings.flushThreshold) k) (recordsOf d.label (pages store d.label count)) rows

theorem load_ends [Platform] (hrules : Redaction.Policy.rulesFor? settings.redaction d.label = none)
    (columns : List Column) (count : Nat) (s₀ : Session (Journaled σ)) :
    Ends (· = s₀) (load settings store d columns count)
      (fun e s => Loaded settings store d columns count s₀.database.journal e s.database.journal)
      fun _ => True := by
  let e₀ := Encoder.start d.label columns settings.dialect settings.tenant settings.maxValueLength
    settings.flushThreshold
  have hpass : Ends (Asked (fun st => st.isInsertion = false) s₀)
      (running e₀ do
        runPass store d.label .load count (loadPage d.label none)
        finish)
      (fun e s => Loaded settings store d columns count s₀.database.journal e s.database.journal)
      fun _ => True := by
    let Q (st : Encoder × Session (Journaled σ)) : Prop :=
      Loaded settings store d columns count s₀.database.journal st.1 st.2.database.journal
    refine running_ends (Q := Q) ?_
    rintro ⟨e, s⟩ ⟨rfl, asked₀, hJ, hasked₀⟩
    refine (loadPages_ends none count e₀ rfl s.database.journal s.keys).mono (fun _ h => h) ?_ (fun _ h => h) _
      ⟨rfl, rfl, rfl⟩
    rw [show (recordsOf d.label (pages store d.label count)).map (redacted none) = _ from List.map_id _]
    rintro _ ⟨e, s'⟩ ⟨hfailure, hwritten, hnone⟩
    obtain ⟨asked, hJ', hasked, hrows⟩ := hwritten.listed
    rw [InsertBuffer.waiting, hnone, List.reverse_nil, List.append_nil] at hrows
    refine ⟨hfailure, by simpa [e₀, Encoder.start] using hwritten.written,
      by simpa [e₀, Encoder.start] using hwritten.warnings, asked₀ ++ asked, _, s'.keys, ?_,
      Statement.lists_append (Statement.lists_of_isEmpty hasked₀) (Statement.lists_insertedRows hasked), ?_⟩
    · rw [hJ', hJ, List.reverse_append, List.append_assoc]
    · rw [List.nil_append, List.forall₂_map_right_iff]
      exact hrows.imp fun record row hrow => shows_fieldsOf _ hrow
  have hcreated : Ends (· = s₀) (createLoadingTable settings d columns : Task (Journaled σ) Unit)
      (fun _ => Asked (fun st => st.isInsertion = false) s₀) fun _ => True := by
    refine (asks_createLoadingTable columns s₀).mono ?_ (fun _ _ h => h) fun _ h => h
    rintro s rfl
    exact ⟨[], rfl, List.forall_mem_nil _⟩
  have hloaded := hcreated.bind fun _ => (Ends.bind (x := Task.note .info s!"Staging: {d.label}: load")
    (Q := fun _ => Asked (fun st => st.isInsertion = false) s₀) (fun s hs => hs) fun _ => hpass)
  unfold load
  dsimp only
  rw [hrules]
  cases d.name with
  | str name => exact hloaded
  | _ => exact Ends.bind (Q := fun _ _ => False) (ends_throw trivial) fun _ _ h => h.elim

/-! ## Both passes -/

/-- What both passes have done when staging a table without rules succeeds. -/
structure Staged [Platform] (settings : Settings) (store : PageStore) (d : Definition) (J₀ : List Statement)
    (result : StageResult) (J : List Statement) : Prop where
  counted : ∃ count, store.pageCount d.label = .ok count ∧ result.pages = count.getD 0
  statistics : (Statistics.ofRecords (recordsOf d.label (pages store d.label result.pages))).records =
    result.analyzed
  columns : Column.infer ColumnType.select
    (Statistics.ofRecords (recordsOf d.label (pages store d.label result.pages))) = result.columns
  loaded : ∃ e, Loaded settings store d result.columns result.pages J₀ e J ∧ e.written = result.loaded ∧
    e.warnings = result.warnings

theorem stage_ends [Platform] (hrules : Redaction.Policy.rulesFor? settings.redaction d.label = none)
    (s₀ : Session (Journaled σ)) :
    Ends (· = s₀) (stage settings store d)
      (fun result s => Staged settings store d s₀.database.journal result s.database.journal)
      fun _ => True := by
  have hcount : Ends (· = s₀) (pageCount store d.label)
      (fun n s => s₀.LogOnly s ∧ ∃ count, store.pageCount d.label = .ok count ∧ n = count.getD 0) fun _ => True :=
    (pageCount_ends store d.label s₀).mono (fun s h => h ▸ ⟨rfl, rfl⟩) (fun _ _ h => h) fun _ _ => trivial
  unfold stage
  refine hcount.bind fun count => Ends.assuming (fun _ h => h.2) fun hpages => ?_
  refine Ends.bind (Q := fun _ => s₀.LogOnly) (fun s hs => hs.1) fun _ => ?_
  refine ((analyze_ends store d.label count s₀).mono (fun _ h => h) (fun _ _ h => h) fun _ _ => trivial).bind ?_
  rintro ⟨statistics, columns⟩
  refine Ends.assuming (fun _ h => h.2.2) fun heq => ?_
  obtain ⟨rfl, rfl⟩ := Prod.mk.inj heq
  refine Ends.bind (Q := fun e s => Loaded settings store d
    (Column.infer ColumnType.select (Statistics.ofRecords (recordsOf d.label (pages store d.label count)))) count
    s₀.database.journal e s.database.journal)
    (Task.loadTransaction_ends ?_ fun _ _ => trivial) fun e => ?_
  · rintro s ⟨-, hs, -⟩
    have hjournal : s.loadStarted.database.journal = s₀.database.journal := by
      rw [← hs.1]
      rfl
    rw [← hjournal]
    exact load_ends hrules _ count s.loadStarted
  · intro s hs
    exact ⟨hpages, rfl, rfl, e, hs, rfl, rfl⟩

/-- **The two passes agree.** When a table without rules is staged, no page has failed, and both passes have
seen all records of all pages. The insertions, read by a database of the dialect, list one row for each record
in order; each scalar member of a record that is neither null nor the identifier has exactly one column, and
the row's field there holds the value as it is. Only a text that is too long is not stored, and that costs one
warning. -/
theorem passes_agree [Platform] (hrules : Redaction.Policy.rulesFor? settings.redaction d.label = none)
    {s s' : Session (Journaled σ)} {result : StageResult} (h : stage settings store d s = .ok result s') :
    let records := recordsOf d.label (pages store d.label result.pages)
    let e := Encoder.start d.label result.columns settings.dialect settings.tenant settings.maxValueLength
      settings.flushThreshold
    (∃ count, store.pageCount d.label = .ok count ∧ result.pages = count.getD 0) ∧
    failure? d.label (pages store d.label result.pages) = none ∧
    result.analyzed = records.length ∧ result.loaded = records.length ∧
    result.warnings = (records.map e.warningsOf).sum ∧
    ∃ asked rows, s'.database.journal = asked.reverse ++ s.database.journal ∧
      Statement.Lists settings.dialect d.label asked rows ∧
      List.Forall₂ (fun record fields => fields.length = (Slot.all result.columns).length ∧
        ∀ name v, record.member? name = some v → name ≠ idField → v.isContainer = false → v.isNull = false →
          ∃ column f, result.columns.filter (·.source = name) = [column] ∧
            (Slot.value column, f) ∈ (Slot.all result.columns).zip fields ∧
            Stores settings.dialect settings.maxValueLength column.type v f) records rows := by
  intro records e
  obtain ⟨hpages, hstatistics, hcolumns, e', hloaded, hwritten, hwarnings⟩ := (stage_ends hrules s).of_ok rfl h
  obtain ⟨asked, rows, k, hJ, hlists, hrows⟩ := hloaded.rows
  refine ⟨hpages, hloaded.failure, ?_, ?_, ?_, asked, rows, hJ, hlists, ?_⟩
  · rw [← hstatistics, (Statistics.ofRecords_spec records).1]
  · rw [← hwritten, hloaded.written]
  · rw [← hwarnings, hloaded.warnings]
  · refine List.forall₂_iff_get.2 ⟨hrows.length_eq, fun i hi hi' => ?_⟩
    have hshows := hrows.get hi hi'
    refine ⟨hshows.length_eq.symm, fun name v hmember hid hscalar hnull => ?_⟩
    obtain ⟨column, honly, hsource, hsuits⟩ := Column.infer_spec (List.get_mem ..) hmember hid hscalar hnull
    rw [hcolumns] at honly
    have hcolumn : column ∈ result.columns :=
      List.mem_of_mem_filter (p := (·.source = name)) (by rw [honly]; exact List.mem_singleton_self _)
    refine ⟨column, _, honly, hshows.exists_field hcolumn, ?_⟩
    have hvalue : column.valueIn (records.get ⟨i, hi⟩) = v := by
      rw [Column.valueIn, hsource, hmember]
      rfl
    rw [hvalue]
    exact stores_of_suits _ _ hnull hsuits

/-- Recorders that refuse nothing, with keys in memory. -/
def Willing (s : Session (Journaled Recorder)) : Prop :=
  s.database.database.refused = [] ∧ s.keys.isDurable = false

/-- The first of them. -/
def willing : Session (Journaled Recorder) := ⟨⟨⟨.postgresql, [], -1, []⟩, []⟩, .memory .empty, []⟩

theorem steady_willing : Steady Willing fun _ => False where
  log _ _ h := h
  execute st := by
    rintro ⟨⟨⟨dialect, refused, appended, texts⟩, J⟩, keys, log⟩ ⟨rfl, hkeys⟩
    cases st <;> exact ⟨rfl, hkeys⟩
  resolve scope id := by
    rintro ⟨db, keys, log⟩ ⟨hdb, hkeys⟩
    cases keys with
    | memory k => exact ⟨hdb, rfl⟩
    | durable k => cases hkeys
  started s h := ⟨h.1, (KeyStore.extends_started _).kind.trans h.2⟩
  committed s h := ⟨h.1, (KeyStore.extends_committed _).kind.trans h.2⟩
  commits _ h := nomatch h

/-- Staging a single page that does not fail, on a database that refuses nothing. -/
theorem stage_single [Platform] {bytes : List UInt8} {records : List Json}
    (hrecords : Page.records "t" bytes = (records, none))
    (hid : ∀ record ∈ records, ∃ id, identifier "t" record = .ok id) :
    ∃ result s', stage {} (single "t" bytes) ⟨.str "t", .null, .null, false⟩ willing = .ok result s' ∧
      recordsOf "t" (pages (single "t" bytes) "t" result.pages) = records := by
  have hcount := (single_spec filed_t bytes).1
  obtain ⟨hgiven, hfailure⟩ := single_records filed_t bytes
  rw [hrecords] at hgiven hfailure
  have hfails : Fails Willing (StageFailure (fun _ => False) {} (single "t" bytes) ⟨.str "t", .null, .null, false⟩)
      (stage {} (single "t" bytes) ⟨.str "t", .null, .null, false⟩) := stage_fails steady_willing
  have hfails := hfails willing ⟨rfl, rfl⟩
  split at hfails
  · next result s' hstage =>
    obtain ⟨count, hcount', hresult⟩ := ((stage_ends rfl _).of_ok rfl hstage).counted
    cases hcount.symm.trans hcount'
    rw [Option.getD_some] at hresult
    exact ⟨result, s', hstage, by rw [hresult, hgiven]⟩
  · cases hfails with
    | count h => cases hcount.symm.trans h
    | page hcount' h =>
      cases hcount.symm.trans hcount'
      cases hfailure.symm.trans h
    | definition h =>
      cases h with
      | name h => exact absurd rfl (h "t")
      | comment h => cases h
      | text h => cases h
    | @unidentified _ record _ hcount' hrecord h =>
      cases hcount.symm.trans hcount'
      have hmem : record ∈ recordsOf "t" (pages (single "t" bytes) "t" 1) := hrecord
      rw [hgiven] at hmem
      obtain ⟨id, hok⟩ := hid record hmem
      cases hok.symm.trans h
    | refused h => exact h.elim

/-- A number and a truth value in one field are both stored as texts. -/
theorem passes_agree_mixed : ∃ result s' asked rows fields column f,
    stage {} (single "t" "[\x7b\"id\":\"1\",\"a\":5\x7d,\x7b\"id\":\"2\",\"a\":true\x7d]".toUTF8.toList)
      ⟨.str "t", .null, .null, false⟩ willing = .ok result s' ∧
    Redaction.Policy.rulesFor? defaultRedaction "t" = none ∧ result.loaded = 2 ∧
    s'.database.journal = asked.reverse ∧ Statement.Lists .postgresql "t" asked rows ∧ rows[1]? = some fields ∧
    result.columns.filter (·.source = "a") = [column] ∧
    (Slot.value column, f) ∈ (Slot.all result.columns).zip fields ∧
    Stores .postgresql 65535 column.type (.bool true) f := by
  have hpage : Page.records "t" "[\x7b\"id\":\"1\",\"a\":5\x7d,\x7b\"id\":\"2\",\"a\":true\x7d]".toUTF8.toList =
      ([.obj [("id", .str "1"), ("a", .int 5)], .obj [("id", .str "2"), ("a", .bool true)]], none) :=
    Page.records_of_tokens "t" [.obj [("id", .leaf (.string, .str "1")), ("a", .leaf (.number, .int 5))],
      .obj [("id", .leaf (.string, .str "2")), ("a", .leaf (.boolean, .bool true))]] (by decide +kernel) rfl rfl rfl rfl
  obtain ⟨result, s', hstage, hrecords⟩ := stage_single hpage
    (by simp [identifier, Json.asRecord, bind, Except.bind, Json.member?, Json.find?, idField])
  obtain ⟨-, -, -, hloaded, -, asked, rows, hJ, hlists, hrows⟩ :=
    passes_agree (d := ⟨.str "t", .null, .null, false⟩) rfl hstage
  have hloaded : result.loaded = 2 := hloaded.trans (congrArg List.length hrecords)
  have hlabel : Definition.label ⟨.str "t", .null, .null, false⟩ = "t" := rfl
  rw [hlabel, hrecords] at hrows
  cases hrows with
  | cons hfirst hrows =>
    cases hrows with
    | @cons _ fields _ _ hsecond _ =>
      obtain ⟨column, f, honly, hmem, hstores⟩ := hsecond.2 "a" (.bool true) rfl (by decide) rfl rfl
      exact ⟨result, s', asked, _, fields, column, f, hstage, rfl, hloaded, by simpa [willing] using hJ, hlists,
        rfl, honly, hmem, hstores⟩

/-- A text with a character that the database cannot hold is stored without it. -/
theorem passes_agree_lossy : ∃ result s' asked fields,
    stage {} (single "t" "[\x7b\"id\":\"1\",\"a\":\"x\\u0000y\"\x7d]".toUTF8.toList)
      ⟨.str "t", .null, .null, false⟩ willing = .ok result s' ∧
    (Page.records "t" "[\x7b\"id\":\"1\",\"a\":\"x\\u0000y\"\x7d]".toUTF8.toList).1 =
      [.obj [("id", .str "1"), ("a", .str "x\x00y")]] ∧
    s'.database.journal = asked.reverse ∧ Statement.Lists .postgresql "t" asked [fields] ∧
    (Slot.all result.columns)[2]? = some (.value ⟨"a", "a", .text⟩) ∧
    fields[2]? = some (.text "xy".toList) ∧ "xy".toList ≠ "x\x00y".toList := by
  have hpage : Page.records "t" "[\x7b\"id\":\"1\",\"a\":\"x\\u0000y\"\x7d]".toUTF8.toList =
      ([.obj [("id", .str "1"), ("a", .str "x\x00y")]], none) :=
    Page.records_of_tokens "t" [.obj [("id", .leaf (.string, .str "1")), ("a", .leaf (.string, .str "x\x00y"))]]
      (by decide +kernel) rfl rfl rfl rfl
  obtain ⟨result, s', hstage, hrecords⟩ := stage_single hpage
    (by simp [identifier, Json.asRecord, bind, Except.bind, Json.member?, Json.find?, idField])
  obtain ⟨-, -, hcolumns, e, hloaded, -, -⟩ := (stage_ends rfl _).of_ok rfl hstage
  have hinfer : Column.infer ColumnType.select
      (Statistics.ofRecords [.obj [("id", .str "1"), ("a", .str "x\x00y")]]) = [⟨"a", "a", .text⟩] :=
    (Column.infer_eq_insertionSort _ (by decide +kernel)).trans (by decide +kernel)
  obtain ⟨asked, rows, k, hJ, hlists, hrows⟩ := hloaded.rows
  have hlabel : Definition.label ⟨.str "t", .null, .null, false⟩ = "t" := rfl
  rw [hlabel, hrecords] at hcolumns hrows
  rw [← hcolumns, hinfer] at hrows
  cases hrows with
  | @cons _ fields _ _ hfields hrest =>
    cases hrest
    refine ⟨result, s', asked, fields, hstage, congrArg Prod.fst hpage, by simpa [willing] using hJ, hlists,
      by rw [← hcolumns, hinfer]; rfl, ?_, by decide⟩
    obtain _ | ⟨-, _ | ⟨-, _ | ⟨⟨_, ⟨⟩, rfl⟩, -⟩⟩⟩ := hfields
    rfl

end Staging

end SnapshotStaging
