import SnapshotStaging.Proofs.Stage.Agreement
import SnapshotStaging.Proofs.Stage.Completion
import SnapshotStaging.Proofs.Stage.Invariants

/-!
# Where inserted rows come from

A row that a load inserts is the row of one of the records that it was given, as the rules leave them. That is so
of a load that fails as well: what it has asked for before, and what it was refused, are rows of records. So a
question about what stands in a row is one about a single record and a single place.

Main results: `stage_traces`, and `stage_lists`, by which a load that succeeds has inserted a row for each record.
-/

namespace SnapshotStaging

open Journaled Encoder

variable {σ : Type} {J₀ J : List Statement} {good : Row → Prop}

/-! ## What was asked for -/

/-- Since the journal was `J₀` good rows only were inserted. -/
def Inserts (good : Row → Prop) (J₀ J : List Statement) : Prop :=
  ∃ asked : List Statement, J = asked.reverse ++ J₀ ∧ ∀ st ∈ asked, ∀ row ∈ st.insertedRows, good row

theorem Inserts.refl (good : Row → Prop) (J₀ : List Statement) : Inserts good J₀ J₀ := ⟨[], rfl, nofun⟩

theorem Inserts.mono {good' : Row → Prop} (h : Inserts good J₀ J) (hgood : ∀ row, good row → good' row) :
    Inserts good' J₀ J := by
  obtain ⟨asked, hJ, hasked⟩ := h
  exact ⟨asked, hJ, fun st hst row hrow => hgood row (hasked st hst row hrow)⟩

theorem Inserts.asked {st : Statement} (h : Inserts good J₀ J) (hst : ∀ row ∈ st.insertedRows, good row) :
    Inserts good J₀ (st :: J) := by
  obtain ⟨asked, rfl, hasked⟩ := h
  refine ⟨asked ++ [st], by simp, ?_⟩
  intro st' hst'
  rcases List.mem_append.1 hst' with hst' | hst'
  · exact hasked st' hst'
  · rw [List.mem_singleton.1 hst']
    exact hst

section

variable [Database σ]

/-- Whatever becomes of a statement, it is in the journal. -/
theorem journal_execute (st : Statement) (s : Session (Journaled σ)) :
    (resulting (Task.execute st s)).database.journal = st :: s.database.journal ∧
      (resulting (Task.execute st s)).keys = s.keys := by
  have heq : (Database.execute st : EStateM Error (Journaled σ) Int) = Journaled.execute st := rfl
  simp only [Task.execute, heq, Journaled.execute]
  cases Database.execute st s.database.database <;> exact ⟨rfl, rfl⟩

/-- What requests for keys do is not in the journal. -/
theorem preserved_journal (p : List Statement → Prop) : Preserved fun j : Journaled σ => p j.journal where
  start _ h := h
  commit _ h := h
  rollback _ h := h
  readable _ h := h
  addKeys _ _ h := h

/-- Statements that insert good rows only. -/
theorem invariant_inserts (good : Row → Prop) (J₀ : List Statement) :
    Invariant (fun st => ∀ row ∈ st.insertedRows, good row)
      fun s : Session (Journaled σ) => Inserts good J₀ s.database.journal :=
  (preserved_journal (Inserts good J₀)).invariant fun {st} hst => leaves_of_resulting fun s result h hresult => by
    subst hresult
    rw [(journal_execute st s).1]
    exact Inserts.asked h hst

/-- Steps that ask for nothing. -/
theorem invariant_journal (J : List Statement) :
    Invariant (fun _ => False) fun s : Session (Journaled σ) => s.database.journal = J :=
  (preserved_journal (· = J)).invariant nofun

end

/-! ## The encoder -/

namespace Encoder

variable {e₀ e : Encoder} {k : KeyStore} {known : KeyStore → Prop} {record : Json}

/-- Good rows only were inserted since the journal was `J₀`, and good rows only wait. -/
structure Traced (e₀ : Encoder) (J₀ : List Statement) (good : Row → Prop) (known : KeyStore → Prop) (e : Encoder)
    (J : List Statement) (k : KeyStore) : Prop where
  alike : Alike e₀ e
  table : e.table = e₀.table
  inserts : Inserts good J₀ J
  waiting : ∀ row ∈ e.buffer.waiting, good row
  keys : known k

/-- What leaves the encoder and the journal alone may tell more of the keys. -/
theorem Traced.same {known' : KeyStore → Prop} {e' : Encoder} {k' : KeyStore} (h : Traced e₀ J₀ good known e J k)
    {J' : List Statement} (he : e' = e) (hJ : J' = J) (hk : known' k') : Traced e₀ J₀ good known' e' J' k' := by
  subst he hJ
  exact ⟨h.alike, h.table, h.inserts, h.waiting, hk⟩

/-- What a failure leaves of that. -/
def Inserted (J₀ : List Statement) (good : Row → Prop) (st : Encoder × Session (Journaled σ)) : Prop :=
  Inserts good J₀ st.2.database.journal

variable [Database σ]

theorem execute_traced {st : Statement} (hst : ∀ row ∈ st.insertedRows, good row) :
    Leaves (At (Traced e₀ J₀ good known)) (Pass.onSession (Task.execute st) : Step (Journaled σ) Int)
      (fun _ => At (Traced e₀ J₀ good known)) (Inserted J₀ good) := by
  refine onSession_leaves fun e => leaves_of_outcomes (fun s n s' h hresult => ?_) fun s err s' h hresult => ?_
  · have hjournal := journal_execute st s
    rw [hresult] at hjournal
    obtain ⟨hJ, hk⟩ := hjournal
    have hJ : s'.database.journal = st :: s.database.journal := hJ
    have hk : s'.keys = s.keys := hk
    refine ⟨h.alike, h.table, ?_, h.waiting, ?_⟩
    · show Inserts good J₀ s'.database.journal
      rw [hJ]
      exact h.inserts.asked hst
    · show known s'.keys
      rw [hk]
      exact h.keys
  · have hjournal := (journal_execute st s).1
    rw [hresult] at hjournal
    show Inserts good J₀ s'.database.journal
    rw [show s'.database.journal = _ from hjournal]
    exact h.inserts.asked hst

theorem send_traced {rows : List Row} (hrows : ∀ row ∈ rows, good row) :
    Leaves (At (Traced e₀ J₀ good known)) (Pass.onSession (send e₀.table rows) : Step (Journaled σ) Unit)
      (fun _ => At (Traced e₀ J₀ good known)) (Inserted J₀ good) := by
  unfold send
  rw [Pass.onSession_bind, discard_eq_bind, Pass.onSession_bind]
  refine Leaves.bind (Q := fun _ => At (Traced e₀ J₀ good known)) (fun _ h => h) fun _ => ?_
  have hinsert : ∀ row ∈ (Statement.insert e₀.table rows).insertedRows, good row := hrows
  exact (execute_traced hinsert).bind fun _ => leaves_pure fun _ h => h

theorem onBuffer_flush_traced : Leaves (At (Traced e₀ J₀ good known))
    (onBuffer (InsertBuffer.flush (send e₀.table)) : Step (Journaled σ) Bool)
    (fun _ => At (Traced e₀ J₀ good known)) (Inserted J₀ good) := by
  rw [Closed.onBuffer_flush_eq]
  refine own_leaves fun e => ?_
  by_cases hnone : e.buffer.pending.isEmpty = true
  · rw [if_pos hnone]
    exact leaves_pure fun st h => h.2
  · rw [if_neg hnone]
    refine leaves_each fun st hst => ?_
    obtain ⟨rfl, h⟩ := hst
    refine ((send_traced h.waiting).mono (fun _ heq => heq ▸ h) (fun _ _ h => h) fun _ h => h).bind fun _ => ?_
    refine Leaves.bind (Q := fun _ => At (Traced e₀ J₀ good known)) ?_ fun _ => leaves_pure fun _ h => h
    exact fun st h => ⟨h.alike, h.table, h.inserts, nofun, h.keys⟩

theorem flush_traced : Leaves (At (Traced e₀ J₀ good known)) (flush : Step (Journaled σ) Unit)
    (fun _ => At (Traced e₀ J₀ good known)) (Inserted J₀ good) := by
  unfold flush
  refine own_leaves fun e => leaves_each fun st hst => ?_
  obtain ⟨rfl, h⟩ := hst
  rw [h.table]
  exact onBuffer_flush_traced.discard.mono (fun _ heq => heq ▸ h) (fun _ _ h => h) fun _ h => h

/-- A good row more. -/
theorem onBuffer_add_traced {row : Row} (hrow : good row) (length : Nat) (id : Option String) :
    Leaves (At (Traced e₀ J₀ good known))
      (onBuffer (InsertBuffer.add (send e₀.table) row length id) : Step (Journaled σ) Unit)
      (fun _ => At (Traced e₀ J₀ good known)) (Inserted J₀ good) := by
  rw [Closed.onBuffer_add_eq]
  refine Leaves.bind (Q := fun _ => At (Traced e₀ J₀ good known)) ?_ fun _ => ?_
  · rintro ⟨e, s⟩ h
    refine ⟨h.alike, h.table, h.inserts, ?_, h.keys⟩
    intro r hr
    rcases List.mem_cons.1 (List.mem_reverse.1 hr) with rfl | hr
    · exact hrow
    · exact h.waiting r (List.mem_reverse.2 hr)
  · refine own_leaves fun e => ?_
    split
    · exact onBuffer_flush_traced.discard.mono (fun _ h => h.2) (fun _ _ h => h) fun _ h => h
    · exact leaves_pure fun _ h => h.2

theorem replaceEarlier_traced (id : String) (sk : Nat) :
    Leaves (At (Traced e₀ J₀ good known)) (replaceEarlier id sk : Step (Journaled σ) Unit)
      (fun _ => At (Traced e₀ J₀ good known)) (Inserted J₀ good) := by
  have hrest (table : String) : Leaves (At (Traced e₀ J₀ good known)) (do
      discard (Pass.onSession (Task.execute (.deleteKey table sk)))
      Pass.update fun e => { e with replaced := e.replaced + 1 }
      Pass.onSession (Task.note .debug s!"Record replaced by later occurrence: {table}: id {id}") :
        Step (Journaled σ) Unit) (fun _ => At (Traced e₀ J₀ good known)) (Inserted J₀ good) := by
    refine (execute_traced nofun).discard.bind fun _ => ?_
    refine Leaves.bind (Q := fun _ => At (Traced e₀ J₀ good known)) ?_ fun _ => fun _ h => h
    exact fun st h => ⟨h.alike, h.table, h.inserts, h.waiting, h.keys⟩
  unfold replaceEarlier
  refine own_leaves fun e => ?_
  dsimp only
  split
  · exact (flush_traced.mono (fun _ h => h.2) (fun _ _ h => h) fun _ h => h).bind fun _ => hrest e.table
  · exact (hrest e.table).mono (fun _ h => h.2) (fun _ _ h => h) fun _ h => h

/-- A record whose key is known becomes a good row. -/
theorem encode_traced {sk : Nat}
    (hgood : ∀ k row, Slot.Fills e₀ k record (Slot.all e₀.columns) row.literals → good row) :
    Leaves (At (Traced e₀ J₀ good fun k => k.key? e₀.table (idOf record) = some sk))
      (encode record (idOf record) sk : Step (Journaled σ) Row)
      (fun row st => good row ∧ At (Traced e₀ J₀ good fun _ => True) st) (Inserted J₀ good) := by
  refine leaves_of_outcomes (fun st row st' h hresult => ?_) fun st err st' h hresult => ?_
  · have hkey : st.2.keys.key? st.1.table (idOf record) = some sk := by
      rw [h.table]
      exact h.keys
    obtain ⟨⟨he, hJ, -⟩, hfills⟩ := (encode_ends hkey).of_ok ⟨rfl, rfl, rfl⟩ hresult
    rw [h.alike.1] at hfills
    have hrow : good row :=
      hgood _ row (hfills.imp fun slot l hl => (literal?_congr h.alike h.table slot).symm.trans hl)
    have hwarned : Traced e₀ J₀ good (fun _ => True) (st.1.warned (st.1.warningsOf record)) st.2.database.journal
        st.2.keys := ⟨h.alike, h.table, h.inserts, h.waiting, trivial⟩
    exact ⟨hrow, hwarned.same he hJ trivial⟩
  · have hquiet := ((invariant_journal (σ := σ) st.2.database.journal).encoder_closed st.1.table).encode
      record (idOf record) sk
    have hJ : st'.2.database.journal = st.2.database.journal := hquiet.of_error ⟨rfl, rfl⟩ hresult
    show Inserts good J₀ st'.2.database.journal
    rw [hJ]
    exact h.inserts

/-- The key of a record. -/
theorem resolve_traced (scope id : String) :
    Leaves (At (Traced e₀ J₀ good fun _ => True)) (Pass.onSession (Task.resolve scope id) : Step (Journaled σ) Nat)
      (fun sk => At (Traced e₀ J₀ good fun k => k.key? scope id = some sk)) (Inserted J₀ good) := by
  refine leaves_of_outcomes (fun st sk st' h hresult => ?_) fun st err st' h hresult => ?_
  · obtain ⟨he, hJ, -, hkey⟩ := (ends_resolve scope id).of_ok ⟨rfl, rfl, rfl⟩ hresult
    exact h.same he hJ hkey
  · have hquiet := ((invariant_journal (σ := σ) st.2.database.journal).encoder_closed st.1.table).resolve scope id
    have hJ : st'.2.database.journal = st.2.database.journal := hquiet.of_error ⟨rfl, rfl⟩ hresult
    show Inserts good J₀ st'.2.database.journal
    rw [hJ]
    exact h.inserts

/-- **Writing a record** inserts good rows only, when its own is one. -/
theorem write_traced (hgood : ∀ k row, Slot.Fills e₀ k record (Slot.all e₀.columns) row.literals → good row) :
    Leaves (At (Traced e₀ J₀ good fun _ => True)) (write record : Step (Journaled σ) Unit)
      (fun _ => At (Traced e₀ J₀ good fun _ => True)) (Inserted J₀ good) := by
  unfold write
  refine own_leaves fun e => leaves_each fun st hst => ?_
  obtain ⟨rfl, h⟩ := hst
  refine Leaves.mono (P := At (Traced e₀ J₀ good fun _ => True)) ?_ (fun _ heq => heq ▸ h) (fun _ _ h => h) fun _ h => h
  rw [h.table]
  cases hident : identifier e₀.table record with
  | error err => exact Leaves.bind (Q := fun _ _ => False) (leaves_throw fun _ h => h.inserts) fun _ _ h => h.elim
  | ok id =>
    simp only [pure_bind]
    rw [← idOf_eq hident]
    refine (resolve_traced _ _).bind fun sk => ?_
    have hrest : Leaves (At (Traced e₀ J₀ good fun k => k.key? e₀.table (idOf record) = some sk)) (do
        let row ← encode record (idOf record) sk
        onBuffer (InsertBuffer.add (send e₀.table) row (row.sql st.1.dialect).length (some (idOf record)))
        Pass.update fun e => { e with written := e.written + 1 } : Step (Journaled σ) Unit)
        (fun _ => At (Traced e₀ J₀ good fun _ => True)) (Inserted J₀ good) := by
      refine (encode_traced hgood).bind fun row => .assuming fun hrow => ?_
      refine (onBuffer_add_traced hrow _ _).bind fun _ => ?_
      exact fun st h => ⟨h.alike, h.table, h.inserts, h.waiting, h.keys⟩
    refine Leaves.bind (Q := fun _ => At (Traced e₀ J₀ good fun k => k.key? e₀.table (idOf record) = some sk))
      (fun st h => ⟨h.alike, h.table, h.inserts, h.waiting, h.keys⟩) fun before => ?_
    cases before with
    | true => exact (replaceEarlier_traced _ _).bind fun _ => hrest
    | false => exact hrest

theorem writeAll_traced (rules : Option Redaction.Rules) {records : List Json}
    (hgood : ∀ record ∈ records, ∀ k row,
      Slot.Fills e₀ k (Staging.redacted rules record) (Slot.all e₀.columns) row.literals → good row) :
    Leaves (At (Traced e₀ J₀ good fun _ => True)) (Staging.writeAll rules records : Step (Journaled σ) Unit)
      (fun _ => At (Traced e₀ J₀ good fun _ => True)) (Inserted J₀ good) := by
  induction records with
  | nil => exact leaves_pure fun _ h => h
  | cons record rest ih =>
    rw [List.forall_mem_cons] at hgood
    exact (write_traced hgood.1).bind fun _ => ih hgood.2

end Encoder

/-! ## Both passes -/

namespace Staging

variable [Database σ] {settings : Settings} {store : PageStore} {d : Definition} {columns : List Column} {count : Nat}

/-- The records that a load is given, as the rules leave them. -/
def offered [Platform] (settings : Settings) (store : PageStore) (table : String) : List Json :=
  match store.pageCount table with
  | .ok count => given settings table (pages store table (count.getD 0))
  | .error _ => []

/-- The only page offers its records. -/
theorem offered_single [Platform] {table : String} (h : Filed table) (bytes : List UInt8) :
    offered settings (single table bytes) table =
      (Page.records table bytes).1.map (redacted (Redaction.Policy.rulesFor? settings.redaction table)) := by
  rw [offered, (single_spec h bytes).1]
  dsimp only
  rw [Option.getD_some, given, (single_records h bytes).1]

/-- A row is that of a record. -/
def RowOf (settings : Settings) (d : Definition) (columns : List Column) (record : Json) (row : Row) : Prop :=
  ∃ k, Slot.Fills (encoderOf settings d columns) k record (Slot.all columns) row.literals

theorem loadPage_traced [Platform] {e₀ : Encoder} {bytes : List UInt8}
    (hgood : ∀ record ∈ given settings e₀.table [bytes], ∀ k row,
      Slot.Fills e₀ k record (Slot.all e₀.columns) row.literals → good row) :
    Leaves (At (Traced e₀ J₀ good fun _ => True))
      (loadPage e₀.table (Redaction.Policy.rulesFor? settings.redaction e₀.table) bytes : Step (Journaled σ) Nat)
      (fun _ => At (Traced e₀ J₀ good fun _ => True)) (Inserted J₀ good) := by
  have hrecords : given settings e₀.table [bytes] = (Page.records e₀.table bytes).1.map
      (redacted (Redaction.Policy.rulesFor? settings.redaction e₀.table)) := by
    simp [given, recordsOf]
  rw [hrecords, List.forall_mem_map] at hgood
  unfold loadPage
  generalize Page.records e₀.table bytes = page at hgood
  obtain ⟨records, failure⟩ := page
  exact (writeAll_traced _ hgood).bind fun _ => (failing_leaves failure fun _ h => h.inserts).bind fun _ =>
    leaves_pure fun _ h => h

/-- A load inserts rows of the records that its pages give it. -/
theorem load_traces [Platform] (hgood : ∀ record ∈ given settings d.label (pages store d.label count), ∀ row,
      RowOf settings d columns record row → good row) :
    Leaves (fun s : Session (Journaled σ) => Inserts good J₀ s.database.journal)
      (load settings store d columns count) (fun _ s => Inserts good J₀ s.database.journal)
      fun s => Inserts good J₀ s.database.journal := by
  let e₀ := encoderOf settings d columns
  have hpage (bytes : List UInt8) (hbytes : bytes ∈ pages store d.label count) :
      Leaves (At (Traced e₀ J₀ good fun _ => True))
        (loadPage e₀.table (Redaction.Policy.rulesFor? settings.redaction e₀.table) bytes : Step (Journaled σ) Nat)
        (fun _ => At (Traced e₀ J₀ good fun _ => True)) (Inserted J₀ good) := by
    refine loadPage_traced fun record hrecord k row hrow => ?_
    refine hgood record ?_ row ⟨k, hrow⟩
    obtain ⟨before, after, hpages⟩ := List.append_of_mem hbytes
    rw [hpages, given_append, show bytes :: after = [bytes] ++ after from rfl, given_append]
    exact List.mem_append_right _ (List.mem_append_left _ hrecord)
  have hpass : Leaves (At (Traced e₀ J₀ good fun _ => True))
      (runPass store d.label .load count
        (loadPage d.label (Redaction.Policy.rulesFor? settings.redaction d.label)) : Step (Journaled σ) Unit)
      (fun _ => At (Traced e₀ J₀ good fun _ => True)) (Inserted J₀ good) :=
    runPass_leaves (fun _ _ _ h => h) hpage
  have hcreate : Leaves (fun s : Session (Journaled σ) => Inserts good J₀ s.database.journal)
      (createLoadingTable settings d columns) (fun _ s => Inserts good J₀ s.database.journal)
      fun s => Inserts good J₀ s.database.journal :=
    (invariant_inserts good J₀).task_closed.createLoadingTable nofun nofun (fun _ _ => nofun) (fun _ => nofun)
      (fun _ _ => trivial) fun _ _ _ => trivial
  refine load_leaves (fun _ _ h => h) hcreate (fun _ h => h) ?_
  refine (hpass.bind fun _ => flush_traced).mono ?_ (fun _ _ h => h.inserts) fun _ h => h
  rintro ⟨e, s⟩ ⟨rfl, h⟩
  exact ⟨⟨rfl, rfl, rfl⟩, rfl, h, nofun, trivial⟩

/-- **Inserted rows are rows of records**: whatever staging a table comes to, the rows that it has asked to insert,
whether they were or not, are those of records that its pages hold, as the rules leave them, in the columns that
the pages call for. -/
theorem stage_traces [Platform] (settings : Settings) (store : PageStore) (d : Definition) (s : Session (Journaled σ)) :
    Inserts (fun row => ∃ record ∈ offered settings store d.label,
        RowOf settings d (inferred store d.label) record row)
      s.database.journal (resulting (stage settings store d s)).database.journal := by
  let good (row : Row) : Prop := ∃ record ∈ offered settings store d.label,
    RowOf settings d (inferred store d.label) record row
  have hstage : Leaves (fun t : Session (Journaled σ) => Inserts good s.database.journal t.database.journal)
      (stage settings store d) (fun _ t => Inserts good s.database.journal t.database.journal)
      fun t => Inserts good s.database.journal t.database.journal := by
    refine stage_loads (fun _ _ h => h) (fun _ _ h => h) (fun _ h => h) fun count hcount _ => ?_
    have hgood : ∀ record ∈ given settings d.label (pages store d.label (count.getD 0)), ∀ row,
        RowOf settings d (inferred store d.label) record row → good row := by
      intro record hrecord row hrow
      refine ⟨record, ?_, hrow⟩
      rw [offered, hcount]
      exact hrecord
    exact Task.loadTransaction_leaves (load_traces hgood) (fun _ h => h) (fun _ _ h _ => h) (fun _ _ h => h)
      fun _ h => h
  have hstart : Inserts good s.database.journal s.database.journal := .refl ..
  cases hresult : stage settings store d s with
  | ok result s' => exact hstage.of_ok hstart hresult
  | error err s' => exact hstage.of_error hstart hresult

/-- Since the journal was `J₀` the rows of records were inserted in turn. -/
def Listed (settings : Settings) (d : Definition) (columns : List Column) (records : List Json)
    (J₀ : List Statement) (s : Session (Journaled σ)) : Prop :=
  ∃ asked : List Statement, s.database.journal = asked.reverse ++ J₀ ∧
    List.Forall₂ (RowOf settings d columns) records (asked.flatMap Statement.insertedRows)

theorem load_lists [Platform] (s₀ : Session (Journaled σ)) :
    Leaves (· = s₀) (load settings store d columns count)
      (fun _ => Listed settings d columns (given settings d.label (pages store d.label count)) s₀.database.journal)
      fun _ => True := by
  have hcreate : Leaves (· = s₀) (createLoadingTable settings d columns : Task (Journaled σ) Unit)
      (fun _ => Asked (fun st => st.isInsertion = false) s₀) fun _ => True := by
    refine (asks_createLoadingTable columns s₀).leaves.mono ?_ (fun _ _ h => h) fun _ h => h
    rintro s rfl
    exact ⟨[], rfl, List.forall_mem_nil _⟩
  refine load_leaves (fun _ _ h => h) hcreate (fun _ _ => trivial) ?_
  rintro ⟨e, s⟩ ⟨rfl, asked₀, hJ, hasked₀⟩
  refine (loadPages_ends (Redaction.Policy.rulesFor? settings.redaction d.label) count
    (encoderOf settings d columns) rfl s.database.journal s.keys).leaves.mono (fun _ h => h) ?_ (fun _ h => h) _
    ⟨rfl, rfl, rfl⟩
  rintro _ ⟨e, s'⟩ ⟨-, hwritten, hnone⟩
  obtain ⟨asked, hJ', -, hrows⟩ := hwritten.listed
  rw [InsertBuffer.waiting, hnone, List.reverse_nil, List.append_nil] at hrows
  have hnothing : asked₀.flatMap Statement.insertedRows = [] := by
    rw [List.flatMap_eq_nil_iff]
    intro st hst
    have hinsertion := hasked₀ st hst
    cases st <;> first | rfl | cases hinsertion
  refine ⟨asked₀ ++ asked, by rw [hJ', hJ, List.reverse_append, List.append_assoc], ?_⟩
  rw [List.flatMap_append, hnothing, List.nil_append]
  exact hrows.imp fun record row hrow => ⟨_, hrow⟩

/-- **All records have their rows** when staging a table succeeds. -/
theorem stage_lists [Platform] {s s' : Session (Journaled σ)} {result : StageResult}
    (h : stage settings store d s = .ok result s') :
    Listed settings d (inferred store d.label) (offered settings store d.label) s.database.journal s' := by
  have hstage : Leaves (fun t : Session (Journaled σ) => t.database.journal = s.database.journal)
      (stage settings store d)
      (fun _ => Listed settings d (inferred store d.label) (offered settings store d.label) s.database.journal)
      fun _ => True := by
    refine stage_loads (fun _ _ h => h) (fun _ _ h => h) (fun _ _ => trivial) fun count hcount _ => ?_
    have hload : Leaves (fun t : Session (Journaled σ) => t.database.journal = s.database.journal)
        (load settings store d (inferred store d.label) (count.getD 0))
        (fun _ => Listed settings d (inferred store d.label) (offered settings store d.label) s.database.journal)
        fun _ => True := by
      refine leaves_each fun t ht => ?_
      rw [← ht, offered, hcount]
      exact load_lists t
    exact Task.loadTransaction_leaves hload (fun _ h => h) (fun _ _ h _ => h) (fun _ _ _ => trivial) fun _ h => h
  exact hstage.of_ok rfl h

end Staging

end SnapshotStaging
