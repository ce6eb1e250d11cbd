import SnapshotStaging.Proofs.Key.Store
import SnapshotStaging.Proofs.Load.Closure
import SnapshotStaging.Proofs.Page.Faults
import SnapshotStaging.Proofs.Stage.Pages

/-!
# What staging fails for

`StageFailure` lists the reasons: the number of pages cannot be told, a page fails, the definition is of the
wrong kind, a record has no identifier, or the session refuses something. What a session refuses is a matter
of its database and store of keys; `Steady` says it for all sessions of a kind.

Main results: `stage_fails`, nothing else ends the staging of a table, and `stage_of_failure`, the first page
that fails is the reason.
-/

namespace SnapshotStaging

variable {σ : Type} {I : Session σ → Prop} {R E : Error → Prop} {settings : Settings} {store : PageStore}
  {d : Definition}

/-- A task that fails with errors of `E` only, and keeps sessions of a kind. -/
def Fails (I : Session σ → Prop) (E : Error → Prop) {α : Type} (task : Task σ α) : Prop :=
  Ends I task (fun _ => I) E

/-- The same for a step of the encoder of a table. -/
def FailsFor (table : String) (I : Session σ → Prop) (E : Error → Prop) {α : Type} (x : Encoder.Step σ α) :
    Prop :=
  Ends (fun st => st.1.table = table ∧ I st.2) x (fun _ st => st.1.table = table ∧ I st.2) E

/-- Sessions of a kind refuse statements and keys for reasons of `R` only. -/
structure Steady [Database σ] (I : Session σ → Prop) (R : Error → Prop) : Prop where
  log : ∀ s log, I s → I { s with log := log }
  execute : ∀ st, Fails I R (Task.execute st)
  resolve : ∀ scope id, Fails I R (Task.resolve scope id)
  started : ∀ s, I s → I s.loadStarted
  committed : ∀ s, I s → I s.loadCommitted
  commits : ∀ db : σ, Database.commits db = false → R (.databaseFailed .transaction)

/-- Why a definition cannot be staged. -/
inductive DefinitionFailure (d : Definition) : Error → Prop
  | name (h : ∀ name, d.name ≠ .str name) : DefinitionFailure d .unsuitableValue
  | comment {err : Error} (h : Staging.comment? d = .error err) : DefinitionFailure d err
  | text {c : Json} (h : Staging.comment? d = .ok (some c)) (hc : ∀ text, c ≠ .str text) :
      DefinitionFailure d .notAText

/-- Why the staging of a table can fail. -/
inductive StageFailure [Platform] (R : Error → Prop) (settings : Settings) (store : PageStore) (d : Definition) :
    Error → Prop
  | count {err : Error} (h : store.pageCount d.label = .error err) : StageFailure R settings store d err
  | page {count : Option Nat} {err : Error} (hcount : store.pageCount d.label = .ok count)
      (h : Staging.failure? d.label (Staging.pages store d.label (count.getD 0)) = some err) :
      StageFailure R settings store d err
  | definition {err : Error} (h : DefinitionFailure d err) : StageFailure R settings store d err
  | unidentified {count : Option Nat} {record : Json} {err : Error} (hcount : store.pageCount d.label = .ok count)
      (hrecord : record ∈ Staging.recordsOf d.label (Staging.pages store d.label (count.getD 0)))
      (h : Encoder.identifier d.label
        (Staging.redacted (Redaction.Policy.rulesFor? settings.redaction d.label) record) = .error err) :
      StageFailure R settings store d err
  | refused {err : Error} (h : R err) : StageFailure R settings store d err

theorem Fails.mono {α : Type} {task : Task σ α} (h : Fails I R task) (hE : ∀ err, R err → E err) :
    Fails I E task :=
  Ends.mono h (fun _ h => h) (fun _ _ h => h) hE

variable [Database σ]

/-! ## Single steps -/

theorem fails_closed (h : Steady I R) (hE : ∀ err, R err → E err) :
    Task.Closed (σ := σ) (fun _ => Fails I E) (fun _ => True) E where
  pure _ := ends_pure fun _ h => h
  bind hx hf := Ends.bind hx hf
  throw herr := ends_throw herr
  log _ s hs := h.log s _ hs
  execute _ := (h.execute _).mono hE

theorem failsFor_closed (h : Steady I R) (hE : ∀ err, R err → E err) (table : String) :
    Encoder.Closed (σ := σ) table (fun _ => FailsFor table I E) (fun _ => True) E := by
  have hsession {α : Type} {task : Task σ α} (h : Fails I E task) : FailsFor table I E (Pass.onSession task) := by
    rintro ⟨e, s⟩ ⟨he, hs⟩
    have htask := h s hs
    cases heq : task s with
    | ok a s' =>
      rw [heq] at htask
      simp only [Pass.onSession, heq]
      exact ⟨he, htask⟩
    | error err s' =>
      rw [heq] at htask
      simp only [Pass.onSession, heq]
      exact htask
  exact {
    pure := fun _ => ends_pure fun _ h => h
    bind := fun hx hf => Ends.bind hx hf
    throw := fun herr => ends_throw herr
    look := fun hf st h => hf st.1 h.1 st h
    own := fun hf st h => ⟨(hf st.1).trans h.1, h.2⟩
    log := fun entry => hsession fun s hs => h.log s _ hs
    execute := fun _ => hsession ((h.execute _).mono hE)
    resolve := fun scope id => hsession ((h.resolve scope id).mono hE) }

namespace Staging

/-! ## The second pass -/

/-- Once no page fails, the second pass fails for identifiers and refusals only. -/
theorem loadPages_fails [Platform] (h : Steady I R) (hE : ∀ err, R err → E err) (rules : Option Redaction.Rules)
    (count : Nat) (hpages : failure? d.label (pages store d.label count) = none)
    (hid : ∀ record ∈ recordsOf d.label (pages store d.label count), ∀ err,
      Encoder.identifier d.label (redacted rules record) = .error err → E err) :
    FailsFor d.label I E (do
      runPass store d.label .load count (loadPage d.label rules)
      Encoder.finish : Encoder.Step σ Unit) := by
  have hclosed := failsFor_closed h hE d.label
  refine Ends.bind ?_ fun _ => hclosed.flush fun _ => trivial
  let P (_ : List (List UInt8)) (st : Encoder × Session σ) : Prop :=
    st.1.table = d.label ∧ I st.2
  refine runPass_ends (P := P) (fun done t s log hs => ⟨hs.1, h.log s log hs.2⟩) ?_
  intro done bytes later hall
  have hmem : bytes ∈ pages store d.label count := by simp [hall]
  have hfailure : (Page.records d.label bytes).2 = none := List.findSome?_eq_none_iff.1 hpages bytes hmem
  have hrecords (record : Json) (h : record ∈ (Page.records d.label bytes).1) :
      record ∈ recordsOf d.label (pages store d.label count) := List.mem_flatMap.2 ⟨bytes, hmem, h⟩
  unfold loadPage
  generalize Page.records d.label bytes = page at hfailure hrecords ⊢
  obtain ⟨records, failure⟩ := page
  obtain rfl : failure = none := hfailure
  exact Ends.bind (hclosed.writeAll (fun _ => trivial) (fun _ => trivial) rules fun record hrecord =>
    hid record (hrecords record hrecord)) fun _ => ends_pure fun _ h => h

theorem load_fails [Platform] (h : Steady I R) (hE : ∀ err, R err → E err) (hd : ∀ err, DefinitionFailure d err → E err)
    (columns : List Column) (count : Nat) (hpages : failure? d.label (pages store d.label count) = none)
    (hid : ∀ record ∈ recordsOf d.label (pages store d.label count), ∀ err, Encoder.identifier d.label
      (redacted (Redaction.Policy.rulesFor? settings.redaction d.label) record) = .error err → E err) :
    Fails I E (load settings store d columns count : Task σ Encoder) := by
  have hclosed := fails_closed h hE
  have hcreated : Fails I E (createLoadingTable settings d columns : Task σ Unit) :=
    hclosed.createLoadingTable trivial trivial (fun _ _ => trivial) (fun _ => trivial)
      (fun _ h => hd _ (.comment h)) fun _ h hc => hd _ (.text h hc)
  have hpass : Fails I E (running (Encoder.start d.label columns settings.dialect settings.tenant
      settings.maxValueLength settings.flushThreshold) (do
        runPass store d.label .load count
          (loadPage d.label (Redaction.Policy.rulesFor? settings.redaction d.label))
        Encoder.finish) : Task σ Encoder) := by
    refine running_ends ((loadPages_fails h hE _ count hpages hid).mono ?_ (fun _ _ h => h) fun _ h => h)
      |>.mono (fun _ h => h) (fun _ _ h => h.2) fun _ h => h
    rintro ⟨e, s⟩ ⟨rfl, hs⟩
    exact ⟨rfl, hs⟩
  unfold load
  cases hname : d.name with
  | str name => exact hclosed.bind hcreated fun _ => hclosed.bind (hclosed.log _) fun _ => hpass
  | _ =>
    have hnot : ∀ name, d.name ≠ .str name := by simp [hname]
    exact hclosed.bind (hclosed.throw (hd _ (.name hnot))) fun _ =>
      hclosed.bind hcreated fun _ => hclosed.bind (hclosed.log _) fun _ => hpass

/-! ## Both passes -/

omit [Database σ] in
/-- The first pass fails for pages only. -/
theorem analyze_fails [Platform] (hlog : ∀ s log, I s → I { s with log := log }) (count : Nat)
    (h : ∀ err, failure? d.label (pages store d.label count) = some err → E err) :
    Ends I (analyze store d.label count)
      (fun _ s => I s ∧ failure? d.label (pages store d.label count) = none) E := by
  intro s hs
  refine (analyze_ends store d.label count s).mono (fun _ h => h) ?_ h s ⟨rfl, rfl⟩
  rintro _ ⟨database, keys, log⟩ ⟨hnone, ⟨rfl, rfl⟩, -⟩
  exact ⟨hlog s log hs, hnone⟩

/-- **Staging a table fails for the listed reasons only**, and keeps sessions of their kind. -/
theorem stage_fails [Platform] (h : Steady I R) :
    Fails I (StageFailure R settings store d) (stage settings store d) := by
  have hclosed := fails_closed (E := StageFailure R settings store d) h fun _ h => .refused h
  have hcount : Ends I (pageCount store d.label)
      (fun n s => I s ∧ ∃ count, store.pageCount d.label = .ok count ∧ n = count.getD 0)
      (StageFailure R settings store d) := by
    intro s hs
    refine (pageCount_ends store d.label s).mono (fun _ h => h) ?_ (fun _ h => .count h) s ⟨rfl, rfl⟩
    rintro n ⟨database, keys, log⟩ ⟨⟨rfl, rfl⟩, hn⟩
    exact ⟨h.log s log hs, hn⟩
  unfold stage
  refine hcount.bind fun n => Ends.assuming (fun _ h => h.2) ?_
  rintro ⟨count, hn, rfl⟩
  refine Ends.bind (Q := fun _ => I) (fun s hs => h.log s _ hs.1) fun _ => ?_
  refine (analyze_fails h.log _ fun err h => .page hn h).bind fun found =>
    Ends.assuming (fun _ h => h.2) fun hnone => ?_
  refine Ends.bind (Q := fun _ => I) ?_ fun e => hclosed.bind (hclosed.log _) fun _ => hclosed.pure _
  refine Task.loadTransaction_ends (fun s hs => ?_) fun db hdb => .refused (h.commits db hdb)
  rintro _ rfl
  have hload := load_fails (E := StageFailure R settings store d) h (fun _ h => .refused h)
    (fun _ h => .definition h) found.2 _ hnone fun record hrecord err h => .unidentified hn hrecord h
  exact Ends.mono hload (fun _ h => h) (fun _ s hs => h.committed s hs) (fun _ h => h) _ (h.started s hs.1)

end Staging

end SnapshotStaging
