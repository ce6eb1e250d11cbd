import SnapshotStaging.Load.Buffer
import SnapshotStaging.Proofs.Steps

/-!
# What an insert buffer does over all calls

A buffer is called again and again, and the database may refuse any insertion. A call is first what it does to the
rows that wait, then an insertion if one is due, which is taken or refused (`Call.Does`). What a buffer has to
account for (`Accounts`) is kept by each of the three, hence by every run of calls.

The limit on the size is kept as long as nothing is refused: rows that were refused stay, and the next row goes on
top of them.

Main result `InsertBuffer.run_accounts`.
-/

namespace SnapshotStaging

namespace InsertBuffer

variable {α σ : Type}

/-! ## Calls -/

inductive Call (α : Type)
  | add (row : α) (id : Option String)
  | flush

/-- What can be seen of a run of calls, apart from the buffer itself. -/
inductive Event (α : Type)
  | added (row : α) (id : Option String)
  | executed (sql : String)
  | refused (sql : String)

/-- The statement of an executed insertion. -/
def Event.sql? : Event α → Option String
  | .executed sql => some sql
  | _ => none

/-- Whether an insertion was refused. -/
def Event.isRefused : Event α → Bool
  | .refused _ => true
  | _ => false

/-- Has the insertion of some rows executed, and notes how that went. -/
def send (execute : String → EStateM Error σ Unit) (text : α → String) (table : String) (rows : List α) :
    EStateM Error (σ × List (Event α)) Unit :=
  fun (s, events) =>
    let sql := Statement.insertText table (rows.map text)
    match execute sql s with
    | .ok _ s => .ok () (s, .executed sql :: events)
    | .error e s => .error e (s, .refused sql :: events)

namespace Call

/-- The row that a call brings. -/
def row? : Call α → Option α
  | .add row _ => some row
  | .flush => none

/-- What a call tells of itself. -/
def noted : Call α → List (Event α)
  | .add row id => [.added row id]
  | .flush => []

/-- The buffer with what a call brings, before anything is executed. -/
def pushed (text : α → String) (b : InsertBuffer α) : Call α → InsertBuffer α
  | .add row id => b.push row (text row).length id
  | .flush => b

/-- One call of a buffer, with the events so far, latest first. -/
def run (execute : String → EStateM Error σ Unit) (text : α → String) (table : String) :
    Call α → EStateM Error (InsertBuffer α × σ × List (Event α)) Unit
  | .add row id => fun (b, s, events) =>
    InsertBuffer.add (send execute text table) row (text row).length id (b, s, .added row id :: events)
  | .flush => discard (InsertBuffer.flush (send execute text table))

end Call

/-- The state a call leaves, whether or not it raises. -/
def after (execute : String → EStateM Error σ Unit) (text : α → String) (table : String)
    (st : InsertBuffer α × σ × List (Event α)) (call : Call α) : InsertBuffer α × σ × List (Event α) :=
  match call.run execute text table st with
  | .ok _ st => st
  | .error _ st => st

/-- Calls one after the other. An error does not keep the caller from the next call. -/
def run (execute : String → EStateM Error σ Unit) (text : α → String) (table : String) (calls : List (Call α))
    (st : InsertBuffer α × σ × List (Event α)) : InsertBuffer α × σ × List (Event α) :=
  calls.foldl (after execute text table) st

/-! ## What one call does -/

variable {execute : String → EStateM Error σ Unit} {text : α → String} {table : String} {b : InsertBuffer α}
  {s : σ} {events : List (Event α)}

/-- What a call does, from a buffer that already has what the call brings. Only a new row lets rows wait on. -/
inductive Call.Does (execute : String → EStateM Error σ Unit) (text : α → String) (table : String) (call : Call α)
    (b : InsertBuffer α) (s : σ) (events : List (Event α)) :
    EStateM.Result Error (InsertBuffer α × σ × List (Event α)) Unit → Prop
  | waits (h : b.pending = [] ∨ call.row? ≠ none ∧ (b.size : Int) ≤ b.threshold) :
      Does execute text table call b s events (.ok () (b, s, events))
  | executes {sql : String} {s' : σ} (hpending : b.pending ≠ [])
      (hsql : sql = Statement.insertText table (b.waiting.map text)) (h : execute sql s = .ok () s') :
      Does execute text table call b s events (.ok () (b.sent, s', .executed sql :: events))
  | fails {sql : String} {e : Error} {s' : σ} (hpending : b.pending ≠ [])
      (hsql : sql = Statement.insertText table (b.waiting.map text)) (h : execute sql s = .error e s') :
      Does execute text table call b s events (.error e (b, s', .refused sql :: events))

/-- Rows that wait are sent, whatever their size. -/
theorem flush_does (execute : String → EStateM Error σ Unit) (text : α → String) (table : String) (call : Call α)
    (b : InsertBuffer α) (s : σ) (events : List (Event α)) :
    Call.Does execute text table call b s events
      (discard (InsertBuffer.flush (send execute text table)) (b, s, events)) := by
  by_cases hpending : b.pending = []
  · have hflush : InsertBuffer.flush (send execute text table) (b, s, events) = .ok false (b, s, events) := by
      simp only [InsertBuffer.flush, hpending, List.isEmpty_nil, if_true]
    rw [discard_ok hflush]
    exact .waits (.inl hpending)
  · cases hexecute : execute (Statement.insertText table (b.waiting.map text)) s with
    | ok _ s' =>
      have hflush : InsertBuffer.flush (send execute text table) (b, s, events) =
          .ok true (b.sent, s', .executed (Statement.insertText table (b.waiting.map text)) :: events) := by
        simp only [InsertBuffer.flush, List.isEmpty_iff, hpending, if_false, send, hexecute]
      rw [discard_ok hflush]
      exact .executes hpending rfl hexecute
    | error e s' =>
      have hflush : InsertBuffer.flush (send execute text table) (b, s, events) =
          .error e (b, s', .refused (Statement.insertText table (b.waiting.map text)) :: events) := by
        simp only [InsertBuffer.flush, List.isEmpty_iff, hpending, if_false, send, hexecute]
      rw [discard_error hflush]
      exact .fails hpending rfl hexecute

theorem Call.run_does (execute : String → EStateM Error σ Unit) (text : α → String) (table : String) (call : Call α)
    (b : InsertBuffer α) (s : σ) (events : List (Event α)) :
    Does execute text table call (call.pushed text b) s (call.noted ++ events)
      (call.run execute text table (b, s, events)) := by
  cases call with
  | flush => exact flush_does execute text table .flush b s events
  | add row id =>
    have hflush := flush_does execute text table (.add row id) (b.push row (text row).length id) s
      (.added row id :: events)
    by_cases hfull : (b.push row (text row).length id).full = true
    · have hrun : (Call.add row id).run execute text table (b, s, events) =
          discard (InsertBuffer.flush (send execute text table))
            (b.push row (text row).length id, s, .added row id :: events) := by
        simp only [Call.run, InsertBuffer.add, hfull, if_true]
        cases hsent : InsertBuffer.flush (send execute text table)
            (b.push row (text row).length id, s, .added row id :: events) with
        | ok _ _ => rw [discard_ok hsent]
        | error _ _ => rw [discard_error hsent]
      rw [hrun]
      exact hflush
    · have hrun : (Call.add row id).run execute text table (b, s, events) =
          .ok () (b.push row (text row).length id, s, .added row id :: events) := by
        simp only [Call.run, InsertBuffer.add, hfull]
        rfl
      rw [hrun]
      refine .waits (.inr ⟨nofun, ?_⟩)
      show ((b.push row (text row).length id).size : Int) ≤ (b.push row (text row).length id).threshold
      simpa [full] using hfull

/-- A flush that returns leaves nothing waiting. -/
theorem pending_of_flush {st : InsertBuffer α × σ × List (Event α)}
    (h : Call.flush.run execute text table (b, s, events) = .ok () st) : st.1.pending = [] := by
  have hdoes := Call.flush.run_does execute text table b s events
  rw [h] at hdoes
  cases hdoes with
  | waits hwaits => exact hwaits.resolve_right fun hadd => hadd.1 rfl
  | executes => rfl

/-! ## The insertion that waits -/

/-- The insertion of rows, without the semicolon. -/
def insertion (text : α → String) (table : String) (rows : List α) : String :=
  Statement.insertHead table ++ ",".intercalate (rows.map text)

theorem length_insertion_singleton (row : α) :
    (insertion text table [row]).length = headSize table + (text row).length := by
  rw [insertion, List.map_singleton, String.intercalate_singleton, String.length_append, headSize]

/-- Rows that wait already are followed by a comma. -/
theorem length_insertion_append {rows : List α} (hrows : rows ≠ []) (row : α) :
    (insertion text table (rows ++ [row])).length = (insertion text table rows).length + 1 + (text row).length := by
  have hcomma : ",".length = 1 := rfl
  rw [insertion, insertion, List.map_append, List.map_singleton,
    String.intercalate_append_of_ne_nil (by simpa using hrows) (by simp), String.intercalate_singleton]
  simp only [String.length_append, hcomma]
  omega

theorem waiting_eq_nil_iff : b.waiting = [] ↔ b.pending = [] := List.reverse_eq_nil_iff

@[simp] theorem waiting_push (row : α) (length : Nat) (id : Option String) :
    (b.push row length id).waiting = b.waiting ++ [row] := by
  simp [waiting, push]

@[simp] theorem waiting_sent : b.sent.waiting = [] := rfl

/-- The size that is kept is that of the insertion that waits. -/
def Sized (text : α → String) (table : String) (b : InsertBuffer α) : Prop :=
  b.size = (insertion text table b.waiting).length

theorem Sized.push (h : Sized text table b) (row : α) (id : Option String) :
    Sized text table (b.push row (text row).length id) := by
  unfold Sized at h ⊢
  rw [waiting_push]
  by_cases hpending : b.pending = []
  · have hwaiting : b.waiting = [] := waiting_eq_nil_iff.2 hpending
    have hempty : (insertion text table ([] : List α)).length = headSize table := by
      rw [insertion, List.map_nil, String.intercalate_nil, String.append_empty, headSize]
    rw [hwaiting, List.nil_append, length_insertion_singleton]
    rw [hwaiting, hempty] at h
    simp [InsertBuffer.push, hpending, h]
  · have hwaiting : b.waiting ≠ [] := fun hwaiting => hpending (waiting_eq_nil_iff.1 hwaiting)
    rw [length_insertion_append hwaiting, ← h]
    simp [InsertBuffer.push, hpending]

/-! ## What a buffer accounts for -/

/-- The statements that were executed, in order. -/
def sqls (events : List (Event α)) : List String := events.reverse.filterMap Event.sql?

theorem sqls_cons (event : Event α) (events : List (Event α)) :
    sqls (event :: events) = sqls events ++ event.sql?.toList := by
  rw [sqls, List.reverse_cons, List.filterMap_append]
  cases event <;> rfl

/-- The events since an insertion was last executed. -/
def recent (events : List (Event α)) : List (Event α) := events.takeWhile (·.sql?.isNone)

/-- Nothing was refused. -/
def Calm (events : List (Event α)) : Prop := ∀ event ∈ events, event.isRefused = false

theorem Calm.tail {event : Event α} (h : Calm (event :: events)) : Calm events :=
  fun other hother => h other (List.mem_cons_of_mem _ hother)

theorem not_calm_refused (sql : String) : ¬ Calm (.refused sql :: events) :=
  fun hcalm => by simpa [Event.isRefused] using hcalm _ (List.mem_cons_self ..)

/-- Without its last row, an insertion of two rows or more is within the threshold. -/
def Fits (text : α → String) (table : String) (threshold : Int) (rows : List α) : Prop :=
  ∀ front last, rows = front ++ [last] → front ≠ [] → ((insertion text table front).length : Int) ≤ threshold

/-- What a buffer has to account for, when the rows `added` came and `batches` were executed. -/
structure Accounts (text : α → String) (table : String) (threshold : Int) (added : List α) (batches : List (List α))
    (b : InsertBuffer α) (events : List (Event α)) : Prop where
  named : b.table = table
  limited : b.threshold = threshold
  /-- Each row that came was executed or waits, in the order in which the rows came. -/
  conserved : batches.flatten ++ b.waiting = added
  nonempty : ∀ rows ∈ batches, rows ≠ []
  executed : sqls events = batches.map fun rows => insertion text table rows ++ ";"
  statements : b.statements = batches.length
  rows : b.rows = batches.flatten.length
  size : Sized text table b
  held : ∀ id, b.holds id = true ↔ ∃ row, .added row (some id) ∈ recent events
  fits : Calm events → ∀ rows ∈ batches, Fits text table threshold rows

/-- Between calls a buffer is empty or within its threshold, unless something was refused. -/
def Settled (threshold : Int) (b : InsertBuffer α) (events : List (Event α)) : Prop :=
  Calm events → b.pending = [] ∨ (b.size : Int) ≤ threshold

variable {threshold : Int} {added : List α} {batches : List (List α)}

theorem accounts_empty (text : α → String) (table : String) (threshold : Int) :
    Accounts text table threshold [] [] (empty table threshold) [] where
  named := rfl
  limited := rfl
  conserved := rfl
  nonempty := nofun
  executed := rfl
  statements := rfl
  rows := rfl
  size := by simp [Sized, empty, waiting, insertion, headSize]
  held := by simp [empty, holds, recent]
  fits := nofun

theorem holds_push (row : α) (length : Nat) (id : Option String) (other : String) :
    (b.push row length id).holds other = true ↔ id = some other ∨ b.holds other = true := by
  cases id with
  | none => simp [holds, push]
  | some name => simp [holds, push, eq_comm (a := name)]

theorem Accounts.pushed (h : Accounts text table threshold added batches b events) (call : Call α) :
    Accounts text table threshold (added ++ call.row?.toList) batches (call.pushed text b) (call.noted ++ events) := by
  cases call with
  | flush => simpa [Call.row?, Call.pushed, Call.noted] using h
  | add row id =>
    exact {
      named := h.named
      limited := h.limited
      conserved := by
        show batches.flatten ++ (b.push row (text row).length id).waiting = added ++ [row]
        rw [waiting_push, ← List.append_assoc, h.conserved]
      nonempty := h.nonempty
      executed := by
        show sqls (.added row id :: events) = _
        rw [sqls_cons, h.executed]
        exact List.append_nil _
      statements := h.statements
      rows := h.rows
      size := h.size.push row id
      held := fun other => by
        show (b.push row (text row).length id).holds other = true ↔ ∃ r, _ ∈ recent (.added row id :: events)
        rw [holds_push, h.held]
        simp only [recent, Event.sql?, Option.isNone_none, List.takeWhile_cons_of_pos, List.mem_cons,
          Event.added.injEq]
        constructor
        · rintro (rfl | ⟨r, hr⟩)
          · exact ⟨row, .inl ⟨rfl, rfl⟩⟩
          · exact ⟨r, .inr hr⟩
        · rintro ⟨r, ⟨-, hid⟩ | hr⟩
          · exact .inl hid.symm
          · exact .inr ⟨r, hr⟩
      fits := fun hcalm => h.fits (Calm.tail hcalm) }

/-- Before an insertion is executed, all but its last row are within the threshold. -/
theorem Accounts.fits_pushed (h : Accounts text table threshold added batches b events)
    (hsettled : Settled threshold b events) (call : Call α) (hcalm : Calm (call.noted ++ events)) :
    Fits text table threshold (call.pushed text b).waiting := by
  have hsize : b.waiting ≠ [] → ((insertion text table b.waiting).length : Int) ≤ threshold := by
    intro hwaiting
    have hsized : b.size = (insertion text table b.waiting).length := h.size
    rw [← hsized]
    refine (hsettled fun event hevent => hcalm event (List.mem_append_right _ hevent)).resolve_left fun hpending => ?_
    exact hwaiting (waiting_eq_nil_iff.2 hpending)
  intro front last hrows hfront
  cases call with
  | add row id =>
    have hrows : b.waiting ++ [row] = front ++ [last] := (waiting_push ..).symm.trans hrows
    obtain ⟨rfl, -⟩ := List.append_inj' hrows rfl
    exact hsize hfront
  | flush =>
    have hrows : b.waiting = front ++ [last] := hrows
    have hlonger : (insertion text table b.waiting).length =
        (insertion text table front).length + 1 + (text last).length := by
      rw [hrows, length_insertion_append hfront]
    have hall := hsize (by simp [hrows])
    omega

theorem Accounts.sent (h : Accounts text table threshold added batches b events) (hpending : b.pending ≠ [])
    (hfits : Calm events → Fits text table threshold b.waiting) :
    Accounts text table threshold added (batches ++ [b.waiting]) b.sent
      (.executed (insertion text table b.waiting ++ ";") :: events) where
  named := h.named
  limited := h.limited
  conserved := by simp [← h.conserved]
  nonempty := by
    intro rows hrows
    rcases List.mem_append.1 hrows with hrows | hrows
    · exact h.nonempty rows hrows
    · rw [List.mem_singleton.1 hrows]
      exact fun hwaiting => hpending (waiting_eq_nil_iff.1 hwaiting)
  executed := by
    rw [sqls_cons, h.executed, List.map_append]
    rfl
  statements := by simp [InsertBuffer.sent, h.statements]
  rows := by simp [InsertBuffer.sent, h.rows, count, waiting]
  size := by simp [Sized, InsertBuffer.sent, waiting, insertion, headSize, h.named]
  held := by simp [InsertBuffer.sent, holds, recent, Event.sql?]
  fits := by
    intro hcalm rows hrows
    rcases List.mem_append.1 hrows with hrows | hrows
    · exact h.fits hcalm.tail rows hrows
    · rw [List.mem_singleton.1 hrows]
      exact hfits hcalm.tail

/-- What was refused is as if it had not been tried. -/
theorem Accounts.refused (h : Accounts text table threshold added batches b events) (sql : String) :
    Accounts text table threshold added batches b (.refused sql :: events) :=
  { h with
    executed := by
      rw [sqls_cons, h.executed]
      exact List.append_nil _
    held := by simpa [recent, Event.sql?] using h.held
    fits := fun hcalm => h.fits hcalm.tail }

/-- **One call** keeps the accounts, whatever the database does. -/
theorem Accounts.after (h : Accounts text table threshold added batches b events)
    (hsettled : Settled threshold b events) (execute : String → EStateM Error σ Unit) (s : σ) (call : Call α) :
    ∃ batches b' s' events', after execute text table (b, s, events) call = (b', s', events') ∧
      Accounts text table threshold (added ++ call.row?.toList) batches b' events' ∧ Settled threshold b' events' := by
  have hpushed := h.pushed call
  have hfits := h.fits_pushed hsettled call
  have hdoes := call.run_does execute text table b s events
  unfold InsertBuffer.after
  generalize call.run execute text table (b, s, events) = result at hdoes ⊢
  cases hdoes with
  | waits hwaits => exact ⟨_, _, _, _, rfl, hpushed, fun _ => hpushed.limited ▸ hwaits.imp_right And.right⟩
  | executes hpending hsql hexecute =>
    subst hsql
    exact ⟨_, _, _, _, rfl, hpushed.sent hpending hfits, fun _ => .inl rfl⟩
  | fails hpending hsql hexecute =>
    exact ⟨_, _, _, _, rfl, hpushed.refused _, fun hcalm => absurd hcalm (not_calm_refused _)⟩

theorem Accounts.run (h : Accounts text table threshold added batches b events)
    (hsettled : Settled threshold b events) (execute : String → EStateM Error σ Unit) (s : σ) (calls : List (Call α)) :
    ∃ batches b' s' events', run execute text table calls (b, s, events) = (b', s', events') ∧
      Accounts text table threshold (added ++ calls.filterMap Call.row?) batches b' events' ∧
      Settled threshold b' events' := by
  induction calls generalizing added batches b s events with
  | nil => exact ⟨batches, b, s, events, rfl, by simpa using h, hsettled⟩
  | cons call calls ih =>
    obtain ⟨batches₁, b₁, s₁, events₁, hafter, hfirst, hsettled₁⟩ := h.after hsettled execute s call
    obtain ⟨batches₂, b₂, s₂, events₂, hrun, hrest, hsettled₂⟩ := ih hfirst hsettled₁ s₁
    refine ⟨batches₂, b₂, s₂, events₂, ?_, ?_, hsettled₂⟩
    · rw [InsertBuffer.run, List.foldl_cons, hafter]
      exact hrun
    · cases hrow : call.row? <;> simpa [List.filterMap_cons, hrow] using hrest

/-- **A buffer loses and repeats nothing**, for every threshold, every database and all calls in a row.

* The buffer accounts for all rows, and without a refusal it is empty or within its threshold after each call.
* A call raises only what the database raised, which leaves the buffer as it was just before the insertion was tried:
  with the row of this call, and else as before it. -/
theorem run_accounts (execute : String → EStateM Error σ Unit) (text : α → String) (table : String) (threshold : Int)
    (s : σ) (calls : List (Call α)) :
    ∃ b s' events, run execute text table calls (empty table threshold, s, []) = (b, s', events) ∧
      (∃ batches, Accounts text table threshold (calls.filterMap Call.row?) batches b events) ∧
      Settled threshold b events ∧
      ∀ (call : Call α) (e : Error) (st), call.run execute text table (b, s', events) = .error e st →
        ∃ sql s'', execute sql s' = .error e s'' ∧
          st = (call.pushed text b, s'', .refused sql :: (call.noted ++ events)) := by
  obtain ⟨batches, b, s', events, hrun, haccounts, hsettled⟩ :=
    (accounts_empty text table threshold).run (fun _ => .inl rfl) execute s calls
  refine ⟨b, s', events, hrun, ⟨batches, haccounts⟩, hsettled, fun call e st herror => ?_⟩
  have hdoes := call.run_does execute text table b s' events
  rw [herror] at hdoes
  cases hdoes with
  | fails hpending hsql hexecute => exact ⟨_, _, hexecute, rfl⟩

/-- The database takes one insertion and refuses the next, whose row goes on waiting. -/
theorem run_accounts_refusal :
    let execute (_ : String) : EStateM Error Bool Unit := fun full =>
      if full then .error (.databaseFailed .statement) full else .ok () true
    let sent : InsertBuffer String := ⟨"t", 0, [], [], 29, 1, 1⟩
    let events : List (Event String) := [.executed "INSERT INTO t_loading VALUES (1);", .added "(1)" (some "a")]
    run execute id "t" [.add "(1)" (some "a")] (empty "t" 0, false, []) = (sent, true, events) ∧
      (sent.pending = [] ∨ (sent.size : Int) ≤ 0) ∧
      ∃ e st, (Call.add "(2)" (some "b")).run execute id "t" (sent, true, events) = .error e st ∧
        st.1 = sent.push "(2)" 3 (some "b") := by
  intro execute sent events
  have hfirst : run execute id "t" [.add "(1)" (some "a")] (empty "t" 0, false, []) = (sent, true, events) := by rfl
  obtain ⟨b, s', events', hrun, -, hsettled, hraises⟩ :=
    run_accounts execute id "t" 0 false [.add "(1)" (some "a")]
  obtain ⟨rfl, rfl, rfl⟩ : b = sent ∧ s' = true ∧ events' = events := by simpa [hfirst, eq_comm] using hrun
  have hcalm : Calm events := by simp [Calm, events, Event.isRefused]
  refine ⟨hfirst, hsettled hcalm, ?_⟩
  have hsecond : ∃ e st, (Call.add "(2)" (some "b")).run execute id "t" (sent, true, events) = .error e st :=
    ⟨_, _, rfl⟩
  obtain ⟨e, st, hsecond⟩ := hsecond
  obtain ⟨sql, s'', -, rfl⟩ := hraises _ _ _ hsecond
  exact ⟨_, _, hsecond, rfl⟩

end InsertBuffer

end SnapshotStaging
