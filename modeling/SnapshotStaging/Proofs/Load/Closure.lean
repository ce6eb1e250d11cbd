import SnapshotStaging.History
import SnapshotStaging.Proofs.Load.Answers
import SnapshotStaging.Proofs.Steps
import SnapshotStaging.Staging

/-!
# What all steps have in common

A property of tasks that its primitive steps have and that goes over to steps in a row is a property of
every task that is made of them (`Task.Closed`); the same for the steps of a pass (`Pass.Closed`). Two
questions about whole loads are answered this way: which errors they raise, and whether a second load does
what a first one did.

Main results: `Task.Closed.createLoadingTable`, `Task.Closed.merge`, `Task.Closed.promote` and
`Pass.Closed.write`.
-/

namespace SnapshotStaging

theorem discard_eq_bind {τ α : Type} (x : EStateM Error τ α) : discard x = x >>= fun _ => pure () := by
  funext st
  cases hx : x st with
  | ok a st' => rw [discard_ok hx, bind_ok hx]; rfl
  | error err st' => rw [discard_error hx, bind_error hx]

variable {σ : Type}

theorem Pass.onSession_error {τ α : Type} {task : Task σ α} {s s' : Session σ} {err : Error}
    (h : task s = .error err s') (t : τ) : Pass.onSession task (t, s) = .error err (t, s') := by
  rw [onSession, h]

theorem Pass.onSession_bind {τ α β : Type} (x : Task σ α) (f : α → Task σ β) :
    (Pass.onSession (x >>= f) : Pass τ σ β) = Pass.onSession x >>= fun a => Pass.onSession (f a) := by
  funext st
  obtain ⟨t, s⟩ := st
  cases hx : x s with
  | ok a s' =>
    rw [bind_ok (onSession_ok hx t)]
    simp only [onSession, bind_ok hx]
  | error err s' => rw [bind_error (onSession_error hx t), onSession_error (bind_error hx) t]

theorem Pass.own_bind {τ α : Type} (f : τ → Pass τ σ α) (t : τ) (s : Session σ) :
    (Pass.own >>= f) (t, s) = f t (t, s) := rfl

theorem Pass.update_bind {τ α : Type} (g : τ → τ) (f : Unit → Pass τ σ α) (t : τ) (s : Session σ) :
    (Pass.update g >>= f) (t, s) = f () (g t, s) := rfl

variable [Database σ]

/-! ## Transactions -/

section

variable {α : Type} {task : Task σ α} {R : Session σ → Prop} {Q : α → Session σ → Prop} {E : Error → Prop}

theorem Task.of_transaction_ok {s s' : Session σ} {a : α} (h : Task.transaction task s = .ok a s') :
    ∃ mid, task { s with database := Database.start s.database } = .ok a mid ∧
      s' = { mid with database := Database.commit mid.database } := by
  unfold Task.transaction at h
  split at h
  · next heq =>
    split at h
    · cases h
      exact ⟨_, heq, rfl⟩
    · cases h
  · cases h

theorem Task.of_loadTransaction_ok {s s' : Session σ} {a : α} (h : Task.loadTransaction task s = .ok a s') :
    ∃ mid, task s.loadStarted = .ok a mid ∧ s' = mid.loadCommitted := by
  unfold Task.loadTransaction at h
  split at h
  · next heq =>
    split at h
    · cases h
      exact ⟨_, heq, rfl⟩
    · cases h
  · cases h

theorem Task.loadTransaction_ends
    (h : ∀ s, R s → Ends (· = s.loadStarted) task (fun a s' => Q a s'.loadCommitted) E)
    (hcommit : ∀ db : σ, Database.commits db = false → E (.databaseFailed .transaction)) :
    Ends R (Task.loadTransaction task) Q E := by
  intro s hs
  have hs := h s hs s.loadStarted rfl
  unfold Task.loadTransaction
  cases hresult : task s.loadStarted with
  | error err s' =>
    rw [hresult] at hs
    exact hs
  | ok a s' =>
    rw [hresult] at hs
    cases hcommits : Database.commits s'.database with
    | true => simpa [hcommits] using hs
    | false => simpa [hcommits] using hcommit _ hcommits

end

/-! ## Creating a loading table -/

section

variable (settings : Settings) (d : Definition)

/-- Lets the one who is granted it, if there is one, read the loading table. -/
def Staging.grant : Task σ Unit := do
  match settings.grantee with
  | none => pure ()
  | some grantee => if grantee ≠ "" then Functor.discard (Task.execute (.grant d.label grantee))

/-- What a load tells the catalog about the table that it has created. -/
def Staging.describe : Task σ Unit := do
  if settings.dialect.hasCatalog then
    match comment? d with
    | .error e => throw e
    | .ok none => pure ()
    | .ok (some comment) =>
      Task.note .debug s!"Setting comment on table: {d.label}"
      match comment with
      | .str text => Functor.discard (Task.execute (.comment d.label text))
      | _ => throw .notAText
    grant settings d

theorem Staging.createLoadingTable_eq (columns : List Column) :
    createLoadingTable settings d columns = (do
      Functor.discard (Task.execute (.drop (TableName.loading d.label)))
      Functor.discard (Task.execute (.createLoading d.label columns))
      describe settings d : Task σ Unit) := rfl

end

/-! ## Tasks -/

/-- A property of tasks that sequencing preserves; `asks` are the statements and `fails` the errors of
its primitive steps. -/
structure Task.Closed (T : (α : Type) → Task σ α → Prop) (asks : Statement → Prop) (fails : Error → Prop) :
    Prop where
  pure : ∀ {α : Type} (a : α), T α (pure a)
  bind : ∀ {α β : Type} {x : Task σ α} {f : α → Task σ β}, T α x → (∀ a, T β (f a)) → T β (x >>= f)
  throw : ∀ {α : Type} {err : Error}, fails err → T α (throw err)
  log : ∀ entry, T Unit (modify fun s => { s with log := entry :: s.log })
  execute : ∀ {st}, asks st → T Int (Task.execute st)

namespace Task.Closed

variable {T : (α : Type) → Task σ α → Prop} {asks : Statement → Prop} {fails : Error → Prop}

theorem discard {α : Type} {x : Task σ α} (hT : Task.Closed T asks fails) (hx : T α x) :
    T PUnit (Functor.discard x) := by
  rw [discard_eq_bind]
  exact hT.bind hx fun _ => hT.pure _

theorem describe (hT : Task.Closed T asks fails) {settings : Settings} {d : Definition}
    (hcomment : ∀ text, Staging.comment? d = .ok (some (.str text)) → asks (.comment d.label text))
    (hgrant : ∀ grantee, asks (.grant d.label grantee))
    (herror : ∀ err, Staging.comment? d = .error err → fails err)
    (htext : ∀ c, Staging.comment? d = .ok (some c) → (∀ text, c ≠ .str text) → fails .notAText) :
    T Unit (Staging.describe settings d) := by
  have hgranted : T Unit (Staging.grant settings d) := by
    unfold Staging.grant
    split
    · exact hT.pure _
    · split
      · exact hT.discard (hT.execute (hgrant _))
      · exact hT.pure _
  unfold Staging.describe
  split
  · cases hc : Staging.comment? d with
    | error err => exact hT.bind (hT.throw (herror err hc)) fun _ => hgranted
    | ok comment =>
      cases comment with
      | none => exact hgranted
      | some c =>
        refine hT.bind (hT.log _) fun _ => ?_
        cases c with
        | str text => exact hT.bind (hT.discard (hT.execute (hcomment text hc))) fun _ => hgranted
        | _ => exact hT.bind (hT.throw (htext _ hc (by simp))) fun _ => hgranted
  · exact hT.pure _

theorem createLoadingTable (hT : Task.Closed T asks fails) {settings : Settings} {d : Definition}
    {columns : List Column}
    (hdrop : asks (.drop (TableName.loading d.label))) (hcreate : asks (.createLoading d.label columns))
    (hcomment : ∀ text, Staging.comment? d = .ok (some (.str text)) → asks (.comment d.label text))
    (hgrant : ∀ grantee, asks (.grant d.label grantee))
    (herror : ∀ err, Staging.comment? d = .error err → fails err)
    (htext : ∀ c, Staging.comment? d = .ok (some c) → (∀ text, c ≠ .str text) → fails .notAText) :
    T Unit (Staging.createLoadingTable settings d columns) := by
  rw [Staging.createLoadingTable_eq]
  exact hT.bind (hT.discard (hT.execute hdrop)) fun _ => hT.bind (hT.discard (hT.execute hcreate)) fun _ =>
    hT.describe hcomment hgrant herror htext

theorem merge (hT : Task.Closed T asks fails) {table : String}
    (hasks : ∀ st ∈ [Statement.createHistory table, .drop (TableName.latest table), .createLatest table,
      .appendChanges table], asks st) : T Int (History.merge table) := by
  have hexecute {st : Statement} (hst : st ∈ [Statement.createHistory table, .drop (TableName.latest table),
      .createLatest table, .appendChanges table]) : T PUnit (Functor.discard (Task.execute st)) :=
    hT.discard (hT.execute (hasks st hst))
  unfold History.merge
  refine hT.bind (hexecute (by simp)) fun _ => hT.bind (hexecute (by simp)) fun _ =>
    hT.bind (hexecute (by simp)) fun _ => hT.bind (hT.execute (hasks _ (by simp))) fun added =>
    hT.bind (hexecute (by simp)) fun _ => ?_
  dsimp only
  split
  · exact hT.bind (hT.log _) fun _ => hT.pure _
  · exact hT.pure _

theorem promote (hT : Task.Closed T asks fails) {table : String} (hdrop : asks (.drop table))
    (hrename : asks (.rename (TableName.loading table) table)) : T Unit (History.promote table) := by
  unfold History.promote
  exact hT.bind (hT.discard (hT.execute hdrop)) fun _ =>
    hT.bind (hT.discard (hT.execute hrename)) fun _ => hT.log _

end Task.Closed

/-! ## Steps of the encoder -/

namespace Encoder

/-- A property of steps of an encoder for one table that sequencing preserves; `asks` are the statements
and `fails` the errors of its primitive steps. -/
structure Closed (table : String) (T : (α : Type) → Step σ α → Prop) (asks : Statement → Prop)
    (fails : Error → Prop) : Prop where
  pure : ∀ {α : Type} (a : α), T α (pure a)
  bind : ∀ {α β : Type} {x : Step σ α} {f : α → Step σ β}, T α x → (∀ a, T β (f a)) → T β (x >>= f)
  throw : ∀ {α : Type} {err : Error}, fails err → T α (throw err)
  /-- A step that looks at the encoder first. -/
  look : ∀ {α : Type} {f : Encoder → Step σ α}, (∀ e, e.table = table → T α (f e)) → T α (Pass.own >>= f)
  /-- A step on the encoder alone. -/
  own : ∀ {α : Type} {f : Encoder → α × Encoder}, (∀ e, (f e).2.table = e.table) →
    T α fun (e, s) => .ok (f e).1 ((f e).2, s)
  log : ∀ entry, T Unit (Pass.onSession (modify fun s => { s with log := entry :: s.log }))
  execute : ∀ {st}, asks st → T Int (Pass.onSession (Task.execute st))
  resolve : ∀ scope id, T Nat (Pass.onSession (Task.resolve scope id))

namespace Closed

variable {table : String} {T : (α : Type) → Step σ α → Prop} {asks : Statement → Prop} {fails : Error → Prop}

theorem update (hT : Closed table T asks fails) {g : Encoder → Encoder} (hg : ∀ e, (g e).table = e.table) :
    T Unit (Pass.update g) := hT.own (f := fun e => ((), g e)) hg

theorem markSeen (hT : Closed table T asks fails) (sk : Nat) : T Bool (Encoder.markSeen sk) :=
  hT.own (f := fun e => ((e.seen.add sk).2, { e with seen := (e.seen.add sk).1 })) fun _ => rfl

theorem discard {α : Type} {x : Step σ α} (hT : Closed table T asks fails) (hx : T α x) :
    T PUnit (Functor.discard x) := by
  rw [discard_eq_bind]
  exact hT.bind hx fun _ => hT.pure _

theorem warn (hT : Closed table T asks fails) (message : String) (spot : Spot) (action : String) :
    T Unit (Encoder.warn message spot action) := by
  unfold Encoder.warn
  exact hT.look fun e _ => hT.bind (hT.update fun _ => rfl) fun _ => hT.log _

theorem textLiteral (hT : Closed table T asks fails) (spot : Spot) (s : String) :
    T Literal (Encoder.textLiteral spot s) := by
  unfold Encoder.textLiteral
  refine hT.look fun e _ => ?_
  split
  · exact hT.bind (hT.warn _ _ _) fun _ => hT.pure _
  · exact hT.pure _

theorem cells (hT : Closed table T asks fails) (column : Column) (v : Json) (id : String) (sk : Int) :
    T (List Literal) (Encoder.cells column v id sk) := by
  have htext (spot : Spot) (s : String) (f : Literal → List Literal) :
      T (List Literal) (do return f (← Encoder.textLiteral spot s)) :=
    hT.bind (hT.textLiteral spot s) fun _ => hT.pure _
  unfold Encoder.cells
  dsimp only
  split
  · exact hT.bind (hT.resolve _ _) fun key => htext _ _ fun l => [.integer key, l]
  · exact hT.pure _
  · exact hT.pure _
  · exact hT.pure _
  · exact hT.pure _
  · exact hT.pure _
  · exact hT.pure _
  · exact htext _ _ fun l => [l]
  · exact htext _ _ fun l => [l]
  · exact hT.look fun e _ => hT.bind (hT.log _) fun _ => hT.pure _

theorem allCells (hT : Closed table T asks fails) (record : Json) (id : String) (sk : Int)
    (columns : List Column) : T (List Literal) (Encoder.allCells record id sk columns) := by
  induction columns with
  | nil => exact hT.pure _
  | cons column rest ih =>
    unfold Encoder.allCells
    exact hT.bind (hT.cells _ _ _ _) fun _ => hT.bind ih fun _ => hT.pure _

theorem payload (hT : Closed table T asks fails) (record : Json) (id : String) (sk : Int) :
    T (Option String) (Encoder.payload record id sk) := by
  unfold Encoder.payload
  refine hT.look fun e _ => ?_
  dsimp only
  split
  · exact hT.pure _
  · split
    · exact hT.pure _
    · exact hT.bind (hT.warn _ _ _) fun _ => hT.pure _

theorem encode (hT : Closed table T asks fails) (record : Json) (id : String) (sk : Int) :
    T Row (Encoder.encode record id sk) := by
  unfold Encoder.encode
  exact hT.look fun e _ => hT.bind (hT.allCells _ _ _ _) fun _ => hT.bind (hT.payload _ _ _) fun _ => hT.pure _

theorem send (hT : Closed table T asks fails) {rows : List Row} (hinsert : asks (.insert table rows)) :
    T Unit (Pass.onSession (Encoder.send table rows)) := by
  unfold Encoder.send
  rw [Pass.onSession_bind]
  refine hT.bind (hT.log _) fun _ => ?_
  rw [discard_eq_bind, Pass.onSession_bind]
  exact hT.bind (hT.execute hinsert) fun _ => hT.pure _

/-- A flush in terms of the primitive steps. -/
theorem onBuffer_flush_eq (table : String) :
    (onBuffer (InsertBuffer.flush (Encoder.send table)) : Step σ Bool) = do
      let e ← Pass.own
      if e.buffer.pending.isEmpty then return false
      else
        Pass.onSession (Encoder.send table e.buffer.waiting)
        Pass.update fun e => { e with buffer := e.buffer.sent }
        return true := by
  funext ⟨e, s⟩
  rw [Pass.own_bind]
  by_cases hnone : e.buffer.pending.isEmpty = true
  · rw [if_pos hnone]
    simp only [onBuffer, InsertBuffer.flush, if_pos hnone]
    rfl
  · rw [if_neg hnone]
    simp only [onBuffer, InsertBuffer.flush, if_neg hnone]
    cases hsend : Encoder.send table e.buffer.waiting s with
    | ok a s' =>
      rw [bind_ok (Pass.onSession_ok hsend e)]
      rfl
    | error err s' => rw [bind_error (Pass.onSession_error hsend e)]

/-- Adding a row in terms of a flush. -/
theorem onBuffer_add_eq (table : String) (row : Row) (length : Nat) (id : Option String) :
    (onBuffer (InsertBuffer.add (Encoder.send table) row length id) : Step σ Unit) = do
      Pass.update fun e => { e with buffer := e.buffer.push row length id }
      let e ← Pass.own
      if e.buffer.full then Functor.discard (onBuffer (InsertBuffer.flush (Encoder.send table)))
      else return () := by
  funext ⟨e, s⟩
  rw [Pass.update_bind, Pass.own_bind]
  by_cases hfull : (e.buffer.push row length id).full = true
  · rw [if_pos hfull]
    simp only [onBuffer, InsertBuffer.add, if_pos hfull]
    cases hflush : InsertBuffer.flush (Encoder.send table) (e.buffer.push row length id, s) with
    | ok a st =>
      have hpass : onBuffer (InsertBuffer.flush (Encoder.send table))
          ({ e with buffer := e.buffer.push row length id }, s) = .ok a ({ e with buffer := st.1 }, st.2) := by
        simp only [onBuffer, hflush]
      exact (discard_ok hpass).symm
    | error err st =>
      have hpass : onBuffer (InsertBuffer.flush (Encoder.send table))
          ({ e with buffer := e.buffer.push row length id }, s) = .error err ({ e with buffer := st.1 }, st.2) := by
        simp only [onBuffer, hflush]
      exact (discard_error hpass).symm
  · rw [if_neg hfull]
    simp only [onBuffer, InsertBuffer.add, if_neg hfull]
    rfl

theorem flushed (hT : Closed table T asks fails) (hinsert : ∀ rows, asks (.insert table rows)) :
    T Bool (onBuffer (InsertBuffer.flush (Encoder.send table))) := by
  rw [onBuffer_flush_eq]
  refine hT.look fun e _ => ?_
  split
  · exact hT.pure _
  · exact hT.bind (hT.send (hinsert _)) fun _ => hT.bind (hT.update fun _ => rfl) fun _ => hT.pure _

theorem flush (hT : Closed table T asks fails) (hinsert : ∀ rows, asks (.insert table rows)) :
    T Unit Encoder.flush := by
  unfold Encoder.flush
  refine hT.look fun e he => ?_
  rw [he]
  exact hT.discard (hT.flushed hinsert)

theorem replaceEarlier (hT : Closed table T asks fails) (hinsert : ∀ rows, asks (.insert table rows))
    (hdelete : ∀ sk, asks (.deleteKey table sk)) (id : String) (sk : Nat) :
    T Unit (Encoder.replaceEarlier id sk) := by
  unfold Encoder.replaceEarlier
  refine hT.look fun e he => ?_
  rw [he]
  have hrest : T Unit (do
      Functor.discard (Pass.onSession (Task.execute (.deleteKey table sk)))
      Pass.update fun e => { e with replaced := e.replaced + 1 }
      Pass.onSession (Task.note .debug s!"Record replaced by later occurrence: {table}: id {id}")) :=
    hT.bind (hT.discard (hT.execute (hdelete _))) fun _ => hT.bind (hT.update fun _ => rfl) fun _ => hT.log _
  dsimp only
  split
  · exact hT.bind (hT.flush hinsert) fun _ => hrest
  · exact hrest

/-- **Writing a record has every property that the primitive steps have.** -/
theorem write (hT : Closed table T asks fails) (hinsert : ∀ rows, asks (.insert table rows))
    (hdelete : ∀ sk, asks (.deleteKey table sk)) {record : Json}
    (hid : ∀ err, identifier table record = .error err → fails err) : T Unit (Encoder.write record) := by
  have hrest (e : Encoder) (id : String) (sk : Nat) : T Unit (do
      let row ← Encoder.encode record id sk
      onBuffer (InsertBuffer.add (Encoder.send table) row (row.sql e.dialect).length (some id))
      Pass.update fun e => { e with written := e.written + 1 }) := by
    refine hT.bind (hT.encode _ _ _) fun row => hT.bind ?_ fun _ => hT.update fun _ => rfl
    rw [onBuffer_add_eq]
    refine hT.bind (hT.update fun _ => rfl) fun _ => hT.look fun e he => ?_
    split
    · exact hT.discard (hT.flushed hinsert)
    · exact hT.pure _
  unfold Encoder.write
  refine hT.look fun e he => ?_
  rw [he]
  have hfound (id : String) : T Unit (do
      let sk ← Pass.onSession (Task.resolve table id)
      if ← Encoder.markSeen sk then Encoder.replaceEarlier id sk
      let row ← Encoder.encode record id sk
      onBuffer (InsertBuffer.add (Encoder.send table) row (row.sql e.dialect).length (some id))
      Pass.update fun e => { e with written := e.written + 1 }) := by
    refine hT.bind (hT.resolve _ _) fun sk => hT.bind (hT.markSeen sk) fun before => ?_
    cases before with
    | true => exact hT.bind (hT.replaceEarlier hinsert hdelete _ _) fun _ => hrest e id sk
    | false => exact hrest e id sk
  cases hident : identifier table record with
  | ok id => exact hT.bind (hT.pure id) hfound
  | error err => exact hT.bind (hT.throw (hid err hident)) hfound

theorem writeAll (hT : Closed table T asks fails) (hinsert : ∀ rows, asks (.insert table rows))
    (hdelete : ∀ sk, asks (.deleteKey table sk)) (rules : Option Redaction.Rules) {records : List Json}
    (hid : ∀ record ∈ records, ∀ err, identifier table (Staging.redacted rules record) = .error err → fails err) :
    T Unit (Staging.writeAll rules records) := by
  induction records with
  | nil => exact hT.pure _
  | cons record rest ih =>
    exact hT.bind (hT.write hinsert hdelete (hid _ (List.mem_cons_self ..))) fun _ =>
      ih fun record hrecord => hid record (List.mem_cons_of_mem _ hrecord)

end Closed

end Encoder

end SnapshotStaging
