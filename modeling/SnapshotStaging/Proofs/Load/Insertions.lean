import SnapshotStaging.Proofs.Load.Journal
import SnapshotStaging.Proofs.Load.Layout
import SnapshotStaging.Proofs.Sql.Reading
import SnapshotStaging.Recorder

/-!
# What a load inserts

The journal of a load holds insertions and, where an identifier comes again, deletions. `Written` says what
the insertions list together with the rows that still wait: one row for each record written so far, in
order, and in each row what `Slot.literal?` says of the record. It holds between any two steps of the
encoder, wherever the threshold makes the buffer send its rows.

Main result `insertions_read_back`: the texts of the insertions, read by the database, list the records.
-/

namespace SnapshotStaging

namespace Statement

/-- The rows that a statement inserts. -/
def insertedRows : Statement → List Row
  | .insert _ rows => rows
  | _ => []

def isInsertion : Statement → Bool
  | .insert _ _ => true
  | _ => false

/-- The texts of the insertions among statements are read as lists of rows, which make `rows` together. -/
def Lists (d : Dialect) (table : String) (asked : List Statement) (rows : List (List Sql.Field)) : Prop :=
  ∃ groups : List (List (List Sql.Field)), groups.flatten = rows ∧
    List.Forall₂ (fun st group => ∃ values : String,
      st.sql d = insertHead table ++ values ∧ Sql.readRows d values.toList = some group)
      (asked.filter isInsertion) groups

theorem lists_append {d : Dialect} {table : String} {asked asked' : List Statement}
    {rows rows' : List (List Sql.Field)} (h : Lists d table asked rows) (h' : Lists d table asked' rows') :
    Lists d table (asked ++ asked') (rows ++ rows') := by
  obtain ⟨groups, rfl, hgroups⟩ := h
  obtain ⟨groups', rfl, hgroups'⟩ := h'
  exact ⟨groups ++ groups', by simp, by simpa using List.rel_append hgroups hgroups'⟩

theorem lists_of_isEmpty {d : Dialect} {table : String} {asked : List Statement}
    (h : ∀ st ∈ asked, st.isInsertion = false) : Lists d table asked [] := by
  refine ⟨[], rfl, ?_⟩
  rw [List.filter_eq_nil_iff.2 fun st hst => by simp [h st hst]]
  exact .nil

/-- A statement of a load: it inserts rows into the loading table, or takes one back. -/
def OfLoad (table : String) (st : Statement) : Prop :=
  (∃ row rows, st = .insert table (row :: rows)) ∨ ∃ sk, st = .deleteKey table sk

/-- The insertions of a load are read as the rows that they insert. -/
theorem lists_insertedRows {d : Dialect} {table : String} {asked : List Statement}
    (h : ∀ st ∈ asked, st.OfLoad table) :
    Lists d table asked ((asked.flatMap insertedRows).map (Sql.fieldsOf d)) := by
  induction asked with
  | nil => exact lists_of_isEmpty nofun
  | cons st rest ih =>
    have hrest := ih fun st hst => h st (List.mem_cons_of_mem _ hst)
    rw [List.flatMap_cons, List.map_append, ← List.singleton_append]
    refine lists_append ?_ hrest
    rcases h st (List.mem_cons_self ..) with ⟨row, rows, rfl⟩ | ⟨sk, rfl⟩
    · refine ⟨[(row :: rows).map (Sql.fieldsOf d)], by simp [insertedRows], .cons ?_ .nil⟩
      exact ⟨_, String.append_assoc .., Sql.readRows_rows d row rows⟩
    · exact lists_of_isEmpty (by simp [isInsertion])

end Statement

namespace Encoder

open Journaled

variable {σ : Type} {e₀ e : Encoder} {J₀ J : List Statement} {k₀ k : KeyStore} {record : Json}
  {done : List Json} {n : Nat} {E : Error → Prop}

/-- The encoder after more warnings. -/
def warned (e : Encoder) (n : Nat) : Encoder := { e with warnings := e.warnings + n }

theorem warned_warned (e : Encoder) (m n : Nat) : (e.warned m).warned n = e.warned (m + n) := by
  simp [warned, Nat.add_assoc]

/-! ## One row -/

theorem warn_ends (message : String) (spot : Spot) (action : String) :
    Ends (Is e J k) (warn message spot action : Step (Journaled σ) Unit) (fun _ => Is (e.warned 1) J k) E :=
  ends_own ((ends_update _).bind fun _ => ends_noteWith _ _ _)

theorem textLiteral_ends (spot : Spot) (s : String) :
    Ends (Is e J k) (textLiteral spot s : Step (Journaled σ) Literal)
      (fun l st => l = textOf e.maxValueLength s ∧
        Is (e.warned (if e.maxValueLength < s.length then 1 else 0)) J k st) E := by
  unfold textLiteral textOf
  refine ends_own ?_
  by_cases hlong : e.maxValueLength < s.length
  · simp only [if_pos hlong]
    exact (warn_ends _ _ _).bind fun _ => ends_pure fun _ h => ⟨rfl, h⟩
  · simp only [if_neg hlong]
    exact ends_pure fun _ h => ⟨rfl, h⟩

theorem payload_ends (record : Json) (id : String) (sk : Int) :
    Ends (Is e J k) (payload record id sk : Step (Journaled σ) (Option String))
      (fun p st => p = payloadOf e.maxValueLength record ∧
        Is (e.warned (if payloadOf e.maxValueLength record = none then 1 else 0)) J k st) E := by
  unfold payload payloadOf
  refine ends_own ?_
  dsimp only
  by_cases hpretty : record.pretty.length ≤ e.maxValueLength
  · simp only [if_pos hpretty]
    exact ends_pure fun _ h => ⟨rfl, h⟩
  · by_cases hcompact : record.compact.length ≤ e.maxValueLength
    · simp only [if_neg hpretty, if_pos hcompact]
      exact ends_pure fun _ h => ⟨rfl, h⟩
    · simp only [if_neg hpretty, if_neg hcompact]
      exact (warn_ends _ _ _).bind fun _ => ends_pure fun _ h => ⟨rfl, h⟩

/-- A later state of the encoder: nothing was asked for since, and `n` warnings were given. -/
def Later (e : Encoder) (J : List Statement) (k : KeyStore) (n : Nat) (e' : Encoder) (J' : List Statement)
    (k' : KeyStore) : Prop :=
  e' = e.warned n ∧ J' = J ∧ k.Extends k'

theorem Later.trans {m n : Nat} {e' e'' : Encoder} {J' J'' : List Statement} {k' k'' : KeyStore}
    (h : Later e J k m e' J' k') (h' : Later e' J' k' n e'' J'' k'') : Later e J k (m + n) e'' J'' k'' := by
  obtain ⟨rfl, rfl, hk⟩ := h
  obtain ⟨rfl, rfl, hk'⟩ := h'
  exact ⟨warned_warned _ _ _, rfl, hk.trans hk'⟩

variable [Database σ]

/-- A step gives the literals that fill places for a record, with `n` warnings. -/
def Supplies (e : Encoder) (J : List Statement) (k : KeyStore) (record : Json) (slots : List Slot) (n : Nat)
    (x : Step (Journaled σ) (List Literal)) : Prop :=
  Ends (Is e J k) x
    (fun ls => At fun e' J' k' => Later e J k n e' J' k' ∧ Slot.Fills e k' record slots ls)
    (Refused σ k.isDurable)

theorem supplies_pure {slots : List Slot} {ls : List Literal} (h : Slot.Fills e k record slots ls) :
    Supplies e J k record slots 0 (pure ls : Step (Journaled σ) (List Literal)) := by
  refine ends_pure ?_
  rintro ⟨e', s⟩ ⟨rfl, rfl, rfl⟩
  exact ⟨⟨rfl, rfl, .refl _⟩, h⟩

/-- A text in a place of its own, `before` what stands in front of it. -/
theorem supplies_text {slots : List Slot} (before : List Literal) (spot : Spot) (s : String)
    (h : Slot.Fills e k record slots (before ++ [textOf e.maxValueLength s])) :
    Supplies e J k record slots (if e.maxValueLength < s.length then 1 else 0)
      (do return before ++ [← textLiteral spot s] : Step (Journaled σ) (List Literal)) := by
  refine (textLiteral_ends spot s).bind fun l => ends_pure ?_
  rintro ⟨e', s'⟩ ⟨rfl, rfl, rfl, rfl⟩
  exact ⟨⟨rfl, rfl, .refl _⟩, h⟩

/-- The literals of a column fill its places. -/
theorem cells_supplies (column : Column) (record : Json) (id : String) (sk : Int) :
    Supplies e J k record (Slot.ofColumn column)
      (column.type.overlong e.maxValueLength (column.valueIn record))
      (cells column (column.valueIn record) id sk : Step (Journaled σ) (List Literal)) := by
  have hone (k' : KeyStore) (hne : column.type ≠ .reference) : Slot.Fills e k' record (Slot.ofColumn column)
      [column.type.literal e.maxValueLength (column.valueIn record)] := by
    rw [Slot.ofColumn, if_neg hne]
    exact .cons rfl .nil
  have htwo (k' : KeyStore) (heq : column.type = .reference) (l : Literal)
      (hl : (Slot.companion column).literal? e k' record = some l) : Slot.Fills e k' record (Slot.ofColumn column)
      [l, column.type.literal e.maxValueLength (column.valueIn record)] := by
    rw [Slot.ofColumn, if_pos heq]
    exact .cons hl (.cons rfl .nil)
  generalize hv : column.valueIn record = v at hone htwo ⊢
  generalize hslots : Slot.ofColumn column = slots at hone htwo ⊢
  obtain ⟨name, source, type⟩ := column
  have hmismatch {ls : List Literal} (h : Slot.Fills e k record slots ls) :
      Supplies e J k record slots 0 (do
        let e ← Pass.own
        Pass.onSession (Task.note .debug
          s!"Value does not match column type: {e.table}.{name} ({type.name}): id {id}")
        return ls : Step (Journaled σ) (List Literal)) :=
    ends_own ((ends_note _ _).bind fun _ => supplies_pure h)
  cases type with
  | reference =>
    cases v with
    | str s =>
      refine (ends_resolve _ _).bind fun n => ends_at ?_
      rintro e J k' ⟨rfl, rfl, hextends, hkey⟩
      rw [← hextends.kind]
      refine (supplies_text (e := e) (J := J) (k := k') [.integer n] _ s
        (htwo k' rfl _ (by simp [Slot.literal?, hv, hkey]))).mono (fun _ h => h) ?_ fun _ h => h
      rintro ls ⟨e', s'⟩ ⟨⟨he, hJ, hk⟩, hfills⟩
      exact ⟨⟨he, hJ, hextends.trans hk⟩, hfills⟩
    | _ => exact supplies_pure (htwo k rfl _ (by simp only [Slot.literal?, hv]))
  | bigint =>
    cases v with
    | null => exact supplies_pure (hone k (by simp))
    | int n => exact supplies_pure (hone k (by simp))
    | _ => exact hmismatch (hone k (by simp))
  | boolean =>
    cases v with
    | null => exact supplies_pure (hone k (by simp))
    | bool b => exact supplies_pure (hone k (by simp))
    | _ => exact hmismatch (hone k (by simp))
  | numeric =>
    cases v with
    | null => exact supplies_pure (hone k (by simp))
    | int n => exact supplies_pure (hone k (by simp))
    | float x => exact supplies_pure (hone k (by simp))
    | _ => exact hmismatch (hone k (by simp))
  | timestamp =>
    cases v with
    | null => exact supplies_pure (hone k (by simp))
    | str s => exact supplies_text [] _ s (hone k (by simp))
    | _ => exact hmismatch (hone k (by simp))
  | text =>
    cases v with
    | null => exact supplies_pure (hone k (by simp))
    | _ => exact supplies_text [] _ _ (hone k (by simp))

/-- The literals of columns in turn. -/
theorem allCells_supplies (record : Json) (id : String) (sk : Int) (columns : List Column) :
    Supplies e J k record (columns.flatMap Slot.ofColumn)
      (columns.map fun c => c.type.overlong e.maxValueLength (c.valueIn record)).sum
      (allCells record id sk columns : Step (Journaled σ) (List Literal)) := by
  induction columns generalizing e J k with
  | nil => exact supplies_pure .nil
  | cons column rest ih =>
    refine (cells_supplies column record id sk).bind fun first => ends_at ?_
    rintro _ _ k' ⟨⟨rfl, rfl, hextends⟩, hfirst⟩
    rw [← hextends.kind]
    refine Ends.bind ih fun others => ends_pure ?_
    rintro ⟨e', s⟩ ⟨hlater, hothers⟩
    exact ⟨Later.trans ⟨rfl, rfl, hextends⟩ hlater, (hfirst.later hlater.2.2).append hothers⟩

/-- The row of a record, under a key that the store remembers for its identifier. -/
theorem encode_ends {record : Json} {sk : Nat} (hsk : k.key? e.table (idOf record) = some sk) :
    Ends (Is e J k) (encode record (idOf record) sk : Step (Journaled σ) Row)
      (fun r => At fun e' J' k' => Later e J k (e.warningsOf record) e' J' k' ∧
        Slot.Fills e k' record (Slot.all e.columns) r.literals) (Refused σ k.isDurable) := by
  unfold encode
  refine ends_own ((allCells_supplies record (idOf record) sk e.columns).bind fun cells => ends_at ?_)
  rintro e' J' k' ⟨hlater, hcells⟩
  refine (payload_ends record (idOf record) sk).bind fun p => ends_pure ?_
  rintro ⟨e'', s⟩ ⟨rfl, his⟩
  obtain ⟨rfl, rfl, hextends⟩ := hlater
  obtain ⟨rfl, rfl, rfl⟩ := his
  refine ⟨⟨warned_warned _ _ _, rfl, hextends⟩, ?_⟩
  have hkey : Slot.literal? e s.keys record .key = some (.integer sk) := by
    simp [Slot.literal?, hextends.keys hsk]
  have hfixed : Slot.Fills e s.keys record [.key, .identifier] [.integer sk, .text (idOf record)] :=
    .cons hkey (.cons rfl .nil)
  exact (hfixed.append hcells).append (.cons rfl (.cons rfl .nil))

/-! ## The buffer -/

/-- What sending does to the encoder and the journal: rows that wait become an insertion. -/
def Sent (e : Encoder) (J : List Statement) (k : KeyStore) (e' : Encoder) (J' : List Statement)
    (k' : KeyStore) : Prop :=
  k' = k ∧ (e.buffer.pending = [] ∧ e' = e ∧ J' = J ∨ ∃ row rows, e.buffer.waiting = row :: rows ∧
    e' = { e with buffer := e.buffer.sent } ∧ J' = .insert e.table (row :: rows) :: J)

theorem send_ends (table : String) (rows : List Row) (s : Session (Journaled σ)) :
    match send table rows s with
    | .ok _ s' => s'.database.journal = .insert table rows :: s.database.journal ∧ s'.keys = s.keys
    | .error err _ => ∃ (st : Statement) (db db' : σ), Database.execute st db = .error err db' := by
  unfold send
  rw [bind_ok (show Task.note _ _ s = .ok () _ from rfl)]
  have h := execute_ends (.insert table rows)
    { s with log := ⟨.debug, s!"Loading data for table: {table}: {rows.length} records", none⟩ :: s.log }
  split at h
  · next heq =>
    rw [discard_ok heq]
    exact h
  · next heq =>
    rw [discard_error heq]
    exact ⟨_, h⟩

theorem onBuffer_flush_ends {durable : Bool} :
    Ends (Is e J k) (onBuffer (InsertBuffer.flush (send e.table)) : Step (Journaled σ) Bool)
      (fun _ => At (Sent e J k)) (Refused σ durable) := by
  rintro ⟨e', s⟩ ⟨rfl, rfl, rfl⟩
  by_cases hnone : e'.buffer.pending = []
  · simp only [onBuffer, InsertBuffer.flush, hnone, List.isEmpty_nil, if_true]
    exact ⟨rfl, .inl ⟨hnone, rfl, rfl⟩⟩
  · obtain ⟨row, rows, hwaiting⟩ := List.exists_cons_of_ne_nil fun h : e'.buffer.waiting = [] =>
      hnone (List.reverse_eq_nil_iff.1 h)
    have h := send_ends e'.table e'.buffer.waiting s
    simp only [onBuffer, InsertBuffer.flush, List.isEmpty_iff, hnone, if_false]
    cases hsend : send e'.table e'.buffer.waiting s with
    | ok a s' =>
      rw [hsend] at h
      exact ⟨h.2, .inr ⟨row, rows, hwaiting, rfl, hwaiting ▸ h.1⟩⟩
    | error err s' =>
      rw [hsend] at h
      exact .inl h

theorem flush_ends {durable : Bool} :
    Ends (Is e J k) (flush : Step (Journaled σ) Unit) (fun _ => At (Sent e J k)) (Refused σ durable) :=
  ends_own (Ends.discard onBuffer_flush_ends)

/-- The encoder after one more row was pushed to its buffer. -/
def pushed (e : Encoder) (row : Row) (length : Nat) (id : Option String) : Encoder :=
  { e with buffer := e.buffer.push row length id }

/-- Adding a row pushes it, and sends what waits when that is too much. -/
theorem add_ends {durable : Bool} (row : Row) (length : Nat) (id : Option String) :
    Ends (Is e J k) (onBuffer (InsertBuffer.add (send e.table) row length id) : Step (Journaled σ) Unit)
      (fun _ => At fun e' J' k' => Sent (e.pushed row length id) J k e' J' k' ∨
        e' = e.pushed row length id ∧ J' = J ∧ k' = k) (Refused σ durable) := by
  rintro ⟨e', s⟩ ⟨rfl, rfl, rfl⟩
  have hends : Ends (Is (e'.pushed row length id) s.database.journal s.keys)
      (onBuffer (InsertBuffer.flush (send e'.table)) : Step (Journaled σ) Bool)
      (fun _ => At (Sent (e'.pushed row length id) s.database.journal s.keys)) (Refused σ durable) :=
    onBuffer_flush_ends
  have h := hends (e'.pushed row length id, s) ⟨rfl, rfl, rfl⟩
  by_cases hfull : (e'.buffer.push row length id).full = true
  · simp only [onBuffer, InsertBuffer.add, hfull, if_true] at h ⊢
    simp only [pushed] at h
    cases hflush : InsertBuffer.flush (send e'.table) (e'.buffer.push row length id, s) with
    | ok a st =>
      rw [hflush] at h
      exact .inl h
    | error err st =>
      rw [hflush] at h
      exact h
  · simp only [onBuffer, InsertBuffer.add, hfull]
    exact .inr ⟨rfl, rfl, rfl⟩

/-! ## One record -/

theorem literal?_congr (h : Alike e₀ e) (htable : e.table = e₀.table)
    (slot : Slot) : slot.literal? e k record = slot.literal? e₀ k record := by
  obtain ⟨-, htenant, hlimit⟩ := h
  cases slot <;> simp only [Slot.literal?, htenant, hlimit, htable]

theorem warningsOf_congr (h : Alike e₀ e) (record : Json) : e.warningsOf record = e₀.warningsOf record := by
  obtain ⟨hcolumns, -, hlimit⟩ := h
  simp only [warningsOf, hcolumns, hlimit]

/-- What a load has asked for since the journal was `J₀` and what still waits: one row for each record of
`done`, in order. It has counted `n` records. -/
structure Written (e₀ : Encoder) (J₀ : List Statement) (k₀ : KeyStore) (done : List Json) (n : Nat)
    (e : Encoder) (J : List Statement) (k : KeyStore) : Prop where
  alike : Alike e₀ e
  table : e.table = e₀.table
  written : e.written = e₀.written + n
  warnings : e.warnings = e₀.warnings + (done.map e₀.warningsOf).sum
  later : k₀.Extends k
  listed : ∃ asked : List Statement, J = asked.reverse ++ J₀ ∧ (∀ st ∈ asked, st.OfLoad e₀.table) ∧
    List.Forall₂ (fun record row => Slot.Fills e₀ k record (Slot.all e₀.columns) row.literals) done
      (asked.flatMap Statement.insertedRows ++ e.buffer.waiting)

theorem Written.refl (h : e₀.buffer.pending = []) : Written e₀ J k [] 0 e₀ J k where
  alike := ⟨rfl, rfl, rfl⟩
  table := rfl
  written := rfl
  warnings := rfl
  later := .refl k
  listed := ⟨[], rfl, nofun, by simp [InsertBuffer.waiting, h]⟩

/-- The records stay written while the store of keys goes on. -/
theorem Written.keep (h : Written e₀ J₀ k₀ done n e J k) {k' : KeyStore} (hk : k.Extends k') :
    Written e₀ J₀ k₀ done n e J k' := by
  obtain ⟨asked, hJ, hasked, hrows⟩ := h.listed
  exact { h with
    later := h.later.trans hk
    listed := ⟨asked, hJ, hasked, hrows.imp fun _ _ hfills => hfills.later hk⟩ }

theorem Written.sent (h : Written e₀ J₀ k₀ done n e J k) {e' : Encoder} {J' : List Statement} {k' : KeyStore}
    (hsent : Sent e J k e' J' k') : Written e₀ J₀ k₀ done n e' J' k' ∧ e'.buffer.pending = [] := by
  obtain ⟨rfl, ⟨hnone, rfl, rfl⟩ | ⟨row, rows, hwaiting, rfl, rfl⟩⟩ := hsent
  · exact ⟨h, hnone⟩
  · obtain ⟨asked, rfl, hasked, hrows⟩ := h.listed
    refine ⟨{ h with listed := ⟨asked ++ [.insert e.table (row :: rows)], by simp, ?_, ?_⟩ }, rfl⟩
    · intro st hst
      rcases List.mem_append.1 hst with hst | hst
      · exact hasked st hst
      · rw [List.mem_singleton.1 hst, h.table]
        exact .inl ⟨row, rows, rfl⟩
    · rw [hwaiting] at hrows
      simpa [Statement.insertedRows, InsertBuffer.waiting, InsertBuffer.sent] using hrows

/-- A row may be taken back. -/
theorem Written.deleted (h : Written e₀ J₀ k₀ done n e J k) (sk : Int) :
    Written e₀ J₀ k₀ done n e (.deleteKey e.table sk :: J) k := by
  obtain ⟨asked, rfl, hasked, hrows⟩ := h.listed
  refine { h with listed := ⟨asked ++ [.deleteKey e.table sk], by simp, ?_, ?_⟩ }
  · intro st hst
    rcases List.mem_append.1 hst with hst | hst
    · exact hasked st hst
    · rw [List.mem_singleton.1 hst, h.table]
      exact .inr ⟨sk, rfl⟩
  · simpa [Statement.insertedRows] using hrows

/-- The row of one more record waits. -/
theorem Written.pushed (h : Written e₀ J₀ k₀ done n e J k) {row : Row}
    (hrow : Slot.Fills e₀ k record (Slot.all e₀.columns) row.literals) (length : Nat) (id : Option String) :
    Written e₀ J₀ k₀ (done ++ [record]) n ((e.warned (e₀.warningsOf record)).pushed row length id) J k := by
  obtain ⟨asked, rfl, hasked, hrows⟩ := h.listed
  refine ⟨h.alike, h.table, h.written, ?_, h.later, asked, rfl, hasked, ?_⟩
  · simp [warned, Encoder.pushed, h.warnings, Nat.add_assoc]
  · have hwaiting : (e.buffer.push row length id).waiting = e.buffer.waiting ++ [row] := by
      simp [InsertBuffer.waiting, InsertBuffer.push]
    show List.Forall₂ _ _ (_ ++ (e.buffer.push row length id).waiting)
    rw [hwaiting, ← List.append_assoc]
    exact List.rel_append hrows (.cons hrow .nil)

/-- The records of `done` are written, and the key of one more record is known. -/
def Ready (e₀ : Encoder) (J₀ : List Statement) (k₀ : KeyStore) (done : List Json) (record : Json) (sk : Nat)
    (e : Encoder) (J : List Statement) (k : KeyStore) : Prop :=
  Written e₀ J₀ k₀ done done.length e J k ∧ k.key? e₀.table (idOf record) = some sk

variable {sk : Nat}

theorem flush_ready {durable : Bool} :
    Ends (At (Ready e₀ J₀ k₀ done record sk)) (flush : Step (Journaled σ) Unit)
      (fun _ => At (Ready e₀ J₀ k₀ done record sk)) (Refused σ durable) := by
  refine ends_at ?_
  rintro e J k ⟨h, hsk⟩
  refine flush_ends.mono (fun _ h => h) ?_ fun _ h => h
  rintro _ ⟨e', s⟩ hsent
  have hk : s.keys = k := hsent.1
  exact ⟨(h.sent hsent).1, hk ▸ hsk⟩

theorem replaceEarlier_ready {durable : Bool} (id : String) :
    Ends (At (Ready e₀ J₀ k₀ done record sk)) (replaceEarlier id sk : Step (Journaled σ) Unit)
      (fun _ => At (Ready e₀ J₀ k₀ done record sk)) (Refused σ durable) := by
  have hrest {e₁ : Encoder} (htable : e₁.table = e₀.table) :
      Ends (At (Ready e₀ J₀ k₀ done record sk)) (do
        discard (Pass.onSession (Task.execute (.deleteKey e₁.table sk)))
        Pass.update fun e => { e with replaced := e.replaced + 1 }
        Pass.onSession (Task.note .debug s!"Record replaced by later occurrence: {e₁.table}: id {id}") :
          Step (Journaled σ) Unit) (fun _ => At (Ready e₀ J₀ k₀ done record sk)) (Refused σ durable) := by
    refine ends_at ?_
    rintro e J k ⟨h, hsk⟩
    refine (Ends.discard (ends_execute _)).bind fun _ => (ends_update _).bind fun _ =>
      (ends_note _ _).mono (fun _ h => h) ?_ fun _ h => h
    rintro _ ⟨e', s⟩ ⟨rfl, hJ, rfl⟩
    have hdeleted := h.deleted sk
    rw [h.table, ← htable, ← hJ] at hdeleted
    exact ⟨⟨hdeleted.alike, hdeleted.table, hdeleted.written, hdeleted.warnings, hdeleted.later,
      hdeleted.listed⟩, hsk⟩
  refine ends_at ?_
  rintro e J k h
  have htable := h.1.table
  refine ends_own ?_
  by_cases hwaits : e.buffer.holds id = true
  · rw [if_pos hwaits]
    exact (ends_is flush_ready h).bind fun _ => hrest htable
  · rw [if_neg hwaits]
    exact ends_is (hrest htable) h

theorem markSeen_ready {durable : Bool} :
    Ends (At (Ready e₀ J₀ k₀ done record sk)) (markSeen sk : Step (Journaled σ) Bool)
      (fun _ => At (Ready e₀ J₀ k₀ done record sk)) (Refused σ durable) := by
  rintro ⟨e, s⟩ ⟨h, hsk⟩
  exact ⟨⟨h.alike, h.table, h.written, h.warnings, h.later, h.listed⟩, hsk⟩

/-- Encoding a record and adding its row. -/
theorem append_ends (dialect : Dialect) :
    Ends (At (Ready e₀ J₀ k₀ done record sk)) (do
        let row ← encode record (idOf record) sk
        onBuffer (InsertBuffer.add (send e₀.table) row (row.sql dialect).length (some (idOf record)))
        Pass.update fun e => { e with written := e.written + 1 } : Step (Journaled σ) Unit)
      (fun _ => At (Written e₀ J₀ k₀ (done ++ [record]) (done.length + 1))) (Refused σ k₀.isDurable) := by
  refine ends_at ?_
  rintro e J k ⟨h, hsk⟩
  rw [← h.later.kind]
  refine (encode_ends (h.table ▸ hsk)).bind fun row => ends_at ?_
  rintro e' J' k' ⟨⟨rfl, rfl, hk⟩, hrow⟩
  have htable : (e.warned (e.warningsOf record)).table = e₀.table := h.table
  rw [← htable]
  refine (add_ends row _ _).bind fun _ => ends_at ?_
  intro e' J' k'' hadded
  rw [h.alike.1] at hrow
  have hfills : Slot.Fills e₀ k' record (Slot.all e₀.columns) row.literals :=
    hrow.imp fun slot l hl => (literal?_congr h.alike h.table slot).symm.trans hl
  have hpushed := (h.keep hk).pushed hfills (row.sql dialect).length (some (idOf record))
  rw [← warningsOf_congr h.alike] at hpushed
  have hwritten : Written e₀ J₀ k₀ (done ++ [record]) done.length e' J' k'' := by
    rcases hadded with hsent | ⟨rfl, rfl, rfl⟩
    · exact (hpushed.sent hsent).1
    · exact hpushed
  refine (ends_update _).mono (fun _ h => h) ?_ fun _ h => h
  rintro _ ⟨e'', s⟩ ⟨rfl, rfl, rfl⟩
  exact ⟨hwritten.alike, hwritten.table, congrArg (· + 1) hwritten.written, hwritten.warnings,
    hwritten.later, hwritten.listed⟩

theorem idOf_eq {table id : String} (h : identifier table record = .ok id) : idOf record = id := by
  have hid : Identified record := by
    cases record with
    | obj members =>
      simp only [identifier, Json.asRecord, bind, Except.bind] at h
      split at h
      · cases h
      · cases h
      · next v hnull hv => exact ⟨v, hv, hnull⟩
    | _ => cases h
  rw [identifier_eq hid] at h
  cases h
  rfl

/-- Writing one more record. -/
theorem write_ends (hE : ∀ err, Refused σ k₀.isDurable err → E err)
    (hid : ∀ err, identifier e₀.table record = .error err → E err) :
    Ends (At (Written e₀ J₀ k₀ done done.length)) (write record : Step (Journaled σ) Unit)
      (fun _ => At (Written e₀ J₀ k₀ (done ++ [record]) (done.length + 1))) E := by
  refine ends_at ?_
  intro e J k h
  unfold write
  refine ends_own ?_
  rw [h.table]
  cases hident : identifier e₀.table record with
  | error err => exact Ends.bind (Q := fun _ _ => False) (ends_throw (hid err hident)) fun _ _ h => h.elim
  | ok id =>
    simp only [pure_bind]
    rw [← idOf_eq hident]
    refine Ends.mono (E := Refused σ k₀.isDurable) ?_ (fun _ h => h) (fun _ _ h => h) hE
    refine Ends.bind (Q := fun sk => At (Ready e₀ J₀ k₀ done record sk)) ?_ fun sk => ?_
    · rw [← h.later.kind]
      refine (ends_resolve _ _).mono (fun _ h => h) ?_ fun _ h => h
      rintro sk ⟨e', s⟩ ⟨rfl, rfl, hk, hsk⟩
      exact ⟨h.keep hk, hsk⟩
    · refine markSeen_ready.bind fun before => ?_
      cases before with
      | true => exact (replaceEarlier_ready _).bind fun _ => append_ends _
      | false => exact append_ends _

/-! ## All records -/

/-- Writing records in turn. -/
theorem writeAll_ends (hE : ∀ err, Refused σ k₀.isDurable err → E err) (rules : Option Redaction.Rules)
    (records : List Json)
    (hid : ∀ d ∈ records.map (Staging.redacted rules), ∀ err, identifier e₀.table d = .error err → E err) :
    Ends (At (Written e₀ J₀ k₀ done done.length)) (Staging.writeAll rules records : Step (Journaled σ) Unit)
      (fun _ => At (Written e₀ J₀ k₀ (done ++ records.map (Staging.redacted rules))
        (done.length + records.length))) E := by
  induction records generalizing done with
  | nil => exact ends_pure fun st h => by simpa using h
  | cons record rest ih =>
    refine (write_ends hE (hid _ (List.mem_cons_self ..))).bind fun _ => ?_
    have hrest := @ih (done ++ [Staging.redacted rules record]) fun d hd =>
      hid d (List.mem_cons_of_mem _ hd)
    simpa [Nat.add_assoc, Nat.add_comm 1] using hrest

/-- Sending what still waits. -/
theorem finish_ends (hE : ∀ err, Refused σ k₀.isDurable err → E err) :
    Ends (At (Written e₀ J₀ k₀ done n)) (finish : Step (Journaled σ) Unit)
      (fun _ => At fun e J k => Written e₀ J₀ k₀ done n e J k ∧ e.buffer.pending = []) E := by
  refine ends_at ?_
  intro e J k h
  refine flush_ends.mono (fun _ h => h) ?_ hE
  rintro _ ⟨e', s⟩ hsent
  exact h.sent hsent

/-- The fields of a row, as they are read, show a record in the places of its table. -/
def Shows (d : Dialect) (e : Encoder) (k : KeyStore) (record : Json) (fields : List Sql.Field) : Prop :=
  List.Forall₂ (fun slot f => ∃ l, Slot.literal? e k record slot = some l ∧ f = Sql.fieldOf d l)
    (Slot.all e.columns) fields

theorem shows_fieldsOf {row : Row} (d : Dialect)
    (h : Slot.Fills e k record (Slot.all e.columns) row.literals) :
    Shows d e k record (Sql.fieldsOf d row) := by
  rw [Shows, Sql.fieldsOf, List.forall₂_map_right_iff]
  exact h.imp fun slot l hl => ⟨l, hl, rfl⟩

/-- **Insertions are read back as the records.** Whatever a load is given, whenever the buffer sends its
rows, and whatever database and store of keys it works on: it fails for their errors only, and else its
insertions, read by a database of the dialect, list one row for each record in order. A row has a field for
each column that the definition of the loading table declares, in the same order, and the field is what
the record has there: a text is the text of the record, without what the database cannot hold. -/
theorem insertions_read_back (table : String) (columns : List Column) (d : Dialect)
    (tenant limit threshold : Int) (rules : Option Redaction.Rules) (records : List Json)
    (hid : ∀ r ∈ records.map (Staging.redacted rules), Identified r) (s : Session (Journaled σ)) :
    let e₀ := start table columns d tenant limit threshold
    Statement.createLoadingText d table columns =
      s!"CREATE TABLE {TableName.loading table} (\n" ++
        "\n".intercalate ((Slot.all columns).map (Slot.line d) ++
          ["    PRIMARY KEY (sk),", "    UNIQUE (id)"]) ++
        "\n)" ++ d.tableKeys "sk" "sk" ++ ";" ∧
    match (do Staging.writeAll rules records; finish : Step (Journaled σ) Unit) (e₀, s) with
    | .ok _ (_, s') => ∃ asked rows, s'.database.journal = asked.reverse ++ s.database.journal ∧
        (∀ st ∈ asked, st.OfLoad table) ∧ Statement.Lists d table asked rows ∧
        List.Forall₂ (Shows d e₀ s'.keys) (records.map (Staging.redacted rules)) rows
    | .error err _ => Refused σ s.keys.isDurable err := by
  intro e₀
  refine ⟨Slot.createLoadingText_eq d table columns, ?_⟩
  have hident : ∀ r ∈ records.map (Staging.redacted rules), ∀ err, identifier e₀.table r = .error err →
      Refused σ s.keys.isDurable err := by
    intro r hr err herr
    rw [identifier_eq (hid r hr)] at herr
    cases herr
  have hwrite := @writeAll_ends σ e₀ s.database.journal s.keys [] _ _ (fun _ h => h) rules records hident
  have h := (hwrite.bind fun _ => finish_ends fun _ h => h) (e₀, s) (Written.refl rfl)
  split at h
  · next heq =>
    rw [heq]
    obtain ⟨⟨-, -, -, -, -, asked, hJ, hasked, hrows⟩, hnone⟩ := h
    refine ⟨asked, _, hJ, hasked, Statement.lists_insertedRows hasked, ?_⟩
    rw [InsertBuffer.waiting, hnone, List.reverse_nil, List.append_nil] at hrows
    rw [List.forall₂_map_right_iff]
    exact hrows.imp fun record row hrow => shows_fieldsOf d hrow
  · next heq =>
    rw [heq]
    exact h

/-- Texts that would end a literal, a row and a statement are read as texts. -/
theorem insertions_read_back_hostile : ∃ e s' asked fields,
    (do Staging.writeAll none [.obj [("id", .str "a'),('b"), ("n", .str "\\');")]]; finish :
        Step (Journaled Recorder) Unit)
      (start "t" [⟨"n", "n", .text⟩] .redshift 7 100 1000, ⟨⟨⟨.redshift, [], -1, []⟩, []⟩, .memory .empty, []⟩) =
        .ok () (e, s') ∧
    s'.database.journal = asked.reverse ∧ Statement.Lists .redshift "t" asked [fields] ∧
    fields[1]? = some (.text "a'),('b".toList) ∧ fields[2]? = some (.text "\\');".toList) ∧
    fields.length = 5 := by
  obtain ⟨-, h⟩ := insertions_read_back (σ := Recorder) "t" [⟨"n", "n", .text⟩] .redshift 7 100 1000 none
    [.obj [("id", .str "a'),('b"), ("n", .str "\\');")]]
    (by
      intro d hd
      rw [List.map_singleton, List.mem_singleton] at hd
      exact ⟨.str "a'),('b", by rw [hd]; rfl, nofun⟩)
    ⟨⟨⟨.redshift, [], -1, []⟩, []⟩, .memory .empty, []⟩
  split at h
  · next e s' heq =>
    obtain ⟨asked, rows, hJ, -, hlists, hrows⟩ := h
    rw [List.map_singleton, List.forall₂_cons_left_iff] at hrows
    obtain ⟨fields, rest, hfields, hrest, rfl⟩ := hrows
    obtain rfl : rest = [] := by simpa using hrest
    refine ⟨e, s', asked, fields, heq, by simpa using hJ, hlists, ?_, ?_, hfields.length_eq.symm⟩
    all_goals
      obtain _ | ⟨-, _ | ⟨⟨_, ⟨⟩, rfl⟩, _ | ⟨⟨_, ⟨⟩, rfl⟩, -⟩⟩⟩ := hfields
      rfl
  · next heq =>
    have hok : (match (do Staging.writeAll none [.obj [("id", .str "a'),('b"), ("n", .str "\\');")]]; finish :
        Step (Journaled Recorder) Unit) (start "t" [⟨"n", "n", .text⟩] .redshift 7 100 1000,
          ⟨⟨⟨.redshift, [], -1, []⟩, []⟩, .memory .empty, []⟩) with
      | .ok _ _ => true
      | .error _ _ => false) = true := by decide +kernel
    rw [heq] at hok
    cases hok

end Encoder

end SnapshotStaging
