import SnapshotStaging.Proofs.Load.Answers
import SnapshotStaging.Warehouse

/-!
# The row of a record

What encoding a record gives depends on the record, on the columns, the tenant and the limit of the
encoder and on the keys of the identifiers that the record refers to, and on nothing else. `rowOf` is what
it gives in a session whose keys are settled.

Main result `encode_spec`: encoding a record asks for the keys of its references and gives its row.
-/

namespace SnapshotStaging.Encoder

/-- The calls for keys that a value in a column brings about. -/
def cellReferences (column : Column) (v : Json) : List (String × String) :=
  match column.type, v with
  | .reference, .str s => [(Assignment.referenceScope, s)]
  | _, _ => []

/-- The references of a record, in the order of the columns that hold them. -/
def references (columns : List Column) (record : Json) : List (String × String) :=
  columns.flatMap fun column => cellReferences column ((record.member? column.source).getD .null)

/-- How many literals a column takes. -/
def width (column : Column) : Nat := if column.type = .reference then 2 else 1

/-- How many literals columns take together. -/
def widths : List Column → Nat
  | [] => 0
  | column :: rest => width column + widths rest

/-- What the row of a record depends on is the same in two encoders. -/
def Alike (e₀ e : Encoder) : Prop :=
  e.columns = e₀.columns ∧ e.tenant = e₀.tenant ∧ e.maxValueLength = e₀.maxValueLength

/-- In every encoder like `e₀` a step yields `a`, and changes nothing but the count of warnings. -/
def Yields {α : Type} (e₀ : Encoder) (M : MemoryKeys) (x : Step Warehouse α) (reqs : List (String × String))
    (a : α) : Prop :=
  ∀ (name : String) (P : Encoder → Option Relation → Prop), (∀ e r, P e r → Alike e₀ e) →
    (∀ e r, P e r → P { e with warnings := e.warnings + 1 } r) →
    Meets name M x reqs P fun b e r => b = a ∧ P e r

variable {e₀ : Encoder} {M : MemoryKeys} {α β : Type}

theorem yields_pure (a : α) : Yields e₀ M (pure a : Step Warehouse α) [] a :=
  fun _ _ _ _ => meets_pure a fun _ _ hP => ⟨rfl, hP⟩

theorem Yields.bind {x : Step Warehouse α} {f : α → Step Warehouse β} {reqs rest : List (String × String)}
    {a : α} {b : β} (hx : Yields e₀ M x reqs a) (hf : Yields e₀ M (f a) rest b) :
    Yields e₀ M (x >>= f) (reqs ++ rest) b := by
  intro name P halike hwarned
  refine Meets.bind (hx name P halike hwarned) fun a' => Meets.of_and fun ha' => ?_
  rw [ha']
  exact hf name P halike hwarned

/-- A step that looks at the encoder first. -/
theorem Yields.own {f : Encoder → Step Warehouse β} {reqs : List (String × String)} {b : β}
    (h : ∀ e, Alike e₀ e → Yields e₀ M (f e) reqs b) : Yields e₀ M (Pass.own >>= f) reqs b :=
  fun name P halike hwarned => Meets.own fun e r hP => h e (halike e r hP) name P halike hwarned

theorem yields_note (level : Log.Level) (message : String) :
    Yields e₀ M (Pass.onSession (Task.note level message)) [] () := by
  intro name P _ _
  exact Meets.mono (meets_note _ _) (fun _ _ hP => hP) fun _ _ _ hP => ⟨rfl, hP⟩

theorem yields_resolve (scope id : String) :
    Yields e₀ M (Pass.onSession (Task.resolve scope id)) [(scope, id)] (M.key scope id) :=
  fun _ _ _ _ => meets_resolve scope id

theorem yields_warn (message : String) (spot : Spot) (action : String) :
    Yields e₀ M (warn message spot action) [] () := by
  unfold warn
  refine Yields.own ?_
  intro e _ name P _ hwarned
  refine (meets_update _ (fun _ => P) hwarned).then fun _ => ?_
  exact Meets.mono (meets_noteWith _ _ _) (fun _ _ hP => hP) fun _ _ _ hP => ⟨rfl, hP⟩

/-! ## Values -/

/-- A text as a literal under a limit. -/
def textOf (limit : Int) (s : String) : Literal := if limit < s.length then .null else .text s

theorem textLiteral_spec (spot : Spot) (s : String) :
    Yields e₀ M (textLiteral spot s) [] (textOf e₀.maxValueLength s) := by
  unfold textLiteral textOf
  refine Yields.own ?_
  intro e halike
  rw [halike.2.2]
  by_cases hlong : e₀.maxValueLength < s.length
  · rw [if_pos hlong, if_pos hlong]
    exact (yields_warn _ _ _).bind (yields_pure _)
  · rw [if_neg hlong, if_neg hlong]
    exact yields_pure _

/-- The literals of a column. -/
theorem cells_spec (e₀ : Encoder) (M : MemoryKeys) (column : Column) (v : Json) (id : String) (sk : Int) :
    ∃ ls : List Literal, ls.length = width column ∧
      Yields e₀ M (cells column v id sk) (cellReferences column v) ls := by
  have htext (s : String) : Yields e₀ M (do return [← textLiteral ⟨column.name, sk, id⟩ s]) []
      [textOf e₀.maxValueLength s] :=
    (textLiteral_spec _ s).bind (yields_pure _)
  have hmismatch : Yields e₀ M (do
      let e ← Pass.own
      Pass.onSession (Task.note .debug
        s!"Value does not match column type: {e.table}.{column.name} ({column.type.name}): id {id}")
      return [Literal.null]) [] [.null] :=
    Yields.own fun e _ => (yields_note _ _).bind (yields_pure _)
  obtain ⟨cname, source, type⟩ := column
  cases type with
  | reference =>
    cases v with
    | str s =>
      refine ⟨[.integer (M.key Assignment.referenceScope s), textOf e₀.maxValueLength s], rfl, ?_⟩
      have hpair : Yields e₀ M (do
          return [Literal.integer (M.key Assignment.referenceScope s), ← textLiteral ⟨cname, sk, id⟩ s]) []
          [.integer (M.key Assignment.referenceScope s), textOf e₀.maxValueLength s] :=
        (textLiteral_spec _ s).bind (yields_pure _)
      exact (yields_resolve _ _).bind hpair
    | _ => exact ⟨[.null, .null], rfl, yields_pure _⟩
  | bigint =>
    cases v with
    | null => exact ⟨[.null], rfl, yields_pure _⟩
    | int n => exact ⟨[.integer n], rfl, yields_pure _⟩
    | _ => exact ⟨[.null], rfl, hmismatch⟩
  | boolean =>
    cases v with
    | null => exact ⟨[.null], rfl, yields_pure _⟩
    | bool b => exact ⟨[.boolean b], rfl, yields_pure _⟩
    | _ => exact ⟨[.null], rfl, hmismatch⟩
  | numeric =>
    cases v with
    | null => exact ⟨[.null], rfl, yields_pure _⟩
    | int n => exact ⟨[.integer n], rfl, yields_pure _⟩
    | float x => exact ⟨[.number x], rfl, yields_pure _⟩
    | _ => exact ⟨[.null], rfl, hmismatch⟩
  | timestamp =>
    cases v with
    | null => exact ⟨[.null], rfl, yields_pure _⟩
    | str s => exact ⟨[textOf e₀.maxValueLength s], rfl, htext s⟩
    | _ => exact ⟨[.null], rfl, hmismatch⟩
  | text =>
    cases v with
    | null => exact ⟨[.null], rfl, yields_pure _⟩
    | _ => exact ⟨[textOf e₀.maxValueLength (valueText _)], rfl, htext _⟩

/-- The literals of columns in turn. -/
theorem allCells_spec (e₀ : Encoder) (M : MemoryKeys) (record : Json) (id : String) (sk : Int)
    (columns : List Column) :
    ∃ ls : List Literal, ls.length = widths columns ∧
      Yields e₀ M (allCells record id sk columns) (references columns record) ls := by
  induction columns with
  | nil => exact ⟨[], rfl, yields_pure _⟩
  | cons column rest ih =>
    obtain ⟨first, hfirst, hcells⟩ :=
      cells_spec e₀ M column ((record.member? column.source).getD .null) id sk
    obtain ⟨others, hothers, hrest⟩ := ih
    refine ⟨first ++ others, ?_, hcells.bind ?_⟩
    · rw [List.length_append, hfirst, hothers, widths]
    · have h : Yields e₀ M (do return first ++ (← allCells record id sk rest))
          (references rest record ++ []) (first ++ others) := hrest.bind (yields_pure _)
      rw [List.append_nil] at h
      exact h

/-- The payload of a record under a limit. -/
def payloadOf (limit : Int) (record : Json) : Option String :=
  if record.pretty.length ≤ limit then some record.pretty
  else if record.compact.length ≤ limit then some record.compact
  else none

theorem payload_spec (record : Json) (id : String) (sk : Int) :
    Yields e₀ M (payload record id sk) [] (payloadOf e₀.maxValueLength record) := by
  unfold payload payloadOf
  refine Yields.own ?_
  intro e halike
  rw [halike.2.2]
  dsimp only
  by_cases hpretty : record.pretty.length ≤ e₀.maxValueLength
  · rw [if_pos hpretty, if_pos hpretty]
    exact yields_pure _
  · rw [if_neg hpretty, if_neg hpretty]
    by_cases hcompact : record.compact.length ≤ e₀.maxValueLength
    · rw [if_pos hcompact, if_pos hcompact]
      exact yields_pure _
    · rw [if_neg hcompact, if_neg hcompact]
      exact (yields_warn _ _ _).bind (yields_pure _)

/-! ## Rows -/

/-- What encoding a record gives in a session of its own whose keys are those of `M`. -/
def rowOf (e₀ : Encoder) (M : MemoryKeys) (record : Json) (id : String) (sk : Int) : Option Row :=
  match encode record id sk (e₀, ⟨Warehouse.empty, .memory M, []⟩) with
  | .ok row _ => some row
  | .error _ _ => none

theorem length_columnNames (columns : List Column) :
    (Warehouse.columnNames columns).length = widths columns + 4 := by
  have hwidths : (columns.flatMap fun c : Column =>
      if c.type = .reference then [Column.keyName c.name, c.name] else [c.name]).length = widths columns := by
    induction columns with
    | nil => rfl
    | cons column rest ih =>
      rw [List.flatMap_cons, List.length_append, ih, widths, width]
      split <;> rfl
  rw [Warehouse.columnNames, List.length_append, List.length_append, hwidths]
  simp only [List.length_cons, List.length_nil]
  omega

/-- Encoding a record asks for the keys of its references and gives a row with its key and identifier and a
literal for every column of the loading table. -/
theorem encode_spec (e₀ : Encoder) (M : MemoryKeys) (record : Json) (id : String) (sk : Int) :
    ∃ row : Row, row.sk = sk ∧ row.id = id ∧
      row.literals.length = (Warehouse.columnNames e₀.columns).length ∧
      Yields e₀ M (encode record id sk) (references e₀.columns record) row := by
  obtain ⟨ls, hls, hcells⟩ := allCells_spec e₀ M record id sk e₀.columns
  refine ⟨⟨sk, id, ls, payloadOf e₀.maxValueLength record, e₀.tenant⟩, rfl, rfl, ?_, ?_⟩
  · rw [length_columnNames, Row.literals, ← hls]
    simp
  · unfold encode
    refine Yields.own ?_
    intro e halike
    rw [halike.1, halike.2.1]
    have h : Yields e₀ M (do
        let cells ← allCells record id sk e₀.columns
        return ⟨sk, id, cells, ← payload record id sk, e₀.tenant⟩) (references e₀.columns record ++ [])
        (⟨sk, id, ls, payloadOf e₀.maxValueLength record, e₀.tenant⟩ : Row) :=
      hcells.bind ((payload_spec record id sk).bind (yields_pure _))
    rw [List.append_nil] at h
    exact h

end SnapshotStaging.Encoder
