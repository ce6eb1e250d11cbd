import SnapshotStaging.Proofs.Json.Document
import SnapshotStaging.Proofs.Page.Trace

/-!
# What is due for a document

`Document.marks` says, without any machine, what is due for a document and when: the records are the
objects in the root array, or in the arrays that are members of the root object, each due at its last
event. A record may be refused instead: at its first integer that cannot be turned into text, or at its
last event, when its text cannot be read or what was read cannot be put into order
(`Document.Refused`).

Main results `due_record` and `due_refused`: what is handed over and what is refused, said of the document alone. Of a
document within the limits, only a number that overflows is refused (`Within.refused_iff`).
-/

namespace SnapshotStaging

namespace Document

/-! ## Parts of a document -/

/-- The number of events of a document. -/
def size (t : Document) : Nat := t.events.length

/-- The first event of a document. -/
def opening : Document → Event
  | .leaf a => .scalar a.1 a.2.payload
  | .arr _ => .openArray
  | .obj _ => .openObject

def isRecord : Document → Bool
  | .obj _ => true
  | _ => false

def isArray : Document → Bool
  | .arr _ => true
  | _ => false

/-- The items of an array; other documents have none. -/
def items : Document → List Document
  | .arr items => items
  | _ => []

/-- Documents in a row, each with the number of events before it. -/
def placed (p : Nat) : List Document → List (Nat × Document)
  | [] => []
  | t :: rest => (p, t) :: placed (p + t.size) rest

/-- The elements of the arrays among the members of a root object, every occurrence of a repeated member
included; a name and a bracket stand before the first of them. -/
def memberElements (p : Nat) : List (String × Document) → List (Nat × Document)
  | [] => []
  | (_, t) :: rest => placed (p + 2) t.items ++ memberElements (p + 1 + t.size) rest

/-- The elements of a document's arrays of records. -/
def elements (p : Nat) : Document → List (Nat × Document)
  | .leaf _ => []
  | .arr items => placed (p + 1) items
  | .obj members => memberElements (p + 1) members

/-! ## Events without punctuation -/

/-- The events of a member. -/
def memberEvents (m : String × Document) : List Event := .key (.value (.str m.1)) :: m.2.events

theorem spellItems_events (first : Bool) (items : List Document) :
    Tree.spellItems .events first items = items.flatMap events := by
  induction items generalizing first with
  | nil => rfl
  | cons t rest ih =>
    rw [Tree.spellItems, ih, List.flatMap_cons]
    cases first <;> rfl

theorem spellMembers_events (first : Bool) (members : List (String × Document)) :
    Tree.spellMembers .events first members = members.flatMap memberEvents := by
  induction members generalizing first with
  | nil => rfl
  | cons m rest ih =>
    rw [Tree.spellMembers, ih, List.flatMap_cons]
    cases first <;> rfl

theorem events_arr (items : List Document) :
    events (.arr items) = [.openArray] ++ (items.flatMap events ++ [.closeArray]) := by
  rw [← spellItems_events true]
  rfl

theorem events_obj (members : List (String × Document)) :
    events (.obj members) = [.openObject] ++ (members.flatMap memberEvents ++ [.closeObject]) := by
  rw [← spellMembers_events true]
  rfl

/-! ## Integers that cannot be turned into text -/

/-- The number of events before the first of these integers, if there is one. -/
def overlongAt? (limits : Limits) (t : Document) : Option Nat := t.events.findIdx? (·.overlong limits)

variable {limits : Limits}

mutual

/-- Only leaves carry integers. -/
theorem overlong_events : ∀ {t : Document}, (∀ a ∈ t.leaves, a.2.payload.overlong limits = false) →
    ∀ e ∈ t.events, e.overlong limits = false
  | .leaf a, h => List.forall_mem_singleton.2 (h a (List.mem_singleton_self a))
  | .arr items, h => by
    have hitems : ∀ e ∈ items.flatMap events, e.overlong limits = false := overlong_itemEvents h
    simp only [events_arr, List.forall_mem_append, List.forall_mem_singleton]
    exact ⟨rfl, hitems, rfl⟩
  | .obj members, h => by
    have hmembers : ∀ e ∈ members.flatMap memberEvents, e.overlong limits = false := overlong_memberEvents h
    simp only [events_obj, List.forall_mem_append, List.forall_mem_singleton]
    exact ⟨rfl, hmembers, rfl⟩

theorem overlong_itemEvents : ∀ {items : List Document},
    (∀ a ∈ Tree.itemLeaves items, a.2.payload.overlong limits = false) →
    ∀ e ∈ items.flatMap events, e.overlong limits = false
  | [], _ => nofun
  | t :: rest, h => by
    obtain ⟨hfirst, hrest⟩ := List.forall_mem_append.1 h
    rw [List.flatMap_cons, List.forall_mem_append]
    exact ⟨overlong_events hfirst, overlong_itemEvents hrest⟩

theorem overlong_memberEvents : ∀ {members : List (String × Document)},
    (∀ a ∈ Tree.memberLeaves members, a.2.payload.overlong limits = false) →
    ∀ e ∈ members.flatMap memberEvents, e.overlong limits = false
  | [], _ => nofun
  | (name, t) :: rest, h => by
    obtain ⟨hfirst, hrest⟩ := List.forall_mem_append.1 h
    rw [List.flatMap_cons, memberEvents, List.forall_mem_append, List.forall_mem_cons]
    exact ⟨⟨rfl, overlong_events hfirst⟩, overlong_memberEvents hrest⟩

end

/-- A text that can be read holds none of these integers. -/
theorem overlongAt?_of_fault? {t : Document} (h : t.fault? limits = none) : t.overlongAt? limits = none := by
  refine List.findIdx?_eq_none_iff.2 (overlong_events fun a ha => ?_)
  obtain ⟨depth, hpiece⟩ := Tree.exists_piece 0 ha
  have hnone : a.2.fault? limits depth = none := List.findSome?_eq_none_iff.1 h _ hpiece
  obtain ⟨kind, _ | _ | n | _ | _ | _⟩ := a
  case int =>
    rw [Scalar.fault?, Reader.atomFault?] at hnone
    cases hover : limits.overlong n with
    | false => exact hover
    | true => simp [hover] at hnone
  all_goals rfl

theorem overlongAt?_obj (members : List (String × Document)) :
    overlongAt? limits (.obj members) =
      ((members.flatMap memberEvents).findIdx? (·.overlong limits)).map (· + 1) := by
  rw [overlongAt?, events_obj]
  simp [List.findIdx?_append, List.findIdx?_cons, Event.overlong]

/-! ## What is due for a document -/

variable [Platform]

/-- What the end of a record brings about. -/
def outcome (table : String) (t : Document) : Outcome :=
  match t.fault? Platform.limits with
  | none =>
    match t.meaning.order? with
    | some v => .record v
    | none => .refused .deepRecord
  | some .invalid | some .overlong => .refused (.invalidRecord (String.ofList t.text) table)
  | some (.outOfRange d) => .refused (.numberOutOfRange d (String.ofList t.text) table)
  | some .exhausted => .refused .deepText

/-- What a record brings about, and after how many of its events. -/
def ending (table : String) (t : Document) : Nat × Outcome :=
  match t.overlongAt? Platform.limits with
  | some i => (i + 1, .refused .overlongInteger)
  | none => (t.size, t.outcome table)

/-- What is due for an element of an array of records. A record is due at its last event, unless it is
refused before. Anything else is refused at its first event in a root array and passed over in an array
that is a member. -/
def due (table : String) (root : Bool) (x : Nat × Document) : Option (Nat × Outcome) :=
  if x.2.isRecord then some (x.1 + (x.2.ending table).1, (x.2.ending table).2)
  else if root then some (x.1 + 1, .refused (.unexpectedEvent x.2.opening.name .betweenRecords table))
  else none

theorem due_of_isRecord {table : String} {x : Nat × Document} (h : x.2.isRecord = true) (root : Bool) :
    due table root x = some (x.1 + (x.2.ending table).1, (x.2.ending table).2) :=
  if_pos h

theorem due_root {table : String} {x : Nat × Document} (h : x.2.isRecord = false) :
    due table true x = some (x.1 + 1, .refused (.unexpectedEvent x.2.opening.name .betweenRecords table)) := by
  simp [due, h]

theorem due_member {table : String} {x : Nat × Document} (h : x.2.isRecord = false) : due table false x = none := by
  simp [due, h]

/-- What is due for a document. -/
def marks (table : String) (p : Nat) (t : Document) : Marks :=
  (t.elements p).filterMap (due table t.isArray)

/-- What is due for documents in a row. -/
def allMarks (table : String) (docs : List Document) : Marks :=
  (placed 0 docs).flatMap fun x => x.2.marks table x.1

end Document

namespace Assembly

/-- Whether an error is reported as a malformed record. -/
def Malformed (e : Error) : Prop := e.report?.map Report.kind = some .malformedRecord

theorem outcome_ne_nothing [Platform] (table : String) (t : Document) : t.outcome table ≠ .nothing := by
  unfold Document.outcome
  split
  · split <;> exact Outcome.noConfusion
  all_goals exact Outcome.noConfusion

end Assembly

/-! ## Which records are handed over -/

namespace Document

variable [Platform] {table : String} {t : Document} {n : Nat} {e : Error} {v : Json}

/-- The record that is handed over for a document. -/
structure Stands (t : Document) (v : Json) : Prop where
  read : t.fault? Platform.limits = none
  ordered : t.meaning.order? = some v

/-- After how many of its events a record is refused, and why. -/
inductive Refused (table : String) (t : Document) : Nat → Error → Prop
  /-- An integer cannot be turned into text. -/
  | integer {i : Nat} (h : t.overlongAt? Platform.limits = some i) : Refused table t (i + 1) .overlongInteger
  /-- The text has an integer with too many digits all the same: a number that was written with an exponent. -/
  | digits (h : t.overlongAt? Platform.limits = none) (hread : t.fault? Platform.limits = some .overlong) :
    Refused table t t.size (.invalidRecord (String.ofList t.text) table)
  | range {d : Decimal} (h : t.overlongAt? Platform.limits = none)
      (hread : t.fault? Platform.limits = some (.outOfRange d)) :
    Refused table t t.size (.numberOutOfRange d (String.ofList t.text) table)
  | deepText (h : t.overlongAt? Platform.limits = none) (hread : t.fault? Platform.limits = some .exhausted) :
    Refused table t t.size .deepText
  /-- The text can be read, but what is read cannot be put into order. -/
  | deepRecord (hread : t.fault? Platform.limits = none) (horder : t.meaning.order? = none) :
    Refused table t t.size .deepRecord

/-- Whether a document keeps to the limits of the platform, whatever floats its numbers are. -/
structure Within (t : Document) : Prop where
  /-- Every integer can be turned into text and back. -/
  digits : ∀ p ∈ t.pieces 0, pieceFault? Platform.limits p ≠ some .overlong
  /-- The text can be read. -/
  read : ∀ p ∈ t.pieces 0, pieceFault? Platform.limits p ≠ some .exhausted
  /-- What the document stands for can be put into order. -/
  order : Platform.limits.admits t.meaning.orderingCalls = true

theorem within_iff : t.Within ↔
    (∀ p ∈ t.pieces 0, pieceFault? Platform.limits p ≠ some .overlong ∧
      pieceFault? Platform.limits p ≠ some .exhausted) ∧
    Platform.limits.admits t.meaning.orderingCalls = true :=
  ⟨fun h => ⟨fun p hp => ⟨h.digits p hp, h.read p hp⟩, h.order⟩,
    fun h => ⟨fun p hp => (h.1 p hp).1, fun p hp => (h.1 p hp).2, h.2⟩⟩

instance : Decidable t.Within := decidable_of_iff' _ within_iff

theorem Stands.unique {w : Json} (hv : t.Stands v) (hw : t.Stands w) : v = w :=
  Option.some.inj (hv.ordered.symm.trans hw.ordered)

theorem ending_ne_nothing (table : String) (t : Document) (n : Nat) : t.ending table ≠ (n, .nothing) := by
  intro h
  rw [ending] at h
  split at h
  · cases h
  · exact Assembly.outcome_ne_nothing table t (Prod.mk.inj h).2

theorem ending_eq_record_iff : t.ending table = (n, .record v) ↔ n = t.size ∧ t.Stands v := by
  have hstands : t.Stands v ↔ t.fault? Platform.limits = none ∧ t.meaning.order? = some v :=
    ⟨fun h => ⟨h.read, h.ordered⟩, fun h => ⟨h.1, h.2⟩⟩
  rw [hstands, ending, outcome]
  cases hover : t.overlongAt? Platform.limits with
  | some i =>
    have hread : t.fault? Platform.limits ≠ none := fun hnone => by
      rw [overlongAt?_of_fault? hnone] at hover
      cases hover
    simp [hread]
  | none =>
    rcases t.fault? Platform.limits with _ | _ | d | _ | _
    · dsimp only
      cases t.meaning.order? <;> simp [eq_comm]
    all_goals simp

theorem ending_eq_refused_iff : t.ending table = (n, .refused e) ↔ t.Refused table n e := by
  constructor
  · intro h
    rw [ending, outcome] at h
    cases hover : t.overlongAt? Platform.limits with
    | some i =>
      rw [hover] at h
      cases h
      exact .integer hover
    | none =>
      rw [hover] at h
      rcases hread : t.fault? Platform.limits with _ | _ | d | _ | _ <;> rw [hread] at h
      · cases horder : t.meaning.order? with
        | some v => rw [horder] at h; cases h
        | none =>
          rw [horder] at h
          cases h
          exact .deepRecord hread horder
      · obtain h | h | ⟨⟨_, h⟩, -⟩ := fault?_cases hread <;> cases h
      · cases h
        exact .range hover hread
      · cases h
        exact .digits hover hread
      · cases h
        exact .deepText hover hread
  · intro h
    cases h with
    | integer h => rw [ending, h]
    | digits h hread => rw [ending, h, outcome, hread]
    | range h hread => rw [ending, h, outcome, hread]
    | deepText h hread => rw [ending, h, outcome, hread]
    | deepRecord hread horder => rw [ending, overlongAt?_of_fault? hread, outcome, hread, horder]

/-- Within the limits a text can be read unless a number overflows. -/
theorem Within.fault?_eq_none_or (h : t.Within) :
    t.fault? Platform.limits = none ∨
      ∃ d, t.fault? Platform.limits = some (.outOfRange d) ∧ ∃ a ∈ t.leaves, a.2.Overflows := by
  cases hfault : t.fault? Platform.limits with
  | none => exact .inl rfl
  | some err =>
    obtain ⟨p, hp, hpiece⟩ := List.exists_of_findSome?_eq_some hfault
    rcases fault?_cases hfault with rfl | rfl | ⟨⟨d, rfl⟩, hover⟩
    · exact absurd hpiece (h.digits p hp)
    · exact absurd hpiece (h.read p hp)
    · exact .inr ⟨d, rfl, hover⟩

/-- Within the limits a record whose numbers do not overflow is handed over. -/
theorem Within.stands_of (h : t.Within) (hfinite : ∀ a ∈ t.leaves, ¬ a.2.Overflows) :
    t.Stands t.meaning.canonical := by
  refine ⟨h.fault?_eq_none_or.resolve_right ?_, if_pos h.order⟩
  rintro ⟨d, -, a, ha, hover⟩
  exact hfinite a ha hover

/-- Within the limits every integer can be turned into text. -/
theorem Within.overlongAt? (h : t.Within) : t.overlongAt? Platform.limits = none := by
  refine List.findIdx?_eq_none_iff.2 (overlong_events fun a ha => ?_)
  obtain ⟨depth, hpiece⟩ := Tree.exists_piece 0 ha
  have hdigits : a.2.fault? Platform.limits depth ≠ some .overlong := h.digits _ hpiece
  obtain ⟨kind, _ | _ | n | _ | _ | _⟩ := a
  case int =>
    rw [Scalar.fault?, Reader.atomFault?] at hdigits
    cases hover : Platform.limits.overlong n with
    | false => exact hover
    | true => simp [hover] at hdigits
  all_goals rfl

/-- Within the limits a record is refused only when a number overflows. -/
theorem Within.range (h : t.Within) (hrefused : t.Refused table n e) :
    ∃ d, e = .numberOutOfRange d (String.ofList t.text) table ∧ n = t.size ∧ ∃ a ∈ t.leaves, a.2.Overflows := by
  have hread {err : ReadError} (hread : t.fault? Platform.limits = some err) :
      ∃ d, err = .outOfRange d ∧ ∃ a ∈ t.leaves, a.2.Overflows := by
    obtain hnone | ⟨d, hrange, hover⟩ := h.fault?_eq_none_or
    · cases hnone.symm.trans hread
    · cases hrange.symm.trans hread
      exact ⟨d, rfl, hover⟩
  cases hrefused with
  | integer hover => cases h.overlongAt?.symm.trans hover
  | @range d hover hrange =>
    obtain ⟨_, -, hleaf⟩ := hread hrange
    exact ⟨d, rfl, rfl, hleaf⟩
  | digits hover hdigits => obtain ⟨_, h, -⟩ := hread hdigits; cases h
  | deepText hover hdeep => obtain ⟨_, h, -⟩ := hread hdeep; cases h
  | deepRecord hfine horder => simp [Json.order?, h.order] at horder

/-- **Within the limits** a record is refused exactly when a number overflows: at its last event, as malformed. -/
theorem Within.refused_iff (h : t.Within) :
    (∃ e, t.Refused table n e) ↔ n = t.size ∧ ∃ a ∈ t.leaves, a.2.Overflows := by
  constructor
  · rintro ⟨e, hrefused⟩
    obtain ⟨d, -, hsize, hover⟩ := h.range hrefused
    exact ⟨hsize, hover⟩
  · rintro ⟨rfl, hover⟩
    obtain ⟨d, hrange, -⟩ := h.fault?_eq_none_or.resolve_left (fault?_ne_none_of_overflows hover)
    exact ⟨_, .range h.overlongAt? hrange⟩

theorem Within.malformed (h : t.Within) (hrefused : t.Refused table n e) : Assembly.Malformed e := by
  obtain ⟨d, rfl, -⟩ := h.range hrefused
  rfl

end Document

namespace Assembly

open Document Marks

variable [Platform] {table : String}

/-- A record is handed over at its last event. -/
theorem due_record (root : Bool) (x : Nat × Document) (q : Nat) (v : Json) :
    due table root x = some (q, .record v) ↔ x.2.isRecord = true ∧ q = x.1 + x.2.size ∧ x.2.Stands v := by
  cases hr : x.2.isRecord with
  | true =>
    have hending := @ending_eq_record_iff _ table x.2 x.2.size v
    rw [due_of_isRecord hr, Option.some.injEq, Prod.mk.injEq]
    constructor
    · rintro ⟨rfl, hrecord⟩
      obtain ⟨hsize, hstands⟩ := ending_eq_record_iff.1 (Prod.ext rfl hrecord)
      exact ⟨rfl, congrArg (x.1 + ·) hsize, hstands⟩
    · rintro ⟨-, rfl, hstands⟩
      rw [hending.2 ⟨rfl, hstands⟩]
      exact ⟨rfl, rfl⟩
  | false => cases root <;> simp [due, hr]

/-- What is refused among the elements of an array of records. -/
theorem due_refused (root : Bool) (x : Nat × Document) (q : Nat) (e : Error) :
    due table root x = some (q, .refused e) ↔
      (root = true ∧ x.2.isRecord = false ∧ q = x.1 + 1 ∧
        e = .unexpectedEvent x.2.opening.name .betweenRecords table) ∨
      (x.2.isRecord = true ∧ ∃ n, q = x.1 + n ∧ x.2.Refused table n e) := by
  cases hr : x.2.isRecord with
  | true =>
    rw [due_of_isRecord hr, Option.some.injEq, Prod.mk.injEq]
    constructor
    · rintro ⟨rfl, hrefused⟩
      exact .inr ⟨rfl, _, rfl, ending_eq_refused_iff.1 (Prod.ext rfl hrefused)⟩
    · rintro (⟨-, hnot, -⟩ | ⟨-, n, rfl, hrefused⟩)
      · cases hnot
      · rw [ending_eq_refused_iff.2 hrefused]
        exact ⟨rfl, rfl⟩
  | false => cases root <;> simp [due, hr, eq_comm]

theorem mem_allMarks {docs : List Document} {m : Nat × Outcome} :
    m ∈ allMarks table docs ↔
      ∃ d ∈ placed 0 docs, ∃ x ∈ d.2.elements d.1, due table d.2.isArray x = some m := by
  simp [allMarks, Document.marks, List.mem_flatMap, List.mem_filterMap]

end Assembly

end SnapshotStaging
