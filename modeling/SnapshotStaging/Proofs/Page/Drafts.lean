import SnapshotStaging.Proofs.Page.Records

/-!
# Drafts of records

The events of an object up to some point, before its last, are a draft: the container that is open innermost, with
what it holds so far, and around it the containers whose next value is still being made. A `Hole` is a place where a
value is due, so a draft cannot have a container around another that would not take it: an object takes a value after
a name only.

Main results: `Draft.events_put` and its neighbours, what an event makes of a draft; `Document.Within.stands`, a
document whose events are sound stands for a record, within the limits of the platform.
-/

namespace SnapshotStaging

/-! ## Events -/

namespace Event

/-- What the events of a page carry: names are texts, and scalars stand for something. -/
def Sound : Event → Prop
  | .key name => ∃ s, name = .value (.str s)
  | .scalar _ value => ∃ s : Scalar, ¬ s.Overflows ∧ value = s.payload
  | _ => True

/-- How many containers more are open after an event. -/
def nesting : Event → Int
  | .openObject => 1
  | .openArray => 1
  | .closeObject => -1
  | .closeArray => -1
  | _ => 0

/-- How many containers more are open after a row of events. -/
def nestings : List Event → Int
  | [] => 0
  | e :: rest => e.nesting + nestings rest

/-- Whether events keep to the limits of the platform: every integer can be turned into text, and nowhere are more
containers open than can be read. -/
structure Within [Platform] (es : List Event) : Prop where
  digits : ∀ e ∈ es, e.overlong Platform.limits = false
  shallow : ∀ m, Platform.limits.admits (Reader.calls (nestings (es.take m)).toNat + 2) = true

end Event

namespace Container

def opening : Container → Event
  | .object => .openObject
  | .array => .openArray

def closing : Container → Event
  | .object => .closeObject
  | .array => .closeArray

end Container

theorem Scalar.payload_injective : Function.Injective Scalar.payload := by
  intro s t h
  cases s <;> cases t <;> cases h <;> rfl

namespace Document

mutual

/-- Every leaf of a document has its event. -/
theorem mem_events_of_mem_leaves {a : ScalarKind × Scalar} : ∀ {t : Document}, a ∈ t.leaves →
    Event.scalar a.1 a.2.payload ∈ t.events
  | .leaf b, h => by
    rw [List.mem_singleton.1 h]
    exact List.mem_singleton.2 rfl
  | .arr items, h => by
    rw [events_arr]
    exact List.mem_append_right _ (List.mem_append_left _ (mem_events_of_mem_itemLeaves h))
  | .obj members, h => by
    rw [events_obj]
    exact List.mem_append_right _ (List.mem_append_left _ (mem_events_of_mem_memberLeaves h))

theorem mem_events_of_mem_itemLeaves {a : ScalarKind × Scalar} : ∀ {items : List Document},
    a ∈ Tree.itemLeaves items → Event.scalar a.1 a.2.payload ∈ items.flatMap events
  | t :: rest, h => by
    rw [List.flatMap_cons, List.mem_append]
    rw [Tree.itemLeaves, List.mem_append] at h
    exact h.imp mem_events_of_mem_leaves mem_events_of_mem_itemLeaves

theorem mem_events_of_mem_memberLeaves {a : ScalarKind × Scalar} : ∀ {members : List (String × Document)},
    a ∈ Tree.memberLeaves members → Event.scalar a.1 a.2.payload ∈ members.flatMap memberEvents
  | (name, t) :: rest, h => by
    rw [List.flatMap_cons, List.mem_append]
    rw [Tree.memberLeaves, List.mem_append] at h
    exact h.imp (fun h => List.mem_cons_of_mem _ (mem_events_of_mem_leaves h)) mem_events_of_mem_memberLeaves

end

/-- A document within the limits of the platform whose events are sound stands for a record. -/
theorem Within.stands [Platform] {t : Document} (hwithin : t.Within) (h : ∀ e ∈ t.events, e.Sound) :
    t.Stands t.meaning.canonical := by
  refine hwithin.stands_of fun a ha hover => ?_
  obtain ⟨s, hs, hpayload⟩ := h _ (mem_events_of_mem_leaves ha)
  exact hs (Scalar.payload_injective hpayload ▸ hover)

/-- A record of arrays within one another has sound events. -/
theorem sound_nested (n : Nat) : ∀ e ∈ events (.obj [("n", .nested n)]), e.Sound := by
  have harrays : ∀ e ∈ events (.nested n), e.Sound := by
    induction n with
    | zero => simp [Tree.nested, events_arr, Event.Sound]
    | succ n ih => simpa [Tree.nested, events_arr, Event.Sound, or_imp, forall_and] using ih
  rw [events_obj, List.flatMap_cons, List.flatMap_nil, memberEvents]
  simp only [List.forall_mem_append, List.forall_mem_cons, List.not_mem_nil, false_imp_iff, implies_true, and_true]
  exact ⟨trivial, ⟨⟨"n", rfl⟩, harrays⟩, trivial⟩

end Document

/-! ## Containers that are open -/

/-- What the innermost open container holds so far: items, members, or members and a name whose value is due. -/
inductive Begun
  | arr (items : List Document)
  | obj (members : List (String × Document))
  | due (members : List (String × Document)) (name : String)

/-- A place in an open container where a value is due: after its items, or after a name. -/
inductive Hole
  | item (items : List Document)
  | member (members : List (String × Document)) (name : String)

namespace Begun

open Document

/-- The events of a container so far. -/
def events : Begun → List Event
  | .arr items => .openArray :: items.flatMap Document.events
  | .obj members => .openObject :: members.flatMap memberEvents
  | .due members name => .openObject :: (members.flatMap memberEvents ++ [.key (.value (.str name))])

def container : Begun → OpenContainer
  | .arr items => ⟨.array, items.isEmpty⟩
  | .obj members => ⟨.object, members.isEmpty⟩
  | .due _ _ => ⟨.object, false⟩

/-- Whether a name stands last. -/
def named : Begun → Bool
  | .due _ _ => true
  | _ => false

/-- Where a value goes, if one may come. -/
def hole? : Begun → Option Hole
  | .arr items => some (.item items)
  | .obj _ => none
  | .due members name => some (.member members name)

/-- The whole container, if it may end. -/
def whole? : Begun → Option Document
  | .arr items => some (.arr items)
  | .obj members => some (.obj members)
  | .due _ _ => none

/-- A container without anything in it. -/
def fresh : Container → Begun
  | .object => .obj []
  | .array => .arr []

end Begun

namespace Hole

/-- The container up to the hole. -/
def begun : Hole → Begun
  | .item items => .arr items
  | .member members name => .due members name

/-- The container once the value is there. -/
def fill : Hole → Document → Begun
  | .item items, t => .arr (items ++ [t])
  | .member members name, t => .obj (members ++ [(name, t)])

def kind : Hole → Container
  | .item _ => .array
  | .member _ _ => .object

end Hole

namespace Begun

open Document

variable {b : Begun} {h : Hole} {t : Document}

@[simp]
theorem events_fill (h : Hole) (t : Document) : (h.fill t).events = h.begun.events ++ t.events := by
  cases h <;> simp [Hole.fill, Hole.begun, events, memberEvents]

@[simp]
theorem container_fill (h : Hole) (t : Document) : (h.fill t).container = ⟨h.kind, false⟩ := by
  cases h <;> simp [Hole.fill, Hole.kind, container]

@[simp]
theorem named_fill (h : Hole) (t : Document) : (h.fill t).named = false := by
  cases h <;> rfl

@[simp]
theorem named_fresh (kind : Container) : (fresh kind).named = false := by
  cases kind <;> rfl

@[simp]
theorem container_fresh (kind : Container) : (fresh kind).container = ⟨kind, true⟩ := by
  cases kind <;> rfl

theorem events_fresh (kind : Container) : (fresh kind).events = [kind.opening] := by
  cases kind <;> rfl

theorem begun_of_hole? (hb : b.hole? = some h) : h.begun = b := by
  cases b <;> cases hb <;> rfl

/-- The container of a hole is one that holds something, whatever the value will be. -/
theorem filled_of_hole? (hb : b.hole? = some h) : Assembly.filled b.container b.named = ⟨h.kind, false⟩ := by
  cases b <;> cases hb <;> rfl

theorem events_of_whole? (hb : b.whole? = some t) : t.events = b.events ++ [b.container.kind.closing] := by
  cases b <;> cases hb <;> simp [events_arr, events_obj, events, container, Container.closing]

/-- Only an object where a name is due takes no value. -/
theorem of_hole?_eq_none (hb : b.hole? = none) :
    b.container.kind = .object ∧ b.named = false := by
  cases b with
  | obj members => exact ⟨rfl, rfl⟩
  | _ => cases hb

/-- A container without a name at its end may end. -/
theorem exists_whole? (hb : b.named = false) : ∃ t, b.whole? = some t := by
  cases b with
  | due members name => cases hb
  | _ => exact ⟨_, rfl⟩

end Begun

/-! ## Drafts -/

/-- An object up to some point: what is open innermost, and the holes of the containers around it, inner ones first. -/
structure Draft where
  inner : Begun
  outer : List Hole

namespace Draft

variable {D : Draft} {h : Hole} {t : Document}

/-- An object that has just been opened. -/
def start : Draft := ⟨.obj [], []⟩

/-- The events so far. -/
def events (D : Draft) : List Event := D.outer.reverse.flatMap (·.begun.events) ++ D.inner.events

/-- The containers around the innermost one. -/
def around (D : Draft) : List OpenContainer := D.outer.map fun h => ⟨h.kind, false⟩

/-- A value at a hole of the innermost container. -/
theorem events_put (hole : D.inner.hole? = some h) (t : Document) :
    (Draft.mk (h.fill t) D.outer).events = D.events ++ t.events := by
  simp [events, Begun.begun_of_hole? hole]

/-- A container that opens at a hole of the innermost one. -/
theorem events_enter (hole : D.inner.hole? = some h) (kind : Container) :
    (Draft.mk (.fresh kind) (h :: D.outer)).events = D.events ++ [kind.opening] := by
  simp [events, Begun.begun_of_hole? hole, Begun.events_fresh]

/-- The innermost container ends, and goes where it was due. -/
theorem events_leave {b : Begun} {outer : List Hole} (whole : b.whole? = some t) :
    (Draft.mk (h.fill t) outer).events = (Draft.mk b (h :: outer)).events ++ [b.container.kind.closing] := by
  simp [events, Begun.events_of_whole? whole]

/-- A name after the members of the innermost object. -/
theorem events_name (members : List (String × Document)) (name : String) (outer : List Hole) :
    (Draft.mk (.due members name) outer).events =
      (Draft.mk (.obj members) outer).events ++ [.key (.value (.str name))] := by
  simp [events, Begun.events]

/-- The outermost container ends. -/
theorem events_whole {b : Begun} (whole : b.whole? = some t) :
    t.events = (Draft.mk b []).events ++ [b.container.kind.closing] := by
  simp [events, Begun.events_of_whole? whole]

end Draft

end SnapshotStaging
