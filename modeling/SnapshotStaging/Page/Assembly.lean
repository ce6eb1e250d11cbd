import SnapshotStaging.Error
import SnapshotStaging.Json.Canonical
import SnapshotStaging.Json.Reader
import SnapshotStaging.Page.Event

/-!
# Assembling records from events

A page is an array of records, or an object whose direct array members hold the records; other
values in such an array are passed over. While inside a record the assembly writes the record's text
again; when the record closes the text is read as one value and put into canonical order. Writing, reading
and ordering may each meet a limit of the platform.

The places and the ways between them:

    outsideArray   -> betweenRecords   on entering an array of records
    betweenRecords -> insideRecord     on the start of an object
    insideRecord   -> betweenRecords   when that object closes
    betweenRecords -> outsideArray     on leaving the array

Assembly checks only some orders of events; every other order yields a text that cannot be read.

| here | there |
| --- | --- |
| `Assembly` | the fields of `RecordBuilder`; `place` is its `state`, `skipped` its `_skip_depth` |
| `OpenContainer` | an entry of `_inner` with its entry of `_first` |
| `depth` | `RecordBuilder.record_depth` |
| `unexpected` | `RecordBuilder._illegal` |
| `stepOutside` | `RecordBuilder._feed_outside_array` |
| `stepSkipped`, `stepBetween` | `RecordBuilder._feed_between_records`: its first branch, and the rest |
| `beforeValue`, `separated` | `RecordBuilder._separator`, and what is left of it without a name |
| `stepInside`, `opened`, `closed` | `RecordBuilder._feed_inside_record` |
| `closeRecord` | `RecordBuilder._finish_record` |
| `step` | `RecordBuilder.feed` |
| `run`, `faultError`, `page` | `RecordBuilder.build` |
| `Page.records` | `build_records` |
-/

namespace SnapshotStaging

/-- An open container of a record, and whether it is still empty. -/
structure OpenContainer where
  kind : Container
  empty : Bool
  deriving DecidableEq, Repr

structure Assembly where
  place : Place
  /-- Records read; each is then put into order and handed over. -/
  built : Nat
  /-- Containers open outside any record, innermost first. -/
  outer : List Container
  /-- Containers open inside the current record, innermost first. -/
  inner : List OpenContainer
  /-- Whether a name has been written whose value is due. -/
  afterName : Bool
  /-- The text of the current record, latest part first. -/
  parts : List (List Char)
  /-- Open containers of a value that is passed over. -/
  skipped : Nat

/-- What an event brought about besides the new state. -/
inductive Outcome
  | nothing
  | record (v : Json)
  | refused (e : Error)

namespace Assembly

def empty : Assembly := ⟨.outsideArray, 0, [], [], false, [], 0⟩

/-- How deep inside a record the assembly stands. -/
def depth (a : Assembly) : Nat := a.inner.length

def unexpected (table : String) (a : Assembly) (e : Event) : Assembly × Outcome :=
  (a, .refused (.unexpectedEvent e.name a.place table))

/-- An event outside every array of records. -/
def stepOutside (table : String) (a : Assembly) (e : Event) : Assembly × Outcome :=
  match e with
  | .openArray =>
    let place := if a.outer = [] || a.outer = [.object] then .betweenRecords else a.place
    ({ a with place := place, outer := .array :: a.outer }, .nothing)
  | .openObject => ({ a with outer := .object :: a.outer }, .nothing)
  | .closeObject | .closeArray =>
    match a.outer with
    | [] => unexpected table a e
    | _ :: outer => ({ a with outer := outer }, .nothing)
  | .key _ | .scalar _ _ => (a, .nothing)
  | .other _ => unexpected table a e

/-- An event inside a value that is passed over. -/
def stepSkipped (a : Assembly) (e : Event) : Assembly :=
  match e with
  | .openObject | .openArray => { a with skipped := a.skipped + 1 }
  | .closeObject | .closeArray => { a with skipped := a.skipped - 1 }
  | _ => a

/-- Whether the open array is a member of the page's object, where values other than objects are
passed over. -/
def inEnvelope (a : Assembly) : Bool := a.outer = [.array, .object]

/-- An event between records. -/
def stepBetween (table : String) (a : Assembly) (e : Event) : Assembly × Outcome :=
  match e with
  | .openObject =>
    ({ a with
        place := .insideRecord
        inner := [⟨.object, true⟩]
        afterName := false
        parts := [['\x7b']] }, .nothing)
  | .closeArray => ({ a with place := .outsideArray, outer := a.outer.tail }, .nothing)
  | .openArray =>
    if a.inEnvelope then ({ a with skipped := 1 }, .nothing) else unexpected table a e
  | .scalar _ _ => if a.inEnvelope then (a, .nothing) else unexpected table a e
  | _ => unexpected table a e

/-- Marks the innermost container as holding something, and writes the comma if it held something
before. -/
def separated (a : Assembly) : Assembly :=
  match a.inner with
  | [] => a
  | c :: outer =>
    { a with
      inner := { c with empty := false } :: outer
      parts := if c.empty then a.parts else [','] :: a.parts }

/-- Prepares for a value: after a name nothing is written, else what `separated` writes. -/
def beforeValue (a : Assembly) : Assembly :=
  if a.afterName then { a with afterName := false } else a.separated

def written (a : Assembly) (part : List Char) : Assembly := { a with parts := part :: a.parts }

/-- The text written for the current record. -/
def text (a : Assembly) : List Char := a.parts.reverse.flatten

def opened (a : Assembly) (kind : Container) (bracket : Char) : Assembly :=
  let a := a.beforeValue
  { a with parts := [bracket] :: a.parts, inner := ⟨kind, true⟩ :: a.inner }

section

variable [Platform]

/-- Reads the text of a record that has closed and puts the record into order. -/
def closeRecord (table : String) (a : Assembly) : Assembly × Outcome :=
  let text := a.text
  let a := { a with parts := [], place := .betweenRecords }
  match Json.load .finite text with
  | .ok v =>
    let a := { a with built := a.built + 1 }
    match v.order? with
    | some v => (a, .record v)
    | none => (a, .refused .deepRecord)
  | .error .invalid | .error .overlong => (a, .refused (.invalidRecord (String.ofList text) table))
  | .error (.outOfRange d) => (a, .refused (.numberOutOfRange d (String.ofList text) table))
  | .error .exhausted => (a, .refused .deepText)

/-- The end of a container inside a record, refused when another kind is open or a value is due. -/
def closed (table : String) (a : Assembly) (e : Event) (kind : Container) (bracket : Char) :
    Assembly × Outcome :=
  match a.inner with
  | c :: outer =>
    if c.kind ≠ kind || a.afterName then unexpected table a e
    else
      let a := { a with parts := [bracket] :: a.parts, inner := outer }
      if outer = [] then a.closeRecord table else (a, .nothing)
  | [] => unexpected table a e

/-- An event inside a record. -/
def stepInside (table : String) (a : Assembly) (e : Event) : Assembly × Outcome :=
  match e with
  | .key name =>
    if (a.inner.head?.map (·.kind)) ≠ some .object || a.afterName then unexpected table a e
    else
      match name with
      | .decimal _ => (a.separated, .refused .unsuitableValue)
      | .value name =>
        if e.overlong Platform.limits then (a.separated, .refused .overlongInteger)
        else
          let a := (a.separated.written (name.write .spaced 0 [])).written [':']
          ({ a with afterName := true }, .nothing)
  | .scalar _ value =>
    if e.overlong Platform.limits then (a.beforeValue, .refused .overlongInteger)
    else (a.beforeValue.written value.text, .nothing)
  | .openObject => (a.opened .object '\x7b', .nothing)
  | .openArray => (a.opened .array '[', .nothing)
  | .closeObject => a.closed table e .object '\x7d'
  | .closeArray => a.closed table e .array ']'
  | .other _ => unexpected table a e

/-- One event: the state after it and what it brought about. -/
def step (table : String) (a : Assembly) (e : Event) : Assembly × Outcome :=
  match a.place with
  | .insideRecord => a.stepInside table e
  | .betweenRecords =>
    if a.skipped = 0 then a.stepBetween table e else (a.stepSkipped e, .nothing)
  | .outsideArray => a.stepOutside table e

/-- Events in order up to the first that is refused; `records` holds the ones handed over before,
latest first. -/
def run (table : String) (a : Assembly) (records : List Json) :
    List Event → Assembly × List Json × Option Error
  | [] => (a, records.reverse, none)
  | e :: rest =>
    match a.step table e with
    | (a, .nothing) => run table a records rest
    | (a, .record v) => run table a (v :: records) rest
    | (a, .refused e) => (a, records.reverse, some e)

/-- What an early end of a page's events means for its table. -/
def faultError (table : String) : Fault → Error
  | .invalid => .invalidPage table
  | .undecodable => .undecodableText
  | .unholdable => .unholdableNumber
  | .overlong => .overlongInteger

/-- A whole page: the records handed over, and why it failed if it did. -/
def page (table : String) (a : Assembly) (bytes : List UInt8) :
    Assembly × List Json × Option Error :=
  let (events, fault) := Page.events bytes
  match a.run table [] events, fault with
  | (a, records, some e), _ => (a, records, some e)
  | (a, records, none), some fault => (a, records, some (faultError table fault))
  | (a, records, none), none =>
    if a.place = .outsideArray then (a, records, none)
    else (a, records, some (.pageEnded a.place table))

end

end Assembly

/-- The records of one page by itself, and why reading it ended early if it did. -/
def Page.records [Platform] (table : String) (bytes : List UInt8) : List Json × Option Error :=
  (Assembly.empty.page table bytes).2

end SnapshotStaging
