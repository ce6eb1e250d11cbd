import SnapshotStaging.Json.Grammar
import SnapshotStaging.Json.Lexer
import SnapshotStaging.Json.Notation
import SnapshotStaging.Json.Printer
import SnapshotStaging.Page.Octets
import SnapshotStaging.Platform

/-!
# Events of a page

A page is bytes; its tokens are delivered as events one by one, so the events before a fault are
seen even though the page as a whole is none. A text whose bytes stand for no characters, a number
whose power of ten cannot be held and an integer with too many digits are faults where their event
would be.

| here | there |
| --- | --- |
| `ScalarKind` | `SCALAR_EVENTS` |
| `Payload.text`, `Payload.overlong` | `_scalar_text` |
| `events` | the pairs of event and value that `RecordBuilder.build` goes through |
-/

namespace SnapshotStaging

inductive ScalarKind
  | null
  | boolean
  | integer
  | double
  | number
  | string
  deriving DecidableEq, Repr

def ScalarKind.name : ScalarKind → String
  | .null => "null"
  | .boolean => "boolean"
  | .integer => "integer"
  | .double => "double"
  | .number => "number"
  | .string => "string"

/-- What an event carries: a value, or a decimal as it was written. -/
inductive Payload
  | value (v : Json)
  | decimal (d : Decimal)

/-- The text of a scalar in a record. -/
def Payload.text : Payload → List Char
  | .decimal d => d.text
  | .value (.float x) => x.text Double.plainWords
  | .value v => v.write .spaced 0 []

/-- Whether there is an integer in a payload that cannot be turned into text. -/
def Payload.overlong (limits : Limits) : Payload → Bool
  | .decimal _ => false
  | .value v => v.anyInteger limits.overlong

inductive Event
  | openObject
  | closeObject
  | openArray
  | closeArray
  | key (name : Payload)
  | scalar (kind : ScalarKind) (value : Payload)
  /-- An event of no known kind. -/
  | other (name : String)

def Event.name : Event → String
  | .openObject => "start_map"
  | .closeObject => "end_map"
  | .openArray => "start_array"
  | .closeArray => "end_array"
  | .key _ => "map_key"
  | .scalar kind _ => kind.name
  | .other name => name

/-- Whether an event carries an integer that cannot be turned into text. -/
def Event.overlong (limits : Limits) : Event → Bool
  | .key v => v.overlong limits
  | .scalar _ v => v.overlong limits
  | _ => false

/-- Why the events of a page end before the page does. -/
inductive Fault
  | invalid
  | undecodable
  | unholdable
  | overlong
  deriving DecidableEq, Repr

namespace Page

section

variable [Platform]

/-- The event of a scalar. -/
def atomEvent : Atom → Event ⊕ Fault
  | .null => .inl (.scalar .null (.value .null))
  | .bool b => .inl (.scalar .boolean (.value (.bool b)))
  | .int n =>
    if Platform.limits.overlong n then .inr .overlong else .inl (.scalar .number (.value (.int n)))
  | .decimal d => if d.representable then .inl (.scalar .number (.decimal d)) else .inr .unholdable
  | .special x => .inl (.scalar .number (.value (.float x)))

/-- The event of a token at a place where the grammar admits it; punctuation has none. -/
def event? (g : Grammar) : Token → Option (Event ⊕ Fault)
  | .openObject => some (.inl .openObject)
  | .closeObject => some (.inl .closeObject)
  | .openArray => some (.inl .openArray)
  | .closeArray => some (.inl .closeArray)
  | .comma | .colon => none
  | .text none => some (.inr .undecodable)
  | .text (some t) =>
    if g.admitsName then some (.inl (.key (.value (.str t))))
    else some (.inl (.scalar .string (.value (.str t))))
  | .atom a => some (atomEvent a)

/-- The events of a row of tokens up to the first fault; `done` holds the ones before, latest
first, and `whole` tells whether the page ended with these tokens. -/
def eventsFrom (g : Grammar) (done : List Event) (whole : Bool) :
    List Token → List Event × Option Fault
  | [] => (done.reverse, if whole && g.complete then none else some .invalid)
  | t :: rest =>
    match g.step t with
    | none => (done.reverse, some .invalid)
    | some next =>
      match event? g t with
      | none => eventsFrom next done whole rest
      | some (.inl e) => eventsFrom next (e :: done) whole rest
      | some (.inr fault) => (done.reverse, some fault)

/-- The events of a page and what ends them early. -/
def events (bytes : List UInt8) : List Event × Option Fault :=
  let (tokens, whole) := Format.page.tokens (Octets.glyphs bytes)
  eventsFrom .start [] whole tokens

end

end Page

end SnapshotStaging
