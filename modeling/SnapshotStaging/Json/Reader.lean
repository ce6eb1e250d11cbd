import SnapshotStaging.Json.Basic
import SnapshotStaging.Json.Grammar
import SnapshotStaging.Json.Lexer
import SnapshotStaging.Platform

/-!
# Reading JSON text

`Reader.step` builds the value of a text token by token, beside the `Grammar`. A number with
fraction or exponent becomes the nearest float; a reader may refuse the ones that are out of range.
Reading also ends where the limits of the platform are met: at an integer with too many digits, and
at a bracket or a number for which no call is left.

| here | there |
| --- | --- |
| `FloatRange.finite` | reading with `_finite_float` |
| `load` | `json.loads`; of a row of code points with every half of a pair |
| `readWithin`, `readChars`, `read` | the same within other limits, and without any |
-/

namespace SnapshotStaging

inductive ReadError
  | invalid
  | outOfRange (d : Decimal)
  /-- An integer has too many digits. -/
  | overlong
  /-- No call is left. -/
  | exhausted
  deriving DecidableEq, Repr

/-- Which floats a reader accepts. -/
inductive FloatRange
  | any
  | finite
  deriving DecidableEq, Repr

namespace Reader

/-- An open container and what it holds so far: items latest first, members in order, and the name
whose value is due. -/
inductive Frame (σ : Type := String)
  | array (items : List (Json σ))
  | object (members : List (σ × Json σ)) (name : σ)

structure State (σ : Type := String) where
  grammar : Grammar
  frames : List (Frame σ)
  result : Option (Json σ)

variable {σ κ : Type}

def start : State σ := ⟨.start, [], none⟩

/-- Gives a finished value to the innermost container, or to the text. -/
def State.place [DecidableEq σ] (s : State σ) (v : Json σ) : State σ :=
  match s.frames with
  | [] => { s with result := some v }
  | .array items :: outer => { s with frames := .array (v :: items) :: outer }
  | .object members name :: outer =>
    { s with frames := .object (Json.put name v members) name :: outer }

def State.enter (s : State σ) (f : Frame σ) : State σ := { s with frames := f :: s.frames }

/-- Closes the innermost container. -/
def State.leave [DecidableEq σ] (s : State σ) : State σ :=
  match s.frames with
  | [] => s
  | .array items :: outer => { s with frames := outer }.place (.arr items.reverse)
  | .object members _ :: outer => { s with frames := outer }.place (.obj members)

def State.named (s : State σ) (name : σ) : State σ :=
  match s.frames with
  | .object members _ :: outer => { s with frames := .object members name :: outer }
  | _ => s

/-- How many calls are open while a text is read, `depth` containers deep. -/
def calls (depth : Nat) : Nat := 4 + depth

/-- Why a container cannot be entered, if it cannot; it counts in the depth. -/
def openingFault? (limits : Limits) (depth : Nat) : Option ReadError :=
  if limits.admits (calls depth) then none else some .exhausted

/-- Why a scalar is refused, if it is. The words for numbers without digits are looked up by a call of their
own; where only finite floats are accepted, each float is made by two more. -/
def atomFault? (limits : Limits) (range : FloatRange) (depth : Nat) : Atom → Option ReadError
  | .int n => if limits.overlong n then some .overlong else none
  | .special _ => if limits.admits (calls depth + 1) then none else some .exhausted
  | .decimal d =>
    match range with
    | .any => none
    | .finite =>
      if !limits.admits (calls depth + 2) then some .exhausted
      else if (Double.ofDecimal d).isFinite then none else some (.outOfRange d)
  | _ => none

/-- The value of a scalar. -/
def atomValue : Atom → Json σ
  | .null => .null
  | .bool b => .bool b
  | .int n => .int n
  | .special x => .float x
  | .decimal d => .float (.ofDecimal d)

/-- How deep inside containers the next token stands. -/
def State.depth (s : State σ) : Nat := s.frames.length

/-- What a token adds to the value, once the grammar has admitted it. -/
def State.take [DecidableEq σ] [Script σ κ] (limits : Limits) (range : FloatRange) (s : State σ) :
    Token σ → Except ReadError (State σ)
  | .openObject => (openingFault? limits (s.depth + 1)).elim (.ok (s.enter (.object [] (Script.ofString "")))) .error
  | .openArray => (openingFault? limits (s.depth + 1)).elim (.ok (s.enter (.array []))) .error
  | .closeObject => .ok s.leave
  | .closeArray => .ok s.leave
  | .comma => .ok s
  | .colon => .ok s
  | .text none => .error .invalid
  | .text (some t) => if s.grammar.admitsName then .ok (s.named t) else .ok (s.place (.str t))
  | .atom a => (atomFault? limits range s.depth a).elim (.ok (s.place (atomValue a))) .error

def step [DecidableEq σ] [Script σ κ] (limits : Limits) (range : FloatRange) (s : State σ) (t : Token σ) :
    Except ReadError (State σ) :=
  match s.grammar.step t with
  | none => .error .invalid
  | some g => (s.take limits range t).map fun s => { s with grammar := g }

def run [DecidableEq σ] [Script σ κ] (limits : Limits) (range : FloatRange) (s : State σ) :
    List (Token σ) → Except ReadError (State σ)
  | [] => .ok s
  | t :: rest =>
    match step limits range s t with
    | .ok s => run limits range s rest
    | .error e => .error e

end Reader

namespace Json

variable {σ κ : Type} [DecidableEq σ] [Script σ κ]

/-- The value that a row of tokens spells; `whole` tells whether the text ended with them. -/
def ofTokens (limits : Limits) (range : FloatRange) (tokens : List (Token σ)) (whole : Bool) :
    Except ReadError (Json σ) :=
  match Reader.run limits range Reader.start tokens with
  | .error e => .error e
  | .ok s =>
    match s.result with
    | some v => if whole && s.grammar.complete then .ok v else .error .invalid
    | none => .error .invalid

/-- Reads a text within limits. -/
def readWithin (limits : Limits) (range : FloatRange) (ks : List κ) : Except ReadError (Json σ) :=
  let (tokens, whole) := Format.text.tokens (ks.map Letter.glyph)
  ofTokens limits range tokens whole

/-- What a text spells, however long and deep it is. -/
def readChars (range : FloatRange) (ks : List κ) : Except ReadError (Json σ) :=
  readWithin .unlimited range ks

def read (range : FloatRange) (text : σ) : Except ReadError (Json σ) :=
  readChars range (Script.letters text)

def read? (text : σ) : Option (Json σ) := (read .any text).toOption

/-- Reads a text on the platform. -/
def load [Platform] (range : FloatRange) (ks : List κ) : Except ReadError (Json σ) :=
  readWithin Platform.limits range ks

end Json

/-- The decimal that a number's spelling names. -/
def Decimal.read? (text : String) : Option Decimal :=
  match (Format.text : Format).tokens (text.toList.map Glyph.char) with
  | ([.atom (.decimal d)], true) => some d
  | ([.atom (.int n)], true) => some ⟨n < 0, n.natAbs, 0⟩
  | _ => none

end SnapshotStaging
