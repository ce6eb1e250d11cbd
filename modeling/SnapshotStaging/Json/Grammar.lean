import SnapshotStaging.Json.Token

/-!
# The order of tokens

A pushdown machine: the containers that are open, innermost first, and what may come next. It
accepts exactly one value of any kind.
-/

namespace SnapshotStaging

inductive Container
  | object
  | array
  deriving DecidableEq, Repr

/-- What may come next. -/
inductive Expected
  | value
  /-- A value, or the end of the array just opened. -/
  | firstItem
  /-- A name, or the end of the object just opened. -/
  | firstName
  | name
  | colon
  /-- A comma, or the end of the innermost container; the end of the text when none is open. -/
  | separator
  deriving DecidableEq, Repr

structure Grammar where
  enclosing : List Container
  expected : Expected
  deriving DecidableEq, Repr

namespace Grammar

def start : Grammar := ⟨[], .value⟩

/-- Whether the text may end here. -/
def complete (g : Grammar) : Bool := g = ⟨[], .separator⟩

/-- Whether a value may start here. -/
def admitsValue (g : Grammar) : Bool :=
  g.expected = .value || g.expected = .firstItem

/-- Whether a text token is a member's name here. -/
def admitsName (g : Grammar) : Bool :=
  g.expected = .name || g.expected = .firstName

/-- Enters a container. -/
def enter (g : Grammar) (c : Container) (next : Expected) : Option Grammar :=
  if g.admitsValue then some ⟨c :: g.enclosing, next⟩ else none

/-- Leaves the innermost container, which is empty when `first` is expected. -/
def leave (g : Grammar) (c : Container) (first : Expected) : Option Grammar :=
  match g.enclosing with
  | inner :: outer =>
    if inner = c && (g.expected = .separator || g.expected = first) then some ⟨outer, .separator⟩
    else none
  | [] => none

/-- The state after a token, or nothing where it cannot stand. -/
def step {σ : Type} (g : Grammar) : Token σ → Option Grammar
  | .openObject => g.enter .object .firstName
  | .openArray => g.enter .array .firstItem
  | .closeObject => g.leave .object .firstName
  | .closeArray => g.leave .array .firstItem
  | .comma =>
    match g.enclosing, g.expected with
    | .object :: _, .separator => some { g with expected := .name }
    | .array :: _, .separator => some { g with expected := .value }
    | _, _ => none
  | .colon => if g.expected = .colon then some { g with expected := .value } else none
  | .text _ =>
    if g.admitsName then some { g with expected := .colon }
    else if g.admitsValue then some { g with expected := .separator } else none
  | .atom _ => if g.admitsValue then some { g with expected := .separator } else none

end Grammar

end SnapshotStaging
