import SnapshotStaging.Json.Content

/-!
# From glyphs to tokens

The lexer is a machine that takes one glyph at a time. A number ends where the first glyph stands
that cannot continue it, so the machine may hand out a token and then treat that glyph afresh; the
end of the input ends a number too. A string is taken down in its fragments, and read when it ends.
-/

namespace SnapshotStaging

/-- What differs between kinds of JSON text: the blanks, whether the words for numbers without
digits are allowed, and what a string is read as. -/
structure Format (σ : Type := String) where
  blank : Char → Bool
  specials : Bool
  reading : List Fragment → Option σ

/-- Texts hold one value each and may name infinities and the number that is none. -/
def Format.text {σ κ : Type} [Script σ κ] : Format σ :=
  ⟨fun c => c = ' ' || c = '\t' || c = '\n' || c = '\r', true,
    fun fragments => (Fragment.points fragments).bind Script.ofPoints?⟩

/-- Pages count vertical tab and form feed as blanks. -/
def Format.page : Format :=
  ⟨fun c => c = ' ' || c = '\t' || c = '\n' || c = '\r' || c = '\x0b' || c = '\x0c', false,
    fun fragments => (Fragment.paged fragments).map String.ofList⟩

/-- The digits of a number read so far. -/
structure Numeral where
  negative : Bool
  coefficient : Nat
  /-- Digits after the point. -/
  places : Nat
  powerNegative : Bool
  power : Nat
  /-- Whether a fraction or an exponent has been seen. -/
  real : Bool
  deriving DecidableEq, Repr

/-- Where a number stands: which part its last character belongs to. -/
inductive Numeral.Part
  | sign
  | zero
  | whole
  | point
  | places
  | mark
  | markSign
  | power
  deriving DecidableEq, Repr

namespace Numeral

def empty (negative : Bool) : Numeral := ⟨negative, 0, 0, false, 0, false⟩

/-- A number may end after these parts. -/
def Part.final : Part → Bool
  | .zero | .whole | .places | .power => true
  | _ => false

def atom (n : Numeral) : Atom :=
  if n.real then
    let power : Int := if n.powerNegative then -n.power else n.power
    .decimal ⟨n.negative, n.coefficient, power - n.places⟩
  else .int (if n.negative then -n.coefficient else n.coefficient)

def digit (c : Char) : Nat := c.toNat - '0'.toNat

/-- The number with one more character, when that character continues it. -/
def step (n : Numeral) (part : Part) (c : Char) : Option (Numeral × Part) :=
  match part with
  | .sign =>
    if c = '0' then some (n, .zero)
    else if c.isDigit then some ({ n with coefficient := digit c }, .whole) else none
  | .zero => fraction
  | .whole =>
    if c.isDigit then some ({ n with coefficient := 10 * n.coefficient + digit c }, .whole)
    else fraction
  | .point => place
  | .places => if c.isDigit then place else mark
  | .mark =>
    if c = '+' then some (n, .markSign)
    else if c = '-' then some ({ n with powerNegative := true }, .markSign) else power
  | .markSign => power
  | .power => power
where
  mark : Option (Numeral × Part) :=
    if c = 'e' || c = 'E' then some ({ n with real := true }, .mark) else none
  fraction : Option (Numeral × Part) :=
    if c = '.' then some ({ n with real := true }, .point) else mark
  place : Option (Numeral × Part) :=
    if c.isDigit then
      some ({ n with coefficient := 10 * n.coefficient + digit c, places := n.places + 1 }, .places)
    else none
  power : Option (Numeral × Part) :=
    if c.isDigit then some ({ n with power := 10 * n.power + digit c }, .power) else none

end Numeral

namespace Lexer

/-- The fragments of a string so far, latest first. -/
abbrev Content := List Fragment

inductive State
  | idle
  /-- The rest of a word that has begun. -/
  | word (rest : List Char) (a : Atom)
  | number (n : Numeral) (part : Numeral.Part)
  | inside (content : Content)
  /-- After a backslash. -/
  | escape (content : Content)
  /-- Inside a `\u` escape: the hexadecimal digits still due, and the value of those read. -/
  | code (content : Content) (due value : Nat)
  deriving DecidableEq, Repr

/-- The value of a hexadecimal digit. -/
def hexDigit? (c : Char) : Option Nat :=
  if c.isDigit then some (c.toNat - '0'.toNat)
  else if 'a' ≤ c && c ≤ 'f' then some (c.toNat - 'a'.toNat + 10)
  else if 'A' ≤ c && c ≤ 'F' then some (c.toNat - 'A'.toNat + 10)
  else none

/-- The character that a one-letter escape stands for. -/
def escaped? (c : Char) : Option Char :=
  match c with
  | '"' => some '"'
  | '\\' => some '\\'
  | '/' => some '/'
  | 'b' => some '\x08'
  | 'f' => some '\x0c'
  | 'n' => some '\n'
  | 'r' => some '\r'
  | 't' => some '\t'
  | _ => none

variable {σ : Type}

/-- The token of a string that has ended. -/
def closed (f : Format σ) (content : Content) : Token σ := .text (f.reading content.reverse)

/-- The word that a letter begins. -/
def word? (f : Format σ) (c : Char) : Option State :=
  match c with
  | 't' => some (.word "rue".toList (.bool true))
  | 'f' => some (.word "alse".toList (.bool false))
  | 'n' => some (.word "ull".toList .null)
  | 'N' => if f.specials then some (.word "aN".toList (.special .nan)) else none
  | 'I' => if f.specials then some (.word "nfinity".toList (.special (.infinite false))) else none
  | _ => none

/-- A glyph between tokens. -/
def fresh (f : Format σ) : Glyph → Option (State × List (Token σ))
  | .char c =>
    if f.blank c then some (.idle, [])
    else match c with
      | '{' => some (.idle, [.openObject])
      | '}' => some (.idle, [.closeObject])
      | '[' => some (.idle, [.openArray])
      | ']' => some (.idle, [.closeArray])
      | ',' => some (.idle, [.comma])
      | ':' => some (.idle, [.colon])
      | '"' => some (.inside [], [])
      | '-' => some (.number (.empty true) .sign, [])
      | c =>
        if c.isDigit then
          ((Numeral.empty false).step .sign c).map fun (n, part) => (.number n part, [])
        else (word? f c).map fun s => (s, [])
  | _ => none

/-- A glyph inside a string. -/
def insideString (f : Format σ) (content : Content) : Glyph → Option (State × List (Token σ))
  | .char c =>
    if c = '"' then some (.idle, [closed f content])
    else if c = '\\' then some (.escape content, [])
    else if c.toNat < 0x20 then none
    else some (.inside (.letter (.char c) :: content), [])
  | .half h => some (.inside (.letter (.half h) :: content), [])
  | .stray => some (.inside (.stray :: content), [])
  | .broken => none

/-- The character after a backslash. -/
def afterEscape (content : Content) (c : Char) : Option State :=
  if c = 'u' then some (.code content 4 0)
  else (escaped? c).map fun e => .inside (.letter (.char e) :: content)

/-- One glyph: the state after it and the tokens that it completes, or nothing where no text goes
on like that. A number is handed out even when the glyph after it is none of a text. -/
def step (f : Format σ) (s : State) (g : Glyph) : Option State × List (Token σ) :=
  match s with
  | .idle => outcome (fresh f g)
  | .word rest a =>
    match rest, g with
    | [r], .char c => if c = r then (some .idle, [.atom a]) else (none, [])
    | r :: rest, .char c => if c = r then (some (.word rest a), []) else (none, [])
    | _, _ => (none, [])
  | .number n part =>
    match continued n part with
    | some (n, part) => (some (.number n part), [])
    | none =>
      if part.final then
        let (next, tokens) := outcome (fresh f g)
        (next, .atom n.atom :: tokens)
      else if part = .sign && g = .char 'I' && f.specials then
        (some (.word "nfinity".toList (.special (.infinite true))), [])
      else (none, [])
  | .inside content => outcome (insideString f content g)
  | .escape content =>
    match g with
    | .char c => (afterEscape content c, [])
    | _ => (none, [])
  | .code content due value =>
    match g with
    | .char c =>
      match hexDigit? c, due with
      | some d, due + 2 => (some (.code content (due + 1) (16 * value + d)), [])
      | some d, _ => (some (.inside (.unit (16 * value + d) :: content)), [])
      | none, _ => (none, [])
    | _ => (none, [])
where
  outcome : Option (State × List (Token σ)) → Option State × List (Token σ)
    | some (s, tokens) => (some s, tokens)
    | none => (none, [])
  continued (n : Numeral) (part : Numeral.Part) : Option (Numeral × Numeral.Part) :=
    match g with
    | .char c => n.step part c
    | _ => none

/-- The tokens that the end of the input completes, and whether the input may end there. -/
def finish : State → List (Token σ) × Bool
  | .idle => ([], true)
  | .number n part => if part.final then ([.atom n.atom], true) else ([], false)
  | _ => ([], false)

/-- Runs the machine; `done` holds the tokens handed out before, latest first. -/
def run (f : Format σ) (s : State) (done : List (Token σ)) : List Glyph → List (Token σ) × Bool
  | [] =>
    let (tokens, whole) := finish s
    ((tokens.reverse ++ done).reverse, whole)
  | g :: rest =>
    match step f s g with
    | (some next, tokens) => run f next (tokens.reverse ++ done) rest
    | (none, tokens) => ((tokens.reverse ++ done).reverse, false)

end Lexer

/-- The tokens of an input up to its end or the first place where no text goes on like that, and
whether the end was reached. -/
def Format.tokens {σ : Type} (f : Format σ) (input : List Glyph) : List (Token σ) × Bool :=
  Lexer.run f .idle [] input

end SnapshotStaging
