import SnapshotStaging.Proofs.Page.Writing

/-!
# No stack is empty when it is read

A `Builder` keeps the containers of a record and the flags of those that are still empty on two stacks of their own,
and a step of it fails as soon as it reads or pops an empty stack. `Turn` lists what one event can do to an assembly;
whatever holds at every point is read off that list. In a `Safe` state every stack that an event reads holds
something, so the builder takes each step of the assembly (`feed_of`), refusals and what follows them included.

Main result `Builder.feedAll_safe`.
-/

namespace SnapshotStaging

/-- An assembly whose stacks may fail. -/
structure Builder where
  place : Place
  built : Nat
  /-- Containers open outside any record, innermost first. -/
  outer : List Container
  /-- Containers open inside the current record, innermost first. -/
  inner : List Container
  /-- For each of these whether it is still empty. -/
  first : List Bool
  afterName : Bool
  parts : List (List Char)
  skipped : Int
  deriving DecidableEq, Repr

namespace Builder

def empty : Builder := ⟨.outsideArray, 0, [], [], [], false, [], 0⟩

/-! ## Steps that may fail -/

def unexpected (table : String) (b : Builder) (e : Event) : Builder × Outcome :=
  (b, .refused (.unexpectedEvent e.name b.place table))

def feedOutside (table : String) (b : Builder) (e : Event) : Option (Builder × Outcome) :=
  match e with
  | .openArray =>
    let place := if b.outer = [] || b.outer = [.object] then .betweenRecords else b.place
    some ({ b with place := place, outer := .array :: b.outer }, .nothing)
  | .openObject => some ({ b with outer := .object :: b.outer }, .nothing)
  | .closeObject | .closeArray =>
    if b.outer = [] then some (b.unexpected table e)
    else b.outer.tail?.map fun outer => ({ b with outer := outer }, .nothing)
  | .key _ | .scalar _ _ => some (b, .nothing)
  | .other _ => some (b.unexpected table e)

def feedSkipped (b : Builder) (e : Event) : Builder :=
  match e with
  | .openObject | .openArray => { b with skipped := b.skipped + 1 }
  | .closeObject | .closeArray => { b with skipped := b.skipped - 1 }
  | _ => b

def feedBetween (table : String) (b : Builder) (e : Event) : Option (Builder × Outcome) :=
  match e with
  | .openObject =>
    some ({ b with
      place := .insideRecord
      inner := [.object]
      first := [true]
      afterName := false
      parts := [['\x7b']] }, .nothing)
  | .closeArray => b.outer.tail?.map fun outer => ({ b with place := .outsideArray, outer := outer }, .nothing)
  | .openArray =>
    if b.outer = [.array, .object] then some ({ b with skipped := 1 }, .nothing) else some (b.unexpected table e)
  | .scalar _ _ => if b.outer = [.array, .object] then some (b, .nothing) else some (b.unexpected table e)
  | _ => some (b.unexpected table e)

/-- Reads and sets the flag of the innermost container. -/
def separated (b : Builder) : Option Builder :=
  b.first.head?.bind fun isFirst => b.first.tail?.map fun others =>
    { b with first := false :: others, parts := if isFirst then b.parts else [','] :: b.parts }

def beforeValue (b : Builder) : Option Builder :=
  if b.afterName then some { b with afterName := false } else b.separated

def written (b : Builder) (part : List Char) : Builder := { b with parts := part :: b.parts }

def opened (b : Builder) (kind : Container) (bracket : Char) : Option (Builder × Outcome) :=
  b.beforeValue.map fun b =>
    ({ b with parts := [bracket] :: b.parts, inner := kind :: b.inner, first := true :: b.first }, .nothing)

section

variable [Platform]

def closeRecord (table : String) (b : Builder) : Builder × Outcome :=
  let text := b.parts.reverse.flatten
  let b := { b with parts := [], place := .betweenRecords }
  match Json.load .finite text with
  | .ok v =>
    let b := { b with built := b.built + 1 }
    match v.order? with
    | some v => (b, .record v)
    | none => (b, .refused .deepRecord)
  | .error .invalid | .error .overlong => (b, .refused (.invalidRecord (String.ofList text) table))
  | .error (.outOfRange d) => (b, .refused (.numberOutOfRange d (String.ofList text) table))
  | .error .exhausted => (b, .refused .deepText)

def closed (table : String) (b : Builder) (e : Event) (kind : Container) (bracket : Char) :
    Option (Builder × Outcome) :=
  b.inner.head?.bind fun innermost =>
    if innermost ≠ kind || b.afterName then some (b.unexpected table e)
    else b.inner.tail?.bind fun inner => b.first.tail?.map fun first =>
      let b := { b with parts := [bracket] :: b.parts, inner := inner, first := first }
      if inner = [] then b.closeRecord table else (b, .nothing)

def feedInside (table : String) (b : Builder) (e : Event) : Option (Builder × Outcome) :=
  match e with
  | .key name =>
    b.inner.head?.bind fun innermost =>
      if innermost ≠ .object || b.afterName then some (b.unexpected table e)
      else b.separated.map fun b =>
        match name with
        | .decimal _ => (b, .refused .unsuitableValue)
        | .value name =>
          if e.overlong Platform.limits then (b, .refused .overlongInteger)
          else ({ (b.written (name.write .spaced 0 [])).written [':'] with afterName := true }, .nothing)
  | .scalar _ value =>
    b.beforeValue.map fun b =>
      if e.overlong Platform.limits then (b, .refused .overlongInteger) else (b.written value.text, .nothing)
  | .openObject => b.opened .object '\x7b'
  | .openArray => b.opened .array '['
  | .closeObject => b.closed table e .object '\x7d'
  | .closeArray => b.closed table e .array ']'
  | .other _ => some (b.unexpected table e)

/-- One event; nothing when an empty stack is read or popped. -/
def feed (table : String) (b : Builder) (e : Event) : Option (Builder × Outcome) :=
  match b.place with
  | .insideRecord => b.feedInside table e
  | .betweenRecords => if b.skipped ≠ 0 then some (b.feedSkipped e, .nothing) else b.feedBetween table e
  | .outsideArray => b.feedOutside table e

/-- Events in order, whatever is refused. -/
def feedAll (table : String) (b : Builder) : List Event → Option (Builder × List Outcome)
  | [] => some (b, [])
  | e :: rest => (b.feed table e).bind fun (b, o) => (feedAll table b rest).map fun (b, os) => (b, o :: os)

end

/-- The stacks of an assembly. -/
def of (a : Assembly) : Builder :=
  ⟨a.place, a.built, a.outer, a.inner.map (·.kind), a.inner.map (·.empty), a.afterName, a.parts, a.skipped⟩

end Builder

def Outcome.handsOver : Outcome → Bool
  | .record _ => true
  | _ => false

/-- Whether a record has been read that cannot be put into order. -/
def Outcome.unordered : Outcome → Bool
  | .refused .deepRecord => true
  | _ => false

namespace Assembly

variable [Platform] {table : String} {a a' : Assembly} {e : Event} {o : Outcome}

/-- What each event in order brings about, whatever is refused. -/
def outcomes (table : String) (a : Assembly) : List Event → List Outcome
  | [] => []
  | e :: rest => (a.step table e).2 :: outcomes table (a.step table e).1 rest

/-- Whatever a run brings about is among these. -/
theorem mem_outcomes_of_mem_trace {p : Nat} {es : List Event} {m : Nat × Outcome} (h : m ∈ trace table a p es) :
    m.2 ∈ a.outcomes table es := by
  induction es generalizing a p with
  | nil => cases h
  | cons e rest ih =>
    rw [trace] at h
    rw [outcomes]
    generalize a.step table e = found at h ⊢
    obtain ⟨a', _ | v | err⟩ := found
    · exact List.mem_cons_of_mem _ (ih h)
    · rcases List.mem_cons.1 h with rfl | h
      · exact List.mem_cons_self ..
      · exact List.mem_cons_of_mem _ (ih h)
    · rw [List.mem_singleton.1 h]
      exact List.mem_cons_self ..

/-! ## What an event can do -/

/-- Each way from one place to another, and the event that takes it. -/
inductive Way (a : Assembly) : Event → Place → Prop
  /-- An array of records is the page itself or a member of the page's object. -/
  | enter (hplace : a.place = .outsideArray) (houter : a.outer = [] ∨ a.outer = [.object]) :
      Way a .openArray .betweenRecords
  | start (hplace : a.place = .betweenRecords) (hskipped : a.skipped = 0) : Way a .openObject .insideRecord
  | finish (hplace : a.place = .insideRecord) (hinner : a.inner.map (·.kind) = [.object]) :
      Way a .closeObject .betweenRecords
  | leave (hplace : a.place = .betweenRecords) (hskipped : a.skipped = 0) : Way a .closeArray .outsideArray

/-- A record is open exactly inside a record, and it is an object; an array of records is the page itself or a member
of the page's object; values are passed over only in the latter, between records. -/
structure Safe (a : Assembly) : Prop where
  inside : a.place = .insideRecord ↔ a.inner ≠ []
  object : a.inner ≠ [] → (a.inner.map (·.kind)).getLast? = some .object
  array : a.place ≠ .outsideArray → a.outer = [.array] ∨ a.outer = [.array, .object]
  skipping : a.skipped ≠ 0 → a.place = .betweenRecords ∧ a.outer = [.array, .object]

/-- An event that meets a limit of the platform inside a record: an integer that cannot be turned into text, or the end
of a record whose text cannot be read, or be put into order once it has been read, for want of calls. -/
inductive Beyond [Platform] (a : Assembly) : Event → Error → Prop
  | integer {e : Event} (hplace : a.place = .insideRecord) (hover : e.overlong Platform.limits = true) :
      Beyond a e .overlongInteger
  | deepText (hplace : a.place = .insideRecord)
      (hread : (Json.load .finite (a.text ++ ['\x7d']) : Except ReadError Json) = .error .exhausted) :
      Beyond a .closeObject .deepText
  | deepRecord (hplace : a.place = .insideRecord) {v : Json} (hread : Json.load .finite (a.text ++ ['\x7d']) = .ok v)
      (horder : v.order? = none) : Beyond a .closeObject .deepRecord

/-- What an event can do. -/
inductive Turn [Platform] (a : Assembly) : Event → Assembly × Outcome → Prop
  /-- It is not expected, and nothing changes. -/
  | refused {e : Event} {err : Error} (herr : Malformed err) : Turn a e (a, .refused err)
  | outside {e : Event} (hplace : a.place = .outsideArray) (outer : List Container) :
      Turn a e ({ a with outer := outer }, .nothing)
  | enter (hplace : a.place = .outsideArray) (houter : a.outer = [] ∨ a.outer = [.object]) :
      Turn a .openArray ({ a with place := .betweenRecords, outer := .array :: a.outer }, .nothing)
  | passed {e : Event} (hplace : a.place = .betweenRecords) (houter : a.outer = [.array, .object]) (n : Nat) :
      Turn a e ({ a with skipped := n }, .nothing)
  | start (hplace : a.place = .betweenRecords) (hskipped : a.skipped = 0) :
      Turn a .openObject ({ a with
        place := .insideRecord, inner := [⟨.object, true⟩], afterName := false, parts := [['\x7b']] }, .nothing)
  | leave (hplace : a.place = .betweenRecords) (hskipped : a.skipped = 0) :
      Turn a .closeArray ({ a with place := .outsideArray, outer := a.outer.tail }, .nothing)
  /-- A part of the record is written, up to an integer that cannot be; the outermost container of the record stays
  open. -/
  | written {e : Event} (hplace : a.place = .insideRecord) {inner : List OpenContainer} (hne : inner ≠ [])
      (hlast : (inner.map (·.kind)).getLast? = (a.inner.map (·.kind)).getLast?) (afterName : Bool)
      (parts : List (List Char)) {o : Outcome}
      (ho : o = .nothing ∨ o = .refused .overlongInteger ∧ Beyond a e .overlongInteger) :
      Turn a e ({ a with inner := inner, afterName := afterName, parts := parts }, o)
  /-- The record has been read and counted. -/
  | read (hplace : a.place = .insideRecord) (hinner : a.inner.map (·.kind) = [.object]) {o : Outcome}
      (ho : (∃ v, o = .record v) ∨ o = .refused .deepRecord ∧ Beyond a .closeObject .deepRecord) :
      Turn a .closeObject ({ a with place := .betweenRecords, built := a.built + 1, inner := [], parts := [] }, o)
  /-- The record's text cannot be read. -/
  | unreadable (hplace : a.place = .insideRecord) (hinner : a.inner.map (·.kind) = [.object]) {err : Error}
      (herr : Malformed err ∨ err = .deepText ∧ Beyond a .closeObject .deepText)
      (hread : ∀ name place table, err ≠ .unexpectedEvent name place table) :
      Turn a .closeObject ({ a with place := .betweenRecords, inner := [], parts := [] }, .refused err)

theorem turn_unexpected (table : String) (a : Assembly) (e : Event) : Turn a e (a.unexpected table e) := .refused rfl

theorem turn_stepOutside (hplace : a.place = .outsideArray) : Turn a e (a.stepOutside table e) := by
  cases e with
  | openArray =>
    simp only [stepOutside, Bool.or_eq_true, decide_eq_true_eq]
    split
    · next houter => exact .enter hplace houter
    · exact .outside hplace _
  | openObject => exact .outside hplace _
  | closeObject | closeArray =>
    simp only [stepOutside]
    split
    · exact turn_unexpected ..
    · exact .outside hplace _
  | key name => exact .outside hplace _
  | scalar kind v => exact .outside hplace _
  | other name => exact turn_unexpected ..

theorem turn_stepSkipped (h : Safe a) (hskipped : a.skipped ≠ 0) : Turn a e (a.stepSkipped e, .nothing) := by
  obtain ⟨hplace, houter⟩ := h.skipping hskipped
  cases e <;> exact .passed hplace houter _

theorem turn_stepBetween (hplace : a.place = .betweenRecords) (hskipped : a.skipped = 0) :
    Turn a e (a.stepBetween table e) := by
  cases e with
  | openObject => exact .start hplace hskipped
  | closeArray => exact .leave hplace hskipped
  | openArray | scalar =>
    simp only [stepBetween, inEnvelope, decide_eq_true_eq]
    split
    · next houter => exact .passed hplace houter _
    · exact turn_unexpected ..
  | _ => exact turn_unexpected ..

omit [Platform] in
/-- A comma changes no container. -/
theorem exists_separated (a : Assembly) : ∃ inner parts, inner.map (·.kind) = a.inner.map (·.kind) ∧
    a.separated = { a with inner := inner, parts := parts } := by
  unfold separated
  split
  · exact ⟨a.inner, a.parts, rfl, rfl⟩
  · next c outer hinner => exact ⟨_, _, by rw [hinner]; rfl, rfl⟩

omit [Platform] in
theorem exists_beforeValue (a : Assembly) : ∃ inner parts, inner.map (·.kind) = a.inner.map (·.kind) ∧
    a.beforeValue = { a with inner := inner, afterName := false, parts := parts } := by
  unfold beforeValue
  split
  · exact ⟨a.inner, a.parts, rfl, rfl⟩
  · next hname =>
    obtain ⟨inner, parts, hkinds, hseparated⟩ := exists_separated a
    have hfalse : a.afterName = false := by simpa using hname
    exact ⟨inner, parts, hkinds, by rw [hseparated, hfalse]⟩

omit [Platform] in
theorem ne_nil_of_map_kind {inner inner' : List OpenContainer} (h : inner'.map (·.kind) = inner.map (·.kind))
    (hne : inner ≠ []) : inner' ≠ [] := by
  rintro rfl
  exact hne (List.map_eq_nil_iff.1 h.symm)

theorem turn_opened (hplace : a.place = .insideRecord) (hne : a.inner ≠ []) (kind : Container) (bracket : Char) :
    Turn a e (a.opened kind bracket, .nothing) := by
  obtain ⟨inner, parts, hkinds, hbefore⟩ := exists_beforeValue a
  have hlast : ((⟨kind, true⟩ :: inner : List OpenContainer).map (·.kind)).getLast? =
      (a.inner.map (·.kind)).getLast? := by
    rw [List.map_cons, hkinds]
    exact List.getLast?_cons_of_ne_nil (by simpa using hne)
  simp only [opened, hbefore]
  exact .written hplace (List.cons_ne_nil _ _) hlast _ _ (.inl rfl)

theorem turn_closeRecord (hplace : a.place = .insideRecord) (hinner : a.inner.map (·.kind) = [.object]) :
    Turn a .closeObject (closeRecord table { a with parts := ['\x7d'] :: a.parts, inner := [] }) := by
  have htext : ({ a with parts := ['\x7d'] :: a.parts, inner := [] } : Assembly).text = a.text ++ ['\x7d'] := by
    simp [text]
  simp only [closeRecord, htext]
  split
  · next v hread =>
    split
    · exact .read hplace hinner (.inl ⟨_, rfl⟩)
    · next horder => exact .read hplace hinner (.inr ⟨rfl, .deepRecord hplace hread horder⟩)
  · exact .unreadable hplace hinner (.inl rfl) (by simp)
  · exact .unreadable hplace hinner (.inl rfl) (by simp)
  · exact .unreadable hplace hinner (.inl rfl) (by simp)
  · next hread => exact .unreadable hplace hinner (.inr ⟨rfl, .deepText hplace hread⟩) (by simp)

theorem turn_closed (h : Safe a) (hplace : a.place = .insideRecord) (kind : Container) :
    Turn a kind.closing (a.closed table kind.closing kind kind.closeMark) := by
  unfold closed
  split
  · next c outer hinner =>
    split
    · exact turn_unexpected ..
    · next hexpected =>
      obtain ⟨hkind, -⟩ : c.kind = kind ∧ a.afterName = false := by simpa using hexpected
      dsimp only
      split
      · next houter =>
        -- the last container to close is the first that was opened, which is the record's object
        subst houter
        have hobject : c.kind = .object := by simpa [hinner] using h.object (by simp [hinner])
        rw [← hkind, hobject]
        exact turn_closeRecord hplace (by simp [hinner, hobject])
      · next houter =>
        refine .written hplace houter ?_ _ _ (.inl rfl)
        rw [hinner, List.map_cons, List.getLast?_cons_of_ne_nil (by simpa using houter)]
  · exact turn_unexpected ..

theorem turn_stepInside (h : Safe a) (hplace : a.place = .insideRecord) (he : ∀ d, e ≠ .key (.decimal d)) :
    Turn a e (a.stepInside table e) := by
  have hne : a.inner ≠ [] := h.inside.1 hplace
  cases e with
  | key name =>
    simp only [stepInside]
    split
    · exact turn_unexpected ..
    · cases name with
      | decimal d => exact absurd rfl (he d)
      | value name =>
        obtain ⟨inner, parts, hkinds, hseparated⟩ := exists_separated a
        simp only [hseparated, Assembly.written]
        split
        · next hover =>
          exact .written hplace (ne_nil_of_map_kind hkinds hne) (by rw [hkinds]) _ _ (.inr ⟨rfl, .integer hplace hover⟩)
        · exact .written hplace (ne_nil_of_map_kind hkinds hne) (by rw [hkinds]) _ _ (.inl rfl)
  | scalar kind v =>
    obtain ⟨inner, parts, hkinds, hbefore⟩ := exists_beforeValue a
    simp only [stepInside, hbefore, Assembly.written]
    split
    · next hover =>
      exact .written hplace (ne_nil_of_map_kind hkinds hne) (by rw [hkinds]) _ _ (.inr ⟨rfl, .integer hplace hover⟩)
    · exact .written hplace (ne_nil_of_map_kind hkinds hne) (by rw [hkinds]) _ _ (.inl rfl)
  | openObject => exact turn_opened hplace hne _ _
  | openArray => exact turn_opened hplace hne _ _
  | closeObject => exact turn_closed h hplace .object
  | closeArray => exact turn_closed h hplace .array
  | other name => exact turn_unexpected ..

/-- Every step is one of the list, as long as no number stands for a name. -/
theorem turn_step (table : String) (h : Safe a) (he : ∀ d, e ≠ .key (.decimal d)) : Turn a e (a.step table e) := by
  unfold step
  split
  · next hplace => exact turn_stepInside h hplace he
  · next hplace =>
    split
    · next hskipped => exact turn_stepBetween hplace hskipped
    · next hskipped => exact turn_stepSkipped h hskipped
  · next hplace => exact turn_stepOutside hplace

/-! ## What holds at every point -/

omit [Platform] in
theorem safe_empty : Safe empty where
  inside := by simp [empty]
  object := by simp [empty]
  array := by simp [empty]
  skipping := by simp [empty]

omit [Platform] in
theorem Safe.inner_eq_nil (h : Safe a) (hplace : a.place ≠ .insideRecord) : a.inner = [] := by
  by_cases hinner : a.inner = []
  · exact hinner
  · exact absurd (h.inside.2 hinner) hplace

omit [Platform] in
theorem Safe.skipped_eq_zero (h : Safe a) (hplace : a.place ≠ .betweenRecords) : a.skipped = 0 :=
  Decidable.not_not.1 fun hskipped => hplace (h.skipping hskipped).1

theorem Turn.safe {r : Assembly × Outcome} (h : Safe a) (hturn : Turn a e r) : Safe r.1 := by
  cases hturn with
  | refused herr => exact h
  | outside hplace outer =>
    have hskipped := h.skipped_eq_zero (by simp [hplace])
    exact ⟨h.inside, h.object, fun hne => absurd hplace hne, fun hne => absurd hskipped hne⟩
  | enter hplace houter =>
    have hinner := h.inner_eq_nil (by simp [hplace])
    have hskipped := h.skipped_eq_zero (by simp [hplace])
    refine ⟨by simp [hinner], h.object, fun _ => ?_, fun hne => absurd hskipped hne⟩
    exact houter.imp (fun heq => by rw [heq]) fun heq => by rw [heq]
  | passed hplace houter n => exact ⟨h.inside, h.object, h.array, fun _ => ⟨hplace, houter⟩⟩
  | start hplace hskipped =>
    exact ⟨by simp, fun _ => rfl, fun _ => h.array (by simp [hplace]), fun hne => absurd hskipped hne⟩
  | leave hplace hskipped =>
    have hinner := h.inner_eq_nil (by simp [hplace])
    exact ⟨by simp [hinner], h.object, fun hne => absurd rfl hne, fun hne => absurd hskipped hne⟩
  | written hplace hne hlast afterName parts ho =>
    have hobject := hlast.trans (h.object (h.inside.1 hplace))
    exact ⟨⟨fun _ => hne, fun _ => hplace⟩, fun _ => hobject, h.array, h.skipping⟩
  | read hplace hinner ho =>
    have hskipped := h.skipped_eq_zero (by simp [hplace])
    exact ⟨by simp, fun hne => absurd rfl hne, fun _ => h.array (by simp [hplace]), fun hne => absurd hskipped hne⟩
  | unreadable hplace hinner herr hread =>
    have hskipped := h.skipped_eq_zero (by simp [hplace])
    exact ⟨by simp, fun hne => absurd rfl hne, fun _ => h.array (by simp [hplace]), fun hne => absurd hskipped hne⟩

/-- The place changes on the four ways only. -/
theorem Turn.way {r : Assembly × Outcome} (h : Turn a e r) (hne : r.1.place ≠ a.place) : Way a e r.1.place := by
  cases h with
  | enter hplace houter => exact .enter hplace houter
  | start hplace hskipped => exact .start hplace hskipped
  | leave hplace hskipped => exact .leave hplace hskipped
  | read hplace hinner ho => exact .finish hplace hinner
  | unreadable hplace hinner herr hread => exact .finish hplace hinner
  | _ => exact absurd rfl hne

/-- What is refused is malformed, or meets a limit of the platform. -/
theorem Turn.malformed {r : Assembly × Outcome} {err : Error} (h : Turn a e r) (hr : r.2 = .refused err) :
    Malformed err ∨ Beyond a e err := by
  cases h with
  | refused herr =>
    cases hr
    exact .inl herr
  | written hplace hne hlast afterName parts ho =>
    rcases ho with rfl | ⟨rfl, hbeyond⟩ <;> cases hr
    exact .inr hbeyond
  | read hplace hinner ho =>
    rcases ho with ⟨v, rfl⟩ | ⟨rfl, hbeyond⟩ <;> cases hr
    exact .inr hbeyond
  | unreadable hplace hinner herr hread =>
    cases hr
    exact herr.imp_right fun ⟨heq, hbeyond⟩ => heq ▸ hbeyond
  | _ => cases hr

/-- What is not expected leaves everything as it was. -/
theorem Turn.unexpected {r : Assembly × Outcome} {name table : String} {place : Place} (h : Turn a e r)
    (hr : r.2 = .refused (.unexpectedEvent name place table)) : r.1 = a := by
  cases h with
  | refused herr => rfl
  | written hplace hne hlast afterName parts ho => rcases ho with rfl | ⟨rfl, -⟩ <;> cases hr
  | read hplace hinner ho => rcases ho with ⟨v, rfl⟩ | ⟨rfl, -⟩ <;> cases hr
  | unreadable hplace hinner herr hread =>
    cases hr
    exact absurd rfl (hread _ _ _)
  | _ => cases hr

omit [Platform] in
/-- A record that cannot be put into order is not malformed. -/
theorem unordered_of_malformed {err : Error} (h : Malformed err) : (Outcome.refused err).unordered = false := by
  cases err <;> first | rfl | cases h

/-- A record that is read is counted, whether or not it can be put into order and handed over. -/
theorem Turn.built {r : Assembly × Outcome} (h : Turn a e r) :
    r.1.built = a.built + if r.2.handsOver || r.2.unordered then 1 else 0 := by
  cases h with
  | refused herr => simp [Outcome.handsOver, unordered_of_malformed herr]
  | written hplace hne hlast afterName parts ho => rcases ho with rfl | ⟨rfl, -⟩ <;> rfl
  | read hplace hinner ho => rcases ho with ⟨v, rfl⟩ | ⟨rfl, -⟩ <;> rfl
  | unreadable hplace hinner herr hread =>
    rcases herr with herr | ⟨rfl, -⟩
    · simp [Outcome.handsOver, unordered_of_malformed herr]
    · rfl
  | _ => rfl

end Assembly

namespace Builder

variable [Platform] {table : String} {a : Assembly} {e : Event}

/-! ## The steps of an assembly -/

/-- What the builder makes of an assembly's step. -/
def ofTurn (r : Assembly × Outcome) : Builder × Outcome := (of r.1, r.2)

omit [Platform] in
theorem feedOutside_of (table : String) (a : Assembly) (e : Event) :
    (of a).feedOutside table e = some (ofTurn (a.stepOutside table e)) := by
  cases e with
  | closeObject | closeArray =>
    obtain ⟨place, built, outer, inner, afterName, parts, skipped⟩ := a
    cases outer <;> rfl
  | _ => rfl

omit [Platform] in
theorem feedSkipped_of (hskipped : a.skipped ≠ 0) (e : Event) : (of a).feedSkipped e = of (a.stepSkipped e) := by
  have hless : ((a.skipped - 1 : Nat) : Int) = (a.skipped : Int) - 1 := by omega
  cases e with
  | closeObject | closeArray => simp [feedSkipped, Assembly.stepSkipped, of, hless]
  | _ => rfl

omit [Platform] in
theorem feedBetween_of (houter : a.outer ≠ []) (e : Event) :
    (of a).feedBetween table e = some (ofTurn (a.stepBetween table e)) := by
  cases e with
  | closeArray =>
    obtain ⟨place, built, outer, inner, afterName, parts, skipped⟩ := a
    cases outer with
    | nil => exact absurd rfl houter
    | cons c outer => rfl
  | openArray | scalar =>
    simp only [feedBetween, Assembly.stepBetween, Assembly.inEnvelope, decide_eq_true_eq]
    show (if a.outer = [.array, .object] then _ else _) = _
    split <;> rfl
  | _ => rfl

omit [Platform] in
theorem separated_of (hinner : a.inner ≠ []) : (of a).separated = some (of a.separated) := by
  obtain ⟨place, built, outer, inner, afterName, parts, skipped⟩ := a
  cases inner with
  | nil => exact absurd rfl hinner
  | cons c inner => rfl

omit [Platform] in
theorem beforeValue_of (hinner : a.inner ≠ []) : (of a).beforeValue = some (of a.beforeValue) := by
  unfold beforeValue Assembly.beforeValue
  show (if a.afterName then _ else _) = _
  split
  · rfl
  · exact separated_of hinner

omit [Platform] in
theorem opened_of (hinner : a.inner ≠ []) (kind : Container) (bracket : Char) :
    (of a).opened kind bracket = some (of (a.opened kind bracket), .nothing) := by
  rw [opened, beforeValue_of hinner]
  rfl

theorem closeRecord_of (table : String) (a : Assembly) :
    (of a).closeRecord table = ofTurn (a.closeRecord table) := by
  have htext : (of a).parts.reverse.flatten = a.text := rfl
  simp only [closeRecord, Assembly.closeRecord, htext]
  cases (Json.load .finite a.text : Except ReadError Json) with
  | ok v =>
    dsimp only
    cases v.order? <;> rfl
  | error err => cases err <;> rfl

theorem closed_of (hinner : a.inner ≠ []) (e : Event) (kind : Container) (bracket : Char) :
    (of a).closed table e kind bracket = some (ofTurn (a.closed table e kind bracket)) := by
  obtain ⟨place, built, outer, inner, afterName, parts, skipped⟩ := a
  cases inner with
  | nil => exact absurd rfl hinner
  | cons c inner =>
    show (if c.kind ≠ kind || afterName then _ else _) = some (ofTurn (if c.kind ≠ kind || afterName then _ else _))
    split
    · rfl
    · cases inner with
      | nil =>
        exact congrArg some
          (closeRecord_of table ⟨place, built, outer, [], afterName, [bracket] :: parts, skipped⟩)
      | cons c' inner => rfl

theorem feedInside_of (hinner : a.inner ≠ []) (e : Event) :
    (of a).feedInside table e = some (ofTurn (a.stepInside table e)) := by
  cases e with
  | key name =>
    obtain ⟨place, built, outer, inner, afterName, parts, skipped⟩ := a
    cases inner with
    | nil => exact absurd rfl hinner
    | cons c inner =>
      simp only [Assembly.stepInside, List.head?_cons, Option.map_some, ne_eq, Option.some.injEq]
      show (if c.kind ≠ .object || afterName then _ else _) = _
      split
      · rfl
      · cases name with
        | decimal d => rfl
        | value name =>
          show some (if _ then _ else _) = some (ofTurn (if _ then _ else _))
          split <;> rfl
  | scalar kind v =>
    rw [feedInside, beforeValue_of hinner]
    show some (if _ then _ else _) = some (ofTurn (if _ then _ else _))
    split <;> rfl
  | openObject => exact opened_of hinner _ _
  | openArray => exact opened_of hinner _ _
  | closeObject => exact closed_of hinner _ _ _
  | closeArray => exact closed_of hinner _ _ _
  | other name => rfl

/-- In a safe state no stack fails: the builder takes the step of the assembly. -/
theorem feed_of (h : a.Safe) (e : Event) : (of a).feed table e = some (ofTurn (a.step table e)) := by
  have hplaces : (of a).place = a.place := rfl
  rw [feed, Assembly.step, hplaces]
  cases hplace : a.place with
  | insideRecord => exact feedInside_of (h.inside.1 hplace) e
  | betweenRecords =>
    have houter : a.outer ≠ [] := by
      rcases h.array (by simp [hplace]) with heq | heq <;> simp [heq]
    by_cases hskipped : a.skipped = 0
    · have hzero : (of a).skipped = 0 := by simp [of, hskipped]
      simp only [hzero, hskipped, ne_eq, not_true_eq_false, if_false, if_true]
      exact feedBetween_of houter e
    · have hpos : (of a).skipped ≠ 0 := by simpa [of] using hskipped
      simp only [if_pos hpos, if_neg hskipped, feedSkipped_of hskipped]
      rfl
  | outsideArray => exact feedOutside_of table a e

/-! ## Any events -/

/-- What a builder keeps to at every point. -/
structure Consistent (b : Builder) : Prop where
  /-- A record is open exactly inside a record. -/
  inside : b.place = .insideRecord ↔ b.inner ≠ []
  /-- Every open container of a record has its flag. -/
  flags : b.first.length = b.inner.length
  /-- An array of records is the page itself or a member of the page's object. -/
  array : b.place ≠ .outsideArray → b.outer = [.array] ∨ b.outer = [.array, .object]
  /-- Values are passed over in an array that is a member only, and between its records. -/
  skipping : 0 < b.skipped → b.place = .betweenRecords ∧ b.outer = [.array, .object]
  skipped : 0 ≤ b.skipped

omit [Platform] in
theorem consistent_of (h : a.Safe) : (of a).Consistent where
  inside := h.inside.trans (not_congr List.map_eq_nil_iff.symm)
  flags := by simp [of]
  array := h.array
  skipping hpos := h.skipping fun hzero => by simp [of, hzero] at hpos
  skipped := Int.natCast_nonneg _

theorem feedAll_of (table : String) (h : a.Safe) {es : List Event} (hes : ∀ e ∈ es, ∀ d, e ≠ .key (.decimal d)) :
    (of a).feedAll table es = some (of (a.after table es), a.outcomes table es) ∧ (a.after table es).Safe ∧
      (∀ err, .refused err ∈ a.outcomes table es → Assembly.Malformed err ∨
        ∃ done e rest, es = done ++ e :: rest ∧ (a.after table done).Beyond e err) ∧
      (a.after table es).built = a.built + (a.outcomes table es).countP fun o => o.handsOver || o.unordered := by
  induction es generalizing a with
  | nil => exact ⟨rfl, h, nofun, rfl⟩
  | cons e rest ih =>
    obtain ⟨he, hrest⟩ := List.forall_mem_cons.1 hes
    have hturn := Assembly.turn_step table h he
    obtain ⟨hfeed, hsafe, hmalformed, hbuilt⟩ := ih (hturn.safe h) hrest
    refine ⟨?_, hsafe, fun err herr => ?_, ?_⟩
    · rw [feedAll, feed_of h, Option.bind_some]
      simp only [ofTurn, hfeed]
      rfl
    · rcases List.mem_cons.1 herr with heq | herr
      · exact (hturn.malformed heq.symm).imp_right fun hbeyond => ⟨[], e, rest, rfl, hbeyond⟩
      · refine (hmalformed err herr).imp_right ?_
        rintro ⟨done, e', rest, rfl, hbeyond⟩
        exact ⟨e :: done, e', rest, rfl, hbeyond⟩
    · rw [Assembly.outcomes, List.countP_cons]
      refine hbuilt.trans ?_
      rw [hturn.built]
      omega

/-- **No stack is read or popped when it is empty**, whatever the events are and in whatever order they come, as long
as no number stands for a name, and events after a refusal included.

* The builder takes every step, and what it does and brings about is what the assembly does and brings about.
* Whatever is refused is reported as a malformed record, or met a limit of the platform with the event that it was
  refused at.
* The records that are handed over are counted, and those that were read but could not be put into order.
* Its stacks and places are consistent at every point.
* From there the next event is taken as well. It changes the place on one of the four ways only, and one that is
  refused as unexpected leaves the builder as it was. -/
theorem feedAll_safe (table : String) {es : List Event} (hes : ∀ e ∈ es, ∀ d, e ≠ .key (.decimal d)) :
    let a := Assembly.empty.after table es
    let os := Assembly.empty.outcomes table es
    empty.feedAll table es = some (of a, os) ∧
    (∀ err, .refused err ∈ os → Assembly.Malformed err ∨
      ∃ done e rest, es = done ++ e :: rest ∧ (Assembly.empty.after table done).Beyond e err) ∧
    (of a).built = os.countP (fun o => o.handsOver || o.unordered) ∧
    (of a).Consistent ∧
    ∀ e, (∀ d, e ≠ .key (.decimal d)) → ∃ b o, (of a).feed table e = some (b, o) ∧
      (b.place ≠ a.place → a.Way e b.place) ∧
      ∀ name place t, o = .refused (.unexpectedEvent name place t) → b = of a := by
  intro a os
  obtain ⟨hfeed, hsafe, hmalformed, hbuilt⟩ := feedAll_of table Assembly.safe_empty hes
  refine ⟨hfeed, hmalformed, hbuilt.trans (Nat.zero_add _), consistent_of hsafe, fun e he => ?_⟩
  have hturn := Assembly.turn_step table hsafe he
  refine ⟨_, _, feed_of hsafe e, hturn.way, fun name place t ho => ?_⟩
  rw [hturn.unexpected ho]

end Builder

/-! ## Cases -/

namespace Builder

open Document

/-- A bracket before the page, a null for a record, ends that do not fit and an unknown event, and still a record. -/
theorem feedAll_safe_misfits :
    ∃ b os, empty.feedAll "t" [.closeArray, .openArray, .scalar .null (.value .null), .openObject,
        .key (.value (.str "id")), .closeObject, .scalar .string (.value (.str "1")), .closeArray, .other "comment",
        .closeObject] = some (b, os) ∧
      os.map Outcome.refuses = [true, false, true, false, false, true, false, true, true, false] ∧
      b.built = 1 ∧ b.place = .betweenRecords ∧ b.Consistent := by
  have hes : ∀ e ∈ [Event.closeArray, .openArray, .scalar .null (.value .null), .openObject,
      .key (.value (.str "id")), .closeObject, .scalar .string (.value (.str "1")), .closeArray, .other "comment",
      .closeObject], ∀ d, e ≠ .key (.decimal d) := by simp
  obtain ⟨hfeed, -, hbuilt, hconsistent, -⟩ := feedAll_safe "t" hes
  refine ⟨_, _, hfeed, ?_, hbuilt.trans ?_, ?_, hconsistent⟩
  · decide +kernel
  · decide +kernel
  · decide +kernel

/-- A record in which five hundred arrays are nested is read and counted, but no call is left to put it into order:
it is not handed over, and the refusal is not that of a malformed record. -/
theorem feedAll_safe_shallow :
    let es := events (.arr [.obj [("n", .nested 500)]])
    (∀ e ∈ es, ∀ d, e ≠ .key (.decimal d)) ∧
      Outcome.refused .deepRecord ∈ Assembly.empty.outcomes "t" es ∧ ¬ Assembly.Malformed .deepRecord := by
  intro es
  have hevents : es = .openArray :: (events (.obj [("n", .nested 500)]) ++ [.closeArray]) := by
    rw [show es = _ from events_arr _, List.flatMap_cons, List.flatMap_nil, List.append_nil]
    rfl
  refine ⟨fun e he d heq => ?_, ?_, nofun⟩
  · subst heq
    simp only [hevents, List.mem_cons, List.mem_append, reduceCtorEq, false_or, or_false, List.not_mem_nil] at he
    obtain ⟨s, hs⟩ := sound_nested 500 _ he
    cases hs
  · have htrace := (@Assembly.feeds_document _ "t" (.arr [.obj [("n", .nested 500)]]) 0 0).trace_eq
    rw [marks_single, ending_deepRecord "t" rfl rfl] at htrace
    obtain ⟨m, hm, ho⟩ : ∃ m ∈ Assembly.trace "t" (Assembly.outside 0 []) 0 es, m.2 = .refused .deepRecord := by
      rw [htrace]
      exact ⟨_, List.mem_singleton_self _, rfl⟩
    rw [← ho]
    exact Assembly.mem_outcomes_of_mem_trace hm

end Builder

end SnapshotStaging
