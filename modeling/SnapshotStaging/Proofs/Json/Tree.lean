import SnapshotStaging.Json.Reader

/-!
# Documents as trees

A `Tree` is a JSON document over leaves of some kind: members stand in the order in which they are
written and every occurrence of a repeated name is kept. A `Spelling` says what is written for each
piece of a document; characters, tokens and events are spellings of the same trees. `Tree.value` is
what a document stands for once repeated members are put together. The pieces of a document that can
be refused when it is read are its leaves and the openings of its containers, each at its depth.

Main result `run_spell`: reading the tokens of a tree gives its value and nothing else, wherever a
value may stand, unless a piece of it is refused; then the first such piece is the one reported.
-/

namespace SnapshotStaging

/-- A JSON document over leaves of some kind. -/
inductive Tree (α : Type) (σ : Type := String)
  | leaf (a : α)
  | arr (items : List (Tree α σ))
  | obj (members : List (σ × Tree α σ))

/-- What is written for each piece of a document. -/
structure Spelling (α β : Type) (σ : Type := String) where
  leaf : α → List β
  name : σ → List β
  openObject : List β
  closeObject : List β
  openArray : List β
  closeArray : List β
  comma : List β
  colon : List β

namespace Tree

variable {α β σ : Type}

mutual

/-- A document written out. -/
def spell (s : Spelling α β σ) : Tree α σ → List β
  | .leaf a => s.leaf a
  | .arr items => s.openArray ++ (spellItems s true items ++ s.closeArray)
  | .obj members => s.openObject ++ (spellMembers s true members ++ s.closeObject)

/-- Items in a row; a comma stands before each one but the first of an array. -/
def spellItems (s : Spelling α β σ) (first : Bool) : List (Tree α σ) → List β
  | [] => []
  | t :: rest => (if first then [] else s.comma) ++ (t.spell s ++ spellItems s false rest)

/-- Members in a row, as `spellItems`. -/
def spellMembers (s : Spelling α β σ) (first : Bool) : List (σ × Tree α σ) → List β
  | [] => []
  | (name, t) :: rest =>
    (if first then [] else s.comma) ++
      (s.name name ++ (s.colon ++ (t.spell s ++ spellMembers s false rest)))

end

section

variable [DecidableEq σ]

mutual

/-- What a document stands for, given what its leaves stand for: the first occurrence of a repeated
member fixes its place, the last one its value. -/
def value (f : α → Json σ) : Tree α σ → Json σ
  | .leaf a => f a
  | .arr items => .arr (values f items)
  | .obj members => .obj (memberValues f [] members)

def values (f : α → Json σ) : List (Tree α σ) → List (Json σ)
  | [] => []
  | t :: rest => t.value f :: values f rest

/-- The members held after more members. -/
def memberValues (f : α → Json σ) (held : List (σ × Json σ)) : List (σ × Tree α σ) → List (σ × Json σ)
  | [] => held
  | (name, t) :: rest => memberValues f (Json.put name (t.value f) held) rest

end

end

mutual

/-- The leaves of a document in order. -/
def leaves : Tree α σ → List α
  | .leaf a => [a]
  | .arr items => itemLeaves items
  | .obj members => memberLeaves members

def itemLeaves : List (Tree α σ) → List α
  | [] => []
  | t :: rest => t.leaves ++ itemLeaves rest

def memberLeaves : List (σ × Tree α σ) → List α
  | [] => []
  | (_, t) :: rest => t.leaves ++ memberLeaves rest

end

mutual

/-- The openings of containers and the leaves of a document in order, each with the number of
containers around it; an opening counts its own. -/
def pieces (depth : Nat) : Tree α σ → List (Nat × Option α)
  | .leaf a => [(depth, some a)]
  | .arr items => (depth + 1, none) :: itemPieces (depth + 1) items
  | .obj members => (depth + 1, none) :: memberPieces (depth + 1) members

def itemPieces (depth : Nat) : List (Tree α σ) → List (Nat × Option α)
  | [] => []
  | t :: rest => t.pieces depth ++ itemPieces depth rest

def memberPieces (depth : Nat) : List (σ × Tree α σ) → List (Nat × Option α)
  | [] => []
  | (_, t) :: rest => t.pieces depth ++ memberPieces depth rest

end

section Pieces

mutual

/-- Each leaf is a piece. -/
theorem exists_piece {a : α} : ∀ {t : Tree α σ} (depth : Nat), a ∈ t.leaves → ∃ d, (d, some a) ∈ t.pieces depth
  | .leaf b, depth, h => ⟨depth, by rw [List.mem_singleton.1 h]; exact List.mem_singleton.2 rfl⟩
  | .arr _, depth, h => (exists_itemPiece (depth + 1) h).imp fun _ => List.mem_cons_of_mem _
  | .obj _, depth, h => (exists_memberPiece (depth + 1) h).imp fun _ => List.mem_cons_of_mem _

theorem exists_itemPiece {a : α} : ∀ {items : List (Tree α σ)} (depth : Nat), a ∈ itemLeaves items →
    ∃ d, (d, some a) ∈ itemPieces depth items
  | _ :: _, depth, h =>
    (List.mem_append.1 h).elim (fun h => (exists_piece depth h).imp fun _ => List.mem_append_left _)
      fun h => (exists_itemPiece depth h).imp fun _ => List.mem_append_right _

theorem exists_memberPiece {a : α} : ∀ {members : List (σ × Tree α σ)} (depth : Nat), a ∈ memberLeaves members →
    ∃ d, (d, some a) ∈ memberPieces depth members
  | (_, _) :: _, depth, h =>
    (List.mem_append.1 h).elim (fun h => (exists_piece depth h).imp fun _ => List.mem_append_left _)
      fun h => (exists_memberPiece depth h).imp fun _ => List.mem_append_right _

end

mutual

/-- A piece that is no opening is a leaf. -/
theorem mem_leaves_of_piece {a : α} {d : Nat} : ∀ {t : Tree α σ} {depth : Nat}, (d, some a) ∈ t.pieces depth →
    a ∈ t.leaves
  | .leaf _, _, h => by
    cases List.mem_singleton.1 h
    exact List.mem_singleton.2 rfl
  | .arr _, _, h => mem_itemLeaves_of_piece ((List.mem_cons.1 h).resolve_left nofun)
  | .obj _, _, h => mem_memberLeaves_of_piece ((List.mem_cons.1 h).resolve_left nofun)

theorem mem_itemLeaves_of_piece {a : α} {d : Nat} : ∀ {items : List (Tree α σ)} {depth : Nat},
    (d, some a) ∈ itemPieces depth items → a ∈ itemLeaves items
  | _ :: _, _, h => List.mem_append.2 ((List.mem_append.1 h).imp mem_leaves_of_piece mem_itemLeaves_of_piece)

theorem mem_memberLeaves_of_piece {a : α} {d : Nat} : ∀ {members : List (σ × Tree α σ)} {depth : Nat},
    (d, some a) ∈ memberPieces depth members → a ∈ memberLeaves members
  | (_, _) :: _, _, h => List.mem_append.2 ((List.mem_append.1 h).imp mem_leaves_of_piece mem_memberLeaves_of_piece)

end

end Pieces

/-- Arrays within one another, the innermost of them empty. -/
def nested : Nat → Tree α σ
  | 0 => .arr []
  | n + 1 => .arr [nested n]

theorem leaves_nested (n : Nat) : (nested n : Tree α σ).leaves = [] := by
  induction n with
  | zero => rfl
  | succ n ih => rw [nested, leaves, itemLeaves, itemLeaves, ih, List.append_nil]

end Tree

/-- A leaf as one token. -/
inductive Lexeme (σ : Type := String)
  | text (s : σ)
  | atom (a : Atom)
  deriving DecidableEq, Repr

namespace Lexeme

variable {σ : Type}

def token : Lexeme σ → Token σ
  | .text s => .text (some s)
  | .atom a => .atom a

/-- The value of a leaf. -/
def json : Lexeme σ → Json σ
  | .text s => .str s
  | .atom a => Reader.atomValue a

end Lexeme

/-- The tokens of a document whose leaves are tokens. -/
def Spelling.tokens {α σ : Type} (lexeme : α → Lexeme σ) : Spelling α (Token σ) σ where
  leaf a := [(lexeme a).token]
  name s := [.text (some s)]
  openObject := [.openObject]
  closeObject := [.closeObject]
  openArray := [.openArray]
  closeArray := [.closeArray]
  comma := [.comma]
  colon := [.colon]

namespace Reader

theorem of_elim_ok {α ε : Type} {fault : Option ε} {x y : α} (h : fault.elim (.ok x) .error = Except.ok y) :
    fault = none ∧ x = y := by
  cases fault with
  | none => exact ⟨rfl, Except.ok.inj h⟩
  | some e => cases h

theorem of_elim_error {α ε : Type} {fault : Option ε} {x : α} {e : ε}
    (h : fault.elim (.ok x) .error = Except.error e) : fault = some e := by
  cases fault with
  | none => cases h
  | some e' => rw [Option.elim_some, Except.error.injEq] at h; rw [h]

/-! ## Why a row of pieces is refused -/

section

variable {α σ : Type} (limits : Limits) (range : FloatRange) (lexeme : α → Lexeme σ)

/-- Why a piece of a document is refused, if it is. -/
def fault? (depth : Nat) : Option (Lexeme σ) → Option ReadError
  | none => openingFault? limits depth
  | some (.text _) => none
  | some (.atom a) => atomFault? limits range depth a

/-- Why a row of pieces is refused, if it is: the reason of the first piece that is. -/
def rowFault? (pieces : List (Nat × Option α)) : Option ReadError :=
  pieces.findSome? fun p => fault? limits range p.1 (p.2.map lexeme)

variable {limits range lexeme}

@[simp]
theorem rowFault?_nil : rowFault? limits range lexeme [] = none := rfl

@[simp]
theorem rowFault?_cons (p : Nat × Option α) (rest : List (Nat × Option α)) :
    rowFault? limits range lexeme (p :: rest) =
      (fault? limits range p.1 (p.2.map lexeme)).or (rowFault? limits range lexeme rest) := by
  rw [rowFault?, List.findSome?_cons]
  cases fault? limits range p.1 (p.2.map lexeme) <;> rfl

@[simp]
theorem rowFault?_append (ps qs : List (Nat × Option α)) :
    rowFault? limits range lexeme (ps ++ qs) =
      (rowFault? limits range lexeme ps).or (rowFault? limits range lexeme qs) := List.findSome?_append

theorem rowFault?_eq_none_iff {ps : List (Nat × Option α)} :
    rowFault? limits range lexeme ps = none ↔ ∀ p ∈ ps, fault? limits range p.1 (p.2.map lexeme) = none :=
  List.findSome?_eq_none_iff

/-- Arrays within one another are refused as the innermost of them is. -/
theorem findSome?_nested {f : Nat × Option α → Option ReadError} (hf : ∀ d, f (d, none) = openingFault? limits d)
    (n depth : Nat) : ((Tree.nested n : Tree α σ).pieces depth).findSome? f = openingFault? limits (depth + n + 1) := by
  have hcons (d : Nat) (rest : List (Nat × Option α)) :
      ((d, none) :: rest).findSome? f = (openingFault? limits d).or (rest.findSome? f) := by
    rw [List.findSome?_cons, hf]
    cases openingFault? limits d <;> rfl
  induction n generalizing depth with
  | zero =>
    rw [Tree.nested, Tree.pieces, hcons]
    exact Option.or_none
  | succ n ih =>
    have hrow : (Tree.nested (n + 1) : Tree α σ).pieces depth =
        (depth + 1, none) :: (Tree.nested n : Tree α σ).pieces (depth + 1) := by
      rw [Tree.nested, Tree.pieces, Tree.itemPieces, Tree.itemPieces, List.append_nil]
    rw [hrow, hcons, ih, show depth + 1 + n + 1 = depth + (n + 1) + 1 by omega]
    simp only [openingFault?]
    -- Where the innermost array can be entered, so can those around it.
    split
    · rfl
    · next houter =>
      rw [if_neg fun hinner => houter (Limits.admits_mono hinner (by simp only [calls]; omega))]
      rfl

end

/-! ## Steps -/

section

variable {σ κ : Type} [DecidableEq σ] [Script σ κ] {limits : Limits} {range : FloatRange} {s s' : State σ}
  {t : Token σ} {ts : List (Token σ)}

/-- A token is taken where the grammar admits it, and adds to the value. -/
theorem step_eq_ok_iff : step limits range s t = .ok s' ↔
    ∃ g taken, s.grammar.step t = some g ∧ s.take limits range t = .ok taken ∧ s' = { taken with grammar := g } := by
  rw [step]
  cases s.grammar.step t with
  | none => simp
  | some g =>
    cases s.take limits range t with
    | error e => simp [Except.map]
    | ok taken => simp [Except.map, eq_comm]

/-- What every token that is taken keeps, a row of tokens keeps. -/
theorem run_keeps {P : State σ → Prop}
    (hstep : ∀ {s s' : State σ} {t : Token σ}, P s → step limits range s t = .ok s' → P s') (h : P s)
    (hrun : run limits range s ts = .ok s') : P s' := by
  induction ts generalizing s with
  | nil =>
    cases hrun
    exact h
  | cons t rest ih =>
    rw [run] at hrun
    split at hrun
    · next hm => exact ih (hstep h hm) hrun
    · cases hrun

/-- A value is read when all tokens are taken and nothing is open at their end. -/
theorem ofTokens_eq_ok_iff {whole : Bool} {v : Json σ} : Json.ofTokens limits range ts whole = .ok v ↔
    ∃ s, run limits range start ts = .ok s ∧ s.result = some v ∧ whole = true ∧ s.grammar.complete = true := by
  rw [Json.ofTokens]
  cases run limits range start ts with
  | error e => simp
  | ok s =>
    cases hresult : s.result with
    | none => simp [hresult]
    | some w =>
      by_cases hcomplete : whole = true ∧ s.grammar.complete = true <;> simp [hresult, hcomplete]

end

/-! ## Runs -/

variable {α σ κ : Type} [DecidableEq σ] [Script σ κ] (limits : Limits) (range : FloatRange) (lexeme : α → Lexeme σ)

/-- The state after a value. -/
def State.filled (s : State σ) (v : Json σ) : State σ :=
  { s.place v with grammar := ⟨s.grammar.enclosing, .separator⟩ }

theorem run_ok {s m : State σ} {t : Token σ} (h : step limits range s t = .ok m) (rest : List (Token σ)) :
    run limits range s (t :: rest) = run limits range m rest := by
  rw [run, h]

theorem run_error {s : State σ} {t : Token σ} {e : ReadError} (h : step limits range s t = .error e)
    (rest : List (Token σ)) : run limits range s (t :: rest) = .error e := by
  rw [run, h]

/-- A leaf where a value may stand. -/
theorem run_lexeme (s : State σ) (x : Lexeme σ) (h : s.grammar.admitsValue = true) (rest : List (Token σ)) :
    run limits range s (x.token :: rest) =
      (fault? limits range s.depth (some x)).elim (run limits range (s.filled x.json) rest) .error := by
  have hname : s.grammar.admitsName = false := by
    simp only [Grammar.admitsValue, Bool.or_eq_true, decide_eq_true_eq] at h
    rcases h with h | h <;> simp [Grammar.admitsName, h]
  have hplace (v : Json σ) : { s.place v with grammar := { s.grammar with expected := .separator } } =
      s.filled v := rfl
  cases x with
  | text t =>
    refine run_ok limits range ?_ rest
    simp [Lexeme.token, step, Grammar.step, State.take, hname, h, Except.map, hplace, Lexeme.json]
  | atom a =>
    rw [Lexeme.token, fault?]
    cases hfault : atomFault? limits range s.depth a with
    | none =>
      refine run_ok limits range ?_ rest
      simp [step, Grammar.step, State.take, h, hfault, Except.map, hplace, Lexeme.json]
    | some e =>
      refine run_error limits range ?_ rest
      simp [step, Grammar.step, State.take, h, hfault, Except.map]

/-- What may come next in an array, before its first item or after one. -/
def itemExpected (first : Bool) : Expected := if first then .firstItem else .separator

/-- What may come next in an object, before its first member or after one. -/
def nameExpected (first : Bool) : Expected := if first then .firstName else .separator

/-- An opening where a value may stand. -/
theorem run_openArray {s : State σ} (h : s.grammar.admitsValue = true) (rest : List (Token σ)) :
    run limits range s (.openArray :: rest) =
      (openingFault? limits (s.depth + 1)).elim
        (run limits range ⟨⟨.array :: s.grammar.enclosing, .firstItem⟩, .array [] :: s.frames, s.result⟩ rest)
        .error := by
  rw [run, step]
  simp only [Grammar.step, Grammar.enter, h, if_true, State.take]
  cases openingFault? limits (s.depth + 1) <;> rfl

theorem run_openObject {s : State σ} (h : s.grammar.admitsValue = true) (rest : List (Token σ)) :
    run limits range s (.openObject :: rest) =
      (openingFault? limits (s.depth + 1)).elim
        (run limits range
          ⟨⟨.object :: s.grammar.enclosing, .firstName⟩, .object [] (Script.ofString "") :: s.frames, s.result⟩ rest)
        .error := by
  rw [run, step]
  simp only [Grammar.step, Grammar.enter, h, if_true, State.take]
  cases openingFault? limits (s.depth + 1) <;> rfl

theorem step_closeArray (s : State σ) (first : Bool) (items : List (Json σ)) :
    step limits range ⟨⟨.array :: s.grammar.enclosing, itemExpected first⟩, .array items :: s.frames, s.result⟩
      .closeArray = .ok (s.filled (.arr items.reverse)) := by
  obtain ⟨g, _ | ⟨_ | _, outer⟩, result⟩ := s <;> cases first <;> rfl

theorem step_closeObject (s : State σ) (first : Bool) (members : List (σ × Json σ)) (name : σ) :
    step limits range ⟨⟨.object :: s.grammar.enclosing, nameExpected first⟩, .object members name :: s.frames,
      s.result⟩ .closeObject = .ok (s.filled (.obj members)) := by
  obtain ⟨g, _ | ⟨_ | _, outer⟩, result⟩ := s <;> cases first <;> rfl

/-- The comma before an item, if it is not the first. -/
theorem run_itemComma (first : Bool) (enc : List Container) (frames : List (Frame σ)) (result : Option (Json σ))
    (rest : List (Token σ)) :
    run limits range ⟨⟨.array :: enc, itemExpected first⟩, frames, result⟩
        ((if first then [] else [.comma]) ++ rest) =
      run limits range ⟨⟨.array :: enc, if first then .firstItem else .value⟩, frames, result⟩ rest := by
  cases first <;> rfl

/-- The comma before a member, if it is not the first, its name and the colon. -/
theorem run_name (first : Bool) (enc : List Container) (members : List (σ × Json σ)) (old name : σ)
    (outer : List (Frame σ)) (result : Option (Json σ)) (rest : List (Token σ)) :
    run limits range ⟨⟨.object :: enc, nameExpected first⟩, .object members old :: outer, result⟩
        ((if first then [] else [.comma]) ++ ([.text (some name)] ++ ([.colon] ++ rest))) =
      run limits range ⟨⟨.object :: enc, .value⟩, .object members name :: outer, result⟩ rest := by
  cases first <;> rfl

mutual

/-- **Reading the tokens of a tree gives its value**, wherever a value may stand, unless a piece is refused. -/
theorem run_spell : ∀ (t : Tree α σ) (s : State σ) (rest : List (Token σ)), s.grammar.admitsValue = true →
    run limits range s (t.spell (.tokens lexeme) ++ rest) =
      (rowFault? limits range lexeme (t.pieces s.depth)).elim
        (run limits range (s.filled (t.value fun a => (lexeme a).json)) rest) .error
  | .leaf a, s, rest, h => by
    rw [Tree.spell, Tree.value, Tree.pieces, rowFault?_cons, rowFault?_nil, Option.or_none]
    exact run_lexeme limits range s (lexeme a) h rest
  | .arr items, s, rest, h => by
    rw [Tree.spell, Tree.value, Tree.pieces, rowFault?_cons, List.append_assoc, List.append_assoc]
    refine (run_openArray limits range h _).trans ?_
    rw [Option.map_none, fault?]
    cases openingFault? limits (s.depth + 1) with
    | some e => rfl
    | none =>
      refine (run_spellItems items true s.grammar.enclosing [] s.frames s.result _).trans ?_
      refine congrArg (fun x => (rowFault? limits range lexeme (Tree.itemPieces (s.depth + 1) items)).elim x _) ?_
      refine (run_ok limits range (step_closeArray limits range s _ _) rest).trans ?_
      rw [List.append_nil, List.reverse_reverse]
  | .obj members, s, rest, h => by
    rw [Tree.spell, Tree.value, Tree.pieces, rowFault?_cons, List.append_assoc, List.append_assoc]
    refine (run_openObject limits range h _).trans ?_
    rw [Option.map_none, fault?]
    cases openingFault? limits (s.depth + 1) with
    | some e => rfl
    | none =>
      obtain ⟨name, hm⟩ := run_spellMembers members true s.grammar.enclosing [] (Script.ofString "") s.frames s.result
        (.closeObject :: rest)
      refine hm.trans ?_
      refine congrArg (fun x => (rowFault? limits range lexeme (Tree.memberPieces (s.depth + 1) members)).elim x _) ?_
      exact run_ok limits range (step_closeObject limits range s _ _ name) rest

/-- Items, after those held in `acc`. -/
theorem run_spellItems : ∀ (items : List (Tree α σ)) (first : Bool) (enc : List Container) (acc : List (Json σ))
    (outer : List (Frame σ)) (result : Option (Json σ)) (rest : List (Token σ)),
    run limits range ⟨⟨.array :: enc, itemExpected first⟩, .array acc :: outer, result⟩
        (Tree.spellItems (.tokens lexeme) first items ++ rest) =
      (rowFault? limits range lexeme (Tree.itemPieces (outer.length + 1) items)).elim
        (run limits range ⟨⟨.array :: enc, itemExpected (first && items.isEmpty)⟩,
          .array ((Tree.values (fun a => (lexeme a).json) items).reverse ++ acc) :: outer, result⟩ rest) .error
  | [], first, enc, acc, outer, result, rest => by
    rw [Tree.spellItems, Tree.values, List.isEmpty_nil, Bool.and_true]
    rfl
  | t :: items, first, enc, acc, outer, result, rest => by
    rw [Tree.spellItems, Tree.values, Tree.itemPieces, rowFault?_append]
    simp only [List.append_assoc]
    refine (run_itemComma limits range first enc _ _ _).trans ?_
    rw [run_spell t _ _ (by cases first <;> rfl), State.depth, List.length_cons]
    cases rowFault? limits range lexeme (t.pieces (outer.length + 1)) with
    | some e => rfl
    | none =>
      refine (run_spellItems items false enc (_ :: acc) outer result rest).trans ?_
      simp

/-- Members, after those held; the name left in the frame is of no account. -/
theorem run_spellMembers : ∀ (members : List (σ × Tree α σ)) (first : Bool) (enc : List Container)
    (held : List (σ × Json σ)) (old : σ) (outer : List (Frame σ)) (result : Option (Json σ))
    (rest : List (Token σ)), ∃ name,
    run limits range ⟨⟨.object :: enc, nameExpected first⟩, .object held old :: outer, result⟩
        (Tree.spellMembers (.tokens lexeme) first members ++ rest) =
      (rowFault? limits range lexeme (Tree.memberPieces (outer.length + 1) members)).elim
        (run limits range ⟨⟨.object :: enc, nameExpected (first && members.isEmpty)⟩,
          .object (Tree.memberValues (fun a => (lexeme a).json) held members) name :: outer, result⟩ rest) .error
  | [], first, enc, held, old, outer, result, rest => by
    refine ⟨old, ?_⟩
    rw [Tree.spellMembers, Tree.memberValues, List.isEmpty_nil, Bool.and_true]
    rfl
  | (name, t) :: members, first, enc, held, old, outer, result, rest => by
    obtain ⟨last, hm⟩ := run_spellMembers members false enc
      (Json.put name (t.value fun a => (lexeme a).json) held) name outer result rest
    refine ⟨last, ?_⟩
    rw [Tree.spellMembers, Tree.memberValues, Tree.memberPieces, rowFault?_append]
    simp only [List.append_assoc]
    refine (run_name limits range first enc held old name outer result _).trans ?_
    rw [run_spell t _ _ rfl, State.depth, List.length_cons]
    cases rowFault? limits range lexeme (t.pieces (outer.length + 1)) with
    | some e => rfl
    | none => exact hm.trans (by simp)

end

end Reader

/-- The tokens of a document are read as its value, unless a piece of it is refused. -/
theorem Json.ofTokens_spell {α σ κ : Type} [DecidableEq σ] [Script σ κ] (limits : Limits) (range : FloatRange)
    (lexeme : α → Lexeme σ) (t : Tree α σ) :
    Json.ofTokens limits range (t.spell (.tokens lexeme)) true =
      (Reader.rowFault? limits range lexeme (t.pieces 0)).elim (.ok (t.value fun a => (lexeme a).json)) .error := by
  have h := Reader.run_spell limits range lexeme t Reader.start [] rfl
  rw [List.append_nil] at h
  rw [Json.ofTokens, h]
  cases hfault : Reader.rowFault? limits range lexeme (t.pieces Reader.start.depth) with
  | some e => exact (congrArg (Option.elim · _ _) hfault).symm
  | none => exact (congrArg (Option.elim · _ _) hfault).symm

end SnapshotStaging
