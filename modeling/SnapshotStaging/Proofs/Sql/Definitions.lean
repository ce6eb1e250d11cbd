import Mathlib.Tactic.SplitIfs
import SnapshotStaging.Warehouse

/-!
# How a database reads the definition of a table

`pieces?` cuts a text into words, names between double quotes and marks. A name ends at the first quote that is
not doubled, and a doubled quote stands for a quote; every other character between the quotes is part of the name.
`readTable` reads the words `CREATE TABLE`, the table, the declarations between parentheses and what follows them.
Commas separate declarations only outside inner parentheses. A declaration that starts with a name, or with a word
that is not the first of a constraint, declares a column. Wherever the reader is in doubt it gives up.

Main results `reads_doubled`, a name whose quotes are doubled is read whole, and `name_ne_of_pieces?`, a name with a
quote comes out as another one, whatever follows, when it is put between quotes as it is.
-/

namespace SnapshotStaging.Ddl

inductive Piece
  | word (cs : List Char)
  | name (cs : List Char)
  | opening
  | closing
  | comma
  | semicolon
  deriving DecidableEq, Repr

/-- Where a scanner stands. What has been read of a word or a name is kept latest first. -/
inductive Place
  | between
  | inWord (cs : List Char)
  | inName (cs : List Char)
  /-- After a quote, which ends the name or is the first of two. -/
  | atQuote (cs : List Char)
  deriving DecidableEq, Repr

/-- A scanner, with the pieces before, latest first. -/
structure Scanner where
  place : Place
  pieces : List Piece
  deriving DecidableEq, Repr

namespace Scanner

def start : Scanner := ⟨.between, []⟩

/-- A scanner that has met other pieces before its own. -/
def onto (s : Scanner) (before : List Piece) : Scanner := ⟨s.place, s.pieces ++ before⟩

/-- The pieces of a text that ends here; a name has to be closed. -/
def closed (s : Scanner) : Option (List Piece) :=
  match s.place with
  | .between => some s.pieces.reverse
  | .inWord cs => some (.word cs.reverse :: s.pieces).reverse
  | .inName _ => none
  | .atQuote cs => some (.name cs.reverse :: s.pieces).reverse

end Scanner

/-- A character outside words and names. -/
def fresh (ts : List Piece) (c : Char) : Option Scanner :=
  if c = ' ' ∨ c = '\n' then some ⟨.between, ts⟩
  else if c = '(' then some ⟨.between, .opening :: ts⟩
  else if c = ')' then some ⟨.between, .closing :: ts⟩
  else if c = ',' then some ⟨.between, .comma :: ts⟩
  else if c = ';' then some ⟨.between, .semicolon :: ts⟩
  else if c = '"' then some ⟨.inName [], ts⟩
  else if Warehouse.isNameChar c then some ⟨.inWord [c], ts⟩
  else none

/-- One character; nothing when it makes no sense. -/
def step (s : Scanner) (c : Char) : Option Scanner :=
  match s.place with
  | .between => fresh s.pieces c
  | .inWord cs =>
    if Warehouse.isNameChar c then some { s with place := .inWord (c :: cs) }
    else fresh (.word cs.reverse :: s.pieces) c
  | .inName cs => some { s with place := if c = '"' then .atQuote cs else .inName (c :: cs) }
  | .atQuote cs =>
    if c = '"' then some { s with place := .inName (c :: cs) } else fresh (.name cs.reverse :: s.pieces) c

def run (s : Scanner) (cs : List Char) : Option Scanner := cs.foldlM step s

/-- The pieces that a scanner has at the end of a text. -/
def scan (s : Scanner) (cs : List Char) : Option (List Piece) := (run s cs).bind Scanner.closed

/-- The pieces of a text. -/
def pieces? (cs : List Char) : Option (List Piece) := scan .start cs

/-- The pieces of a text that is known to have some. -/
def piecesOf (s : String) : List Piece := (pieces? s.toList).getD []

/-- What stands in a definition. -/
inductive Declaration
  | column (name : List Char) (type : List Piece)
  | constraint (ts : List Piece)
  deriving DecidableEq, Repr

/-- The words with which constraints start. -/
def constraintWords : List (List Char) :=
  ["CONSTRAINT", "PRIMARY", "UNIQUE", "CHECK", "FOREIGN"].map String.toList

def declaration? : List Piece → Option Declaration
  | .name cs :: type => some (.column cs type)
  | .word cs :: type =>
    if cs.map Char.toUpper ∈ constraintWords then some (.constraint (.word cs :: type)) else some (.column cs type)
  | _ => none

/-- The items up to the closing parenthesis, separated by commas outside inner parentheses, and what follows. What
has been read of an item is kept latest first. -/
def items (depth : Nat) (item : List Piece) : List Piece → Option (List (List Piece) × List Piece)
  | [] => none
  | .opening :: ts => items (depth + 1) (.opening :: item) ts
  | .closing :: ts => if depth = 0 then some ([item.reverse], ts) else items (depth - 1) (.closing :: item) ts
  | .comma :: ts =>
    if depth = 0 then (items 0 [] ts).map fun (its, after) => (item.reverse :: its, after)
    else items depth (.comma :: item) ts
  | t :: ts => items depth (t :: item) ts

/-- A table as its definition declares it. -/
structure Table where
  name : List Char
  declarations : List Declaration
  /-- What stands after the declarations. -/
  after : List Piece
  deriving DecidableEq, Repr

/-- The columns with their types, in order. -/
def Table.columns (t : Table) : List (List Char × List Piece) :=
  t.declarations.filterMap fun
    | .column name type => some (name, type)
    | .constraint _ => none

theorem Table.columns_append (ds : List (List Char × List Piece)) (t : Table) :
    ({ t with declarations := (ds.map fun d => .column d.1 d.2) ++ t.declarations } : Table).columns =
      ds ++ t.columns := by
  rw [Table.columns, List.filterMap_append, List.filterMap_map]
  exact congrArg (· ++ t.columns) List.filterMap_some

def table? : List Piece → Option Table
  | .word create :: .word table :: .word name :: .opening :: ts =>
    if create = "CREATE".toList ∧ table = "TABLE".toList then
      (items 0 [] ts).bind fun (its, after) =>
        (its.mapM declaration?).map fun declarations => ⟨name, declarations, after⟩
    else none
  | _ => none

/-- The table that a text defines. -/
def readTable (cs : List Char) : Option Table := (pieces? cs).bind table?

/-! ## Texts that are read whole -/

variable {cs rest w n : List Char} {ts before : List Piece} {s s' : Scanner} {c : Char}

theorem run_append {m : Scanner} (h : run s cs = some m) (rest : List Char) :
    run s (cs ++ rest) = run m rest := by
  rw [run, List.foldlM_append, show cs.foldlM step s = some m from h]
  rfl

theorem run_cons (s : Scanner) (c : Char) (rest : List Char) :
    run s (c :: rest) = (step s c).bind fun m => run m rest := by
  rw [run, List.foldlM_cons]
  rfl

theorem fresh_append (c : Char) (ts before : List Piece) :
    fresh (ts ++ before) c = (fresh ts c).map (·.onto before) := by
  unfold fresh
  split_ifs <;> rfl

theorem step_onto (s : Scanner) (before : List Piece) (c : Char) :
    step (s.onto before) c = (step s c).map (·.onto before) := by
  obtain ⟨place, ts⟩ := s
  cases place with
  | between => exact fresh_append c ts before
  | inWord cs =>
    simp only [step, Scanner.onto]
    split
    · rfl
    · exact fresh_append c (.word cs.reverse :: ts) before
  | inName cs => rfl
  | atQuote cs =>
    simp only [step, Scanner.onto]
    split
    · rfl
    · exact fresh_append c (.name cs.reverse :: ts) before

/-- The pieces before play no part. -/
theorem run_onto (s : Scanner) (before : List Piece) (cs : List Char) :
    run (s.onto before) cs = (run s cs).map (·.onto before) := by
  induction cs generalizing s with
  | nil => rfl
  | cons c cs ih =>
    rw [run_cons, run_cons, step_onto]
    cases step s c with
    | none => rfl
    | some m => exact ih m

theorem scan_cons (s : Scanner) (c : Char) (rest : List Char) :
    scan s (c :: rest) = (step s c).bind fun m => scan m rest := by
  rw [scan, run_cons, Option.bind_assoc]
  rfl

theorem closed_onto (s : Scanner) (before : List Piece) :
    (s.onto before).closed = s.closed.map (before.reverse ++ ·) := by
  obtain ⟨place, ts⟩ := s
  cases place <;> simp [Scanner.onto, Scanner.closed]

theorem scan_onto (s : Scanner) (before : List Piece) (cs : List Char) :
    scan (s.onto before) cs = (scan s cs).map (before.reverse ++ ·) := by
  rw [scan, scan, run_onto]
  cases run s cs with
  | none => rfl
  | some m => exact closed_onto m before

/-- A text that is read as pieces, after which the scanner is free for others. -/
def Reads (cs : List Char) (ts : List Piece) : Prop := run .start cs = some ⟨.between, ts.reverse⟩

instance (cs : List Char) (ts : List Piece) : Decidable (Reads cs ts) :=
  inferInstanceAs (Decidable (run .start cs = some ⟨.between, ts.reverse⟩))

theorem reads_nil : Reads [] [] := rfl

theorem Reads.run_append (h : Reads cs ts) (rest : List Char) :
    run .start (cs ++ rest) = (run .start rest).map (·.onto ts.reverse) := by
  rw [Ddl.run_append h, ← run_onto]
  rfl

theorem Reads.pieces?_append (h : Reads cs ts) (rest : List Char) :
    pieces? (cs ++ rest) = (pieces? rest).map (ts ++ ·) := by
  rw [pieces?, pieces?, scan, Ddl.run_append h]
  exact (scan_onto .start ts.reverse rest).trans (by rw [List.reverse_reverse])

theorem Reads.append {cs' : List Char} {ts' : List Piece} (h : Reads cs ts) (h' : Reads cs' ts') :
    Reads (cs ++ cs') (ts ++ ts') := by
  unfold Reads at h' ⊢
  rw [h.run_append, h', List.reverse_append]
  rfl

theorem Reads.flatMap {α : Type} {text : α → List Char} {pieces : α → List Piece} {l : List α}
    (h : ∀ a ∈ l, Reads (text a) (pieces a)) : Reads (l.flatMap text) (l.flatMap pieces) := by
  induction l with
  | nil => exact reads_nil
  | cons a l ih =>
    obtain ⟨ha, hl⟩ := List.forall_mem_cons.1 h
    exact ha.append (ih hl)

theorem Reads.pieces?_eq (h : Reads cs ts) : pieces? cs = some ts := by
  rw [pieces?, scan, show run .start cs = _ from h]
  simp [Scanner.closed]

theorem fresh_of_isNameChar (h : Warehouse.isNameChar c = true) (ts : List Piece) :
    fresh ts c = some ⟨.inWord [c], ts⟩ := by
  have hne {x : Char} (hx : Warehouse.isNameChar x = false) : c ≠ x := by
    rintro rfl
    rw [h] at hx
    cases hx
  unfold fresh
  simp [h, hne (x := ' ') (by decide), hne (x := '\n') (by decide), hne (x := '(') (by decide),
    hne (x := ')') (by decide), hne (x := ',') (by decide), hne (x := ';') (by decide), hne (x := '"') (by decide)]

theorem run_inWord (h : ∀ c ∈ cs, Warehouse.isNameChar c = true) (done : List Char) (ts : List Piece) :
    run ⟨.inWord done, ts⟩ cs = some ⟨.inWord (cs.reverse ++ done), ts⟩ := by
  induction cs generalizing done with
  | nil => rfl
  | cons c cs ih =>
    obtain ⟨hc, hcs⟩ := List.forall_mem_cons.1 h
    have hstep : step ⟨.inWord done, ts⟩ c = some ⟨.inWord (c :: done), ts⟩ := if_pos hc
    rw [run_cons, hstep, Option.bind_some, ih hcs]
    simp

/-- A word is read up to the blank after it. -/
theorem reads_word (hne : w ≠ []) (h : ∀ c ∈ w, Warehouse.isNameChar c = true) :
    Reads (w ++ [' ']) [.word w] := by
  obtain ⟨c, cs, rfl⟩ := List.exists_cons_of_ne_nil hne
  obtain ⟨hc, hcs⟩ := List.forall_mem_cons.1 h
  have hword : run .start (c :: cs) = some ⟨.inWord (cs.reverse ++ [c]), []⟩ := by
    have hstep : step .start c = some ⟨.inWord [c], []⟩ := fresh_of_isNameChar hc []
    rw [run_cons, hstep, Option.bind_some, run_inWord hcs]
  have hend : step ⟨.inWord (cs.reverse ++ [c]), []⟩ ' ' = some ⟨.between, [.word (c :: cs)]⟩ := by
    simp [step, show Warehouse.isNameChar ' ' = false by decide, fresh]
  rw [Reads, run_append hword, run_cons, hend]
  rfl

/-- How a name has to stand between quotes. -/
def doubled (n : List Char) : List Char := n.flatMap fun c => if c = '"' then ['"', '"'] else [c]

theorem doubled_cons (c : Char) (n : List Char) :
    doubled (c :: n) = (if c = '"' then ['"', '"'] else [c]) ++ doubled n :=
  List.flatMap_cons ..

theorem doubled_of_notMem (h : '"' ∉ n) : doubled n = n := by
  induction n with
  | nil => rfl
  | cons c n ih =>
    rw [List.mem_cons, not_or] at h
    rw [doubled_cons, if_neg (Ne.symm h.1), ih h.2]
    rfl

theorem run_doubled (n done : List Char) (ts : List Piece) :
    run ⟨.inName done, ts⟩ (doubled n) = some ⟨.inName (n.reverse ++ done), ts⟩ := by
  induction n generalizing done with
  | nil => rfl
  | cons c n ih =>
    have hchar : run ⟨.inName done, ts⟩ (if c = '"' then ['"', '"'] else [c]) =
        some ⟨.inName (c :: done), ts⟩ := by
      by_cases hc : c = '"' <;> simp [run, step, hc]
    rw [doubled_cons, run_append hchar, ih]
    simp

/-- A name whose quotes are doubled is read whole. -/
theorem reads_doubled (n : List Char) : Reads ('"' :: (doubled n ++ ['"', ' '])) [.name n] := by
  have hopen : run .start ['"'] = some ⟨.inName [], []⟩ := rfl
  have hend : run ⟨.inName n.reverse, []⟩ ['"', ' '] = some ⟨.between, [.name n]⟩ := by
    simp [run, step, fresh]
  have hname : run ⟨.inName [], []⟩ (doubled n) = some ⟨.inName n.reverse, []⟩ := by
    rw [run_doubled, List.append_nil]
  rw [Reads, ← List.singleton_append, run_append hopen, run_append hname, hend]
  rfl

/-- A name without quotes is read whole as it is. -/
theorem reads_name (h : '"' ∉ n) : Reads ('"' :: (n ++ ['"', ' '])) [.name n] := by
  have hdoubled := reads_doubled n
  rwa [doubled_of_notMem h] at hdoubled

/-! ## Names that are not -/

/-- After `done` a name goes on with `n` up to the first quote that is not doubled, and it is the first piece. -/
def Ends (done cs : List Char) (ts : List Piece) : Prop :=
  ∃ n rest more, cs = doubled n ++ '"' :: rest ∧ rest.head? ≠ some '"' ∧ ts = .name (done.reverse ++ n) :: more

theorem Ends.cons {done : List Char} (h : Ends (c :: done) cs ts) :
    Ends done ((if c = '"' then ['"', '"'] else [c]) ++ cs) ts := by
  obtain ⟨n, rest, more, rfl, hrest, rfl⟩ := h
  refine ⟨c :: n, rest, more, ?_, hrest, by simp⟩
  rw [doubled_cons, List.append_assoc]

/-- Where a name that is open ends. Both places that belong to a name are taken together, since a quote leads from one
to the other. -/
theorem ends_of_scan (cs : List Char) : ∀ done ts,
    (scan ⟨.inName done, []⟩ cs = some ts → Ends done cs ts) ∧
      (scan ⟨.atQuote done, []⟩ cs = some ts → Ends done ('"' :: cs) ts) := by
  induction cs with
  | nil =>
    refine fun done ts => ⟨nofun, fun h => ?_⟩
    obtain rfl : [.name done.reverse] = ts := Option.some.inj h
    exact ⟨[], [], [], rfl, nofun, by simp⟩
  | cons c cs ih =>
    refine fun done ts => ⟨fun h => ?_, fun h => ?_⟩
    all_goals
      rw [scan_cons] at h
      by_cases hc : c = '"'
    · subst hc
      exact (ih done ts).2 h
    · have hcons := ((ih (c :: done) ts).1 (by simpa [step, hc] using h)).cons
      rwa [if_neg hc] at hcons
    · subst hc
      exact ((ih ('"' :: done) ts).1 h).cons
    · -- the quote before `c` stands alone: the name is over
      have hstep : step ⟨.atQuote done, []⟩ c = (fresh [] c).map (·.onto [.name done.reverse]) :=
        (if_neg hc).trans (fresh_append c [] _)
      rw [hstep, Option.bind_map] at h
      obtain ⟨m, -, hm⟩ := Option.bind_eq_some_iff.1 h
      rw [Function.comp_apply, scan_onto] at hm
      obtain ⟨more, -, rfl⟩ := Option.map_eq_some_iff.1 hm
      exact ⟨[], c :: cs, more, rfl, by simpa using hc, by simp⟩

/-- Once the doubled text is ahead by a quote it stays ahead: each quote of the name that meets one of its quotes puts
another one in front. -/
theorem doubled_ne {rest' : List Char} (hrest : rest.head? ≠ some '"') (n : List Char) (j : Nat) :
    n ++ '"' :: rest ≠ List.replicate (j + 1) '"' ++ (doubled n ++ '"' :: rest') := by
  induction n generalizing j with
  | nil =>
    intro h
    rw [List.replicate_succ, List.nil_append, List.cons_append, List.cons.injEq] at h
    cases j <;> simp [h.2, doubled, List.replicate_succ] at hrest
  | cons c n ih =>
    intro h
    rw [List.replicate_succ, List.cons_append, List.cons_append, List.cons.injEq] at h
    obtain ⟨rfl, h⟩ := h
    refine ih (j + 1) (h.trans ?_)
    rw [doubled_cons, if_pos rfl, List.replicate_succ', List.replicate_succ']
    simp

/-- A name with a quote is not what is read when it stands between quotes as it is. -/
theorem quoted_ne {rest' : List Char} (hn : '"' ∈ n) (hrest : rest.head? ≠ some '"') :
    n ++ '"' :: rest ≠ doubled n ++ '"' :: rest' := by
  induction n with
  | nil => cases hn
  | cons c n ih =>
    intro h
    rw [doubled_cons] at h
    by_cases hc : c = '"'
    · subst hc
      exact doubled_ne hrest n 0 (by simpa using h)
    · have hmem : '"' ∈ n := (List.mem_cons.1 hn).resolve_left fun heq => hc heq.symm
      exact ih hmem (by simpa [hc] using h)

/-- **A name with a quote comes out as another name**, whatever follows, when it is put between quotes as it is. -/
theorem name_ne_of_pieces? (hn : '"' ∈ n) (hrest : rest.head? ≠ some '"')
    (h : pieces? ('"' :: (n ++ '"' :: rest)) = some ts) : ∃ n' more, ts = .name n' :: more ∧ n' ≠ n := by
  rw [pieces?, scan_cons] at h
  obtain ⟨n', rest', more, hcs, hrest', rfl⟩ := (ends_of_scan _ [] ts).1 h
  refine ⟨n', more, by simp, ?_⟩
  rintro rfl
  exact quoted_ne hn hrest hcs

/-! ## Declarations -/

theorem declaration?_word (h : w.map Char.toUpper ∉ constraintWords) (ts : List Piece) :
    declaration? (.word w :: ts) = some (.column w ts) :=
  if_neg h

/-- The first item starts with what has been read of it. -/
theorem items_head {depth : Nat} {item after : List Piece} {its : List (List Piece)}
    (h : items depth item ts = some (its, after)) : ∃ it its', its = (item.reverse ++ it) :: its' := by
  have hmore {t : Piece} {item : List Piece} (hts : ∃ it its', its = ((t :: item).reverse ++ it) :: its') :
      ∃ it its', its = (item.reverse ++ it) :: its' := by
    obtain ⟨it, its', rfl⟩ := hts
    exact ⟨t :: it, its', by simp⟩
  induction depth, item, ts using items.induct with
  | case1 => cases h
  | case2 depth item ts ih => exact hmore (ih h)
  | case3 item ts =>
    obtain ⟨rfl, -⟩ := Prod.mk.inj (Option.some.inj h)
    exact ⟨[], [], by simp⟩
  | case4 depth item ts hdepth ih =>
    rw [items, if_neg hdepth] at h
    exact hmore (ih h)
  | case5 item ts =>
    rw [items, if_pos rfl] at h
    obtain ⟨⟨its', after'⟩, -, heq⟩ := Option.map_eq_some_iff.1 h
    obtain ⟨rfl, -⟩ := Prod.mk.inj heq
    exact ⟨[], its', by simp⟩
  | case6 depth item ts hdepth ih =>
    rw [items, if_neg hdepth] at h
    exact hmore (ih h)
  | case7 depth item t ts hopening hclosing hcomma ih =>
    rw [items] at h
    · exact hmore (ih h)
    all_goals assumption

/-- Pieces in which commas stand only between parentheses, and every parenthesis is closed. -/
def balanced : Nat → List Piece → Bool
  | depth, [] => depth = 0
  | depth, .opening :: ts => balanced (depth + 1) ts
  | depth, .closing :: ts => 0 < depth && balanced (depth - 1) ts
  | depth, .comma :: ts => 0 < depth && balanced depth ts
  | depth, _ :: ts => balanced depth ts

/-- Balanced pieces are not cut. -/
theorem items_append {it : List Piece} {depth : Nat} (h : balanced depth it = true) (item ts : List Piece) :
    items depth item (it ++ ts) = items 0 (it.reverse ++ item) ts := by
  induction it generalizing depth item with
  | nil =>
    obtain rfl : depth = 0 := by simpa [balanced] using h
    rfl
  | cons t it ih =>
    rw [List.reverse_cons, List.append_assoc, List.singleton_append]
    cases t with
    | closing | comma =>
      obtain ⟨hpos, hrest⟩ : 0 < depth ∧ _ := by simpa [balanced] using h
      rw [List.cons_append, items, if_neg (Nat.ne_of_gt hpos), ih hrest]
    | _ => exact ih h _

theorem items_flatMap {α : Type} {pieces : α → List Piece} {l : List α}
    (h : ∀ a ∈ l, balanced 0 (pieces a) = true) (ts : List Piece) :
    items 0 [] (l.flatMap (fun a => pieces a ++ [.comma]) ++ ts) =
      (items 0 [] ts).map fun (its, after) => (l.map pieces ++ its, after) := by
  induction l with
  | nil => simp
  | cons a l ih =>
    obtain ⟨ha, hl⟩ := List.forall_mem_cons.1 h
    rw [List.flatMap_cons, List.append_assoc, List.append_assoc, items_append ha, List.singleton_append, items,
      if_pos rfl, ih hl, Option.map_map]
    simp [Function.comp_def]

/-- The pieces before the declarations of a table. -/
def head (table : List Char) : List Piece := [.word "CREATE".toList, .word "TABLE".toList, .word table, .opening]

theorem table?_head (table : List Char) (ts : List Piece) : table? (head table ++ ts) =
    (items 0 [] ts).bind fun (its, after) => (its.mapM declaration?).map fun ds => ⟨table, ds, after⟩ := by
  simp only [head, List.cons_append, List.nil_append, table?, and_self, if_true]

theorem mapM_declaration? {α : Type} {pieces : α → List Piece} {declared : α → Declaration} {l : List α}
    (h : ∀ a ∈ l, declaration? (pieces a) = some (declared a)) (its : List (List Piece)) :
    (l.map pieces ++ its).mapM declaration? = (its.mapM declaration?).map (l.map declared ++ ·) := by
  induction l with
  | nil => simp
  | cons a l ih =>
    obtain ⟨ha, hl⟩ := List.forall_mem_cons.1 h
    rw [List.map_cons, List.cons_append, List.mapM_cons, ha, ih hl]
    cases its.mapM declaration? <;> rfl

/-- Declarations at the front are read as what they declare, before the others. -/
theorem table?_flatMap {α : Type} {pieces : α → List Piece} {declared : α → Declaration} {l : List α}
    (hbalanced : ∀ a ∈ l, balanced 0 (pieces a) = true)
    (h : ∀ a ∈ l, declaration? (pieces a) = some (declared a))
    (table : List Char) (ts : List Piece) :
    table? (head table ++ (l.flatMap (fun a => pieces a ++ [.comma]) ++ ts)) =
      (table? (head table ++ ts)).map fun t => { t with declarations := l.map declared ++ t.declarations } := by
  rw [table?_head, table?_head, items_flatMap hbalanced, Option.bind_map, Option.map_bind]
  refine congrArg _ (funext fun x => ?_)
  simp only [Function.comp_apply, mapM_declaration? h, Option.map_map]
  rfl

/-- A table whose first declaration starts with a name declares a column of this name first. -/
theorem table?_name {table name : List Char} {t : Table} (h : table? (head table ++ .name name :: ts) = some t) :
    ∃ type rest, t.columns = (name, type) :: rest := by
  rw [table?_head] at h
  obtain ⟨⟨its, after⟩, hits, hmap⟩ := Option.bind_eq_some_iff.1 h
  obtain ⟨ds, hds, rfl⟩ := Option.map_eq_some_iff.1 hmap
  obtain ⟨type, its', rfl⟩ := items_head (show items 0 [.name name] ts = some (its, after) from hits)
  have hfirst : (([.name name].reverse ++ type) :: its').mapM declaration? =
      (its'.mapM declaration?).map (.column name type :: ·) := by
    rw [List.mapM_cons]
    cases its'.mapM declaration? <;> rfl
  obtain ⟨rest, -, rfl⟩ := Option.map_eq_some_iff.1 (hfirst.symm.trans hds)
  exact ⟨type, _, rfl⟩

end SnapshotStaging.Ddl
