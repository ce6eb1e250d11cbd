import SnapshotStaging.Proofs.Number.Printing
import SnapshotStaging.Sql.Row

/-!
# How a database reads rows

`readRows` is the part of a database's reader that an insertion meets after the word `VALUES`: rows in
parentheses, fields separated by commas, a semicolon at the end. Commas, parentheses and semicolons
separate only outside text literals. In a literal a doubled quote stands for a quote; in Redshift a
backslash stands for the character after it. Wherever the reader is in doubt it gives up: a word has only
letters, digits, points and signs, a backslash escapes only itself and a quote, and nothing may follow the
semicolon.

Main result `readRows_rows`: the text of rows is read as the fields of their literals, whatever characters
the literals hold.
-/

namespace SnapshotStaging

namespace Dialect

/-- Whether texts of the database can hold a character. -/
def holds (d : Dialect) (c : Char) : Bool := d = .sqlite || c ≠ '\x00'

/-- What the database keeps of a text. -/
def kept (d : Dialect) (s : String) : List Char := s.toList.filter d.holds

/-- A text without NUL is kept whole. -/
theorem kept_of_notMem (d : Dialect) {s : String} (h : '\x00' ∉ s.toList) : d.kept s = s.toList := by
  refine List.filter_eq_self.2 fun c hc => ?_
  have hne : c ≠ '\x00' := fun heq => h (heq ▸ hc)
  simp [holds, hne]

end Dialect

namespace Sql

/-- A field of a row as the database reads it. -/
inductive Field
  | word (cs : List Char)
  | text (cs : List Char)
  deriving DecidableEq, Repr

/-- Where a reader stands: between rows, or in a row before, inside or after a field. What has been read
of a field is kept latest first. -/
inductive Place
  | rowDue
  | rowRead
  | fieldDue
  | inWord (cs : List Char)
  | inText (cs : List Char)
  /-- After a quote, which ends the text or is the first of two. -/
  | atQuote (cs : List Char)
  /-- After a backslash. -/
  | escaped (cs : List Char)
  | done
  deriving DecidableEq, Repr

/-- A reader, with the fields of its row and the rows before, both latest first. -/
structure Reader where
  place : Place
  fields : List Field
  rows : List (List Field)
  deriving DecidableEq, Repr

namespace Reader

def start : Reader := ⟨.rowDue, [], []⟩

/-- A field has been read up to the character `c`, which has to separate it from what follows. -/
def ended (r : Reader) (f : Field) (c : Char) : Option Reader :=
  if c = ',' then some ⟨.fieldDue, f :: r.fields, r.rows⟩
  else if c = ')' then some ⟨.rowRead, [], (f :: r.fields).reverse :: r.rows⟩
  else none

end Reader

/-- The characters of words. -/
def isWordChar (c : Char) : Bool := c.isAlphanum || c = '.' || c = '-' || c = '+'

/-- One character; nothing when it makes no sense. -/
def step (d : Dialect) (r : Reader) (c : Char) : Option Reader :=
  match r.place with
  | .rowDue => if c = '(' then some { r with place := .fieldDue } else none
  | .rowRead =>
    if c = ',' then some { r with place := .rowDue }
    else if c = ';' then some { r with place := .done }
    else none
  | .fieldDue =>
    if c = '\'' then some { r with place := .inText [] }
    else if isWordChar c then some { r with place := .inWord [c] }
    else none
  | .inWord cs =>
    if isWordChar c then some { r with place := .inWord (c :: cs) } else r.ended (.word cs.reverse) c
  | .inText cs =>
    if c = '\'' then some { r with place := .atQuote cs }
    else if d = .redshift ∧ c = '\\' then some { r with place := .escaped cs }
    else if d.holds c then some { r with place := .inText (c :: cs) }
    else none
  | .atQuote cs =>
    if c = '\'' then some { r with place := .inText (c :: cs) } else r.ended (.text cs.reverse) c
  | .escaped cs =>
    if c = '\\' ∨ c = '\'' then some { r with place := .inText (c :: cs) } else none
  | .done => none

def run (d : Dialect) (r : Reader) (cs : List Char) : Option Reader := cs.foldlM (step d) r

/-- The rows that a text lists, when it lists rows and nothing else. -/
def readRows (d : Dialect) (cs : List Char) : Option (List (List Field)) :=
  match run d .start cs with
  | some ⟨.done, _, rows⟩ => some rows.reverse
  | _ => none

theorem run_append {d : Dialect} {r r' : Reader} {cs : List Char} (h : run d r cs = some r')
    (rest : List Char) : run d r (cs ++ rest) = run d r' rest := by
  rw [run, List.foldlM_append, show cs.foldlM (step d) r = some r' from h]
  rfl

theorem run_cons {d : Dialect} {r m : Reader} {c : Char} (h : step d r c = some m) (rest : List Char) :
    run d r (c :: rest) = run d m rest := by
  rw [run, List.foldlM_cons, h]
  rfl

/-! ## Words -/

/-- A word that is read whole. -/
def IsWord (cs : List Char) : Prop := cs ≠ [] ∧ ∀ c ∈ cs, isWordChar c = true

instance (cs : List Char) : Decidable (IsWord cs) :=
  decidable_of_iff (cs.isEmpty = false ∧ cs.all isWordChar = true) (by simp [IsWord])

theorem isWordChar_of_isDigit {c : Char} (h : c.isDigit = true) : isWordChar c = true := by
  simp [isWordChar, Char.isAlphanum, h]

theorem areWordChars {ds : List Char} (h : Lexer.AreDigits ds) : ∀ c ∈ ds, isWordChar c = true :=
  fun c hc => isWordChar_of_isDigit (h c hc)

theorem isWord_digits (n : Nat) : IsWord (digits n) :=
  ⟨List.ne_nil_of_length_pos Nat.length_toDigits_pos, areWordChars (Lexer.areDigits_digits n)⟩

theorem IsWord.minus {cs : List Char} (h : IsWord cs) : IsWord ('-' :: cs) := by
  refine ⟨List.cons_ne_nil _ _, ?_⟩
  simpa using ⟨by decide, h.2⟩

theorem isWord_signedDigits (n : Int) : IsWord (signedDigits n) := by
  cases n with
  | ofNat n => exact isWord_digits n
  | negSucc n => exact (isWord_digits (n + 1)).minus

theorem isWord_pointed {ds : List Char} (h : Lexer.AreDigits ds) (hne : ds ≠ []) (place : Int) :
    IsWord (Decimal.pointed ds place) := by
  have hds := areWordChars h
  have hzeros (n : Nat) := areWordChars (Lexer.areDigits_zeros n)
  unfold Decimal.pointed
  split
  · refine ⟨List.cons_ne_nil _ _, ?_⟩
    simp only [List.forall_mem_cons, List.forall_mem_append]
    exact ⟨by decide, by decide, hzeros _, hds⟩
  · split
    · refine ⟨by simp [hne], ?_⟩
      simp only [List.forall_mem_append]
      exact ⟨hds, hzeros _⟩
    · refine ⟨by simp, ?_⟩
      simp only [List.forall_mem_append, List.forall_mem_cons]
      exact ⟨areWordChars (h.take _), by decide, areWordChars (h.drop _)⟩

theorem isWord_layout (c : Nat) (point : Int) : IsWord (Double.layout (digits c) point) := by
  have hdigits := Lexer.areDigits_digits c
  have hne := (isWord_digits c).1
  have hpointed := isWord_pointed hdigits hne
  have hpower : ∀ x ∈ Double.powerText (point - 1), isWordChar x = true := by
    unfold Double.powerText
    simp only [List.forall_mem_cons]
    exact ⟨by split <;> decide, areWordChars (Double.areDigits_powerDigits _)⟩
  unfold Double.layout
  split
  · split
    · refine ⟨by simp, ?_⟩
      simp only [List.forall_mem_append]
      exact ⟨(hpointed point).2, List.all_eq_true.1 (by decide)⟩
    · exact hpointed point
  · refine ⟨by simp, ?_⟩
    simp only [List.forall_mem_append, List.forall_mem_cons]
    refine ⟨?_, by decide, hpower⟩
    split
    · exact areWordChars hdigits
    · exact (hpointed 1).2

theorem isWord_placeText {place : Nat} (h : place < magnitudes) : IsWord (Double.placeText place) := by
  by_cases h0 : place = 0
  · rw [h0, Double.placeText_zero]
    decide
  · obtain ⟨c, e, -, -, heq⟩ := Double.placeText_eq (by omega) h
    rw [heq]
    exact isWord_layout c _

theorem isWord_double (x : Double) : IsWord (x.text Double.plainWords) := by
  cases x with
  | nan => decide
  | infinite negative => cases negative <;> decide
  | finite negative place =>
    have hplace := isWord_placeText place.isLt
    rw [Double.text_finite]
    cases negative with
    | false => simpa using hplace
    | true => simpa using hplace.minus

variable {d : Dialect} {fields : List Field} {rows : List (List Field)}

theorem run_inWord {cs done : List Char} (h : ∀ c ∈ cs, isWordChar c = true) :
    run d ⟨.inWord done, fields, rows⟩ cs = some ⟨.inWord (cs.reverse ++ done), fields, rows⟩ := by
  induction cs generalizing done with
  | nil => rfl
  | cons c cs ih =>
    have hc := h c (by simp)
    rw [run_cons (m := ⟨.inWord (c :: done), fields, rows⟩) (by simp [step, hc]), ih fun x hx => h x (by simp [hx])]
    simp

theorem run_word {cs : List Char} (h : IsWord cs) :
    run d ⟨.fieldDue, fields, rows⟩ cs = some ⟨.inWord cs.reverse, fields, rows⟩ := by
  cases cs with
  | nil => exact absurd rfl h.1
  | cons c cs =>
    have hc := h.2 c (by simp)
    have hquote : c ≠ '\'' := by
      rintro rfl
      exact absurd hc (by decide)
    rw [run_cons (m := ⟨.inWord [c], fields, rows⟩) (by simp [step, hc, hquote]),
      run_inWord fun x hx => h.2 x (by simp [hx])]
    simp

/-! ## Texts -/

/-- The form in which a character stands in a literal is read as that character, or as nothing where the
database cannot hold it. -/
theorem run_quoteChar (d : Dialect) (c : Char) (done : List Char) :
    run d ⟨.inText done, fields, rows⟩ (d.quoteChar c) =
      some ⟨.inText (if d.holds c then c :: done else done), fields, rows⟩ := by
  unfold Dialect.quoteChar
  split
  · rfl
  · rfl
  · rfl
  · have hholds : d.holds '\'' = true := by cases d <;> rfl
    rw [if_pos hholds]
    rfl
  · next hquote hpostgres hredshift hbackslash =>
    have hholds : d.holds c = true := by
      cases d with
      | sqlite => rfl
      | postgresql => simpa [Dialect.holds] using hpostgres rfl
      | redshift => simpa [Dialect.holds] using hredshift rfl
    have hc : c ≠ '\'' := hquote
    have hescape : ¬ (d = .redshift ∧ c = '\\') := fun h => hbackslash h.1 h.2
    simp [run, step, hc, hescape, hholds]

theorem run_flatMap_quoteChar (d : Dialect) (cs done : List Char) :
    run d ⟨.inText done, fields, rows⟩ (cs.flatMap d.quoteChar) =
      some ⟨.inText ((cs.filter d.holds).reverse ++ done), fields, rows⟩ := by
  induction cs generalizing done with
  | nil => rfl
  | cons c cs ih =>
    rw [List.flatMap_cons, run_append (run_quoteChar d c done), ih]
    by_cases hc : d.holds c = true <;> simp [hc]

theorem run_quoted (d : Dialect) (s : String) :
    run d ⟨.fieldDue, fields, rows⟩ (d.quoted s).toList = some ⟨.atQuote (d.kept s).reverse, fields, rows⟩ := by
  rw [Dialect.quoted, String.toList_ofList,
    run_cons (m := ⟨.inText [], fields, rows⟩) rfl, run_append (run_flatMap_quoteChar d _ _)]
  simp [run, step, Dialect.kept]

/-! ## Rows -/

/-- The field that a literal is read as: a word, or a text without what the database cannot hold. -/
def fieldOf (d : Dialect) : Literal → Field
  | .null => .word "NULL".toList
  | .integer n => .word (signedDigits n)
  | .number x => .word (x.text Double.plainWords)
  | .boolean true => .word "TRUE".toList
  | .boolean false => .word "FALSE".toList
  | .text s => .text (d.kept s)

/-- The fields of a row. -/
def fieldsOf (d : Dialect) (r : Row) : List Field := r.literals.map (fieldOf d)

/-- A literal is read up to the character that separates its field. -/
theorem run_literal (d : Dialect) (l : Literal) {c : Char} (h : isWordChar c = false) (hc : c ≠ '\'') :
    run d ⟨.fieldDue, fields, rows⟩ ((l.sql d).toList ++ [c]) =
      Reader.ended ⟨.fieldDue, fields, rows⟩ (fieldOf d l) c := by
  have hword {cs : List Char} (hcs : IsWord cs) : run d ⟨.fieldDue, fields, rows⟩ (cs ++ [c]) =
      Reader.ended ⟨.fieldDue, fields, rows⟩ (.word cs) c := by
    rw [run_append (run_word hcs)]
    simp [run, step, h, Reader.ended]
  cases l with
  | null => exact hword (show IsWord "NULL".toList by decide)
  | integer n =>
    rw [fieldOf, Literal.sql, String.toList_ofList]
    exact hword (isWord_signedDigits n)
  | number x =>
    rw [fieldOf, Literal.sql, String.toList_ofList]
    exact hword (isWord_double x)
  | boolean b =>
    cases b with
    | true => exact hword (show IsWord "TRUE".toList by decide)
    | false => exact hword (show IsWord "FALSE".toList by decide)
  | text s =>
    rw [Literal.sql, run_append (run_quoted d s)]
    simp [run, step, hc, Reader.ended, fieldOf]

/-- The literals of a row and the parenthesis after them. -/
theorem run_literals (d : Dialect) (l : Literal) (ls : List Literal) :
    run d ⟨.fieldDue, fields, rows⟩ ([','].intercalate ((l :: ls).map fun l => (l.sql d).toList) ++ [')']) =
      some ⟨.rowRead, [], (fields.reverse ++ (l :: ls).map (fieldOf d)) :: rows⟩ := by
  induction ls generalizing l fields with
  | nil =>
    rw [List.map_cons, List.map_nil, List.intercalate_singleton, run_literal d l (by decide) (by decide)]
    simp [Reader.ended]
  | cons m ls ih =>
    have hfirst : run d ⟨.fieldDue, fields, rows⟩ ((l.sql d).toList ++ [',']) =
        some ⟨.fieldDue, fieldOf d l :: fields, rows⟩ := run_literal d l (by decide) (by decide)
    rw [List.map_cons, List.map_cons, List.intercalate_cons_cons, List.append_assoc, run_append hfirst]
    rw [← List.map_cons (f := fun l : Literal => (l.sql d).toList), ih]
    simp

/-- One row. -/
theorem run_row (d : Dialect) (r : Row) :
    run d ⟨.rowDue, [], rows⟩ (r.sql d).toList = some ⟨.rowRead, [], fieldsOf d r :: rows⟩ := by
  obtain ⟨l, ls, hls⟩ : ∃ l ls, r.literals = l :: ls := ⟨_, _, rfl⟩
  have hparts : (r.sql d).toList =
      '(' :: ([','].intercalate ((l :: ls).map fun l => (l.sql d).toList) ++ [')']) := by
    simp only [Row.sql, String.toList_append, String.toList_intercalate, List.map_map, hls]
    rfl
  rw [hparts, run_cons (m := ⟨.fieldDue, [], rows⟩) rfl, run_literals, fieldsOf, hls]
  rfl

/-- **Rows are read as they were written**: the text of one or more rows and the semicolon after it. -/
theorem readRows_rows (d : Dialect) (r : Row) (rs : List Row) :
    readRows d ((",".intercalate ((r :: rs).map (Row.sql d))) ++ ";").toList =
      some ((r :: rs).map (fieldsOf d)) := by
  have hrun (done : List (List Field)) : run d ⟨.rowDue, [], done⟩
      ([','].intercalate ((r :: rs).map fun r => (r.sql d).toList) ++ [';']) =
        some ⟨.done, [], ((r :: rs).map (fieldsOf d)).reverse ++ done⟩ := by
    induction rs generalizing r done with
    | nil =>
      rw [List.map_cons, List.map_nil, List.intercalate_singleton, run_append (run_row d r)]
      rfl
    | cons r' rs ih =>
      have hnext : run d ⟨.rowDue, [], done⟩ ((r.sql d).toList ++ [',']) =
          some ⟨.rowDue, [], fieldsOf d r :: done⟩ := by
        rw [run_append (run_row d r)]
        rfl
      rw [List.map_cons, List.map_cons, List.intercalate_cons_cons, List.append_assoc, run_append hnext,
        ← List.map_cons (f := fun r : Row => (r.sql d).toList), ih]
      simp
  have htext : ((",".intercalate ((r :: rs).map (Row.sql d))) ++ ";").toList =
      [','].intercalate ((r :: rs).map fun r => (r.sql d).toList) ++ [';'] := by
    simp only [String.toList_append, String.toList_intercalate, List.map_map]
    rfl
  rw [readRows, htext, Reader.start, hrun]
  simp

/-- A text that would end its literal, its row and its statement is read as that text. -/
example : readRows .redshift ("(1,'a',NULL,'it''s \\\\'');',7,-2),(2,'',TRUE,'(',7,0);").toList =
    some [[.word ['1'], .text ['a'], .word "NULL".toList, .text "it's \\');".toList, .word ['7'],
        .word "-2".toList],
      [.word ['2'], .text [], .word "TRUE".toList, .text ['('], .word ['7'], .word ['0']]] := by
  decide

end Sql

end SnapshotStaging
