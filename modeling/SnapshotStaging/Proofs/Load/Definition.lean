import Mathlib.Tactic.TFAE
import SnapshotStaging.Proofs.Field.Quotes
import SnapshotStaging.Proofs.Load.Layout
import SnapshotStaging.Proofs.Sql.Definitions

/-!
# What the definition of a loading table declares

The definition declares the places of a row in order, and two constraints (`readTable_createLoadingText`), as long
as no name of a column holds a quote: the names of columns stand between quotes as they are. The first name with a
quote comes out as another one, whatever stands after it, so the columns are not the ones that were found.

Main result `createLoading_declares_tfae`.
-/

namespace SnapshotStaging

namespace Slot

open Ddl

/-- The name of a place's column. -/
def columnName : Slot → String
  | .key => "sk"
  | .identifier => "id"
  | .companion c => Column.keyName c.name
  | .value c => c.name
  | .payload => "data"
  | .tenant => "tenant_id"

/-- The type that the column of a place is declared with. -/
def typeText (d : Dialect) : Slot → String
  | .key => "BIGINT NOT NULL"
  | .identifier => s!"VARCHAR({maxTextLength}) NOT NULL"
  | .companion _ => "BIGINT"
  | .value c => c.type.sql
  | .payload => d.jsonType
  | .tenant => "SMALLINT NOT NULL"

/-- The column of a place, with the pieces of its type. -/
def declared (d : Dialect) (slot : Slot) : List Char × List Piece :=
  (slot.columnName.toList, piecesOf (slot.typeText d))

/-- The declaration of a place. -/
def declaration (d : Dialect) (slot : Slot) : Declaration :=
  .column (slot.declared d).1 (slot.declared d).2

/-- The name as it is declared: those of inferred columns stand between quotes. -/
def nameText (slot : Slot) : List Char :=
  match slot with
  | .companion _ | .value _ => '"' :: (slot.columnName.toList ++ ['"', ' '])
  | _ => slot.columnName.toList ++ [' ']

def namePiece (slot : Slot) : Piece :=
  match slot with
  | .companion _ | .value _ => .name slot.columnName.toList
  | _ => .word slot.columnName.toList

def pieces (d : Dialect) (slot : Slot) : List Piece := slot.namePiece :: piecesOf (slot.typeText d)

variable {d : Dialect} {slot : Slot} {slots : List Slot} {columns : List Column} {table : String}

theorem line_eq (d : Dialect) (slot : Slot) :
    (slot.line d).toList = "    ".toList ++ slot.nameText ++ (slot.typeText d).toList ++ [','] := by
  -- the cases are written out, since unfolding `line` compares texts byte by byte
  cases slot with
  | key =>
    show "    sk BIGINT NOT NULL,".toList = _
    simp [nameText, columnName, typeText]
  | identifier =>
    show ("    id VARCHAR(" ++ toString maxTextLength ++ ") NOT NULL,").toList = _
    simp [nameText, columnName, typeText, toString]
  | companion c =>
    show ("    \"" ++ Column.keyName c.name ++ "\" BIGINT,").toList = _
    simp [nameText, columnName, typeText]
  | value c =>
    show ("    \"" ++ c.name ++ "\" " ++ c.type.sql ++ ",").toList = _
    simp [nameText, columnName, typeText]
  | payload =>
    show ("    data " ++ d.jsonType ++ ",").toList = _
    simp [nameText, columnName, typeText]
  | tenant =>
    show "    tenant_id SMALLINT NOT NULL,".toList = _
    simp [nameText, columnName, typeText]

/-! ## A place -/

/-- A type that is read whole, up to the comma after it. -/
def IsType (type : String) : Prop :=
  Reads (type.toList ++ [',', '\n']) (piecesOf type ++ [.comma]) ∧ balanced 0 (piecesOf type) = true

instance (type : String) : Decidable (IsType type) := inferInstanceAs (Decidable (_ ∧ _))

theorem isType_typeText (d : Dialect) (slot : Slot) : IsType (slot.typeText d) := by
  cases slot with
  | key => exact (by decide : IsType "BIGINT NOT NULL")
  | identifier => exact (by decide : IsType "VARCHAR(65535) NOT NULL")
  | companion c => exact (by decide : IsType "BIGINT")
  | value c =>
    have hsql : ∀ type : ColumnType, IsType type.sql := by
      intro type
      cases type <;> decide
    exact hsql c.type
  | payload => cases d <;> decide
  | tenant => exact (by decide : IsType "SMALLINT NOT NULL")

theorem reads_nameText (h : '"' ∉ slot.columnName.toList) : Reads slot.nameText [slot.namePiece] := by
  cases slot with
  | companion c => exact reads_name h
  | value c => exact reads_name h
  | _ => decide

/-- The line of a place is read as its name and its type. -/
theorem reads_line (d : Dialect) (h : '"' ∉ slot.columnName.toList) :
    Reads ((slot.line d).toList ++ ['\n']) (slot.pieces d ++ [.comma]) := by
  have hindent : Reads "    ".toList [] := by decide
  have hline := (hindent.append (reads_nameText h)).append (isType_typeText d slot).1
  rw [line_eq]
  simpa [pieces] using hline

theorem balanced_pieces (d : Dialect) (slot : Slot) : balanced 0 (slot.pieces d) = true := by
  cases slot <;> exact (isType_typeText d _).2

theorem declaration?_pieces (d : Dialect) (slot : Slot) :
    declaration? (slot.pieces d) = some (slot.declaration d) := by
  cases slot with
  | companion c => rfl
  | value c => rfl
  | _ => exact declaration?_word (by decide) _

/-! ## All places -/

/-- What a loading table is to declare: its places as columns, and two constraints. -/
def tableOf (d : Dialect) (table : String) (slots : List Slot) : Table where
  name := (TableName.loading table).toList
  declarations := slots.map (declaration d) ++
    [.constraint (piecesOf "PRIMARY KEY (sk)"), .constraint (piecesOf "UNIQUE (id)")]
  after := piecesOf (d.tableKeys "sk" "sk" ++ ";")

theorem map_declaration (d : Dialect) (slots : List Slot) :
    slots.map (declaration d) = (slots.map (declared d)).map fun p => .column p.1 p.2 := by
  rw [List.map_map]
  rfl

theorem columns_tableOf (d : Dialect) (table : String) (slots : List Slot) :
    (tableOf d table slots).columns = slots.map (declared d) := by
  rw [tableOf, map_declaration]
  exact (Table.columns_append _ ⟨_, [.constraint _, .constraint _], _⟩).trans (List.append_nil _)

/-- The text before the lines of the places. -/
def opening (table : String) : List Char :=
  "CREATE TABLE ".toList ++ ((TableName.loading table).toList ++ " (\n".toList)

/-- The text after them. -/
def closing (d : Dialect) : List Char :=
  "    PRIMARY KEY (sk),".toList ++ ("\n".toList ++ ("    UNIQUE (id)".toList ++ ("\n)".toList ++
    ((d.tableKeys "sk" "sk").toList ++ ";".toList))))

theorem toList_intercalate_lines (lines : List String) (a b : String) :
    ("\n".intercalate (lines ++ [a, b])).toList =
      (lines.flatMap fun line => line.toList ++ ['\n']) ++ (a ++ "\n" ++ b).toList := by
  induction lines with
  | nil => simp
  | cons line lines ih =>
    obtain ⟨next, rest, hrest⟩ : ∃ next rest, lines ++ [a, b] = next :: rest :=
      List.exists_cons_of_ne_nil (by simp)
    rw [List.cons_append, hrest, String.intercalate_cons_cons, ← hrest, String.toList_append, ih]
    simp

theorem toList_createLoadingText (d : Dialect) (table : String) (columns : List Column) :
    (Statement.createLoadingText d table columns).toList =
      opening table ++ (((all columns).flatMap fun slot => (slot.line d).toList ++ ['\n']) ++ closing d) := by
  rw [createLoadingText_eq]
  unfold opening closing
  simp only [String.toList_append, toList_intercalate_lines, List.flatMap_map, List.append_assoc]
  rfl

theorem reads_opening (h : ∀ c ∈ table.toList, Warehouse.isNameChar c = true) :
    Reads (opening table) (head (TableName.loading table).toList) := by
  have hcreate : Reads "CREATE TABLE ".toList [.word "CREATE".toList, .word "TABLE".toList] := by decide
  have hname : ∀ c ∈ (TableName.loading table).toList, Warehouse.isNameChar c = true := by
    rw [TableName.loading, String.toList_append, List.forall_mem_append]
    exact ⟨h, List.all_eq_true.1 (by decide)⟩
  have hne : (TableName.loading table).toList ≠ [] := by simp [TableName.loading]
  have hopen : Reads ['(', '\n'] [.opening] := by decide
  have hreads := hcreate.append ((reads_word hne hname).append hopen)
  rwa [List.append_assoc] at hreads

/-- The constraints, and what follows the declarations. -/
def closingPieces (d : Dialect) : List Piece :=
  piecesOf "PRIMARY KEY (sk)" ++ .comma :: (piecesOf "UNIQUE (id)" ++
    .closing :: piecesOf (d.tableKeys "sk" "sk" ++ ";"))

theorem reads_closing (d : Dialect) : Reads (closing d) (closingPieces d) := by
  cases d <;> decide

theorem table?_closing (d : Dialect) (name : List Char) : table? (head name ++ closingPieces d) =
    some ⟨name, [.constraint (piecesOf "PRIMARY KEY (sk)"), .constraint (piecesOf "UNIQUE (id)")],
      piecesOf (d.tableKeys "sk" "sk" ++ ";")⟩ := by
  cases d <;> rfl

/-- **Without quotes in their names the places are declared in order**, and nothing else but the two constraints. -/
theorem readTable_createLoadingText (htable : ∀ c ∈ table.toList, Warehouse.isNameChar c = true)
    (h : ∀ slot ∈ all columns, '"' ∉ slot.columnName.toList) :
    readTable (Statement.createLoadingText d table columns).toList = some (tableOf d table (all columns)) := by
  have hlines : Reads ((all columns).flatMap fun slot => (slot.line d).toList ++ ['\n'])
      ((all columns).flatMap fun slot => slot.pieces d ++ [.comma]) :=
    .flatMap fun slot hslot => reads_line d (h slot hslot)
  have hpieces := ((reads_opening htable).append (hlines.append (reads_closing d))).pieces?_eq
  rw [readTable, toList_createLoadingText, hpieces, Option.bind_some,
    table?_flatMap (fun slot _ => balanced_pieces d slot) (fun slot _ => declaration?_pieces d slot), table?_closing]
  rfl

theorem nameText_of_quote (h : '"' ∈ slot.columnName.toList) :
    slot.nameText = '"' :: (slot.columnName.toList ++ ['"', ' ']) := by
  cases slot with
  | companion c => rfl
  | value c => rfl
  | _ => exact absurd h (by decide)

/-- The definition up to the quote before the name of a place. -/
theorem exists_toList_createLoadingText (d : Dialect) (table : String) {good rest : List Slot}
    (hsplit : all columns = good ++ slot :: rest) (hquote : '"' ∈ slot.columnName.toList) :
    ∃ tail, (Statement.createLoadingText d table columns).toList =
      (opening table ++ ((good.flatMap fun slot => (slot.line d).toList ++ ['\n']) ++ "    ".toList)) ++
        '"' :: (slot.columnName.toList ++ '"' :: ' ' :: tail) := by
  rw [toList_createLoadingText, hsplit, List.flatMap_append, List.flatMap_cons, line_eq, nameText_of_quote hquote]
  refine ⟨(slot.typeText d).toList ++ ',' :: '\n' ::
    ((rest.flatMap fun slot => (slot.line d).toList ++ ['\n']) ++ closing d), ?_⟩
  simp only [List.append_assoc, List.cons_append, List.nil_append]

/-- When the columns are the places, no name holds a quote: the first one that does comes out as another name. -/
theorem notMem_of_columns (htable : ∀ c ∈ table.toList, Warehouse.isNameChar c = true)
    (h : (readTable (Statement.createLoadingText d table columns).toList).map Table.columns =
      some ((all columns).map (declared d))) :
    ∀ slot ∈ all columns, '"' ∉ slot.columnName.toList := by
  by_contra hbad
  obtain ⟨bad, hfind⟩ : ∃ bad, (all columns).find? (fun slot => '"' ∈ slot.columnName.toList) = some bad := by
    rw [← Option.isSome_iff_exists, List.find?_isSome]
    simpa using hbad
  obtain ⟨hquote, good, rest, hsplit, hgood⟩ := List.find?_eq_some_iff_append.1 hfind
  simp only [decide_eq_true_eq, Bool.not_eq_true', decide_eq_false_iff_not] at hquote hgood
  obtain ⟨tail, htext⟩ := exists_toList_createLoadingText d table hsplit hquote
  have hlines : Reads (good.flatMap fun slot => (slot.line d).toList ++ ['\n'])
      (good.flatMap fun slot => slot.pieces d ++ [.comma]) :=
    .flatMap fun slot hslot => reads_line d (hgood slot hslot)
  have hindent : Reads "    ".toList [] := by decide
  have hbefore := (reads_opening htable).append (hlines.append hindent)
  rw [readTable, htext, hbefore.pieces?_append, List.append_nil] at h
  obtain ⟨t, ht, hcolumns⟩ := Option.map_eq_some_iff.1 h
  obtain ⟨all', hall', htable'⟩ := Option.bind_eq_some_iff.1 ht
  obtain ⟨ts, hts, rfl⟩ := Option.map_eq_some_iff.1 hall'
  -- all places before this one are read as they are declared, so its column is the next one
  obtain ⟨n, more, rfl, hne⟩ := name_ne_of_pieces? hquote (by simp) hts
  rw [List.append_assoc, table?_flatMap (fun slot _ => balanced_pieces d slot)
    (fun slot _ => declaration?_pieces d slot)] at htable'
  obtain ⟨t', ht', rfl⟩ := Option.map_eq_some_iff.1 htable'
  obtain ⟨type, others, hfirst⟩ := table?_name ht'
  rw [map_declaration, Table.columns_append, hfirst, hsplit, List.map_append, List.append_cancel_left_eq, List.map_cons,
    List.cons.injEq, Prod.mk.injEq] at hcolumns
  exact hne hcolumns.1.1

theorem quote_notMem_all (columns : List Column) : (∀ slot ∈ all columns, '"' ∉ slot.columnName.toList) ↔
    ∀ c ∈ columns, '"' ∉ c.name.toList := by
  have hcolumn (c : Column) : (∀ slot ∈ ofColumn c, '"' ∉ slot.columnName.toList) ↔ '"' ∉ c.name.toList := by
    unfold ofColumn
    split <;> simp [columnName, Column.quote_mem_keyName]
  simp only [all, List.forall_mem_append, List.forall_mem_flatMap, hcolumn]
  constructor
  · exact fun h => h.1.2
  · exact fun h => ⟨⟨by decide, h⟩, by decide⟩

end Slot

namespace Statement

open Ddl

/-- **What the definition of a loading table declares**, whatever the records, however types are selected. The
following say the same:

* The definition declares the places of a row as columns, in order and with their types, two constraints, and nothing
  else.
* Its columns are the places of a row.
* No member of a record that counts has a quote in its name. -/
theorem createLoading_declares_tfae (select : Counts → String → ColumnType) (records : List Json) (d : Dialect)
    (table : String) (htable : ∀ c ∈ table.toList, Warehouse.isNameChar c = true) :
    let columns := Column.infer select (.ofRecords records)
    let found := readTable (Statement.sql d (.createLoading table columns)).toList
    [found = some (Slot.tableOf d table (Slot.all columns)),
      found.map Table.columns = some ((Slot.all columns).map (Slot.declared d)),
      ∀ record ∈ records, ∀ m ∈ Statistics.membersOf record, m.2.isContainer = false →
        '"' ∉ m.1.toList].TFAE := by
  intro columns found
  have hnames : (∀ slot ∈ Slot.all columns, '"' ∉ slot.columnName.toList) ↔
      ∀ record ∈ records, ∀ m ∈ Statistics.membersOf record, m.2.isContainer = false → '"' ∉ m.1.toList :=
    (Slot.quote_notMem_all columns).trans (Column.quote_mem_infer select records)
  tfae_have 3 → 1 := fun h => Slot.readTable_createLoadingText htable (hnames.2 h)
  tfae_have 1 → 2 := by
    intro h
    rw [h, Option.map_some, Slot.columns_tableOf]
  tfae_have 2 → 3 := fun h => hnames.1 (Slot.notMem_of_columns htable h)
  tfae_finish

/-- A reference with the column of its keys. -/
theorem createLoading_declares_tfae_reference :
    (readTable (Statement.sql .redshift (.createLoading "t" (Column.infer ColumnType.select (.ofRecords
      [.obj [("id", .str "1"), ("ownerId", .str "6ba7b810-9dad-11d1-80b4-00c04fd430c8"), ("n", .int 1)]])))).toList).map
        Table.columns =
      some [("sk".toList, piecesOf "BIGINT NOT NULL"), ("id".toList, piecesOf "VARCHAR(65535) NOT NULL"),
        ("n".toList, piecesOf "BIGINT"), ("owner_id_sk".toList, piecesOf "BIGINT"),
        ("owner_id".toList, piecesOf "VARCHAR(36)"), ("data".toList, piecesOf "VARCHAR(65535)"),
        ("tenant_id".toList, piecesOf "SMALLINT NOT NULL")] := by
  have hcolumns : Column.infer ColumnType.select (.ofRecords
      [.obj [("id", .str "1"), ("ownerId", .str "6ba7b810-9dad-11d1-80b4-00c04fd430c8"), ("n", .int 1)]]) =
      [⟨"n", "n", .bigint⟩, ⟨"owner_id", "ownerId", .reference⟩] :=
    (Column.infer_eq_insertionSort _ (by decide +kernel)).trans (by decide +kernel)
  have hdeclares := ((createLoading_declares_tfae ColumnType.select
    [.obj [("id", .str "1"), ("ownerId", .str "6ba7b810-9dad-11d1-80b4-00c04fd430c8"), ("n", .int 1)]]
    .redshift "t" (List.all_eq_true.1 (by decide))).out 2 1).1 (by decide +kernel)
  refine hdeclares.trans ?_
  rw [hcolumns]
  decide +kernel

/-- A name with a quote leaves no definition that makes sense, and another one brings in a column. -/
theorem createLoading_declares_injected :
    readTable (Statement.sql .sqlite (.createLoading "t" (Column.infer ColumnType.select (.ofRecords
      [.obj [("id", .str "1"), ("a\"b", .int 1)]])))).toList = none ∧
    (readTable (Statement.sql .sqlite (.createLoading "t" (Column.infer ColumnType.select (.ofRecords
      [.obj [("id", .str "1"), ("x\" INT, \"y", .int 1)]])))).toList).map Table.columns =
      some [("sk".toList, piecesOf "BIGINT NOT NULL"), ("id".toList, piecesOf "VARCHAR(65535) NOT NULL"),
        ("x".toList, piecesOf "int"), ("y".toList, piecesOf "BIGINT"), ("data".toList, piecesOf "TEXT"),
        ("tenant_id".toList, piecesOf "SMALLINT NOT NULL")] := by
  have hquote : Column.infer ColumnType.select (.ofRecords [.obj [("id", .str "1"), ("a\"b", .int 1)]]) =
      [⟨"a\"b", "a\"b", .bigint⟩] :=
    (Column.infer_eq_insertionSort _ (by decide +kernel)).trans (by decide +kernel)
  have hcolumn : Column.infer ColumnType.select (.ofRecords [.obj [("id", .str "1"), ("x\" INT, \"y", .int 1)]]) =
      [⟨"x\" int, \"y", "x\" INT, \"y", .bigint⟩] :=
    (Column.infer_eq_insertionSort _ (by decide +kernel)).trans (by decide +kernel)
  rw [hquote, hcolumn]
  constructor
  · exact (congrArg readTable (Slot.toList_createLoadingText ..)).trans (by decide +kernel)
  · exact (congrArg (fun text => (readTable text).map Table.columns) (Slot.toList_createLoadingText ..)).trans
      (by decide +kernel)

end Statement

end SnapshotStaging
