import SnapshotStaging.Proofs.Json.WrittenNumber
import SnapshotStaging.Proofs.Page.Layouts
import SnapshotStaging.Proofs.Run.Isolation
import SnapshotStaging.Proofs.Stage.Completion
import SnapshotStaging.Run

/-!
# Running again

A run of a table that succeeds leaves its rows in the live table and in the history. A run over pages that hold
the same records stages the same rows again, so the history has nothing to add and the live table is the same,
whatever became of the pages, the database and the store of keys in the meantime, as long as the history of the
table is there and the keys are given again.

Main results: `completed_of_stage`, a table that is staged is completed, and `run_again`.
-/

namespace SnapshotStaging

open Staging Warehouse Session Document

/-- The pages of a table are counted, and they spell documents. -/
def PageStore.Holds [Platform] (store : PageStore) (table : String) (docs : List Document) : Prop :=
  ∃ count, store.pageCount table = .ok count ∧ List.Forall₂ Page.Spells (pages store table (count.getD 0)) docs

namespace Run

variable {settings : Settings} {store again : PageStore} {d : Definition} {r : TableResult} {n : Int}
  {s s' mid v : Session Warehouse}

theorem of_reported {α : Type} {task : Task Warehouse α} {x : Except Report α} (h : reported task s = .ok x s') :
    (∃ a, x = .ok a ∧ task s = .ok a s') ∨ ∃ report, x = .error report := by
  unfold reported at h
  split at h
  · next heq =>
    cases h
    exact .inl ⟨_, rfl, heq⟩
  · split at h
    · cases h
      exact .inr ⟨_, rfl⟩
    · cases h

/-- A table that is completed was staged and merged. -/
theorem of_completed [Platform] (h : Run.table settings store d s = .ok r s') (hr : r.status = .completed) :
    d.skip = false ∧ ∃ result mid, stage settings store d s = .ok result mid ∧
      History.mergeAndPromote d.label mid = .ok r.appended s' := by
  unfold Run.table at h
  cases hskip : d.skip with
  | true =>
    rw [if_pos hskip] at h
    cases h
    cases hr
  | false =>
    rw [if_neg (by simp [hskip])] at h
    obtain ⟨staged, mid, hreported, h⟩ := of_bind_ok h
    rcases of_reported hreported with ⟨result, rfl, hstage⟩ | ⟨report, rfl⟩
    · obtain ⟨merged, last, hreported, h⟩ := of_bind_ok h
      rcases of_reported hreported with ⟨added, rfl, hmerge⟩ | ⟨report, rfl⟩
      · cases h
        exact ⟨rfl, result, mid, hstage, hmerge⟩
      · cases h
        cases hr
    · cases h
      cases hr

/-- A table that is staged and merged is completed. -/
theorem table_completed [Platform] {result : StageResult} (hskip : d.skip = false)
    (hstage : stage settings store d s = .ok result mid) (hmerge : History.mergeAndPromote d.label mid = .ok n s') :
    Run.table settings store d s = .ok ⟨d.name, .completed, some result, n, none, true⟩ s' := by
  unfold Run.table
  rw [if_neg (by simp [hskip])]
  exact (bind_ok (reported_ok hstage)).trans (bind_ok (reported_ok hmerge))

/-- A table that is staged is completed when its names are free and the warehouse takes the statements of a merge. -/
theorem completed_of_stage [Platform] {result : StageResult} {versions : List Version} (hskip : d.skip = false)
    (hstage : stage settings store d s = .ok result mid) (hhistory : isFreeName (TableName.history d.label) = true)
    (hlive : isFreeName d.label = true) (hdialect : s.database.dialect = .sqlite)
    (hversions : HasHistory d.label versions s.database) :
    ∃ n s', Run.table settings store d s = .ok ⟨d.name, .completed, some result, n, none, true⟩ s' ∧
      s'.database.dialect = .sqlite := by
  obtain ⟨count, -, hrestages⟩ := stage_restages hstage
  obtain ⟨columns, rows, hloading, -⟩ := hrestages.sound
  have hversions' : HasHistory d.label versions mid.database := by
    rwa [HasHistory, hrestages.tables.found _ fold_loading_ne_history.symm]
  obtain ⟨s', hmerge, -, -, hsqlite⟩ := mergeAndPromote_ok
    ⟨hhistory, hlive, hrestages.tables.dialect.trans hdialect, hversions', hloading⟩
  exact ⟨_, s', table_completed hskip hstage hmerge, hsqlite⟩

/-! ## A single page -/

/-- A table `t` with a single page. -/
theorem holds_single [Platform] {bytes : List UInt8} {t : Document} (h : Page.Spells bytes t) :
    (single "t" bytes).Holds "t" [t] := by
  obtain ⟨hcount, hpages⟩ := single_spec filed_t bytes
  refine ⟨some 1, hcount, ?_⟩
  rw [Option.getD_some, hpages]
  exact .cons h .nil

/-- A single page whose records have identifiers is staged, and the table completed, by a process that begins. -/
theorem completed_single [Platform] {bytes : List UInt8} {records : List Json} {columns : List Column}
    (hrecords : Page.records "t" bytes = (records, none))
    (hcolumns : Column.infer ColumnType.select (Statistics.ofRecords records) = columns)
    (hdefinable : definable columns = true) (hid : ∀ record ∈ records, Encoder.Identified record) :
    ∃ result n s', Run.table { dialect := .sqlite } (single "t" bytes) ⟨.str "t", .null, .null, false⟩
        ⟨{ empty with now := "1" }, .memory .empty, []⟩ =
      .ok ⟨.str "t", .completed, some result, n, none, true⟩ s' ∧ s'.database.dialect = .sqlite := by
  let d : Definition := ⟨.str "t", .null, .null, false⟩
  have hcount := (single_spec filed_t bytes).1
  obtain ⟨hgiven, hfailure⟩ := single_records filed_t bytes
  rw [hrecords] at hgiven hfailure
  have hcreatable : Creatable { dialect := .sqlite } d (columnsOf (single "t" bytes) "t" 1) .sqlite := by
    rw [columnsOf, hgiven, hcolumns]
    exact ⟨by decide +kernel, hdefinable, rfl, fun h => absurd h (by decide)⟩
  have hwritten : given { dialect := .sqlite } "t" (pages (single "t" bytes) "t" 1) = records := by
    rw [given, hgiven, show Redaction.Policy.rulesFor? _ "t" = none from rfl]
    exact List.map_id _
  obtain ⟨result, mid, hstage⟩ := @stage_total { dialect := .sqlite } (single "t" bytes) d .empty []
    ⟨{ empty with now := "1" }, .memory .empty, []⟩ _ (some 1) "t" rfl hcount hfailure hcreatable
    (fun record hmem => hid record (hwritten ▸ hmem)) ⟨rfl, MemoryKeys.dense_empty⟩ rfl
  exact ⟨result, completed_of_stage rfl hstage (by decide +kernel) (by decide +kernel) rfl (.inr ⟨rfl, rfl⟩)⟩

/-! ## Pages that hold the same records -/

/-- **Running again changes nothing.** A table was completed at a time after every version of its history. It is
completed again from pages that hold the same record documents in the same order, but for the order of members,
whichever form these pages have and however the documents are spread over them, wherever the keys are given again
and the history is the one that was left. Nothing is appended, and the live table has the columns and the rows that
it had. Blanks are of no account by `Page.spells_of_written`; neither is the time of the second run. -/
theorem run_again [Platform] {docs docs' : List Document} (h : Run.table settings store d s = .ok r s')
    (hr : r.status = .completed)
    (hlate : ∀ versions, s.database.find? (TableName.history d.label) = some (.history versions) →
      ∀ version ∈ versions, version.updated < s.database.now)
    (hdocs : store.Holds d.label docs) (hdocs' : again.Holds d.label docs') (honly : ∀ t ∈ docs', t.OnlyRecords)
    (hsame : List.Forall₂ Tree.Same (docs.flatMap Document.records) (docs'.flatMap Document.records))
    (hkeys : Gives s'.keys v) (hdialect : v.database.dialect = s.database.dialect)
    (hhistory : v.database.find? (TableName.history d.label) = s'.database.find? (TableName.history d.label)) :
    ∃ r' v', Run.table settings again d v = .ok r' v' ∧ r'.status = .completed ∧ r'.appended = 0 ∧
      v'.database.find? (TableName.history d.label) = v.database.find? (TableName.history d.label) ∧
      ∃ columns rows, s'.database.find? d.label = some (.snapshot columns rows) ∧
        v'.database.find? d.label = some (.snapshot columns rows) := by
  obtain ⟨hskip, result, mid, hstage, hmerge⟩ := of_completed h hr
  obtain ⟨count, hcount, hrestages⟩ := stage_restages hstage
  obtain ⟨count₁, hcount₁, hspells⟩ := hdocs
  obtain ⟨count', hcount', hspells'⟩ := hdocs'
  cases hcount.symm.trans hcount₁
  obtain ⟨hfailure, hrecords⟩ := recordsOf_same hspells hspells' honly hsame hrestages.failure
  -- what the first run found and left behind
  obtain ⟨versions, columns, rows, hfound⟩ := of_mergeAndPromote hmerge
  obtain ⟨last, hmerged, hgrown, hlive, -⟩ := mergeAndPromote_ok hfound
  obtain rfl : last = s' := by
    injection hmerged.symm.trans hmerge
  have hkept : mid.database.find? (TableName.history d.label) = s.database.find? (TableName.history d.label) :=
    hrestages.tables.found _ fold_loading_ne_history.symm
  have hlater : ∀ version ∈ versions, version.updated < mid.database.now := by
    rw [hrestages.tables.now]
    rcases hfound.versions with hversions | ⟨-, rfl⟩
    · exact hlate versions (hkept.symm.trans hversions)
    · exact nofun
  have hids : (rows.map (·.id)).Nodup := by
    obtain ⟨columns', rows', hrows, hdistinct⟩ := hrestages.sound
    obtain ⟨rfl, rfl⟩ : columns = columns' ∧ rows = rows' := by simpa using hfound.loading.symm.trans hrows
    exact List.pairwise_map.2 (hdistinct.imp fun h => h.2)
  -- the second run
  obtain ⟨result', v₁, hstage', hloading', hsame'⟩ := hrestages.again again count' v hcount' hfailure hrecords
    (by rwa [← keys_mergeAndPromote hmerge]) hdialect
  have hhistory' : v₁.database.find? (TableName.history d.label) =
      some (.history (versions ++ added ⟨columns, rows, mid.database.now⟩ versions)) :=
    (hsame'.found _ fold_loading_ne_history.symm).trans (hhistory.trans hgrown)
  have hfound' : Promotable d.label (versions ++ added ⟨columns, rows, mid.database.now⟩ versions) columns rows
      v₁.database :=
    ⟨hfound.history, hfound.live,
      hsame'.dialect.trans (hdialect.trans (hrestages.tables.dialect.symm.trans hfound.dialect)), .inl hhistory',
      hloading'.trans hfound.loading⟩
  obtain ⟨v', hmerge', hgrown', hlive', -⟩ := mergeAndPromote_ok hfound'
  have hnothing : added ⟨columns, rows, v₁.database.now⟩
      (versions ++ added ⟨columns, rows, mid.database.now⟩ versions) = [] := added_again hids hlater rfl
  rw [hnothing] at hmerge' hgrown'
  refine ⟨_, v', table_completed hskip hstage' hmerge', rfl, rfl, ?_, columns, rows, hlive, hlive'⟩
  rw [hgrown', List.append_nil, hhistory, hgrown]

/-- A page with blanks and the document that it spells: an envelope with the rows of the table. -/
def spacedPage : String := "\x7b \"rows\" : [ \x7b \"a\" : 5, \"id\" : \"1\" \x7d ] \x7d"

def spacedDocument : Document :=
  .obj [("rows", .arr [.obj [("a", .leaf (.number, .int 5)), ("id", .leaf (.string, .str "1"))]])]

theorem spells_spaced : Page.Spells spacedPage.toUTF8.toList spacedDocument := by
  have hfive : Page.Lexes (Page.ascii ['5']) (.atom (.int 5)) :=
    WrittenNumber.lexes ⟨false, ['5'], [], none, .digits (by decide) (List.forall_mem_singleton.2 rfl),
      List.forall_mem_nil _⟩
  have hspaced (cs : List Char) {ds : List Char} {t : Token} {ts : List Token}
      (hascii : cs.all (fun c => c.toNat < 128) = true) (ht : ∀ a, t ≠ .atom a)
      (hleads : Lexer.Leads .page .idle cs [t] .idle) (hrest : Page.Written (Page.ascii ds) ts) :
      Page.Written (Page.ascii (' ' :: (cs ++ ds))) (t :: ts) :=
    .closed [' '] cs (by decide) hascii ht hleads hrest
  have hend : Page.Written (Page.ascii []) [] := .blank (List.forall_mem_nil _)
  have hcomma (ds : List Char) : Lexer.Delimited (Octets.glyphs (Page.ascii (',' :: ds))) := by
    have hglyphs : Octets.glyphs (Page.ascii [','] ++ Page.ascii ds) = .char ',' :: Octets.glyphs (Page.ascii ds) :=
      Page.glyphs_ascii (List.forall_mem_singleton.2 (by decide)) _
    exact hglyphs ▸ (Lexer.delimited_cons _ _).2 rfl
  have hwritten : Page.Written (Page.ascii _) (spacedDocument.spell (.tokens Page.lexeme)) :=
    .closed [] ['\x7b'] (by decide) (by decide) nofun (fun _ _ => rfl) <|
      hspaced "\"rows\"".toList (by decide) nofun (fun _ _ => rfl) <|
      hspaced [':'] (by decide) nofun (fun _ _ => rfl) <|
      hspaced ['['] (by decide) nofun (fun _ _ => rfl) <|
      hspaced ['\x7b'] (by decide) nofun (fun _ _ => rfl) <|
      hspaced "\"a\"".toList (by decide) nofun (fun _ _ => rfl) <|
      hspaced [':'] (by decide) nofun (fun _ _ => rfl) <|
      .cons [' '] (by decide) hfive (fun _ => hcomma _) <|
      .closed [] [','] (by decide) (by decide) nofun (fun _ _ => rfl) <|
      hspaced "\"id\"".toList (by decide) nofun (fun _ _ => rfl) <|
      hspaced [':'] (by decide) nofun (fun _ _ => rfl) <|
      hspaced "\"1\"".toList (by decide) nofun (fun _ _ => rfl) <|
      hspaced ['\x7d'] (by decide) nofun (fun _ _ => rfl) <|
      hspaced [']'] (by decide) nofun (fun _ _ => rfl) <|
      hspaced ['\x7d'] (by decide) nofun (fun _ _ => rfl) hend
  have hpage {bytes : List UInt8} (h : Page.Spells bytes spacedDocument) (hbytes : spacedPage.toUTF8.toList = bytes) :
      Page.Spells spacedPage.toUTF8.toList spacedDocument := hbytes ▸ h
  exact hpage (Page.spells_of_written hwritten (Page.leaves_of_holdable rfl)) (by decide +kernel)

/-- The record of an array comes again in an envelope with blanks, with its members the other way round. -/
theorem run_again_rearranged : ∃ r s' r' v',
    Run.table { dialect := .sqlite } (single "t" "[\x7b\"id\":\"1\",\"a\":5\x7d]".toUTF8.toList)
      ⟨.str "t", .null, .null, false⟩ ⟨{ empty with now := "1" }, .memory .empty, []⟩ = .ok r s' ∧
    r.status = .completed ∧
    Run.table { dialect := .sqlite }
      (single "t" spacedPage.toUTF8.toList)
      ⟨.str "t", .null, .null, false⟩ { s' with database := { s'.database with now := "2" } } = .ok r' v' ∧
    r'.status = .completed ∧ r'.appended = 0 ∧
    ∃ columns rows, s'.database.find? "t" = some (.snapshot columns rows) ∧
      v'.database.find? "t" = some (.snapshot columns rows) := by
  have hpage : Page.Spells "[\x7b\"id\":\"1\",\"a\":5\x7d]".toUTF8.toList
      (.arr [.obj [("id", .leaf (.string, .str "1")), ("a", .leaf (.number, .int 5))]]) :=
    Page.spells_of_tokens (by decide +kernel) (Page.leaves_of_holdable rfl)
  have hrecords : Page.records "t" "[\x7b\"id\":\"1\",\"a\":5\x7d]".toUTF8.toList =
      ([.obj [("id", .str "1"), ("a", .int 5)]], none) :=
    Page.records_of_tokens "t" [.obj [("id", .leaf (.string, .str "1")), ("a", .leaf (.number, .int 5))]]
      (by decide +kernel) rfl rfl rfl rfl
  have hcolumns : Column.infer ColumnType.select
      (Statistics.ofRecords [.obj [("id", .str "1"), ("a", .int 5)]]) = [⟨"a", "a", .bigint⟩] :=
    (Column.infer_eq_insertionSort _ (by decide +kernel)).trans (by decide +kernel)
  have hid : ∀ record ∈ [Json.obj [("id", .str "1"), ("a", .int 5)]], Encoder.Identified record :=
    List.forall_mem_singleton.2 ⟨.str "1", rfl, by simp⟩
  obtain ⟨result, n, s', hrun, hdialect⟩ := completed_single hrecords hcolumns (by decide) hid
  have hgives : Gives s'.keys { s' with database := { s'.database with now := "2" } } := (Near.refl "t" _).gives
  obtain ⟨r', v', hagain, hdone, hnothing, -, hlive⟩ := run_again hrun rfl (fun _ h => by cases h)
    (holds_single hpage)
    (holds_single spells_spaced) (List.forall_mem_singleton.2 fun h => by cases h)
    (.cons (.single (.members "id" "a" (by decide) _ _ [] [])) .nil) hgives hdialect rfl
  exact ⟨_, s', r', v', hrun, rfl, hagain, hdone, hnothing, hlive⟩

end Run

end SnapshotStaging
