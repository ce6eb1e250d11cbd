import SnapshotStaging.Proofs.Field.Naming
import SnapshotStaging.Proofs.Json.Equality
import SnapshotStaging.Proofs.Json.Lengths
import SnapshotStaging.Proofs.Load.Closure
import SnapshotStaging.Proofs.Load.Insertions

/-!
# The payload of a row

The payload is the text of the record, laid out in lines if that fits, else without blanks, else nothing. That the
two texts are tried in this order matters: the text without blanks is never the longer one, so nothing is stored only
when no text of the record would fit, and that costs one warning. Written text has no NUL in it, so a text that is
stored stays whole between its quotes and is read back as the record.

Main result: `encode_payload`.
-/

namespace SnapshotStaging

/-! ## Written text has no NUL -/

namespace Layout

variable {l : Layout} {depth : Nat} {rest : List Char}

theorem nul_notMem_newLine {width : Nat} (h : '\x00' ∉ rest) : '\x00' ∉ newLine width depth rest := by
  simp [newLine, h]

theorem nul_notMem_edge (h : '\x00' ∉ rest) : '\x00' ∉ l.edge depth rest := by
  cases l with
  | indented width => exact nul_notMem_newLine h
  | _ => exact h

theorem nul_notMem_between (h : '\x00' ∉ rest) : '\x00' ∉ l.between depth rest := by
  cases l with
  | indented width => simpa [between] using nul_notMem_newLine h
  | _ => simpa [between] using h

theorem nul_notMem_colon (h : '\x00' ∉ rest) : '\x00' ∉ l.colon rest := by
  cases l <;> simpa [colon] using h

end Layout

namespace Json

variable {l : Layout} {rest : List Char}

theorem nul_notMem_word {cs : List Char} (hcs : Sql.IsWord cs) (h : '\x00' ∉ rest) : '\x00' ∉ cs ++ rest := by
  rw [List.mem_append]
  rintro (hmem | hmem)
  · exact absurd (hcs.2 _ hmem) (by decide)
  · exact h hmem

theorem isWord_text_jsonWords (x : Double) : Sql.IsWord (x.text Double.jsonWords) := by
  cases x with
  | finite negative place => exact Sql.isWord_double (.finite negative place)
  | infinite negative => cases negative <;> decide
  | nan => decide

theorem lowHexDigit_ne_nul : ∀ n < 16, lowHexDigit n ≠ '\x00' := by
  decide

/-- NUL is among the characters that are escaped. -/
theorem nul_notMem_escaped (c : Char) : '\x00' ∉ escaped c := by
  unfold escaped
  split
  case h_8 =>
    split
    · next hcontrol =>
      have hhigh := lowHexDigit_ne_nul (c.toNat / 16) (by omega)
      have hlow := lowHexDigit_ne_nul (c.toNat % 16) (by omega)
      simpa using ⟨hhigh.symm, hlow.symm⟩
    · next hplain =>
      have hc : c ≠ '\x00' := by
        rintro rfl
        exact hplain (by decide)
      simpa using hc.symm
  all_goals decide

theorem nul_notMem_writeString (s : String) (h : '\x00' ∉ rest) : '\x00' ∉ writeString s rest := by
  have hfold (cs : List Char) : '\x00' ∉ cs.foldr writeLetter ('"' :: rest) := by
    induction cs with
    | nil => simpa using h
    | cons c cs ih => exact List.mem_append.not.2 (not_or.2 ⟨nul_notMem_escaped c, ih⟩)
  simpa [writeString] using hfold s.toList

theorem nul_notMem_writeName (name : String) (h : '\x00' ∉ rest) : '\x00' ∉ writeString name (l.colon rest) :=
  nul_notMem_writeString name (Layout.nul_notMem_colon h)

mutual

theorem nul_notMem_write : ∀ (v : Json) {depth : Nat} {rest : List Char}, '\x00' ∉ rest → '\x00' ∉ v.write l depth rest
  | .null, _, _, h => by simpa [write] using h
  | .bool true, _, _, h => by simpa [write] using h
  | .bool false, _, _, h => by simpa [write] using h
  | .int n, _, _, h => by
    rw [write]
    exact nul_notMem_word (Sql.isWord_signedDigits n) h
  | .float x, _, _, h => by
    rw [write]
    exact nul_notMem_word (isWord_text_jsonWords x) h
  | .str s, _, _, h => by
    rw [write]
    exact nul_notMem_writeString s h
  | .arr [], _, _, h => by simpa [write] using h
  | .arr (v :: items), depth, rest, h => by
    have hclose : '\x00' ∉ l.edge depth (']' :: rest) := Layout.nul_notMem_edge (by simpa using h)
    rw [write, List.mem_cons, not_or]
    exact ⟨by decide, Layout.nul_notMem_edge (nul_notMem_write v (nul_notMem_writeItems items hclose))⟩
  | .obj [], _, _, h => by simpa [write] using h
  | .obj ((name, v) :: members), depth, rest, h => by
    have hclose : '\x00' ∉ l.edge depth ('}' :: rest) := Layout.nul_notMem_edge (by simpa using h)
    rw [write, List.mem_cons, not_or]
    exact ⟨by decide, Layout.nul_notMem_edge
      (nul_notMem_writeName name (nul_notMem_write v (nul_notMem_writeMembers members hclose)))⟩

theorem nul_notMem_writeItems : ∀ (items : List Json) {depth : Nat} {rest : List Char},
    '\x00' ∉ rest → '\x00' ∉ writeItems l depth items rest
  | [], _, _, h => by simpa [writeItems] using h
  | v :: items, _, _, h => by
    rw [writeItems]
    exact Layout.nul_notMem_between (nul_notMem_write v (nul_notMem_writeItems items h))

theorem nul_notMem_writeMembers : ∀ (members : List (String × Json)) {depth : Nat} {rest : List Char},
    '\x00' ∉ rest → '\x00' ∉ writeMembers l depth members rest
  | [], _, _, h => by simpa [writeMembers] using h
  | (name, v) :: members, _, _, h => by
    rw [writeMembers]
    exact Layout.nul_notMem_between
      (nul_notMem_writeName name (nul_notMem_write v (nul_notMem_writeMembers members h)))

end

/-- A database that cannot hold NUL keeps a written value whole. -/
theorem kept_render (d : Dialect) (l : Layout) (v : Json) : d.kept (v.render l) = (v.render l).toList := by
  refine d.kept_of_notMem ?_
  rw [render, Script.ofLetters_chars, String.toList_ofList]
  exact nul_notMem_write v List.not_mem_nil

end Json

/-! ## Which text is stored -/

namespace Encoder

variable {limit : Int} {record : Json}

/-- Nothing is stored only if the text without blanks is too long, and then no text fits. -/
theorem payloadOf_eq_none_iff : payloadOf limit record = none ↔ limit < record.compact.length := by
  have hle : record.compact.length ≤ record.pretty.length := record.length_compact_le (.indented 4)
  unfold payloadOf
  split
  · next hpretty => simp only [reduceCtorEq, false_iff]; omega
  · split
    · next hcompact => simp only [reduceCtorEq, false_iff]; omega
    · next hcompact => simp only [true_iff]; omega

/-- A payload that is stored is one of two texts of the record, within the limit. -/
theorem of_payloadOf_eq_some {text : String} (h : payloadOf limit record = some text) :
    text = (if record.pretty.length ≤ limit then record.pretty else record.compact) ∧ text.length ≤ limit ∧
      ∃ l, text = record.render l := by
  unfold payloadOf at h
  split at h
  · next hpretty =>
    cases h
    exact ⟨(if_pos hpretty).symm, hpretty, _, rfl⟩
  · next hpretty =>
    split at h
    · next hcompact =>
      cases h
      exact ⟨(if_neg hpretty).symm, hcompact, _, rfl⟩
    · cases h

end Encoder

/-! ## Warnings -/

/-- Whether an entry is a warning about a column. -/
def Log.Entry.warnsOf (column : String) (entry : Log.Entry) : Bool :=
  match entry.level, entry.fields.bind (Json.find? "column") with
  | .warning, some (.str name) => name = column
  | _, _ => false

namespace Encoder

variable {σ α β : Type} {e : Encoder} {s : Session σ} {names : List String}

/-- A warning is counted, and is one entry about its column. -/
theorem warn_eq (message : String) (spot : Spot) (action : String) (e : Encoder) (s : Session σ) :
    ∃ entry : Log.Entry, (∀ name, entry.warnsOf name = decide (spot.column = name)) ∧
      warn message spot action (e, s) = .ok () (e.warned 1, { s with log := entry :: s.log }) :=
  ⟨_, fun _ => rfl, rfl⟩

/-- The payload costs one warning when nothing is stored, and none otherwise. -/
theorem payload_eq (record : Json) (id : String) (sk : Int) (e : Encoder) (s : Session σ) :
    ∃ entries : List Log.Entry, (∀ entry ∈ entries, entry.warnsOf "data" = true) ∧
      entries.length = (if payloadOf e.maxValueLength record = none then 1 else 0) ∧
      payload record id sk (e, s) =
        .ok (payloadOf e.maxValueLength record) (e.warned entries.length, { s with log := entries ++ s.log }) := by
  have hpayload : payload record id sk (e, s) =
      if record.pretty.length ≤ e.maxValueLength then .ok (some record.pretty) (e, s)
      else if record.compact.length ≤ e.maxValueLength then .ok (some record.compact) (e, s)
      else (do
        warn "JSON object size exceeds database limit" ⟨"data", sk, id⟩
          "Value of column \"data\" stored as NULL"
        return none : Step σ (Option String)) (e, s) := by
    unfold payload
    rw [Pass.own_bind]
    dsimp only
    split
    · rfl
    · split <;> rfl
  rw [hpayload]
  unfold payloadOf
  split
  · exact ⟨[], nofun, rfl, rfl⟩
  · split
    · exact ⟨[], nofun, rfl, rfl⟩
    · obtain ⟨entry, hentry, hwarn⟩ := warn_eq "JSON object size exceeds database limit" ⟨"data", sk, id⟩
        "Value of column \"data\" stored as NULL" e s
      refine ⟨[entry], fun other hother => ?_, rfl, bind_ok hwarn⟩
      rw [List.mem_singleton.1 hother, hentry]
      rfl

/-- What has become of an encoder and a session when only warnings were given, and these about columns with some
names: the encoder has counted them, and the log has entries more. -/
def Told (names : List String) (st st' : Encoder × Session σ) : Prop :=
  (∃ n, st'.1 = st.1.warned n) ∧
    ∃ entries, st'.2.log = entries ++ st.2.log ∧ ∀ entry ∈ entries, ∀ name, entry.warnsOf name = true → name ∈ names

theorem Told.refl (names : List String) (st : Encoder × Session σ) : Told names st st :=
  ⟨⟨0, rfl⟩, [], rfl, nofun⟩

theorem Told.trans {st st' st'' : Encoder × Session σ} (h : Told names st st') (h' : Told names st' st'') :
    Told names st st'' := by
  obtain ⟨⟨n, hn⟩, entries, hlog, hnames⟩ := h
  obtain ⟨⟨n', hn'⟩, entries', hlog', hnames'⟩ := h'
  refine ⟨⟨n + n', by rw [hn', hn, warned_warned]⟩, entries' ++ entries, by rw [hlog', hlog, List.append_assoc], ?_⟩
  intro entry hmem
  rcases List.mem_append.1 hmem with hmem | hmem
  · exact hnames' entry hmem
  · exact hnames entry hmem

/-- A step that leaves nothing else behind when it succeeds. -/
def Tells (names : List String) (x : Step σ α) : Prop :=
  ∀ st a st', x st = .ok a st' → Told names st st'

theorem tells_pure (a : α) : Tells names (pure a : Step σ α) := by
  intro st b st' h
  cases h
  exact .refl names st

theorem Tells.bind {x : Step σ α} {f : α → Step σ β} (hx : Tells names x) (hf : ∀ a, Tells names (f a)) :
    Tells names (x >>= f) := by
  intro st b st' h
  obtain ⟨a, mid, ha, hb⟩ := of_bind_ok h
  exact (hx st a mid ha).trans (hf a mid b st' hb)

theorem Tells.own {f : Encoder → Step σ β} (h : ∀ e, Tells names (f e)) : Tells names (Pass.own >>= f) :=
  fun st => h st.1 st

theorem tells_warn (message : String) (spot : Spot) (action : String) (hname : spot.column ∈ names) :
    Tells names (warn message spot action : Step σ Unit) := by
  intro (e, s) a st' h
  obtain ⟨entry, hentry, hwarn⟩ := warn_eq message spot action e s
  rw [hwarn] at h
  cases h
  refine ⟨⟨1, rfl⟩, [entry], rfl, fun other hother name hwarns => ?_⟩
  rw [List.mem_singleton.1 hother, hentry, decide_eq_true_eq] at hwarns
  exact hwarns ▸ hname

theorem tells_textLiteral (spot : Spot) (text : String) (hname : spot.column ∈ names) :
    Tells names (textLiteral spot text : Step σ Literal) := by
  unfold textLiteral
  refine Tells.own fun e => ?_
  split
  · exact (tells_warn _ _ _ hname).bind fun _ => tells_pure _
  · exact tells_pure _

theorem tells_debug (message : String) :
    Tells names (Pass.onSession (Task.note .debug message) : Step σ Unit) := by
  intro (e, s) a st' h
  cases h
  refine ⟨⟨0, rfl⟩, [_], rfl, fun other hother name hwarns => ?_⟩
  rw [List.mem_singleton.1 hother] at hwarns
  cases hwarns

variable [Database σ]

/-- A store of keys has nothing to tell. -/
theorem log_resolve {scope id : String} {n : Nat} {s' : Session σ} (h : Task.resolve scope id s = .ok n s') :
    s'.log = s.log := by
  obtain ⟨db, keys, log⟩ := s
  cases keys with
  | memory k =>
    cases h
    rfl
  | durable k =>
    simp only [Task.resolve, Task.onDurable] at h
    split at h
    · cases h
      rfl
    · cases h

theorem tells_resolve (scope id : String) : Tells names (Pass.onSession (Task.resolve scope id) : Step σ Nat) := by
  intro (e, s) a st' h
  simp only [Pass.onSession] at h
  split at h
  · next heq =>
    cases h
    exact ⟨⟨0, rfl⟩, [], log_resolve heq, fun _ hmem => absurd hmem List.not_mem_nil⟩
  · cases h

theorem tells_cells (column : Column) (v : Json) (id : String) (sk : Int) (hname : column.name ∈ names) :
    Tells names (cells column v id sk : Step σ (List Literal)) := by
  have htext (text : String) (f : Literal → List Literal) :
      Tells names (do return f (← textLiteral ⟨column.name, sk, id⟩ text) : Step σ (List Literal)) :=
    (tells_textLiteral _ _ hname).bind fun _ => tells_pure _
  unfold cells
  dsimp only
  split
  · exact (tells_resolve _ _).bind fun key => htext _ fun l => [.integer key, l]
  · exact tells_pure _
  · exact tells_pure _
  · exact tells_pure _
  · exact tells_pure _
  · exact tells_pure _
  · exact tells_pure _
  · exact htext _ fun l => [l]
  · exact htext _ fun l => [l]
  · exact Tells.own fun e => (tells_debug _).bind fun _ => tells_pure _

theorem tells_allCells (record : Json) (id : String) (sk : Int) (columns : List Column)
    (hnames : ∀ c ∈ columns, c.name ∈ names) :
    Tells names (allCells record id sk columns : Step σ (List Literal)) := by
  induction columns with
  | nil => exact tells_pure _
  | cons column rest ih =>
    unfold allCells
    refine (tells_cells _ _ _ _ (hnames column (List.mem_cons_self ..))).bind fun _ => ?_
    exact (ih fun c hc => hnames c (List.mem_cons_of_mem _ hc)).bind fun _ => tells_pure _

end Encoder

/-! ## Rows -/

/-- The literal of the payload in a row. -/
def Row.payload (r : Row) : Literal := (r.data.map Literal.text).getD .null

/-- What a literal has to be for the payload of a record under a limit: nothing, exactly when no text of the record
fits; else the text with a line for each item if it fits, or the one without blanks, which the database reads out of
the statement as it is and which is the text of the record. -/
structure Literal.Payload (limit : Int) (record : Json) (l : Literal) : Prop where
  null_iff : ∀ d : Dialect, l.sql d = "NULL" ↔ limit < record.compact.length
  stored : record.compact.length ≤ limit → ∃ text,
    l = .text text ∧ text = (if record.pretty.length ≤ limit then record.pretty else record.compact) ∧
      text.length ≤ limit ∧
      (∀ (d : Dialect) (fields : List Sql.Field) (rows : List (List Sql.Field)),
        Sql.run d ⟨.fieldDue, fields, rows⟩ (l.sql d).toList = some ⟨.atQuote text.toList.reverse, fields, rows⟩) ∧
      Json.read .any text = .ok record

namespace Encoder

theorem payload_payloadOf {limit : Int} {record : Json} (hrecord : record.Distinct) :
    (((payloadOf limit record).map Literal.text).getD .null).Payload limit record := by
  cases hpayload : payloadOf limit record with
  | none =>
    have hlong := payloadOf_eq_none_iff.1 hpayload
    exact ⟨fun _ => ⟨fun _ => hlong, fun _ => rfl⟩, fun hshort => by omega⟩
  | some text =>
    obtain ⟨htext, hlimit, l, hl⟩ := of_payloadOf_eq_some hpayload
    have hshort : ¬ limit < record.compact.length := by
      rw [← payloadOf_eq_none_iff, hpayload]
      exact nofun
    have hquoted (d : Dialect) : d.quoted text ≠ "NULL" := by
      intro heq
      have := congrArg String.toList heq
      simp [Dialect.quoted] at this
    refine ⟨fun d => ⟨fun h => absurd h (hquoted d), fun h => absurd h hshort⟩, fun _ => ?_⟩
    refine ⟨text, rfl, htext, hlimit, fun d fields rows => ?_, ?_⟩
    · have hkept : d.kept text = text.toList := by rw [hl, Json.kept_render]
      rw [← hkept]
      exact Sql.run_quoted d text
    · rw [hl]
      exact Json.read_render .any l hrecord

variable {σ : Type} [Database σ]

/-- **A payload is stored whole or not at all.** Encoding a record fails just where the columns fail. Else the row
ends in the payload of the record and the tenant. Beside what is told of the columns there is one warning about the
column `data` if nothing is stored, and none otherwise; so if no other column has that name, these are all warnings
about it. -/
theorem encode_payload (e : Encoder) (s : Session σ) {record : Json} (hrecord : record.Distinct) (id : String)
    (sk : Int) :
    (∀ err st, allCells record id sk e.columns (e, s) = .error err st →
      encode record id sk (e, s) = .error err st) ∧
    ∀ cells e₁ s₁, allCells record id sk e.columns (e, s) = .ok cells (e₁, s₁) →
      ∃ row e₂ s₂ entries, encode record id sk (e, s) = .ok row (e₂, s₂) ∧
        row.literals = .integer sk :: .text id :: cells ++ [row.payload, .integer e.tenant] ∧
        row.payload.Payload e.maxValueLength record ∧
        e₂ = e₁.warned entries.length ∧ s₂.log = entries ++ s₁.log ∧
        (∀ entry ∈ entries, entry.warnsOf "data" = true) ∧
        entries.length = (if e.maxValueLength < record.compact.length then 1 else 0) ∧
        ((∀ c ∈ e.columns, c.name ≠ "data") →
          s₂.log.countP (·.warnsOf "data") = s.log.countP (·.warnsOf "data") +
            if e.maxValueLength < record.compact.length then 1 else 0) := by
  have hencode : encode record id sk (e, s) =
      (allCells record id sk e.columns >>= fun cells => payload record id sk >>= fun data =>
        pure ⟨sk, id, cells, data, e.tenant⟩ : Step σ Row) (e, s) := rfl
  rw [hencode]
  refine ⟨fun err st herror => bind_error herror, fun cells e₁ s₁ hcells => ?_⟩
  obtain ⟨⟨n, hn⟩, others, hlog, hothers⟩ : Told (e.columns.map Column.name) (e, s) (e₁, s₁) :=
    tells_allCells record id sk e.columns (fun c hc => List.mem_map_of_mem hc) _ _ _ hcells
  obtain rfl : e₁ = e.warned n := hn
  have hlimit : (e.warned n).maxValueLength = e.maxValueLength := rfl
  obtain ⟨entries, hentries, hlength, hpayload⟩ := payload_eq record id sk (e.warned n) s₁
  simp only [hlimit, payloadOf_eq_none_iff] at hlength hpayload
  refine ⟨_, _, _, entries, (bind_ok hcells).trans (bind_ok hpayload), rfl, payload_payloadOf hrecord, rfl, rfl,
    hentries, hlength, fun hdata => ?_⟩
  -- A column tells of itself only, so nothing that the columns told is about `data`.
  have hnone : others.countP (·.warnsOf "data") = 0 := by
    refine List.countP_eq_zero.2 fun entry hmem hwarns => ?_
    obtain ⟨c, hc, hname⟩ := List.mem_map.1 (hothers entry hmem "data" hwarns)
    exact hdata c hc hname
  have hall : entries.countP (·.warnsOf "data") = entries.length := List.countP_eq_length.2 hentries
  simp only at hlog ⊢
  rw [List.countP_append, hall, hlength, hlog, List.countP_append, hnone]
  omega

/-- A record of 22 characters where nine fit. Its field `data` has a column of its own, by another name. -/
theorem encode_payload_overlong : ∃ row st,
    encode (.obj [("data", .bool true), ("id", .str "1")]) "1" 5
        (start "t" (Column.infer ColumnType.select
          (Statistics.addRecord {} (.obj [("data", .bool true), ("id", .str "1")]))) .sqlite 1 9 100,
          ⟨Warehouse.empty, .memory .empty, []⟩) = .ok row st ∧
      row.payload.sql .sqlite = "NULL" ∧ st.2.log.countP (·.warnsOf "data") = 1 := by
  generalize hcolumns : Column.infer ColumnType.select
    (Statistics.addRecord {} (.obj [("data", .bool true), ("id", .str "1")])) = columns
  have hdata : ∀ c ∈ columns, c.name ≠ "data" := fun c hc hname =>
    Column.infer_notMem_reserved (hcolumns ▸ hc) (hname ▸ by decide)
  obtain rfl : columns = [⟨"data_", "data", .boolean⟩] := hcolumns.symm.trans <|
    (Column.infer_eq_insertionSort _ (by decide +kernel)).trans (by decide +kernel)
  have hrecord : (Json.obj [("data", .bool true), ("id", .str "1")]).Distinct := by
    simp [Json.Distinct, Json.DistinctMembers]
  have hlong : (9 : Int) < (Json.obj [("data", .bool true), ("id", .str "1")]).compact.length := by decide
  obtain ⟨-, hok⟩ := encode_payload (start "t" [⟨"data_", "data", .boolean⟩] .sqlite 1 9 100)
    (⟨Warehouse.empty, .memory .empty, []⟩ : Session Warehouse) hrecord "1" 5
  obtain ⟨row, e₂, s₂, entries, hencode, -, hpayload, -, -, -, -, hcount⟩ := hok _ _ _ rfl
  refine ⟨row, (e₂, s₂), hencode, (hpayload.null_iff .sqlite).2 hlong, ?_⟩
  rw [hcount hdata]
  exact (Nat.zero_add _).trans (if_pos hlong)

end Encoder

end SnapshotStaging
