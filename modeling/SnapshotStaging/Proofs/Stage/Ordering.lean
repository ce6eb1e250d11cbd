import SnapshotStaging.Proofs.Page.Faults
import SnapshotStaging.Proofs.Page.Layouts
import SnapshotStaging.Proofs.Redaction.Frame
import SnapshotStaging.Staging

/-!
# Records are in order when they are written

A record is put into canonical order once, when it closes. Redaction keeps the names of members and their places, and
what a column stores is a value within the record, so nothing that is written has to be sorted again: wherever the
encoder writes a record or a value of it as text, the text is that of the canonical form.

Main result `loadPage_ordered`.
-/

namespace SnapshotStaging

open Json

theorem Redaction.ordered_redact {v : Json} (flagged : String → Bool) (path : String) (h : v.Ordered) :
    (redact flagged path v).Ordered := by
  intro address steps names hview
  rw [view?_redact] at hview
  obtain ⟨⟨steps', x⟩, hx, heq⟩ := Option.map_eq_some_iff.1 hview
  simp only [Prod.mk.injEq] at heq
  obtain ⟨rfl, hemptied⟩ := heq
  have hnames : x = .obj names := by
    split at hemptied
    · cases x <;> cases hemptied
      rfl
    · exact hemptied
  exact h address steps' names (hnames ▸ hx)

namespace Encoder

/-- An object is refused for want of an identifier only, with its text. -/
theorem identifier_error {table : String} {members : List (String × Json)} {err : Error}
    (h : identifier table (.obj members) = .error err) :
    err = .unidentifiedRecord (Json.obj members).compact table := by
  simp only [identifier, Json.asRecord, bind, Except.bind] at h
  split at h
  · exact (Except.error.inj h).symm
  · exact (Except.error.inj h).symm
  · cases h

end Encoder

namespace Staging

/-- Redacted or not, the canonical form of an object is an object in order. -/
theorem redacted_canonical_obj (rules : Option Redaction.Rules) (members : List (String × Json)) :
    ∃ members', redacted rules (Json.obj members).canonical = .obj members' ∧ (Json.obj members').Ordered := by
  have hordered := ordered_canonical (.obj members)
  rw [canonical] at hordered ⊢
  cases rules with
  | none => exact ⟨_, rfl, hordered⟩
  | some rules =>
    have hredacted := Redaction.ordered_redact rules.flags "" hordered
    rw [Redaction.redact] at hredacted
    exact ⟨_, by rw [redacted, Redaction.redact], hredacted⟩

/-- The records of a page as the second pass sees them. -/
def redactedRecords [Platform] (table : String) (rules : Option Redaction.Rules) (bytes : List UInt8) : List Json :=
  (Page.records table bytes).1.map (redacted rules)

theorem of_mem_redactedRecords [Platform] {table : String} {rules : Option Redaction.Rules} {bytes : List UInt8}
    {record : Json} (h : record ∈ redactedRecords table rules bytes) :
    ∃ members, record = .obj members ∧ (Json.obj members).Ordered := by
  obtain ⟨v, hv, rfl⟩ := List.mem_map.1 h
  obtain ⟨members, rfl⟩ := (Page.records_spec table bytes).1 v hv
  exact redacted_canonical_obj rules members

variable {σ : Type}

/-- The second pass over a page where `write` takes the records. -/
def loadPageBy [Platform] (write : Json → Encoder.Step σ Unit) (table : String) (rules : Option Redaction.Rules)
    (bytes : List UInt8) : Encoder.Step σ Nat := do
  (redactedRecords table rules bytes).forM write
  failing (Page.records table bytes).2
  return (Page.records table bytes).1.length

theorem writeAll_eq [Database σ] (rules : Option Redaction.Rules) (records : List Json) :
    (writeAll rules records : Encoder.Step σ Unit) = (records.map (redacted rules)).forM Encoder.write := by
  induction records with
  | nil => rfl
  | cons record rest ih =>
    rw [writeAll, ih, List.map_cons]
    rfl

theorem loadPage_eq [Platform] [Database σ] (table : String) (rules : Option Redaction.Rules) (bytes : List UInt8) :
    (loadPage table rules bytes : Encoder.Step σ Nat) = loadPageBy Encoder.write table rules bytes := by
  simp only [loadPage, loadPageBy, redactedRecords, writeAll_eq]

variable {table : String} {rules : Option Redaction.Rules} {bytes : List UInt8}

/-- A page is loaded alike by two that take records in order alike. -/
theorem loadPageBy_congr [Platform] {write write' : Json → Encoder.Step σ Unit}
    (h : ∀ record : Json, record.Ordered → write record = write' record) :
    loadPageBy write table rules bytes = loadPageBy write' table rules bytes := by
  have hall : ∀ records : List Json, (∀ record ∈ records, record.Ordered) →
      records.forM write = records.forM write' := by
    intro records hrecords
    induction records with
    | nil => rfl
    | cons record rest ih =>
      show (write record >>= fun _ => rest.forM write) = write' record >>= fun _ => rest.forM write'
      rw [h record (hrecords record (List.mem_cons_self ..)), ih fun r hr => hrecords r (List.mem_cons_of_mem _ hr)]
  have hrecords : ∀ record ∈ redactedRecords table rules bytes, record.Ordered := by
    intro record hrecord
    obtain ⟨members, rfl, hordered⟩ := of_mem_redactedRecords hrecord
    exact hordered
  rw [loadPageBy, loadPageBy, hall _ hrecords]

/-- **Records are in order when they are written**, for every page and all rules.

* Each is its own canonical form, and so are the values of its fields. The two texts of its payload, the text in the
  error when it has no identifier and the text of a value in a column of texts are those of the canonical forms.
* Loading the page writes these records, and would do the same if each was put into canonical order once more. -/
theorem loadPage_ordered [Platform] (table : String) (rules : Option Redaction.Rules) (bytes : List UInt8) :
    (∀ record ∈ redactedRecords table rules bytes,
      record.canonical = record ∧
      record.pretty = record.canonical.pretty ∧ record.compact = record.canonical.compact ∧
      (∀ err, Encoder.identifier table record = .error err →
        err = .unidentifiedRecord record.canonical.compact table) ∧
      ∀ field v, record.member? field = some v →
        v.canonical = v ∧ Encoder.valueText v = Encoder.valueText v.canonical) ∧
    ∀ {σ : Type} [Database σ],
      (loadPage table rules bytes : Encoder.Step σ Nat) = loadPageBy Encoder.write table rules bytes ∧
      (loadPage table rules bytes : Encoder.Step σ Nat) =
        loadPageBy (fun record => Encoder.write record.canonical) table rules bytes := by
  constructor
  · intro record hrecord
    obtain ⟨members, rfl, hordered⟩ := of_mem_redactedRecords hrecord
    have hcanonical : (Json.obj members).canonical = .obj members := hordered.canonical_eq
    rw [hcanonical]
    refine ⟨rfl, rfl, rfl, fun err => Encoder.identifier_error, fun field v hv => ?_⟩
    have hvalue : v.canonical = v := (hordered.member hv).canonical_eq
    exact ⟨hvalue, by rw [hvalue]⟩
  · intro σ _
    refine ⟨loadPage_eq table rules bytes, (loadPage_eq table rules bytes).trans (loadPageBy_congr ?_)⟩
    intro record hordered
    rw [hordered.canonical_eq]

/-- A page whose record has no identifier, and members out of order at both levels. -/
def disordered : List UInt8 := "[\x7b\"b\":\x7b\"z\":\"s\",\"id\":1\x7d,\"a\":2\x7d]".toUTF8.toList

theorem loadPage_ordered_nested :
    let record : Json := .obj [("a", .int 2), ("b", .obj [("id", .int 1), ("z", .str "")])]
    redactedRecords "t" (some (.ofPaths ["/b/z"])) disordered = [record] ∧ record.canonical = record ∧
      ∃ err, Encoder.identifier "t" record = .error err ∧ err = .unidentifiedRecord record.canonical.compact "t" := by
  intro record
  have hinner : Json.Reordered (.obj [("z", .str "s"), ("id", .int 1)]) (.obj [("id", .int 1), ("z", .str "s")]) :=
    .obj (.cons _ (.scalar rfl) (.cons _ (.scalar rfl) .nil)) (.swap ..)
  have hsame : Json.Reordered (.obj [("b", .obj [("z", .str "s"), ("id", .int 1)]), ("a", .int 2)])
      (.obj [("a", .int 2), ("b", .obj [("id", .int 1), ("z", .str "s")])]) :=
    .obj (.cons _ hinner (.cons _ (.scalar rfl) .nil)) (.swap ..)
  have hcanonical := (hsame.canonical_eq (by simp [Json.Distinct, Json.DistinctMembers])).trans
    (Json.canonical_of_sorted rfl)
  have hpage : Page.records "t" disordered =
      ([.obj [("a", .int 2), ("b", .obj [("id", .int 1), ("z", .str "s")])]], none) :=
    @Page.records_of_stands _ _ _ "t"
      [.obj [("b", .obj [("z", .leaf (.string, .str "s")), ("id", .leaf (.number, .int 1))]),
        ("a", .leaf (.number, .int 2))]] (by decide +kernel) rfl rfl
      (.cons ⟨by decide +kernel, Json.order?_eq_some_iff.2 ⟨rfl, hcanonical⟩⟩ .nil)
  have hrecords : redactedRecords "t" (some (.ofPaths ["/b/z"])) disordered = [record] := by
    rw [redactedRecords, hpage]
    rfl
  have hrecord : record ∈ redactedRecords "t" (some (.ofPaths ["/b/z"])) disordered := by
    rw [hrecords]
    exact List.mem_singleton_self _
  obtain ⟨hcanonical, -, -, hunidentified, -⟩ := (loadPage_ordered ..).1 record hrecord
  exact ⟨hrecords, hcanonical, _, rfl, hunidentified _ rfl⟩

end Staging

end SnapshotStaging
