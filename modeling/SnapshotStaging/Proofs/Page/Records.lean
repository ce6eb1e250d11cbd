import SnapshotStaging.Proofs.Page.Feeding

/-!
# The records of documents

However many documents are fed, what has been handed over after any number of events is what was due by then, and what
is due is what `Document.Stands` and `Document.Refused` say of the elements of the arrays of records.

Main result `run_documents`.
-/

namespace SnapshotStaging

namespace Assembly

open Document Marks

variable [Platform] {table : String}

/-- **The records of documents.** Documents are fed one after another to a fresh assembly.

* After any number of events the records handed over, and the refusal, are those due by then.
* A record is due for each object among the elements of the arrays of records that can be read and put into order:
  at its last event, in canonical order.
* Refusals are due for the other objects among them, and for what is no object in a root array, at its first event.
* When the objects keep to the limits of the platform, the objects that are refused are those that hold a number that
  overflows, each at its last event, and every refusal is reported as a malformed record.
* When nothing is refused the assembly ends as it began, but for the count of records. -/
theorem run_documents (table : String) (docs : List Document) :
    (∀ n, (empty.run table [] ((docs.flatMap events).take n)).2 =
      handed ((allMarks table docs).filter (·.1 ≤ n))) ∧
    (∀ q v, (q, .record v) ∈ allMarks table docs ↔
      ∃ d ∈ placed 0 docs, ∃ x ∈ d.2.elements d.1,
        x.2.isRecord = true ∧ q = x.1 + x.2.size ∧ x.2.Stands v) ∧
    (∀ q e, (q, .refused e) ∈ allMarks table docs ↔
      ∃ d ∈ placed 0 docs, ∃ x ∈ d.2.elements d.1,
        (d.2.isArray = true ∧ x.2.isRecord = false ∧ q = x.1 + 1 ∧
          e = .unexpectedEvent x.2.opening.name .betweenRecords table) ∨
        (x.2.isRecord = true ∧ ∃ n, q = x.1 + n ∧ x.2.Refused table n e)) ∧
    ((∀ d ∈ placed 0 docs, ∀ x ∈ d.2.elements d.1, x.2.isRecord = true → x.2.Within) →
      (∀ q, (∃ e, (q, .refused e) ∈ allMarks table docs) ↔
        ∃ d ∈ placed 0 docs, ∃ x ∈ d.2.elements d.1,
          (d.2.isArray = true ∧ x.2.isRecord = false ∧ q = x.1 + 1) ∨
          (x.2.isRecord = true ∧ q = x.1 + x.2.size ∧ ∃ a ∈ x.2.leaves, a.2.Overflows)) ∧
      ∀ q e, (q, .refused e) ∈ allMarks table docs → Malformed e) ∧
    ((handed (allMarks table docs)).2 = none →
      (empty.run table [] (docs.flatMap events)).1 =
        { empty with built := (handed (allMarks table docs)).1.length }) := by
  have hfeed := @feeds_documents _ table docs 0 0
  have hrefused (q : Nat) (e : Error) : (q, .refused e) ∈ allMarks table docs ↔
      ∃ d ∈ placed 0 docs, ∃ x ∈ d.2.elements d.1, _ :=
    mem_allMarks.trans (exists_congr fun d => and_congr_right' (exists_congr fun x =>
      and_congr_right' (due_refused d.2.isArray x q e)))
  refine ⟨fun n => hfeed.handed_take n, fun q v => ?_, hrefused, fun hwithin => ⟨fun q => ?_, fun q e hmem => ?_⟩, ?_⟩
  · simp only [mem_allMarks, due_record]
  · constructor
    · rintro ⟨e, hmem⟩
      obtain ⟨d, hd, x, hx, hwhy⟩ := (hrefused q e).1 hmem
      refine ⟨d, hd, x, hx, hwhy.imp (fun h => ⟨h.1, h.2.1, h.2.2.1⟩) ?_⟩
      rintro ⟨hr, n, hn, hrefused⟩
      obtain ⟨rfl, hover⟩ := (hwithin d hd x hx hr).refused_iff.1 ⟨e, hrefused⟩
      exact ⟨hr, hn, hover⟩
    · rintro ⟨d, hd, x, hx, ⟨harray, hr, rfl⟩ | ⟨hr, rfl, hover⟩⟩
      · exact ⟨_, (hrefused _ _).2 ⟨d, hd, x, hx, .inl ⟨harray, hr, rfl, rfl⟩⟩⟩
      · obtain ⟨e, hwhy⟩ := (@Within.refused_iff _ table x.2 x.2.size (hwithin d hd x hx hr)).2 ⟨rfl, hover⟩
        exact ⟨e, (hrefused _ _).2 ⟨d, hd, x, hx, .inr ⟨hr, _, rfl, hwhy⟩⟩⟩
  · obtain ⟨d, hd, x, hx, ⟨-, -, -, rfl⟩ | ⟨hr, n, -, hwhy⟩⟩ := (hrefused q e).1 hmem
    · rfl
    · exact (hwithin d hd x hx hr).malformed hwhy
  · intro hnone
    have hend := hfeed.run_eq hnone []
    rw [Nat.zero_add] at hend
    exact hend

end Assembly

/-! ## Arrays within one another -/

namespace Document

variable [Platform]

omit [Platform] in
theorem overlongAt?_nested (limits : Limits) (n : Nat) : overlongAt? limits (.obj [("n", .nested n)]) = none := by
  refine List.findIdx?_eq_none_iff.2 (overlong_events ?_)
  rw [Tree.leaves, Tree.memberLeaves, Tree.memberLeaves, Tree.leaves_nested]
  exact List.forall_mem_nil _

/-- A record of arrays within one another can be read where the innermost can. -/
theorem fault?_nested (n : Nat) :
    fault? Platform.limits (.obj [("n", .nested n)]) = Reader.openingFault? Platform.limits (n + 2) := by
  have hpieces : Tree.pieces (α := ScalarKind × Scalar) 0 (.obj [("n", .nested n)]) =
      (1, none) :: (Tree.nested n : Document).pieces 1 := by
    rw [Tree.pieces, Tree.memberPieces, Tree.memberPieces, List.append_nil]
  have hfirst : pieceFault? Platform.limits (1, none) = none :=
    if_pos (Limits.admits_mono Platform.flat (by decide))
  rw [fault?, hpieces, List.findSome?_cons, hfirst]
  dsimp only
  rw [Reader.findSome?_nested (fun _ => rfl), Nat.add_comm 1 n]

omit [Platform] in
theorem orderingCalls_nested (n : Nat) : (Document.meaning (.obj [("n", .nested n)])).orderingCalls = 2 * n + 4 := by
  have hnested (n : Nat) : (Document.meaning (.nested n)).orderingCalls = 2 * n + 2 := by
    induction n with
    | zero => rfl
    | succ n ih =>
      have harr : Document.meaning (.nested (n + 1)) = .arr [Document.meaning (.nested n)] := rfl
      rw [harr, Json.orderingCalls, Json.itemCalls, Json.itemCalls, ih]
      omega
  have hobj : Document.meaning (.obj [("n", .nested n)]) = .obj [("n", Document.meaning (.nested n))] := rfl
  rw [hobj, Json.orderingCalls, Json.memberCalls, Json.memberCalls, hnested]
  omega

/-- A record with arrays nested deeper than the platform can read is refused for its text. -/
theorem ending_deepText (table : String) {n : Nat} (h : Platform.limits.admits (Reader.calls (n + 2)) = false) :
    ending table (.obj [("n", .nested n)]) = (size (.obj [("n", .nested n)]), .refused .deepText) := by
  rw [ending, overlongAt?_nested, outcome, fault?_nested, Reader.openingFault?, h]
  rfl

/-- A record with arrays nested deeper than the platform can order is refused once it has been read. -/
theorem ending_deepRecord (table : String) {n : Nat} (h : Platform.limits.admits (Reader.calls (n + 2)) = true)
    (horder : Platform.limits.admits (2 * n + 4) = false) :
    ending table (.obj [("n", .nested n)]) = (size (.obj [("n", .nested n)]), .refused .deepRecord) := by
  rw [ending, overlongAt?_nested, outcome, fault?_nested, Reader.openingFault?, h, Json.order?, orderingCalls_nested,
    horder]
  rfl

/-- What is due for a page of one record. -/
theorem marks_single (table : String) (p : Nat) (members : List (String × Document)) :
    marks table p (.arr [.obj members]) =
      [(p + 1 + (ending table (.obj members)).1, (ending table (.obj members)).2)] := by
  rw [marks, elements, placed, placed, List.filterMap_cons, due_of_isRecord rfl]
  rfl

end Document

/-! ## Cases -/

namespace Assembly

open Document Marks

/-- Two pages, one of each form: the record in the nested array is none, the second page starts afresh. -/
theorem run_two_documents :
    let docs : List Document :=
      [.obj [("n", .leaf (.number, .int 7)), ("rows", .arr [.obj [("id", .leaf (.string, .str "a"))],
        .arr [.obj []], .leaf (.null, .null)])], .arr [.obj [("id", .leaf (.string, .str "b"))]]]
    (∀ d ∈ placed 0 docs, ∀ x ∈ d.2.elements d.1, x.2.isRecord = true → x.2.Within) ∧
      (∀ q e, (q, .refused e) ∈ allMarks "t" docs → Malformed e) ∧
      (handed (allMarks "t" docs)).2 = none ∧
      (empty.run "t" [] (docs.flatMap events)).1 = { empty with built := 2 } := by
  intro docs
  have hwithin : ∀ d ∈ placed 0 docs, ∀ x ∈ d.2.elements d.1, x.2.isRecord = true → x.2.Within := by decide
  have hnone : (handed (allMarks "t" docs)).2 = none := rfl
  obtain ⟨-, -, -, hlimits, hend⟩ := run_documents "t" docs
  exact ⟨hwithin, (hlimits hwithin).2, hnone, hend hnone⟩

/-- A record in which a thousand arrays are nested is refused at its end, and not as malformed: no call is left to
read its text. -/
theorem run_documents_deep :
    (empty.run "t" [] (events (.arr [.obj [("n", .nested 1000)]]))).2 = ([], some .deepText) ∧
      ¬ Malformed .deepText := by
  refine ⟨?_, nofun⟩
  rw [run_document, marks_single, ending_deepText "t" rfl]
  rfl

end Assembly

end SnapshotStaging
