import SnapshotStaging.Proofs.Json.Canonical
import SnapshotStaging.Proofs.Page.Spelling
import SnapshotStaging.Proofs.Stage.Pages

/-!
# Layouts of pages

The records of a page are what the record documents in it stand for, in canonical order, whichever form the
page has and however its records are spread over pages. Blanks between tokens are no events, so they are of no
account either.

Main results: `recordsOf_eq_iff`, the records of pages, and `recordsOf_same`: pages that hold the same record
documents but for the order of members hand over the same records.
-/

namespace SnapshotStaging

namespace Document

/-- The record documents of a page: the objects in its root array, or in the arrays among the members of its
root object. -/
def records : Document → List Document
  | .leaf _ => []
  | .arr items => items.filter isRecord
  | .obj members => (members.flatMap fun m => items m.2).filter isRecord

/-- Nothing but records stands in the root array, if there is one. -/
def OnlyRecords (t : Document) : Prop := t.isArray = true → ∀ x ∈ t.items, x.isRecord = true

/-- Record documents that are the same but for the order of members stand for one record. -/
theorem Stands.of_same [Platform] {x x' : Document} {v : Json} (hsame : x.Same x') (h : x.Stands v) : x'.Stands v where
  read := by
    refine List.findSome?_eq_none_iff.2 fun p hp => ?_
    exact List.findSome?_eq_none_iff.1 h.read p ((hsame.pieces_perm 0).mem_iff.2 hp)
  ordered := (Json.order?_eq_of_canonical_eq hsame.canonical_value).trans h.ordered

theorem stands_of_same [Platform] {docs docs' : List Document} {vs : List Json}
    (hsame : List.Forall₂ Tree.Same docs docs') (h : List.Forall₂ Stands docs vs) : List.Forall₂ Stands docs' vs := by
  induction hsame generalizing vs with
  | nil => exact h
  | cons hfirst _ ih =>
    cases h with
    | cons hv hvs => exact .cons (hv.of_same hfirst) (ih hvs)

theorem map_placed (p : Nat) (docs : List Document) : (placed p docs).map Prod.snd = docs := by
  induction docs generalizing p with
  | nil => rfl
  | cons t rest ih => rw [placed, List.map_cons, ih]

theorem map_memberElements (p : Nat) (members : List (String × Document)) :
    (memberElements p members).map Prod.snd = members.flatMap fun m => items m.2 := by
  induction members generalizing p with
  | nil => rfl
  | cons m rest ih => rw [memberElements, List.map_append, map_placed, ih, List.flatMap_cons]

theorem records_eq (t : Document) (p : Nat) : t.records = ((t.elements p).map Prod.snd).filter isRecord := by
  cases t with
  | leaf a => rfl
  | arr items => rw [elements, map_placed, records]
  | obj members => rw [elements, map_memberElements, records]

theorem onlyRecords_iff (t : Document) (p : Nat) :
    t.OnlyRecords ↔ (t.isArray = true → ∀ x ∈ t.elements p, x.2.isRecord = true) := by
  cases t with
  | leaf a => simp [OnlyRecords, isArray]
  | obj members => simp [OnlyRecords, isArray]
  | arr items =>
    have hall : (∀ x ∈ placed (p + 1) items, x.2.isRecord = true) ↔ ∀ x ∈ items, isRecord x = true := by
      rw [← map_placed (p + 1) items, List.forall_mem_map, map_placed]
    exact (imp_congr_right fun _ => hall).symm

end Document

open Document Assembly

section

variable [Platform]

/-! ## The records of a page -/

/-- Nothing is refused, and `vs` are handed over, when the elements are such and stand for these. -/
theorem handed_due_iff (table : String) (root : Bool) (xs : List (Nat × Document)) (vs : List Json) :
    Marks.handed (xs.filterMap (due table root)) = (vs, none) ↔
      (root = true → ∀ x ∈ xs, x.2.isRecord = true) ∧
        List.Forall₂ Document.Stands ((xs.map Prod.snd).filter isRecord) vs := by
  induction xs generalizing vs with
  | nil =>
    constructor
    · rintro ⟨⟩
      exact ⟨fun _ => nofun, .nil⟩
    · rintro ⟨-, hvs⟩
      cases hvs
      rfl
  | cons x xs ih =>
    rw [List.filterMap_cons, List.map_cons]
    cases hx : x.2.isRecord with
    | true =>
      rw [due_of_isRecord hx, List.filter_cons_of_pos hx]
      cases hending : x.2.ending table with
      | mk n o =>
        dsimp only
        cases o with
        | nothing => exact absurd hending (ending_ne_nothing table x.2 n)
        | record v =>
          obtain ⟨-, hv⟩ := ending_eq_record_iff.1 hending
          constructor
          · intro h
            obtain ⟨rfl, hnone⟩ := Prod.mk.inj h
            obtain ⟨hall, hrest⟩ := (ih (Marks.handed (xs.filterMap (due table root))).1).1 (Prod.ext rfl hnone)
            exact ⟨fun hroot => List.forall_mem_cons.2 ⟨hx, hall hroot⟩, .cons hv hrest⟩
          · rintro ⟨hall, hvs⟩
            cases hvs with
            | cons hfirst hrest =>
              cases hfirst.unique hv
              rw [Marks.handed, (ih _).2 ⟨fun hroot x hmem => hall hroot x (List.mem_cons_of_mem _ hmem), hrest⟩]
        | refused err =>
          constructor
          · rintro ⟨⟩
          · rintro ⟨-, hvs⟩
            cases hvs with
            | cons hfirst hrest => cases hending.symm.trans (ending_eq_record_iff.2 ⟨rfl, hfirst⟩)
    | false =>
      rw [List.filter_cons_of_neg (by simp [hx])]
      cases root with
      | true => simp [due_root hx, hx, Marks.handed]
      | false =>
        rw [due_member hx, ih]
        simp

/-- The records of a page that spells a document. -/
theorem Page.Spells.records_eq_iff {bytes : List UInt8} {t : Document} (h : Page.Spells bytes t) (table : String)
    (vs : List Json) :
    Page.records table bytes = (vs, none) ↔ t.OnlyRecords ∧ List.Forall₂ Document.Stands t.records vs := by
  have hhanded := run_document table t
  have hrecords : Page.records table bytes = (vs, none) ↔ Marks.handed (t.marks table 0) = (vs, none) := by
    have hends : (Marks.handed (t.marks table 0)).2 = none →
        (empty.run table [] t.events).1.place = .outsideArray := by
      intro hnone
      exact congrArg Assembly.place ((feeds_document t 0 0).run_eq hnone [])
    rw [← hhanded] at hends ⊢
    simp only [Page.records, Assembly.page, show Page.events bytes = (t.events, none) from h]
    generalize empty.run table [] t.events = ran at hends ⊢
    obtain ⟨a, given, refused⟩ := ran
    cases refused with
    | some err => rfl
    | none => simp [show a.place = .outsideArray from hends rfl]
  rw [hrecords, Document.marks, handed_due_iff, onlyRecords_iff t 0, records_eq t 0]

/-- A page with the tokens of an array of records hands over what these stand for. -/
theorem Page.records_of_stands {bytes : List UInt8} {vs : List Json} (table : String) {xs : List Document}
    (htokens : Format.page.tokens (Octets.glyphs bytes) = ((Tree.arr xs : Document).spell (.tokens Page.lexeme), true))
    (hleaves : (Tree.arr xs : Document).leaves.all Page.holdable = true) (hrecords : xs.all Document.isRecord = true)
    (hstands : List.Forall₂ Document.Stands xs vs) : Page.records table bytes = (vs, none) := by
  have hspells : Page.Spells bytes (.arr xs) := Page.spells_of_tokens htokens (Page.leaves_of_holdable hleaves)
  have hall : ∀ x ∈ xs, x.isRecord = true := List.all_eq_true.1 hrecords
  have hxs : Document.records (.arr xs) = xs := List.filter_eq_self.2 hall
  exact (hspells.records_eq_iff table vs).2 ⟨fun _ => hall, hxs.symm ▸ hstands⟩

/-- The same of records that are in order as they are. -/
theorem Page.records_of_tokens {bytes : List UInt8} {vs : List Json} (table : String) (xs : List Document)
    (htokens : Format.page.tokens (Octets.glyphs bytes) = ((Tree.arr xs : Document).spell (.tokens Page.lexeme), true))
    (hleaves : (Tree.arr xs : Document).leaves.all Page.holdable = true)
    (hread : xs.all (fun x => x.isRecord && (x.fault? Platform.limits).isNone) = true)
    (hmeaning : xs.map Document.meaning = vs)
    (hordered : vs.all (fun v => Platform.limits.admits v.orderingCalls && v.sorted) = true) :
    Page.records table bytes = (vs, none) := by
  have hread (x : Document) (hx : x ∈ xs) : x.isRecord = true ∧ x.fault? Platform.limits = none := by
    simpa using List.all_eq_true.1 hread x hx
  refine Page.records_of_stands table htokens hleaves (List.all_eq_true.2 fun x hx => (hread x hx).1) ?_
  rw [← hmeaning, List.forall₂_map_right_iff]
  refine List.forall₂_same.2 fun x hx => ?_
  have hmem : x.meaning ∈ vs := hmeaning ▸ List.mem_map_of_mem hx
  obtain ⟨hcalls, hsorted⟩ := Bool.and_eq_true_iff.1 (List.all_eq_true.1 hordered _ hmem)
  exact ⟨(hread x hx).2, Json.order?_eq_some_iff.2 ⟨hcalls, Json.canonical_of_sorted hsorted⟩⟩

/-! ## The records of pages -/

end

namespace Staging

variable [Platform] {table : String} {pages pages' : List (List UInt8)} {docs docs' : List Document}

/-- **The records of pages** are what the record documents in them stand for, in order. -/
theorem recordsOf_eq_iff (h : List.Forall₂ Page.Spells pages docs) (table : String) (vs : List Json) :
    failure? table pages = none ∧ recordsOf table pages = vs ↔
      (∀ t ∈ docs, t.OnlyRecords) ∧ List.Forall₂ Document.Stands (docs.flatMap Document.records) vs := by
  induction h generalizing vs with
  | nil =>
    constructor
    · rintro ⟨-, rfl⟩
      exact ⟨nofun, .nil⟩
    · rintro ⟨-, hvs⟩
      cases hvs
      exact ⟨rfl, rfl⟩
  | @cons bytes t pages docs hbytes _ ih =>
    rw [List.flatMap_cons]
    constructor
    · rintro ⟨hnone, rfl⟩
      obtain ⟨hfirst, hrest⟩ := List.findSome?_eq_none_iff.1 hnone |> List.forall_mem_cons.1
      obtain ⟨honly, hstands⟩ := (hbytes.records_eq_iff table _).1 (Prod.ext rfl hfirst)
      obtain ⟨honlys, hall⟩ := (ih _).1 ⟨List.findSome?_eq_none_iff.2 hrest, rfl⟩
      exact ⟨List.forall_mem_cons.2 ⟨honly, honlys⟩, List.rel_append hstands hall⟩
    · rintro ⟨honlys, hall⟩
      obtain ⟨honly, honlys⟩ := List.forall_mem_cons.1 honlys
      obtain ⟨vs, ws, rfl, hfirst, hrest⟩ : ∃ xs ys, vs = xs ++ ys ∧ List.Forall₂ Document.Stands t.records xs ∧
          List.Forall₂ Document.Stands (docs.flatMap Document.records) ys :=
        ⟨_, _, (List.take_append_drop t.records.length vs).symm, (List.forall₂_take_append _ _ _ hall.flip).flip,
          (List.forall₂_drop_append _ _ _ hall.flip).flip⟩
      obtain ⟨hnone, hrecords⟩ := (ih ws).2 ⟨honlys, hrest⟩
      have hpage := (hbytes.records_eq_iff table vs).2 ⟨honly, hfirst⟩
      refine ⟨?_, ?_⟩
      · rw [failure?, List.findSome?_cons, hpage]
        exact hnone
      · rw [recordsOf, List.flatMap_cons, hpage]
        exact congrArg (vs ++ ·) hrecords

/-- **Pages that hold the same record documents**, but for the order of members, hand over the same records. -/
theorem recordsOf_same (h : List.Forall₂ Page.Spells pages docs) (h' : List.Forall₂ Page.Spells pages' docs')
    (honly : ∀ t ∈ docs', t.OnlyRecords)
    (hsame : List.Forall₂ Tree.Same (docs.flatMap Document.records) (docs'.flatMap Document.records))
    (hnone : failure? table pages = none) :
    failure? table pages' = none ∧ recordsOf table pages' = recordsOf table pages := by
  obtain ⟨-, hstands⟩ := (recordsOf_eq_iff h table _).1 ⟨hnone, rfl⟩
  exact (recordsOf_eq_iff h' table _).2 ⟨honly, stands_of_same hsame hstands⟩

end Staging

end SnapshotStaging
