import SnapshotStaging.Proofs.Key.Store
import SnapshotStaging.Proofs.Load.Closure
import SnapshotStaging.Proofs.Stage.Pages

/-!
# Loads that are done again

A step of a load looks at its encoder, the loading table and the keys that it is given, and at nothing else
of a session. So a step that succeeded succeeds again, with the same outcome, in every session with the same
loading table that gives the same keys. Which pages the records came from is of no account.

Main results: `runPass_repeats` puts the records of a pass that succeeded in a row, and `runPass_again` spreads
them over other pages.
-/

namespace SnapshotStaging

/-! ## Statements on the rows of a loading table -/

namespace Warehouse

variable {w w' w'' : Warehouse} {name table : String} {columns : List Column} {rows new all : List Row}

/-- All tables but one are the same, and so are the time and the dialect. -/
structure SameBut (name : String) (w w' : Warehouse) : Prop where
  found : ∀ other, fold other ≠ fold name → w'.find? other = w.find? other
  now : w'.now = w.now
  dialect : w'.dialect = w.dialect

theorem SameBut.refl (name : String) (w : Warehouse) : SameBut name w w := ⟨fun _ _ => rfl, rfl, rfl⟩

theorem SameBut.symm (h : SameBut name w w') : SameBut name w' w :=
  ⟨fun other hother => (h.found other hother).symm, h.now.symm, h.dialect.symm⟩

theorem SameBut.trans (h : SameBut name w w') (h' : SameBut name w' w'') : SameBut name w w'' :=
  ⟨fun other hother => (h'.found other hother).trans (h.found other hother), h'.now.trans h.now,
    h'.dialect.trans h.dialect⟩

theorem sameBut_put (w : Warehouse) (name : String) (r : Relation) : SameBut name w (w.begun.put name r) :=
  ⟨fun _ hother => find?_put_of_ne w.begun r hother, rfl, rfl⟩

/-- A statement on the rows of a loading table. -/
inductive OnRows (table : String) : Statement → Prop
  | insert (rows : List Row) : OnRows table (.insert table rows)
  | deleteKey (sk : Int) : OnRows table (.deleteKey table sk)

/-- Rows that were inserted are distinct from those before them. -/
theorem pairwise_of_insertAll (h : insertAll rows new = some all) (hrows : rows.Pairwise Distinct) :
    all.Pairwise Distinct := by
  induction new generalizing rows with
  | nil =>
    cases h
    exact hrows
  | cons r new ih =>
    rw [insertAll] at h
    split at h
    · next hadmissible =>
      refine ih h (List.pairwise_append.2 ⟨hrows, List.pairwise_singleton .., ?_⟩)
      intro other hother last hlast
      rw [List.mem_singleton.1 hlast]
      simpa [Distinct] using List.all_eq_true.1 hadmissible other hother
    · cases h

/-- What such a statement did it does wherever the loading table is the same. -/
theorem execute_onRows {st : Statement} {n : Int} (hst : OnRows table st) (h : execute st w = .ok n w') :
    ∃ columns rows all, w.find? (TableName.loading table) = some (.snapshot columns rows) ∧
      w' = w.begun.put (TableName.loading table) (.snapshot columns all) ∧
      (rows.Pairwise Distinct → all.Pairwise Distinct) ∧
      ∀ v : Warehouse, v.find? (TableName.loading table) = some (.snapshot columns rows) →
        execute st v = .ok n (v.begun.put (TableName.loading table) (.snapshot columns all)) := by
  cases hst with
  | insert new =>
    simp only [execute, changesRows, if_true, apply] at h
    split at h
    · next columns rows hfound =>
      split at h
      · cases h
      · next hwidth =>
        split at h
        · next all hall =>
          cases h
          refine ⟨columns, rows, all, hfound, rfl, pairwise_of_insertAll hall, ?_⟩
          intro v hv
          have hv : v.begun.find? (TableName.loading table) = some (.snapshot columns rows) := hv
          simp only [execute, changesRows, if_true, apply, hv, hwidth, hall]
          rfl
        · cases h
    · cases h
  | deleteKey sk =>
    simp only [execute, changesRows, if_true, apply] at h
    split at h
    · next columns rows hfound =>
      cases h
      refine ⟨columns, rows, _, hfound, rfl, fun hrows => hrows.filter _, ?_⟩
      intro v hv
      have hv : v.begun.find? (TableName.loading table) = some (.snapshot columns rows) := hv
      simp only [execute, changesRows, if_true, apply, hv]
    · cases h

/-- Neither a transaction nor a new key touches the tables. -/
theorem untouched_tables : Untouched fun w : Warehouse => (w.tables.relations, w.now, w.dialect) where
  start _ := rfl
  commit _ := rfl
  readable _ := rfl
  addKeys rows w := by
    simp only [Database.addKeys, addKeys]
    split <;> rfl

theorem sameBut_of_tables (h : (w'.tables.relations, w'.now, w'.dialect) = (w.tables.relations, w.now, w.dialect)) :
    SameBut name w w' ∧ ∀ other, w'.find? other = w.find? other := by
  obtain ⟨hrelations, hrest⟩ := Prod.mk.inj h
  obtain ⟨hnow, hdialect⟩ := Prod.mk.inj hrest
  have hfound (other : String) : w'.find? other = w.find? other := by rw [find?, find?, hrelations]
  exact ⟨⟨fun other _ => hfound other, hnow, hdialect⟩, hfound⟩

end Warehouse

open Warehouse Encoder

variable {table : String} {α β : Type} {e e' : Encoder} {s s' s'' : Session Warehouse}

/-! ## Steps that are done again -/

namespace Session

/-- What a session has in the loading table of a table. -/
def loading? (table : String) (s : Session Warehouse) : Option Relation :=
  s.database.find? (TableName.loading table)

/-- Two sessions that give the same keys and have the same tables but the loading table. -/
structure Near (table : String) (s s' : Session Warehouse) : Prop where
  tables : s.database.SameBut (TableName.loading table) s'.database
  given : s'.given? = s.given?

theorem Near.refl (table : String) (s : Session Warehouse) : s.Near table s := ⟨.refl .., rfl⟩

theorem Near.symm (h : s.Near table s') : s'.Near table s := ⟨h.tables.symm, h.given.symm⟩

theorem Near.trans (h : s.Near table s') (h' : s'.Near table s'') : s.Near table s'' :=
  ⟨h.tables.trans h'.tables, h'.given.trans h.given⟩

/-- A session gives the keys that a store remembers. -/
def Gives (k : KeyStore) (s : Session Warehouse) : Prop :=
  ∀ ⦃scope id n⦄, k.key? scope id = some n → s.given? scope id = some n

theorem Gives.near {k : KeyStore} (h : Gives k s) (hnear : s.Near table s') : Gives k s' := by
  intro scope id n hn
  rw [hnear.given]
  exact h hn

/-- A session gives what the store of a session near to it remembers. -/
theorem Near.gives (h : s.Near table s') : Gives s'.keys s := by
  intro scope id n hn
  rw [← h.given]
  exact given?_of_key? hn

theorem Gives.of_extends {k k' : KeyStore} (h : Gives k' s) (hk : k.Extends k') : Gives k s :=
  fun _ _ _ hn => h (hk.keys hn)

end Session

open Session

/-- A table with these columns and rows that are distinct. -/
def Relation.Sound (columns : List Column) (r : Option Relation) : Prop :=
  ∃ rows, r = some (.snapshot columns rows) ∧ rows.Pairwise Distinct

/-- What a step of an encoder for `table` did from `st` to `st'` it does again in every session with the same
loading table that gives the keys. -/
structure Repeats (table : String) (x : Step Warehouse α) (st : Encoder × Session Warehouse) (a : α)
    (st' : Encoder × Session Warehouse) : Prop where
  own : st'.1.table = table
  keys : st.2.keys.Extends st'.2.keys
  tables : st.2.database.SameBut (TableName.loading table) st'.2.database
  sound : ∀ columns, Relation.Sound columns (st.2.loading? table) → Relation.Sound columns (st'.2.loading? table)
  again : ∀ s, Gives st'.2.keys s → s.loading? table = st.2.loading? table →
    ∃ s', x (st.1, s) = .ok a (st'.1, s') ∧ s'.loading? table = st'.2.loading? table ∧ s.Near table s'

theorem Repeats.refl (a : α) (h : e.table = table) : Repeats table (pure a) (e, s) a (e, s) :=
  ⟨h, .refl _, .refl .., fun _ h => h, fun s _ hloading => ⟨s, rfl, hloading, .refl ..⟩⟩

theorem Repeats.bind {x : Step Warehouse α} {f : α → Step Warehouse β} {a : α} {b : β}
    {st mid st' : Encoder × Session Warehouse} (hx : Repeats table x st a mid) (hf : Repeats table (f a) mid b st') :
    Repeats table (x >>= f) st b st' where
  own := hf.own
  keys := hx.keys.trans hf.keys
  tables := hx.tables.trans hf.tables
  sound columns h := hf.sound columns (hx.sound columns h)
  again s hgives hloading := by
    obtain ⟨s₁, hs₁, hloading₁, hnear₁⟩ := hx.again s (hgives.of_extends hf.keys) hloading
    obtain ⟨s₂, hs₂, hloading₂, hnear₂⟩ := hf.again s₁ (hgives.near hnear₁) hloading₁
    exact ⟨s₂, (bind_ok hs₁).trans hs₂, hloading₂, hnear₁.trans hnear₂⟩

/-- The log is of no account. -/
theorem Repeats.of_log {x : Step Warehouse α} {st : Encoder × Session Warehouse} {a : α} (log : List Log.Entry)
    (h : Repeats table x st a (e, s)) : Repeats table x st a (e, { s with log := log }) :=
  ⟨h.own, h.keys, h.tables, h.sound, h.again⟩

/-- A step that does again whatever it has done. -/
def Repeating (table : String) (x : Step Warehouse α) : Prop :=
  ∀ st a st', st.1.table = table → x st = .ok a st' → Repeats table x st a st'

theorem repeating_execute {st : Statement} (hst : OnRows table st) :
    Repeating table (Pass.onSession (Task.execute st)) := by
  rintro ⟨e, s⟩ n ⟨e', s'⟩ he h
  cases hexecute : execute st s.database with
  | error err w =>
    have herror : Task.execute st s = .error err { s with database := w } := by
      rw [Task.execute, show Database.execute st s.database = _ from hexecute]
    rw [Pass.onSession_error herror] at h
    cases h
  | ok m w =>
    rw [Pass.onSession_ok (Task.execute_ok hexecute)] at h
    cases h
    obtain ⟨columns, rows, all, hfound, rfl, hsound, hagain⟩ := execute_onRows hst hexecute
    refine ⟨he, .refl _, sameBut_put .., ?_, ?_⟩
    · rintro columns' ⟨rows', hfound', hrows⟩
      obtain ⟨rfl, rfl⟩ : columns = columns' ∧ rows = rows' := by simpa using hfound.symm.trans hfound'
      exact ⟨all, find?_put _ _ rfl, hsound hrows⟩
    · intro v _ hloading
      have hfound' : v.database.find? (TableName.loading table) = some (.snapshot columns rows) :=
        hloading.trans hfound
      refine ⟨_, Pass.onSession_ok (Task.execute_ok (hagain _ hfound')) e, ?_, sameBut_put .., ?_⟩
      · exact (find?_put _ _ rfl).trans (find?_put _ _ rfl).symm
      · exact given?_congr rfl rfl

theorem repeating_resolve (table scope id : String) :
    Repeating table (Pass.onSession (Task.resolve scope id)) := by
  rintro ⟨e, s⟩ n ⟨e', s'⟩ he h
  cases hresolve : Task.resolve scope id s with
  | error err s₁ =>
    rw [Pass.onSession_error hresolve] at h
    cases h
  | ok m s₁ =>
    rw [Pass.onSession_ok hresolve] at h
    cases h
    obtain ⟨hkept, hextends, hknown⟩ := Task.resolve_ok untouched_tables hresolve
    obtain ⟨htables, hfound⟩ := sameBut_of_tables hkept
    refine ⟨he, hextends, htables, ?_, ?_⟩
    · rintro columns ⟨rows, hrows, hdistinct⟩
      exact ⟨rows, (hfound _).trans hrows, hdistinct⟩
    · intro v hgives hloading
      obtain ⟨v', hv', hdatabase, hgiven⟩ := Task.resolve_given (Warehouse.readable_eq _) (hgives hknown)
      refine ⟨v', Pass.onSession_ok hv' e, ?_, ?_, hgiven⟩
      · rw [loading?, hdatabase]
        exact hloading.trans (hfound _).symm
      · rw [hdatabase]
        exact .refl ..

/-- **Steps of the encoder do again what they have done.** -/
theorem repeating_closed (table : String) :
    Encoder.Closed table (fun _ => Repeating table) (OnRows table) fun _ => True where
  pure a := by
    rintro ⟨e, s⟩ _ _ he h
    cases h
    exact .refl a he
  bind hx hf := by
    intro st b st' he h
    obtain ⟨a, mid, hxa, hfa⟩ := of_bind_ok h
    have hfirst := hx st a mid he hxa
    exact hfirst.bind (hf a mid b st' hfirst.own hfa)
  throw _ := by
    intro _ _ _ _ h
    cases h
  look hf := by
    rintro ⟨e, s⟩ a st' he h
    have hrest := hf e he (e, s) a st' he h
    exact ⟨hrest.own, hrest.keys, hrest.tables, hrest.sound, hrest.again⟩
  own hf := by
    rintro ⟨e, s⟩ _ _ he h
    cases h
    exact ⟨(hf e).trans he, .refl _, .refl .., fun _ h => h, fun v _ hloading => ⟨v, rfl, hloading, .refl ..⟩⟩
  log entry := by
    rintro ⟨e, s⟩ _ _ he h
    cases h
    exact ⟨he, .refl _, .refl .., fun _ h => h, fun v _ hloading => ⟨_, rfl, hloading, .refl .., given?_congr rfl rfl⟩⟩
  execute hst := repeating_execute hst
  resolve scope id := repeating_resolve table scope id

namespace Staging

variable {store : PageStore} {rules : Option Redaction.Rules} {count : Nat}

theorem repeating_writeAll (table : String) (rules : Option Redaction.Rules) (records : List Json) :
    Repeating table (writeAll rules records) :=
  (repeating_closed table).writeAll .insert .deleteKey rules fun _ _ _ _ => trivial

theorem repeating_finish (table : String) : Repeating table finish :=
  (repeating_closed table).flush .insert

theorem writeAll_append (rules : Option Redaction.Rules) (records rest : List Json) :
    (writeAll rules (records ++ rest) : Step Warehouse Unit) =
      writeAll rules records >>= fun _ => writeAll rules rest := by
  induction records with
  | nil => rfl
  | cons record records ih =>
    rw [List.cons_append, writeAll, writeAll, ih, bind_assoc]

/-! ## From pages to a row of records -/

/-- A pass that succeeded can be done again as one row of records. -/
theorem runPass_repeats [Platform] (he : e.table = table)
    (h : runPass store table .load count (loadPage table rules) (e, s) = .ok () (e', s')) :
    failure? table (pages store table count) = none ∧
      Repeats table (writeAll rules (recordsOf table (pages store table count))) (e, s) () (e', s') := by
  let P (done : List (List UInt8)) (st : Encoder × Session Warehouse) : Prop :=
    failure? table done = none ∧ Repeats table (writeAll rules (recordsOf table done)) (e, s) () st
  have hpass : Ends (P []) (runPass store table .load count (loadPage table rules))
      (fun _ => P (pages store table count)) fun _ => True := by
    refine runPass_ends (fun done t s log h => ⟨h.1, h.2.of_log log⟩) ?_
    intro done bytes later _
    refine Ends.assuming (fun _ h => h.1) fun hdone => ?_
    have hnext := failure?_append hdone bytes []
    have hrecords := recordsOf_append table done bytes
    unfold loadPage
    generalize Page.records table bytes = page at hnext hrecords ⊢
    obtain ⟨records, failure⟩ := page
    refine Ends.bind (Q := fun _ st => Repeats table (writeAll rules (recordsOf table (done ++ [bytes]))) (e, s) () st)
      ?_ fun _ => ?_
    · rintro st ⟨-, hst⟩
      cases hwritten : writeAll rules records st with
      | error err st' => trivial
      | ok a st' =>
        show Repeats ..
        rw [hrecords, writeAll_append]
        exact hst.bind (repeating_writeAll table rules records st a st' hst.own hwritten)
    · refine ((failing_ends failure).mono (fun _ h => h) (fun _ _ h => h) fun _ _ => trivial).bind fun _ =>
        ends_pure ?_
      rintro st ⟨hst, rfl⟩
      exact ⟨hnext, hst⟩
  exact hpass.of_ok ⟨rfl, .refl () he⟩ h

/-! ## From a row of records to pages -/

/-- What is left to write in `st` ends with the encoder `e'` and the loading table `r`. -/
def Leads (rules : Option Redaction.Rules) (table : String) (e' : Encoder) (r : Option Relation) (rest : List Json)
    (st : Encoder × Session Warehouse) : Prop :=
  st.1.table = table ∧ ∃ s', writeAll rules rest st = .ok () (e', s') ∧ s'.loading? table = r ∧ st.2.Near table s'

variable {r : Option Relation} {rest : List Json}

/-- What it ends with is not a matter of the log. -/
theorem Leads.of_log (h : Leads rules table e' r rest (e, s)) (log : List Log.Entry) :
    Leads rules table e' r rest (e, { s with log := log }) := by
  obtain ⟨he, s', hwritten, hloading, hnear⟩ := h
  obtain ⟨v, hv, hloading', hnear'⟩ :=
    (repeating_writeAll table rules rest _ _ _ he hwritten).again { s with log := log } hnear.gives rfl
  exact ⟨he, v, hv, hloading'.trans hloading, hnear'⟩

/-- The first of the records left to write are written. -/
theorem Leads.append {first : List Json} (h : Leads rules table e' r (first ++ rest) (e, s)) :
    ∃ e₁ s₁, writeAll rules first (e, s) = .ok () (e₁, s₁) ∧ s.Near table s₁ ∧
      Leads rules table e' r rest (e₁, s₁) := by
  obtain ⟨he, s', hwritten, hloading, hnear⟩ := h
  rw [writeAll_append] at hwritten
  obtain ⟨_, ⟨e₁, s₁⟩, hfirst, hrest⟩ := of_bind_ok hwritten
  have hrepeats := repeating_writeAll table rules first _ _ _ he hfirst
  have hlast := repeating_writeAll table rules rest _ _ _ hrepeats.own hrest
  obtain ⟨v, hv, -, hnear₁⟩ := hrepeats.again s (hnear.gives.of_extends hlast.keys) rfl
  obtain rfl : s₁ = v := by
    rw [hfirst] at hv
    cases hv
    rfl
  exact ⟨e₁, s₁, hfirst, hnear₁, hrepeats.own, s', hrest, hloading, hnear₁.symm.trans hnear⟩

/-- Records that can be written in a row can be written page by page. -/
theorem runPass_again [Platform] (hfailure : failure? table (pages store table count) = none)
    (h : Leads rules table e' r (recordsOf table (pages store table count)) (e, s)) :
    ∃ s', runPass store table .load count (loadPage table rules) (e, s) = .ok () (e', s') ∧
      s'.loading? table = r ∧ s.Near table s' := by
  let all := pages store table count
  let P (done : List (List UInt8)) (st : Encoder × Session Warehouse) : Prop :=
    s.Near table st.2 ∧ ∀ later, all = done ++ later → Leads rules table e' r (recordsOf table later) st
  have hpass : Ends (P []) (runPass store table .load count (loadPage table rules)) (fun _ => P all)
      fun _ => False := by
    refine runPass_ends ?_ ?_
    · rintro done t s₁ log ⟨hnear, hrest⟩
      exact ⟨hnear.trans ⟨.refl .., given?_congr rfl rfl⟩, fun later hall => (hrest later hall).of_log log⟩
    · rintro done bytes later hall ⟨e₁, s₁⟩ ⟨hnear, hrest⟩
      have hnone : (Page.records table bytes).2 = none :=
        List.findSome?_eq_none_iff.1 hfailure bytes (by simp [hall])
      have hboth : Leads rules table e' r ((Page.records table bytes).1 ++ recordsOf table later) (e₁, s₁) := by
        simpa [recordsOf] using hrest _ hall
      obtain ⟨e₂, s₂, hwritten, hnear₂, hleads⟩ := hboth.append
      have hpage : loadPage table rules bytes (e₁, s₁) = .ok (Page.records table bytes).1.length (e₂, s₂) := by
        unfold loadPage
        generalize Page.records table bytes = page at hwritten hnone ⊢
        obtain ⟨records, failure⟩ := page
        obtain rfl : failure = none := hnone
        exact bind_ok hwritten
      rw [hpage]
      refine ⟨hnear.trans hnear₂, fun later' hall' => ?_⟩
      obtain rfl : later' = later := by
        have hboth := hall'.symm.trans hall
        simpa using hboth
      exact hleads
  have hend := hpass (e, s) ⟨.refl .., fun later hall => by rwa [← show all = later from hall]⟩
  cases hrun : runPass store table .load count (loadPage table rules) (e, s) with
  | error err st =>
    rw [hrun] at hend
    exact hend.elim
  | ok a st =>
    rw [hrun] at hend
    obtain ⟨hnear, hlast⟩ := hend
    obtain ⟨-, s', hnil, hloading, -⟩ := hlast [] (List.append_nil _).symm
    cases hnil
    exact ⟨s', rfl, hloading, hnear⟩

end Staging

end SnapshotStaging
