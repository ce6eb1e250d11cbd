import SnapshotStaging.Proofs.History.Repetition
import SnapshotStaging.Proofs.Key.Kept
import SnapshotStaging.Proofs.Stage.Outcomes

/-!
# Rows that are backed by keys

A row is backed by assignments when its key is the one of its identifier in the scope of its table, and the key
beside each of its references is the one of that reference. A session goes by the assignments that its process has
answered and by those that are committed (`Session.Knows`); it never forgets one, so what is backed stays backed.
In a `Secure` session all rows of all live and loading tables are backed, in the tables and in what a rollback goes
back to.

Main results: `Warehouse.Executed.backed` and `Warehouse.Executed.backed_insert`, for statements, and
`DurableKeys.Secure.answered`, for calls.
-/

namespace SnapshotStaging

open Assignment

/-! ## Rows -/

/-- The keys beside references that are not null, each with its reference. -/
def companions : List Column → List Literal → List (Literal × String)
  | [], _ => []
  | column :: rest, cells =>
    if column.type = .reference then
      match cells with
      | key :: .text s :: cells => (key, s) :: companions rest cells
      | _ :: _ :: cells => companions rest cells
      | _ => []
    else companions rest cells.tail

/-- A key stands beside a reference as it was given. -/
def Linked (F : Assignment → Prop) (p : Literal × String) : Prop :=
  ∃ n : Nat, p.1 = .integer n ∧ F ⟨referenceScope, p.2, n⟩

/-- A row of a table has the keys that assignments give it. -/
structure Row.Backed (F : Assignment → Prop) (table : String) (columns : List Column) (r : Row) : Prop where
  key : ∃ n : Nat, r.sk = n ∧ F ⟨table, r.id, n⟩
  references : ∀ p ∈ companions columns r.cells, Linked F p

section

variable {F G : Assignment → Prop} {table : String} {columns : List Column} {r : Row}

theorem Linked.mono {p : Literal × String} (h : Linked F p) (hFG : ∀ a, F a → G a) : Linked G p := by
  obtain ⟨n, hn, hF⟩ := h
  exact ⟨n, hn, hFG _ hF⟩

theorem Row.Backed.mono (h : r.Backed F table columns) (hFG : ∀ a, F a → G a) : r.Backed G table columns := by
  obtain ⟨n, hn, hF⟩ := h.key
  exact ⟨⟨n, hn, hFG _ hF⟩, fun p hp => (h.references p hp).mono hFG⟩

end

/-! ## Tables -/

/-- Names of tables that are not taken for each other: neither two of them are one in small letters, nor one and
the name of another's loading table. -/
structure Apart (names : String → Prop) : Prop where
  distinct : ∀ t u, names t → names u → Warehouse.fold t = Warehouse.fold u → t = u
  loading : ∀ t u, names t → names u → Warehouse.fold t ≠ Warehouse.fold (TableName.loading u)

theorem fold_loading_inj {t u : String}
    (h : Warehouse.fold (TableName.loading t) = Warehouse.fold (TableName.loading u)) :
    Warehouse.fold t = Warehouse.fold u := by
  have hfold (name : String) : (Warehouse.fold name).toList = name.toList.map Char.toLower := String.toList_map ..
  rw [← String.toList_inj, hfold, hfold, TableName.loading, TableName.loading, String.toList_append,
    String.toList_append, List.map_append, List.map_append] at h
  rw [← String.toList_inj, hfold, hfold]
  exact List.append_cancel_right h

namespace Tables

variable {F G : Assignment → Prop} {names : String → Prop} {t t' : Tables}

/-- All rows of the live and the loading tables are backed. -/
def Backed (F : Assignment → Prop) (names : String → Prop) (t : Tables) : Prop :=
  ∀ name, names name → ∀ place ∈ [name, TableName.loading name], ∀ columns rows,
    t.find? place = some (.snapshot columns rows) → ∀ r ∈ rows, r.Backed F name columns

theorem Backed.mono (h : Backed F names t) (hFG : ∀ a, F a → G a) : Backed G names t :=
  fun name hname place hplace columns rows hfound r hr => (h name hname place hplace columns rows hfound r hr).mono hFG

/-- Tables of which every row was in the tables before. -/
theorem Backed.of_rows (h : Backed F names t)
    (hrows : ∀ place columns rows, t'.find? place = some (.snapshot columns rows) →
      ∃ rows', t.find? place = some (.snapshot columns rows') ∧ ∀ r ∈ rows, r ∈ rows') : Backed F names t' := by
  intro name hname place hplace columns rows hfound r hr
  obtain ⟨rows', hfound', hsub⟩ := hrows place columns rows hfound
  exact h name hname place hplace columns rows' hfound' r (hsub r hr)

theorem Backed.of_relations (h : Backed F names t) (hsame : t'.relations = t.relations) : Backed F names t' := by
  refine h.of_rows fun place columns rows hfound => ⟨rows, ?_, fun r hr => hr⟩
  rwa [find?, hsame] at hfound

end Tables

namespace Warehouse

variable {F : Assignment → Prop} {names : String → Prop} {w w' : Warehouse} {st : Statement} {n : Int}
  {table name : String} {columns : List Column} {rows : List Row}

/-- A place that is set holds what it was set to, and all others what they held. -/
theorem find?_put_cases {r r' : Relation} {place : String} (h : (w.put name r).find? place = some r') :
    fold place = fold name ∧ r' = r ∨ fold place ≠ fold name ∧ w.find? place = some r' := by
  by_cases hplace : fold place = fold name
  · rw [find?_put _ _ hplace] at h
    exact .inl ⟨hplace, (Option.some.inj h).symm⟩
  · rw [find?_put_of_ne _ _ hplace] at h
    exact .inr ⟨hplace, h⟩

theorem find?_of_without {r : Relation} {place : String} (h : (w.without name).find? place = some r) :
    w.find? place = some r := by
  by_cases hplace : fold place = fold name
  · rw [find?_without _ hplace] at h
    cases h
  · rwa [find?_without_of_ne _ hplace] at h

theorem backed_without (h : w.tables.Backed F names) (name : String) : (w.without name).tables.Backed F names :=
  h.of_rows fun _ _ rows hfound => ⟨rows, find?_of_without hfound, fun _ hr => hr⟩

/-- Setting a relation whose rows, if it has any, were in its place before. -/
theorem backed_put (h : w.tables.Backed F names) {r : Relation}
    (hr : ∀ columns rows, r = .snapshot columns rows →
      rows = [] ∨ ∃ rows', w.find? name = some (.snapshot columns rows') ∧ ∀ row ∈ rows, row ∈ rows') :
    (w.put name r).tables.Backed F names := by
  intro t ht place hplace columns rows hfound row hrow
  rcases find?_put_cases hfound with ⟨hsame, hput⟩ | ⟨-, hfound⟩
  · rcases hr columns rows hput.symm with rfl | ⟨rows', hfound', hsub⟩
    · cases hrow
    · have hplace' : w.find? place = some (.snapshot columns rows') := by
        rw [find?, hsame]
        exact hfound'
      exact h t ht place hplace columns rows' hplace' row (hsub row hrow)
  · exact h t ht place hplace columns rows hfound row hrow

/-- Setting the live or the loading table of a table to backed rows. -/
theorem backed_put_rows (hnames : Apart names) (h : w.tables.Backed F names) (hname : names table)
    (hplace : name ∈ [table, TableName.loading table]) (hrows : ∀ r ∈ rows, r.Backed F table columns) :
    (w.put name (.snapshot columns rows)).tables.Backed F names := by
  intro t ht place hplace' columns' rows' hfound row hrow
  rcases find?_put_cases hfound with ⟨hsame, hput⟩ | ⟨-, hfound⟩
  · obtain ⟨rfl, rfl⟩ : columns' = columns ∧ rows' = rows := by simpa using hput
    have ht : t = table := by
      simp only [List.mem_cons, List.not_mem_nil, or_false] at hplace hplace'
      rcases hplace with rfl | rfl
      · rcases hplace' with rfl | rfl
        · exact hnames.distinct _ _ ht hname hsame
        · exact absurd hsame.symm (hnames.loading _ _ hname ht)
      · rcases hplace' with rfl | rfl
        · exact absurd hsame (hnames.loading _ _ ht hname)
        · exact hnames.distinct _ _ ht hname (fold_loading_inj hsame)
    exact ht ▸ hrows row hrow
  · exact h t ht place hplace' columns' rows' hfound row hrow

/-- The statements of a table's turn that bring no new rows. -/
inductive Rearranges (table : String) : Statement → Prop
  | drop (name : String) : Rearranges table (.drop name)
  | createLoading (columns : List Column) : Rearranges table (.createLoading table columns)
  | comment (text : String) : Rearranges table (.comment table text)
  | grant (grantee : String) : Rearranges table (.grant table grantee)
  | deleteKey (sk : Int) : Rearranges table (.deleteKey table sk)
  | createHistory : Rearranges table (.createHistory table)
  | createLatest : Rearranges table (.createLatest table)
  | appendChanges : Rearranges table (.appendChanges table)
  | promote : Rearranges table (.rename (TableName.loading table) table)

/-- They keep all rows backed. -/
theorem Executed.backed (h : Executed w st n w') (hst : Rearranges table st) (hnames : Apart names)
    (hname : names table) (hbacked : w.tables.Backed F names) : w'.tables.Backed F names := by
  have hbegun : w.begun.tables.Backed F names := hbacked
  cases hst with
  | drop name =>
    cases h
    exact backed_without hbacked _
  | createLoading columns =>
    cases h
    exact backed_put hbacked fun _ _ heq => .inl (by cases heq; rfl)
  | comment text => cases h
  | grant grantee => cases h
  | deleteKey sk =>
    cases h with
    | @deleteKey _ _ columns rows _ hfound =>
      refine backed_put hbegun fun columns' rows' heq => .inr ⟨rows, ?_, ?_⟩
      · obtain ⟨rfl, -⟩ : columns = columns' ∧ _ := by simpa using heq
        exact hfound
      · cases heq
        exact fun row hrow => (List.mem_filter.1 hrow).1
  | createHistory =>
    cases h with
    | keepHistory hfound => exact hbacked
    | createHistory hnone => exact backed_put hbacked nofun
  | createLatest =>
    cases h
    exact backed_put hbacked nofun
  | appendChanges =>
    cases h
    exact backed_put hbegun nofun
  | promote =>
    cases h with
    | @rename _ _ r hfound hnone =>
      have hwithout := backed_without hbacked (TableName.loading table)
      cases r with
      | snapshot columns rows =>
        exact backed_put_rows hnames hwithout hname (List.mem_cons_self ..)
          (hbacked table hname _ (List.mem_cons_of_mem _ (List.mem_singleton_self _)) columns rows hfound)
      | history versions => exact backed_put hwithout nofun
      | latest versions => exact backed_put hwithout nofun

/-- Inserting backed rows keeps all rows backed. -/
theorem Executed.backed_insert {new : List Row} (h : Executed w (.insert table new) n w') (hnames : Apart names)
    (hname : names table) (hbacked : w.tables.Backed F names)
    (hnew : ∀ columns rows, w.find? (TableName.loading table) = some (.snapshot columns rows) →
      ∀ r ∈ new, r.Backed F table columns) : w'.tables.Backed F names := by
  have hplace : TableName.loading table ∈ [table, TableName.loading table] :=
    List.mem_cons_of_mem _ (List.mem_singleton_self _)
  cases h with
  | @insert _ columns rows _ hfound =>
    refine backed_put_rows hnames (w := w.begun) hbacked hname hplace fun r hr => ?_
    rcases List.mem_append.1 hr with hr | hr
    · exact hbacked table hname _ hplace columns rows hfound r hr
    · exact hnew columns rows hfound r hr

/-- No statement touches what a rollback of keys goes back to. -/
theorem Executed.restored (h : Executed w st n w') : w'.restored = w.restored := by
  have hrestored (v : Warehouse) : v.restored = v.committed.keys := rfl
  rcases h.committed_eq with hsame | ⟨hidle, -, hnow⟩
  · rw [hrestored, hrestored, hsame]
  · rw [hrestored, hrestored, hnow, h.keys, Warehouse.committed_eq hidle]

end Warehouse

/-! ## Sessions -/

theorem DurableKeys.Kept.congr {k : DurableKeys} {w w' : Warehouse} (h : k.Kept w)
    (hkeys : w'.tables.keys = w.tables.keys) (hrestored : w'.restored = w.restored) : k.Kept w' where
  consistent := hkeys ▸ h.consistent
  restored := hkeys ▸ hrestored ▸ h.restored
  inj := h.inj
  agrees hn a ha := h.agrees hn a (hkeys ▸ ha)
  placed := hkeys ▸ h.placed
  undoes a ha := hrestored ▸ h.undoes a (hkeys ▸ ha)
  idle hnone := hkeys ▸ hrestored ▸ h.idle hnone
  counted := h.counted
  unwritten_cached := h.unwritten_cached
  written_cached := h.written_cached
  unwritten_nodup := h.unwritten_nodup
  written_nodup := h.written_nodup

variable {σ : Type} {view : σ → Warehouse} {names : String → Prop} {F G : Assignment → Prop}

/-- What a store of keys goes by: what its process has answered, and what is committed. -/
def DurableKeys.Knows (k : DurableKeys) (w : Warehouse) (a : Assignment) : Prop :=
  lookup a.scope a.id k.cache = some a.key ∨ a ∈ w.restored

/-- What a session with a durable store goes by. -/
def Session.Knows (view : σ → Warehouse) (s : Session σ) (a : Assignment) : Prop :=
  ∃ k, s.keys = .durable k ∧ k.Knows (view s.database) a

/-- A store and a warehouse of which all rows are backed; `F` are assignments that are known. -/
structure DurableKeys.Secure (names : String → Prop) (F : Assignment → Prop) (k : DurableKeys) (w : Warehouse) :
    Prop where
  kept : k.Kept w
  tables : w.tables.Backed (k.Knows w) names
  committed : w.committed.Backed (k.Knows w) names
  knows : ∀ a, F a → k.Knows w a

namespace DurableKeys

variable {k k' : DurableKeys} {w w' : Warehouse} {s i : String} {n : Nat}

theorem Secure.congr (h : k.Secure names F w) (hkeys : w'.tables.keys = w.tables.keys)
    (hrestored : w'.restored = w.restored) (htables : w'.tables.Backed (k.Knows w) names)
    (hcommitted : w'.committed.Backed (k.Knows w) names) : k.Secure names F w' := by
  have hknows : k.Knows w' = k.Knows w := by
    funext a
    rw [Knows, Knows, hrestored]
  exact ⟨h.kept.congr hkeys hrestored, hknows ▸ htables, hknows ▸ hcommitted, hknows ▸ h.knows⟩

/-- Statements keep a store secure when they keep the rows backed. -/
theorem Secure.executed {st : Statement} {m : Int} (h : k.Secure names F w) (hdb : Warehouse.Executed w st m w')
    (htables : w'.tables.Backed (k.Knows w) names) : k.Secure names F w' := by
  refine h.congr hdb.keys hdb.restored htables ?_
  rcases hdb.committed_eq with hsame | ⟨-, -, hnow⟩
  · rw [hsame]
    exact h.committed
  · rw [hnow]
    exact htables

theorem Secure.refused (h : k.Secure names F w) (hdb : w' = w ∨ w' = w.begun) : k.Secure names F w' := by
  rcases hdb with rfl | rfl
  · exact h
  · exact h.congr rfl rfl h.tables h.committed

/-- A store that has remembered more, over a warehouse with more committed keys and the same rows. -/
theorem Secure.grown (h : k.Secure names F w) (hkept : k'.Kept w')
    (hcache : ∀ {t j x}, lookup t j k.cache = some x → lookup t j k'.cache = some x)
    (hrestored : ∀ a ∈ w.restored, a ∈ w'.restored) (htables : w'.tables.relations = w.tables.relations)
    (hcommitted : w'.committed.relations = w.committed.relations ∨ w'.committed.relations = w.tables.relations) :
    k'.Secure names F w' ∧ ∀ a, k.Knows w a → k'.Knows w' a := by
  have hknows (a : Assignment) (ha : k.Knows w a) : k'.Knows w' a := ha.imp hcache (hrestored a)
  refine ⟨⟨hkept, (h.tables.mono hknows).of_relations htables, ?_, fun a ha => hknows a (h.knows a ha)⟩, hknows⟩
  rcases hcommitted with hsame | hnow
  · exact (h.committed.mono hknows).of_relations hsame
  · exact (h.tables.mono hknows).of_relations hnow

/-- What an answered call leaves. -/
theorem Secure.answered (h : k.Secure names F w) (hstep : Answered k w s i n k' w') :
    k'.Secure names F w' ∧ k'.Knows w' ⟨s, i, n⟩ ∧ w'.tables.relations = w.tables.relations := by
  have hkept := h.kept.answered hstep
  obtain ⟨hnew, hcache⟩ := hstep.remembers
  cases hstep with
  | known _ => exact ⟨h, .inl hnew, rfl⟩
  | found _ _ => exact ⟨(h.grown hkept hcache (fun _ ha => ha) rfl (.inl rfl)).1, .inl hnew, rfl⟩
  | written _ _ _ _ _ => exact ⟨(h.grown hkept hcache (fun _ ha => ha) rfl (.inl rfl)).1, .inl hnew, rfl⟩
  | committed _ _ _ _ =>
    refine ⟨(h.grown hkept hcache (fun a ha => ?_) rfl (.inr rfl)).1, .inl hnew, rfl⟩
    exact List.mem_append_left _ (h.kept.restored.subset ha)

theorem Secure.rollback (h : k.Secure names F w) (hkept : k'.Kept w.rollback) (hcache : k'.cache = k.cache) :
    k'.Secure names F w.rollback := by
  have hknows : k'.Knows w.rollback = k.Knows w := by
    funext a
    rw [Knows, Knows, hcache]
    rfl
  exact ⟨hkept, hknows ▸ h.committed, hknows ▸ h.committed, hknows ▸ h.knows⟩

theorem Secure.commit (h : k.Secure names F w) (hkept : k'.Kept w.commit) (hcache : k'.cache = k.cache) :
    k'.Secure names F w.commit :=
  (h.grown hkept (fun hn => hcache ▸ hn) (fun _ ha => h.kept.restored.subset ha) rfl (.inr rfl)).1

/-- What a synchronization leaves. -/
theorem Secure.synced (h : k.Secure names F w) (hstep : Synced k w k' w') : k'.Secure names F w' := by
  have hkept := h.kept.synced hstep
  cases hstep with
  | idle _ => exact h
  | written _ _ =>
    refine (h.grown hkept (fun hn => hn) (fun a ha => ?_) rfl (.inr rfl)).1
    exact List.mem_append_left _ (h.kept.restored.subset ha)

/-- What is known is committed when no transaction is open and nothing is left over. -/
theorem Secure.stored (h : k.Secure names F w) (hidle : k.load = none) (hleft : k.unwritten = []) {a : Assignment}
    (ha : k.Knows w a) : a ∈ w.restored := by
  rcases ha with hcached | hstored
  · rw [h.kept.idle hidle]
    rcases h.kept.placed hcached with hrow | hmem | hmem
    · exact hrow
    · rw [hleft] at hmem
      cases hmem
    · rw [written_eq_nil hidle] at hmem
      cases hmem
  · exact hstored

/-- What a refused call leaves. -/
theorem Secure.step_refused (h : k.Secure names F w) (hstep : Refused k w s k' w') : k'.Secure names F w' := by
  have hkept := h.kept.refused hstep
  have hcache := hstep.drops_nothing.1
  cases hstep with
  | nothing => exact h
  | written hload => exact h.rollback hkept hcache
  | committed hload => exact h.rollback hkept hcache

/-- An answered call takes no key of the open transaction away. -/
theorem Intact.answered (h : k.Intact w.tables.keys) (hstep : Answered k w s i n k' w') :
    k'.Intact w'.tables.keys := by
  have hgiven : (k.given w.tables.keys s i).written = k.written := by
    rw [written, written, given_load]
  cases hstep with
  | known hcache => exact h
  | found hcache hrow => exact h
  | written hcache hload hundone hrow hfresh =>
    intro p hp
    rw [wrote_written _ (by rw [given_load, hload]; rfl), hgiven] at hp
    rcases List.mem_cons.1 hp with rfl | hp
    · exact ⟨_, List.mem_append_right _ (List.mem_singleton_self _)⟩
    · obtain ⟨m, hm⟩ := h p hp
      exact ⟨m, List.mem_append_left _ hm⟩
  | committed hcache hload hrow hfresh =>
    intro p hp
    rw [hgiven] at hp
    obtain ⟨m, hm⟩ := h p hp
    exact ⟨m, List.mem_append_left _ hm⟩

end DurableKeys

end SnapshotStaging
