import SnapshotStaging.Proofs.Backing

/-!
# Loads of backed rows

What a load keeps: the session is secure, no key of the open transaction is lost, and the rows that wait in the
buffer are backed as those of the tables are. Every key that goes into a row was answered before, so an assignment
that has been answered is a fact that the rest of the load may use (`F`).

Main result `Backing.load_leaves`.
-/

namespace SnapshotStaging.Backing

open Assignment Warehouse

variable {σ : Type} {view : σ → Warehouse} {names : String → Prop} {table : String} {columns : List Column}
  {F G : Assignment → Prop} {s : Session σ} {scope id : String}

/-! ## Sessions -/

/-- A session with a durable store of which all rows are backed. -/
def Secure (view : σ → Warehouse) (names : String → Prop) (F : Assignment → Prop) (s : Session σ) : Prop :=
  ∃ k, s.keys = .durable k ∧ k.Secure names F (view s.database)

/-- No key of its open transaction is lost. -/
def Open (view : σ → Warehouse) (names : String → Prop) (F : Assignment → Prop) (s : Session σ) : Prop :=
  ∃ k, s.keys = .durable k ∧ k.Secure names F (view s.database) ∧ k.Intact (view s.database).tables.keys

/-- The loading table of a table, if there is one, has given columns. -/
def HasColumns (table : String) (columns : List Column) (w : Warehouse) : Prop :=
  ∀ found rows, w.find? (TableName.loading table) = some (.snapshot found rows) → found = columns

/-- A load fills the loading table of a table. -/
structure Loading (view : σ → Warehouse) (names : String → Prop) (table : String) (columns : List Column)
    (F : Assignment → Prop) (s : Session σ) : Prop where
  opened : Open view names F s
  columns : HasColumns table columns (view s.database)

theorem hasColumns_put (w : Warehouse) (rows : List Row) :
    HasColumns table columns (w.put (TableName.loading table) (.snapshot columns rows)) := by
  intro found rows' hfound
  rw [find?_put _ _ rfl] at hfound
  cases hfound
  rfl

theorem knows_iff {k : DurableKeys} (h : s.keys = .durable k) {a : Assignment} :
    s.Knows view a ↔ k.Knows (view s.database) a := by
  constructor
  · rintro ⟨k', hk', ha⟩
    obtain rfl : k = k' := by simpa [h] using hk'
    exact ha
  · exact fun ha => ⟨k, h, ha⟩

theorem Open.secure (h : Open view names F s) : Secure view names F s := by
  obtain ⟨k, hk, hsecure, -⟩ := h
  exact ⟨k, hk, hsecure⟩

theorem Open.knows (h : Open view names F s) {a : Assignment} (ha : F a) : s.Knows view a := by
  obtain ⟨k, hk, hsecure, -⟩ := h
  exact ⟨k, hk, hsecure.knows a ha⟩

theorem Open.weaken (h : Open view names F s) (hG : ∀ a, G a → s.Knows view a) : Open view names G s := by
  obtain ⟨k, hk, hsecure, hintact⟩ := h
  exact ⟨k, hk, ⟨hsecure.kept, hsecure.tables, hsecure.committed, fun a ha => (knows_iff hk).1 (hG a ha)⟩, hintact⟩

theorem blind_loading : Session.Blind (Loading view names table columns F) := fun _ _ h => ⟨h.opened, h.columns⟩

theorem Loading.weaken (h : Loading view names table columns F s) (hG : ∀ a, G a → s.Knows view a) :
    Loading view names table columns G s :=
  ⟨h.opened.weaken hG, h.columns⟩

theorem Secure.weaken (h : Secure view names F s) (hG : ∀ a, G a → F a) : Secure view names G s := by
  obtain ⟨k, hk, hsecure⟩ := h
  exact ⟨k, hk, hsecure.kept, hsecure.tables, hsecure.committed, fun a ha => hsecure.knows a (hG a ha)⟩

variable [Database σ]

/-- A key that was answered is known. -/
theorem resolve_leaves (hview : Follows view) (scope id : String) :
    Leaves (Loading view names table columns F) (Task.resolve scope id)
      (fun n s => Loading view names table columns F s ∧ s.Knows view ⟨scope, id, n⟩) (Secure view names F) := by
  rintro ⟨db, keys, log⟩ ⟨⟨k, hk, hsecure, hintact⟩, hcolumns⟩
  obtain rfl : keys = .durable k := hk
  unfold Task.resolve Task.onDurable
  dsimp only
  cases hallocate : DurableKeys.allocate scope id (k, db) with
  | ok n st =>
    have hstep := DurableKeys.answered hview hallocate
    obtain ⟨hsecure', hknows, hrelations⟩ := hsecure.answered hstep
    refine ⟨⟨⟨st.1, rfl, hsecure', hintact.answered hstep⟩, ?_⟩, st.1, rfl, hknows⟩
    intro found rows hfound
    refine hcolumns found rows ?_
    rwa [find?, hrelations] at hfound
  | error err st =>
    have hstep := (DurableKeys.refused hview hallocate).2
    exact ⟨st.1, rfl, hsecure.step_refused hstep⟩

/-- A statement that leaves all rows backed, with what it finds (`C`) and makes (`D`) of the warehouse. -/
theorem execute_leaves (hview : Follows view) {st : Statement} (C D : Warehouse → Prop)
    (hrows : ∀ (w w' : Warehouse) (m : Int) (k : DurableKeys), k.Secure names F w → C w → Executed w st m w' →
      w'.tables.Backed (k.Knows w) names ∧ D w') :
    Leaves (fun s => Open view names F s ∧ C (view s.database)) (Task.execute st)
      (fun _ s => Open view names F s ∧ D (view s.database)) (Secure view names F) := by
  refine Task.execute_leaves hview ?_ ?_
  · rintro s db n ⟨⟨k, hk, hsecure, hintact⟩, hC⟩ hdb
    obtain ⟨hbacked, hD⟩ := hrows _ _ n k hsecure hC hdb
    refine ⟨⟨k, hk, hsecure.executed hdb hbacked, ?_⟩, hD⟩
    intro p hp
    rw [hdb.keys]
    exact hintact p hp
  · rintro s db ⟨⟨k, hk, hsecure, -⟩, -⟩ hdb
    exact ⟨k, hk, hsecure.refused hdb⟩

/-- Rows are deleted from the loading table. -/
theorem execute_deleteKey_leaves (hview : Follows view) (hnames : Apart names) (hname : names table) (sk : Int) :
    Leaves (Loading view names table columns F) (Task.execute (.deleteKey table sk))
      (fun _ => Loading view names table columns F) (Secure view names F) := by
  refine (execute_leaves hview (HasColumns table columns) (HasColumns table columns) ?_).mono
    (fun _ h => ⟨h.opened, h.columns⟩) (fun _ _ h => ⟨h.1, h.2⟩) fun _ h => h
  intro w w' m k hsecure hcolumns hdb
  refine ⟨hdb.backed (.deleteKey sk) hnames hname hsecure.tables, ?_⟩
  cases hdb with
  | deleteKey hfound =>
    obtain rfl := hcolumns _ _ hfound
    exact hasColumns_put _ _

/-- Backed rows are inserted into the loading table. -/
theorem execute_insert_leaves (hview : Follows view) (hnames : Apart names) (hname : names table) (rows : List Row) :
    Leaves (fun s => Loading view names table columns F s ∧ ∀ r ∈ rows, r.Backed (s.Knows view) table columns)
      (Task.execute (.insert table rows)) (fun _ => Loading view names table columns F) (Secure view names F) := by
  refine leaves_each fun s₀ ⟨hs₀, hrows⟩ => ?_
  have hinsert : Leaves (fun s => Open view names (s₀.Knows view) s ∧ HasColumns table columns (view s.database))
      (Task.execute (.insert table rows))
      (fun _ s => Open view names (s₀.Knows view) s ∧ HasColumns table columns (view s.database))
      (Secure view names (s₀.Knows view)) := by
    refine execute_leaves hview _ _ ?_
    intro w w' m k hsecure hcolumns hdb
    refine ⟨hdb.backed_insert hnames hname hsecure.tables ?_, ?_⟩
    · intro found rows' hfound r hr
      rw [hcolumns found rows' hfound]
      exact (hrows r hr).mono hsecure.knows
    · cases hdb with
      | insert hfound =>
        obtain rfl := hcolumns _ _ hfound
        exact hasColumns_put _ _
  refine hinsert.mono ?_ ?_ ?_
  · rintro _ rfl
    exact ⟨hs₀.opened.weaken fun _ ha => ha, hs₀.columns⟩
  · rintro _ s ⟨hopen, hcolumns⟩
    exact ⟨hopen.weaken fun a ha => hopen.knows (hs₀.opened.knows ha), hcolumns⟩
  · exact fun _ h => h.weaken fun a ha => hs₀.opened.knows ha

/-- The catalog holds no rows. -/
theorem describe_leaves (hview : Follows view) {settings : Settings} {d : Definition} (hd : d.label = table) :
    Leaves (Loading view names table columns F) (Staging.describe settings d)
      (fun _ => Loading view names table columns F) (Secure view names F) := by
  have hclosed : Task.Closed (σ := σ) (fun _ x => Leaves (Loading view names table columns F) x
      (fun _ => Loading view names table columns F) (Secure view names F))
      (fun st => (∃ text, st = .comment table text) ∨ ∃ grantee, st = .grant table grantee) fun _ => True := {
    pure := fun _ => leaves_pure fun _ h => h
    bind := fun hx hf => hx.bind hf
    throw := fun _ => leaves_throw fun _ h => h.opened.secure
    log := fun _ s h => blind_loading s _ h
    execute := fun {st} hst => by
      refine (execute_leaves hview (HasColumns table columns) (HasColumns table columns) ?_).mono
        (fun _ h => ⟨h.opened, h.columns⟩) (fun _ _ h => ⟨h.1, h.2⟩) fun _ h => h
      intro w w' m k _ _ hdb
      rcases hst with ⟨text, rfl⟩ | ⟨grantee, rfl⟩
      · cases hdb
      · cases hdb }
  subst hd
  exact hclosed.describe (fun text _ => .inl ⟨text, rfl⟩) (fun grantee => .inr ⟨grantee, rfl⟩) (fun _ _ => trivial)
    fun _ _ _ => trivial

/-- The loading table is created without rows. -/
theorem createLoadingTable_leaves (hview : Follows view) (hnames : Apart names) {settings : Settings} {d : Definition}
    (hname : names d.label) : Leaves (Open view names F) (Staging.createLoadingTable settings d columns)
      (fun _ => Loading view names d.label columns F) (Secure view names F) := by
  have hdrop : Leaves (Open view names F) (Task.execute (.drop (TableName.loading d.label)) : Task σ Int)
      (fun _ => Open view names F) (Secure view names F) := by
    refine (execute_leaves hview (fun _ => True) (fun _ => True) ?_).mono (fun _ h => ⟨h, trivial⟩)
      (fun _ _ h => h.1) fun _ h => h
    intro w w' m k hsecure _ hdb
    have hdrop : Rearranges d.label (.drop (TableName.loading d.label)) := .drop _
    exact ⟨hdb.backed hdrop hnames hname hsecure.tables, trivial⟩
  have hcreate : Leaves (Open view names F) (Task.execute (.createLoading d.label columns) : Task σ Int)
      (fun _ => Loading view names d.label columns F) (Secure view names F) := by
    refine (execute_leaves hview (fun _ => True) (HasColumns d.label columns) ?_).mono
      (fun _ h => ⟨h, trivial⟩) (fun _ _ h => ⟨h.1, h.2⟩) fun _ h => h
    intro w w' m k hsecure _ hdb
    refine ⟨hdb.backed (.createLoading columns) hnames hname hsecure.tables, ?_⟩
    cases hdb
    exact hasColumns_put _ _
  rw [Staging.createLoadingTable_eq]
  exact hdrop.discard.bind fun _ => hcreate.discard.bind fun _ => describe_leaves hview rfl

/-! ## Steps of the encoder -/

/-- What a pass of the encoder keeps: the rows that wait are backed as well. -/
structure Filling (view : σ → Warehouse) (names : String → Prop) (table : String) (columns : List Column)
    (F : Assignment → Prop) (st : Encoder × Session σ) : Prop where
  sameTable : st.1.table = table
  sameColumns : st.1.columns = columns
  loading : Loading view names table columns F st.2
  pending : ∀ r ∈ st.1.buffer.pending, r.Backed (st.2.Knows view) table columns

omit [Database σ] in
theorem Filling.weaken {st : Encoder × Session σ} (h : Filling view names table columns F st)
    (hG : ∀ a, G a → st.2.Knows view a) : Filling view names table columns G st :=
  ⟨h.sameTable, h.sameColumns, h.loading.weaken hG, h.pending⟩

omit [Database σ] in
/-- A step of the encoder alone that leaves its table, its columns and its buffer. -/
theorem Filling.update {e e' : Encoder} (h : Filling view names table columns F (e, s)) (htable : e'.table = e.table)
    (hcolumns : e'.columns = e.columns) (hpending : e'.buffer.pending = e.buffer.pending) :
    Filling view names table columns F (e', s) :=
  ⟨htable.trans h.sameTable, hcolumns.trans h.sameColumns, h.loading, fun r hr => h.pending r (hpending ▸ hr)⟩

omit [Database σ] in
/-- The log does not matter. -/
theorem Filling.log {e : Encoder} (h : Filling view names table columns F (e, s)) (log : List Log.Entry) :
    Filling view names table columns F (e, { s with log := log }) :=
  ⟨h.sameTable, h.sameColumns, blind_loading s log h.loading, h.pending⟩

omit [Database σ] in
/-- A step on the session leaves the rows that wait backed, for nothing that is known is forgotten. -/
theorem onSession_leaves {α : Type} {task : Task σ α} {P : Session σ → Prop} {Q : α → Session σ → Prop}
    (h : ∀ F, Leaves (fun s => Loading view names table columns F s ∧ P s) task
      (fun a s => Loading view names table columns F s ∧ Q a s) (Secure view names F)) :
    Leaves (fun st => Filling view names table columns F st ∧ P st.2) (Pass.onSession task)
      (fun a st => Filling view names table columns F st ∧ Q a st.2) (fun st => Secure view names F st.2) := by
  refine SnapshotStaging.onSession_leaves fun e => leaves_each fun s₀ ⟨hfilling, hP⟩ => ?_
  refine (h (s₀.Knows view)).mono ?_ ?_ ?_
  · rintro _ rfl
    exact ⟨hfilling.loading.weaken fun _ ha => ha, hP⟩
  · rintro a s ⟨hloading, hQ⟩
    have hknows (b : Assignment) (hb : s₀.Knows view b) : s.Knows view b := hloading.opened.knows hb
    refine ⟨⟨hfilling.sameTable, hfilling.sameColumns, hloading.weaken fun b hb => ?_, ?_⟩, hQ⟩
    · exact hknows b (hfilling.loading.opened.knows hb)
    · exact fun r hr => (hfilling.pending r hr).mono hknows
  · exact fun s hs => hs.weaken fun a ha => hfilling.loading.opened.knows ha

omit [Database σ] in
theorem Filling.secure {st : Encoder × Session σ} (h : Filling view names table columns F st) :
    Secure view names F st.2 := h.loading.opened.secure

omit [Database σ] in
/-- What is known at some point may be fixed for the rest of a step. -/
theorem leaves_knowing {α : Type} {x : Encoder.Step σ α} {P : (Assignment → Prop) → Prop}
    {Q : α → Encoder × Session σ → Prop}
    (h : ∀ G, P G → Leaves (Filling view names table columns G) x
      (fun a st => Filling view names table columns G st ∧ Q a st) (fun st => Secure view names G st.2)) :
    Leaves (fun st => Filling view names table columns F st ∧ P (st.2.Knows view)) x
      (fun a st => Filling view names table columns F st ∧ Q a st) (fun st => Secure view names F st.2) := by
  refine leaves_each fun st₀ ⟨hst₀, hP⟩ => ?_
  have hbefore (b : Assignment) (hb : F b) : st₀.2.Knows view b := hst₀.loading.opened.knows hb
  refine (h _ hP).mono ?_ ?_ ?_
  · rintro _ rfl
    exact hst₀.weaken fun _ hb => hb
  · rintro a st ⟨hst, ha⟩
    exact ⟨hst.weaken fun b hb => hst.loading.opened.knows (hbefore b hb), ha⟩
  · exact fun st hst => hst.weaken hbefore

omit [Database σ] in
/-- A step that looks at the encoder first. -/
theorem look_leaves {α : Type} {f : Encoder → Encoder.Step σ α} {Q : α → Encoder × Session σ → Prop}
    {U : Encoder × Session σ → Prop}
    (h : ∀ e, e.table = table → e.columns = columns → Leaves (Filling view names table columns F) (f e) Q U) :
    Leaves (Filling view names table columns F) (Pass.own >>= f) Q U :=
  fun st hst => h st.1 hst.sameTable hst.sameColumns st hst

/-! ### Values -/

/-- The literals of one column, the key beside a reference being the one that was given. -/
def Cell (F : Assignment → Prop) (column : Column) (cells : List Literal) : Prop :=
  if column.type = .reference then
    ∃ key v, cells = [key, v] ∧ ∀ s, v = .text s → Linked F (key, s)
  else ∃ v, cells = [v]

omit [Database σ] in
/-- One more column. -/
theorem linked_companions {column : Column} {first rest : List Literal} (h : Cell F column first)
    (hrest : ∀ p ∈ companions columns rest, Linked F p) :
    ∀ p ∈ companions (column :: columns) (first ++ rest), Linked F p := by
  unfold Cell at h
  unfold companions
  split at h
  · next hreference =>
    obtain ⟨key, v, rfl, hkey⟩ := h
    rw [if_pos hreference]
    cases v with
    | text s =>
      intro p hp
      rcases List.mem_cons.1 hp with rfl | hp
      · exact hkey s rfl
      · exact hrest p hp
    | _ => exact hrest
  · next hreference =>
    obtain ⟨v, rfl⟩ := h
    rw [if_neg hreference]
    exact hrest

omit [Database σ] in
theorem Cell.mono {column : Column} {cells : List Literal} (h : Cell F column cells) (hFG : ∀ a, F a → G a) :
    Cell G column cells := by
  unfold Cell at h ⊢
  split at h
  · next hreference =>
    obtain ⟨key, v, hcells, hkey⟩ := h
    rw [if_pos hreference]
    exact ⟨key, v, hcells, fun s hs => (hkey s hs).mono hFG⟩
  · next hreference =>
    rw [if_neg hreference]
    exact h

omit [Database σ] in
theorem warn_leaves (message : String) (spot : Encoder.Spot) (action : String) :
    Leaves (Filling view names table columns F) (Encoder.warn message spot action : Encoder.Step σ Unit)
      (fun _ => Filling view names table columns F) (fun st => Secure view names F st.2) := by
  rintro ⟨e, s⟩ h
  have hcounted : Filling view names table columns F ({ e with warnings := e.warnings + 1 }, s) :=
    h.update rfl rfl rfl
  exact hcounted.log _

omit [Database σ] in
theorem textLiteral_leaves (spot : Encoder.Spot) (text : String) :
    Leaves (Filling view names table columns F) (Encoder.textLiteral spot text : Encoder.Step σ Literal)
      (fun l st => Filling view names table columns F st ∧ ∀ t, l = .text t → t = text)
      (fun st => Secure view names F st.2) := by
  unfold Encoder.textLiteral
  refine look_leaves fun e _ _ => ?_
  split
  · refine (warn_leaves _ _ _).bind fun _ => leaves_pure fun _ h => ⟨h, ?_⟩
    intro t ht
    cases ht
  · refine leaves_pure fun _ h => ⟨h, ?_⟩
    intro t ht
    cases ht
    rfl

omit [Database σ] in
theorem payload_leaves (record : Json) (id : String) (sk : Int) :
    Leaves (Filling view names table columns F) (Encoder.payload record id sk : Encoder.Step σ (Option String))
      (fun _ => Filling view names table columns F) (fun st => Secure view names F st.2) := by
  unfold Encoder.payload
  refine look_leaves fun e _ _ => ?_
  dsimp only
  split
  · exact leaves_pure fun _ h => h
  · split
    · exact leaves_pure fun _ h => h
    · exact (warn_leaves _ _ _).bind fun _ => leaves_pure fun _ h => h

theorem resolve_filling (hview : Follows view) (scope id : String) :
    Leaves (Filling view names table columns F) (Pass.onSession (Task.resolve scope id) : Encoder.Step σ Nat)
      (fun n st => Filling view names table columns F st ∧ st.2.Knows view ⟨scope, id, n⟩)
      (fun st => Secure view names F st.2) :=
  (onSession_leaves (P := fun _ => True) fun _ =>
    (resolve_leaves hview scope id).mono (fun _ h => h.1) (fun _ _ h => h) fun _ h => h).mono
    (fun _ h => ⟨h, trivial⟩) (fun _ _ h => h) fun _ h => h

/-- A reference is stored beside the key that was answered for it. -/
theorem cells_leaves (hview : Follows view) (column : Column) (v : Json) (id : String) (sk : Int) :
    Leaves (Filling view names table columns F) (Encoder.cells column v id sk : Encoder.Step σ (List Literal))
      (fun cells st => Filling view names table columns F st ∧ Cell (st.2.Knows view) column cells)
      (fun st => Secure view names F st.2) := by
  have hsingle {c : Column} (hc : c.type ≠ .reference) (l : Literal) (G : Assignment → Prop) : Cell G c [l] := by
    rw [Cell, if_neg hc]
    exact ⟨l, rfl⟩
  have hpure {c : Column} (hc : c.type ≠ .reference) (l : Literal) :
      Leaves (Filling view names table columns F) (pure [l] : Encoder.Step σ (List Literal))
        (fun cells st => Filling view names table columns F st ∧ Cell (st.2.Knows view) c cells)
        (fun st => Secure view names F st.2) :=
    leaves_pure fun _ h => ⟨h, hsingle hc l _⟩
  have htext {c : Column} (hc : c.type ≠ .reference) (spot : Encoder.Spot) (text : String) :
      Leaves (Filling view names table columns F)
        (do return [← Encoder.textLiteral spot text] : Encoder.Step σ (List Literal))
        (fun cells st => Filling view names table columns F st ∧ Cell (st.2.Knows view) c cells)
        (fun st => Secure view names F st.2) :=
    (textLiteral_leaves spot text).bind fun l => leaves_pure fun _ h => ⟨h.1, hsingle hc l _⟩
  unfold Encoder.cells
  dsimp only
  split
  · next text hreference =>
    refine (resolve_filling hview referenceScope text).bind fun key => ?_
    -- what follows goes by the key that was answered
    refine leaves_knowing (P := fun G => G ⟨referenceScope, text, key⟩) fun G hG => ?_
    refine (textLiteral_leaves _ text).bind fun l => leaves_pure fun st h => ⟨h.1, ?_⟩
    rw [Cell, if_pos hreference]
    refine ⟨_, l, rfl, ?_⟩
    intro t ht
    rw [h.2 t ht]
    exact ⟨key, rfl, h.1.loading.opened.knows hG⟩
  · next hreference _ =>
    refine leaves_pure fun _ h => ⟨h, ?_⟩
    rw [Cell, if_pos hreference]
    exact ⟨.null, .null, rfl, nofun⟩
  · next hreference => exact hpure hreference _
  · next htype => exact hpure (by simp [htype]) _
  · next htype => exact hpure (by simp [htype]) _
  · next htype => exact hpure (by simp [htype]) _
  · next htype => exact hpure (by simp [htype]) _
  · next htype => exact htext (by simp [htype]) _ _
  · next htype _ => exact htext (by simp [htype]) _ _
  · next hreference _ _ _ _ _ _ _ =>
    refine look_leaves fun e _ _ => ?_
    refine Leaves.bind (Q := fun _ => Filling view names table columns F) (fun st h => h.log _) fun _ => ?_
    exact hpure hreference _

/-- The literals of several columns. -/
theorem allCells_leaves (hview : Follows view) (record : Json) (id : String) (sk : Int) (some : List Column) :
    Leaves (Filling view names table columns F) (Encoder.allCells record id sk some : Encoder.Step σ (List Literal))
      (fun cells st => Filling view names table columns F st ∧ ∀ p ∈ companions some cells, Linked (st.2.Knows view) p)
      (fun st => Secure view names F st.2) := by
  induction some generalizing F with
  | nil => exact leaves_pure fun _ h => ⟨h, nofun⟩
  | cons column rest ih =>
    unfold Encoder.allCells
    refine (cells_leaves hview _ _ _ _).bind fun first => ?_
    refine leaves_knowing (P := fun G => Cell G column first) fun G hfirst => ?_
    refine ih.bind fun later => leaves_pure fun st h => ⟨h.1, ?_⟩
    exact linked_companions (hfirst.mono fun _ ha => h.1.loading.opened.knows ha) h.2

/-! ### Rows -/

/-- The row of a record whose key is known is backed. -/
theorem encode_leaves (hview : Follows view) (record : Json) (id : String) (sk : Nat) :
    Leaves (fun st => Filling view names table columns F st ∧ st.2.Knows view ⟨table, id, sk⟩)
      (Encoder.encode record id sk : Encoder.Step σ Row)
      (fun row st => Filling view names table columns F st ∧ row.Backed (st.2.Knows view) table columns)
      (fun st => Secure view names F st.2) := by
  refine leaves_knowing (P := fun G => G ⟨table, id, sk⟩) fun G hkey => ?_
  unfold Encoder.encode
  refine look_leaves fun e _ hcolumns => ?_
  rw [hcolumns]
  refine (allCells_leaves hview record id sk columns).bind fun cells => ?_
  refine (leaves_knowing (P := fun H => ∀ p ∈ companions columns cells, Linked H p)
    (Q := fun _ st => ∀ p ∈ companions columns cells, Linked (st.2.Knows view) p) fun H hcells => ?_).bind
    fun text => ?_
  · refine (payload_leaves record id sk).mono (fun _ h => h) (fun _ st hst => ⟨hst, fun p hp => ?_⟩) fun _ h => h
    exact (hcells p hp).mono fun _ ha => hst.loading.opened.knows ha
  · exact leaves_pure fun st h => ⟨h.1, ⟨sk, rfl, h.1.loading.opened.knows hkey⟩, h.2⟩

/-! ### Sending -/

/-- The rows that wait are sent, and none waits. -/
theorem flushed_leaves (hview : Follows view) (hnames : Apart names) (hname : names table) :
    Leaves (Filling view names table columns F)
      (Encoder.onBuffer (InsertBuffer.flush (Encoder.send table)) : Encoder.Step σ Bool)
      (fun _ => Filling view names table columns F) (fun st => Secure view names F st.2) := by
  rw [Encoder.Closed.onBuffer_flush_eq]
  refine own_leaves fun e => ?_
  split
  · exact leaves_pure fun _ h => h.2
  · have hsend : Leaves (fun st => Filling view names table columns F st ∧
        ∀ r ∈ e.buffer.waiting, r.Backed (st.2.Knows view) table columns)
        (Pass.onSession (Encoder.send table e.buffer.waiting) : Encoder.Step σ Unit)
        (fun _ => Filling view names table columns F) (fun st => Secure view names F st.2) := by
      refine (onSession_leaves (P := fun s => ∀ r ∈ e.buffer.waiting, r.Backed (s.Knows view) table columns)
        (Q := fun _ _ => True) fun F => ?_).mono (fun _ h => h) (fun _ _ h => h.1) fun _ h => h
      refine Leaves.bind (Q := fun _ s => Loading view names table columns F s ∧
        ∀ r ∈ e.buffer.waiting, r.Backed (s.Knows view) table columns)
        (fun s h => ⟨blind_loading s _ h.1, h.2⟩) fun _ => ?_
      exact (execute_insert_leaves hview hnames hname e.buffer.waiting).discard.mono (fun _ h => h)
        (fun _ _ h => ⟨h, trivial⟩) fun _ h => h
    refine (hsend.mono ?_ (fun _ _ h => h) fun _ h => h).bind fun _ => ?_
    · rintro st ⟨rfl, hst⟩
      exact ⟨hst, fun r hr => hst.pending r (List.mem_reverse.1 hr)⟩
    · refine Leaves.bind (Q := fun _ => Filling view names table columns F) ?_ fun _ => leaves_pure fun _ h => h
      rintro ⟨e', s⟩ hst
      exact ⟨hst.sameTable, hst.sameColumns, hst.loading, nofun⟩

theorem flush_leaves (hview : Follows view) (hnames : Apart names) (hname : names table) :
    Leaves (Filling view names table columns F) (Encoder.flush : Encoder.Step σ Unit)
      (fun _ => Filling view names table columns F) (fun st => Secure view names F st.2) := by
  unfold Encoder.flush
  refine look_leaves fun e htable _ => ?_
  rw [htable]
  exact (flushed_leaves hview hnames hname).discard

/-- A backed row joins those that wait, and all are sent once they are too many. -/
theorem add_leaves (hview : Follows view) (hnames : Apart names) (hname : names table) (row : Row) (length : Nat)
    (id : Option String) :
    Leaves (fun st => Filling view names table columns F st ∧ row.Backed (st.2.Knows view) table columns)
      (Encoder.onBuffer (InsertBuffer.add (Encoder.send table) row length id) : Encoder.Step σ Unit)
      (fun _ => Filling view names table columns F) (fun st => Secure view names F st.2) := by
  rw [Encoder.Closed.onBuffer_add_eq]
  refine Leaves.bind (Q := fun _ => Filling view names table columns F) ?_ fun _ => own_leaves fun e => ?_
  · rintro ⟨e, s⟩ ⟨hst, hrow⟩
    refine ⟨hst.sameTable, hst.sameColumns, hst.loading, fun r hr => ?_⟩
    rcases List.mem_cons.1 hr with rfl | hr
    · exact hrow
    · exact hst.pending r hr
  · split
    · exact (flushed_leaves hview hnames hname).discard.mono (fun _ h => h.2) (fun _ _ h => h) fun _ h => h
    · exact leaves_pure fun _ h => h.2

/-- Taking back an earlier row. -/
theorem replaceEarlier_leaves (hview : Follows view) (hnames : Apart names) (hname : names table) (id : String)
    (sk : Nat) : Leaves (Filling view names table columns F) (Encoder.replaceEarlier id sk : Encoder.Step σ Unit)
      (fun _ => Filling view names table columns F) (fun st => Secure view names F st.2) := by
  have hdelete : Leaves (Filling view names table columns F)
      (Pass.onSession (Task.execute (.deleteKey table sk)) : Encoder.Step σ Int)
      (fun _ => Filling view names table columns F) (fun st => Secure view names F st.2) :=
    (onSession_leaves (P := fun _ => True) (Q := fun _ _ => True) fun _ =>
      (execute_deleteKey_leaves hview hnames hname sk).mono (fun _ h => h.1) (fun _ _ h => ⟨h, trivial⟩)
        fun _ h => h).mono (fun _ h => ⟨h, trivial⟩) (fun _ _ h => h.1) fun _ h => h
  have hrest : Leaves (Filling view names table columns F) (do
      discard (Pass.onSession (Task.execute (.deleteKey table sk)))
      Pass.update fun e => { e with replaced := e.replaced + 1 }
      Pass.onSession (Task.note .debug s!"Record replaced by later occurrence: {table}: id {id}") : Encoder.Step σ Unit)
      (fun _ => Filling view names table columns F) (fun st => Secure view names F st.2) := by
    refine hdelete.discard.bind fun _ => ?_
    refine Leaves.bind (Q := fun _ => Filling view names table columns F) (fun st h => h.update rfl rfl rfl) fun _ => ?_
    exact fun st h => h.log _
  unfold Encoder.replaceEarlier
  refine look_leaves fun e htable _ => ?_
  rw [htable]
  dsimp only
  split
  · exact (flush_leaves hview hnames hname).bind fun _ => hrest
  · exact hrest

/-- **Writing a record** adds a backed row. -/
theorem write_leaves (hview : Follows view) (hnames : Apart names) (hname : names table) (record : Json) :
    Leaves (Filling view names table columns F) (Encoder.write record : Encoder.Step σ Unit)
      (fun _ => Filling view names table columns F) (fun st => Secure view names F st.2) := by
  have hrow (G : Assignment → Prop) (dialect : Dialect) (id : String) (sk : Nat) :
      Leaves (fun st => Filling view names table columns G st ∧ st.2.Knows view ⟨table, id, sk⟩) (do
        let row ← Encoder.encode record id sk
        Encoder.onBuffer (InsertBuffer.add (Encoder.send table) row (row.sql dialect).length (some id))
        Pass.update fun e => { e with written := e.written + 1 } : Encoder.Step σ Unit)
      (fun _ st => Filling view names table columns G st ∧ True) (fun st => Secure view names G st.2) := by
    refine (encode_leaves hview record id sk).bind fun row => ?_
    refine (add_leaves hview hnames hname row _ _).bind fun _ => ?_
    exact fun st h => ⟨h.update rfl rfl rfl, trivial⟩
  unfold Encoder.write
  refine look_leaves fun e htable _ => ?_
  rw [htable]
  have hrecord (id : String) : Leaves (Filling view names table columns F) (do
      let sk ← Pass.onSession (Task.resolve table id)
      if ← Encoder.markSeen sk then Encoder.replaceEarlier id sk
      let row ← Encoder.encode record id sk
      Encoder.onBuffer (InsertBuffer.add (Encoder.send table) row (row.sql e.dialect).length (some id))
      Pass.update fun e => { e with written := e.written + 1 } : Encoder.Step σ Unit)
      (fun _ st => Filling view names table columns F st ∧ True) (fun st => Secure view names F st.2) := by
    refine (resolve_filling hview table id).bind fun sk => ?_
    -- the key stays known while an earlier row is taken back
    refine leaves_knowing (P := fun G => G ⟨table, id, sk⟩) fun G hkey => ?_
    have hend := (hrow G e.dialect id sk).mono (fun st (h : Filling view names table columns G st) =>
      ⟨h, h.loading.opened.knows hkey⟩) (fun _ _ h => h) fun _ h => h
    refine Leaves.bind (Q := fun _ => Filling view names table columns G) (fun st h => h.update rfl rfl rfl)
      fun before => ?_
    cases before with
    | true => exact (replaceEarlier_leaves hview hnames hname id sk).bind fun _ => hend
    | false => exact hend
  cases hident : Encoder.identifier table record with
  | error err => exact fun st h => h.secure
  | ok id =>
    refine Leaves.bind (Q := fun _ => Filling view names table columns F) (leaves_pure fun _ h => h) fun id => ?_
    exact (hrecord id).mono (fun _ h => h) (fun _ _ h => h.1) fun _ h => h

/-! ## Loads -/

theorem writeAll_leaves (hview : Follows view) (hnames : Apart names) (hname : names table)
    (rules : Option Redaction.Rules) (records : List Json) :
    Leaves (Filling view names table columns F) (Staging.writeAll rules records : Encoder.Step σ Unit)
      (fun _ => Filling view names table columns F) (fun st => Secure view names F st.2) := by
  induction records with
  | nil => exact leaves_pure fun _ h => h
  | cons record rest ih => exact (write_leaves hview hnames hname _).bind fun _ => ih

theorem loadPage_leaves [Platform] (hview : Follows view) (hnames : Apart names) (hname : names table)
    (rules : Option Redaction.Rules) (bytes : List UInt8) :
    Leaves (Filling view names table columns F) (Staging.loadPage table rules bytes : Encoder.Step σ Nat)
      (fun _ => Filling view names table columns F) (fun st => Secure view names F st.2) := by
  unfold Staging.loadPage
  generalize Page.records table bytes = page
  obtain ⟨records, failure⟩ := page
  exact (writeAll_leaves hview hnames hname rules records).bind fun _ =>
    (Staging.failing_leaves failure fun _ h => h.secure).bind fun _ => leaves_pure fun _ h => h

/-- **A load leaves all rows backed**, whether it succeeds or fails; when it succeeds, no key of its transaction is
lost. -/
theorem load_leaves [Platform] (hview : Follows view) (hnames : Apart names) {settings : Settings} {store : PageStore}
    {d : Definition} (hname : names d.label) (columns : List Column) (count : Nat) :
    Leaves (Open view names F) (Staging.load settings store d columns count : Task σ Encoder)
      (fun _ => Open view names F) (Secure view names F) := by
  refine Staging.load_leaves (W := Loading view names d.label columns F) blind_loading
    (createLoadingTable_leaves hview hnames hname) (fun _ h => h.secure) ?_
  have hpages : Leaves (Filling view names d.label columns F) (Staging.runPass store d.label .load count
      (Staging.loadPage d.label (Redaction.Policy.rulesFor? settings.redaction d.label)) : Encoder.Step σ Unit)
      (fun _ => Filling view names d.label columns F) (fun st => Secure view names F st.2) :=
    Staging.runPass_leaves (fun _ _ _ h => h.log _) fun bytes _ => loadPage_leaves hview hnames hname _ bytes
  refine (hpages.bind fun _ => flush_leaves hview hnames hname).mono ?_ (fun _ st h => h.loading.opened) fun _ h => h
  rintro ⟨e, s⟩ ⟨rfl, hloading⟩
  exact ⟨rfl, rfl, hloading, nofun⟩

end SnapshotStaging.Backing
