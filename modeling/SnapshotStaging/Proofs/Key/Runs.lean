import SnapshotStaging.Proofs.Key.Durable

/-!
# Runs of a store of keys

A run is any row of allocations, transactions, synchronizations and restarts in the order in which a
process can make them. It is compared with the keys that one process without a database answers.

A counter that was set by finding a stored identifier stands below the greatest key of its scope until the
greatest is met. The next new identifier of the scope is then refused. `timely` says of a row of steps,
without the store, that this never happens.

Main results: `run_spec`, a run answers the keys of one process up to the first refused call, and none
is refused exactly in timely runs; `run_stale`, a run that is not timely.
-/

namespace SnapshotStaging

open Assignment

inductive KeyStep
  | allocate (scope identifier : String)
  | start
  | commit
  | rollback
  | sync
  | restart
  deriving DecidableEq, Repr

namespace KeyStep

/-- What a step does; an allocation answers a key. -/
def act : KeyStep → EStateM Error (DurableKeys × Warehouse) (Option Nat)
  | .allocate s i => some <$> DurableKeys.allocate s i
  | .start => fun (k, w) => .ok none (k.start, Database.start w)
  | .commit => fun (k, w) => .ok none (k.committed, Database.commit w)
  | .rollback => fun (k, w) => .ok none (k.rolledBack, Database.rollback w)
  | .sync => (fun _ => none) <$> DurableKeys.sync
  | .restart => fun (_, w) => .ok none (.empty, w)

/-- The keys that are answered up to the first failure, and that failure. -/
def run : List KeyStep → DurableKeys × Warehouse → List Nat × Option Error
  | [], _ => ([], none)
  | st :: rest, s =>
    match st.act s with
    | .ok none s => run rest s
    | .ok (some n) s => (n :: (run rest s).1, (run rest s).2)
    | .error e _ => ([], some e)

/-- The allocations of a row of steps. -/
def calls : List KeyStep → List (String × String)
  | [] => []
  | .allocate s i :: rest => (s, i) :: calls rest
  | _ :: rest => calls rest

/-- Whether a process can make the steps in this order: one transaction is open at a time, synchronization
is done with none open, and a restart with none open and every rollback synchronized. -/
def allowed (isOpen unsynced : Bool) : List KeyStep → Bool
  | [] => true
  | .allocate _ _ :: rest => allowed isOpen unsynced rest
  | .start :: rest => !isOpen && allowed true unsynced rest
  | .commit :: rest => isOpen && allowed false unsynced rest
  | .rollback :: rest => isOpen && allowed false true rest
  | .sync :: rest => !isOpen && allowed false false rest
  | .restart :: rest => !isOpen && !unsynced && allowed false false rest

/-- Whether an identifier has no key yet while the process was answered for identifiers of its scope, but
for none that has the greatest key of the scope. -/
def stale (m : MemoryKeys) (asked : List (String × String)) (s i : String) : Bool :=
  (lookup s i m.rows).isNone && asked.any (·.1 = s) &&
    asked.all fun c => c.1 ≠ s || lookup s c.2 m.rows ≠ some (greatest s m.rows)

/-- Whether no allocation is stale; `asked` holds the allocations since the last restart. -/
def timely (m : MemoryKeys) (asked : List (String × String)) : List KeyStep → Bool
  | [] => true
  | .allocate s i :: rest => !stale m asked s i && timely (m.allocate s i).2 ((s, i) :: asked) rest
  | .restart :: rest => timely m [] rest
  | _ :: rest => timely m asked rest

/-- The process after the steps before: `asked` are its allocations, `m` all that were answered. -/
structure After (k : DurableKeys) (w : Warehouse) (m : MemoryKeys) (asked : List (String × String))
    (isOpen unsynced : Bool) : Prop where
  refines : k.Refines w m
  counts : k.Counts
  dense : m.Dense
  asked_iff : ∀ s i, (s, i) ∈ asked ↔ ∃ n, lookup s i k.cache = some n
  load_eq : k.load.isSome = isOpen
  synced : unsynced = false → k.unwritten = []

variable {k : DurableKeys} {w : Warehouse} {m : MemoryKeys} {asked : List (String × String)}
  {isOpen unsynced : Bool} {s i : String}

theorem After.load_eq_none (h : After k w m asked false unsynced) : k.load = none := by
  rw [← Option.isNone_iff_eq_none, ← Option.not_isSome, h.load_eq]
  rfl

/-- The counter of a scope that the process was not answered for is the greatest key. -/
theorem After.counter_of_not_asked (h : After k w m asked isOpen unsynced) (hs : ∀ c ∈ asked, c.1 ≠ s) :
    k.counter w.tables.keys s = greatest s m.rows := by
  have hnone : k.counter? s = none := by
    cases hc : k.counter? s with
    | none => rfl
    | some c =>
      obtain ⟨i, hi⟩ := h.counts.attained hc
      exact absurd rfl (hs _ ((h.asked_iff s i).2 ⟨c, hi⟩))
  have hrow {i : String} {n : Nat} (hn : lookup s i m.rows = some n) : ⟨s, i, n⟩ ∈ w.tables.keys := by
    rcases h.refines.held hn with hrow | hleft
    · exact hrow
    · exact absurd rfl (hs _ ((h.asked_iff s i).2 (h.refines.unwritten_cached _ hleft)))
  rw [DurableKeys.counter, hnone, Option.getD_none]
  refine Nat.le_antisymm (greatest_le_iff.2 fun a ha hscope => ?_) ?_
  · subst hscope
    exact le_greatest_of_lookup (h.refines.stored a ha)
  · rcases Nat.eq_zero_or_pos (greatest s m.rows) with h0 | hpos
    · omega
    · obtain ⟨i, hi⟩ := h.dense.onto hpos (Nat.le_refl _)
      exact le_greatest (hrow hi)

/-- The counter of another scope is the greatest key that the process was answered. -/
theorem After.counter_of_asked (h : After k w m asked isOpen unsynced) (hs : ∃ c ∈ asked, c.1 = s) :
    (∃ c ∈ asked, c.1 = s ∧ lookup s c.2 m.rows = some (k.counter w.tables.keys s)) ∧
      ∀ c ∈ asked, c.1 = s → ∀ n, lookup s c.2 m.rows = some n → n ≤ k.counter w.tables.keys s := by
  have hcached {i : String} (hi : (s, i) ∈ asked) :
      ∃ n, lookup s i m.rows = some n ∧ n ≤ k.counter w.tables.keys s := by
    obtain ⟨n, hn⟩ := (h.asked_iff s i).1 hi
    obtain ⟨c, hc, hle⟩ := h.counts.known hn
    refine ⟨n, h.refines.cached hn, ?_⟩
    rwa [DurableKeys.counter, hc]
  constructor
  · obtain ⟨⟨t, i⟩, hi, rfl⟩ := hs
    obtain ⟨n, hn⟩ := (h.asked_iff t i).1 hi
    obtain ⟨c, hc, -⟩ := h.counts.known hn
    obtain ⟨j, hj⟩ := h.counts.attained hc
    refine ⟨(t, j), (h.asked_iff t j).2 ⟨c, hj⟩, rfl, ?_⟩
    rw [h.refines.cached hj, DurableKeys.counter, hc, Option.getD_some]
  · rintro ⟨t, i⟩ hi rfl n hn
    obtain ⟨x, hx, hle⟩ := hcached hi
    rw [hn] at hx
    obtain rfl : n = x := Option.some.inj hx
    exact hle

theorem stale_iff : stale m asked s i = true ↔ lookup s i m.rows = none ∧ (∃ c ∈ asked, c.1 = s) ∧
    ∀ c ∈ asked, c.1 = s → lookup s c.2 m.rows ≠ some (greatest s m.rows) := by
  simp [stale, and_assoc, Classical.or_iff_not_imp_left]

/-- A call that is not stale is answered the key of one process; a stale one is refused. -/
theorem After.allocate (h : After k w m asked isOpen unsynced) (s i : String) :
    (stale m asked s i = false ∧ ∃ k' w',
      DurableKeys.allocate s i (k, w) = .ok (m.allocate s i).1 (k', w') ∧
        After k' w' (m.allocate s i).2 ((s, i) :: asked) isOpen unsynced ∧
        w'.tables.relations = w.tables.relations) ∨
    (stale m asked s i = true ∧ ∃ st,
      DurableKeys.allocate s i (k, w) = .error (.databaseFailed (.keys isOpen)) st) := by
  have hnext {k' : DurableKeys} {w' : Warehouse} (hr : k'.Refines w' (m.allocate s i).2) (hc : k'.Counts)
      (ha : DurableKeys.Answers k w s i k' w') :
      After k' w' (m.allocate s i).2 ((s, i) :: asked) isOpen unsynced := by
    refine ⟨hr, hc, h.dense.allocate s i, ?_, ha.load_eq.trans h.load_eq, ?_⟩
    · intro t j
      rw [List.mem_cons, Prod.mk.injEq, ha.cache_iff, h.asked_iff, eq_comm, @eq_comm _ j]
    · intro hsync
      rw [ha.unwritten_eq, h.synced hsync]
  cases hn : lookup s i m.rows with
  | some n =>
    have hstale : stale m asked s i = false := by
      rw [Bool.eq_false_iff, Ne, stale_iff, hn]
      exact fun hst => nomatch hst.1
    obtain ⟨k', heq, hr, hc, ha⟩ := DurableKeys.allocate_known h.refines h.counts hn
    have hm : m.allocate s i = (n, m) := MemoryKeys.allocate_known hn
    rw [hm] at hnext ⊢
    exact .inl ⟨hstale, k', w, heq, hnext hr hc ha, rfl⟩
  | none =>
    -- a counter that has met the greatest key leads to the key of one process
    have hfresh (hcounter : k.counter w.tables.keys s = greatest s m.rows) : ∃ k' w',
        DurableKeys.allocate s i (k, w) = .ok (m.allocate s i).1 (k', w') ∧
          After k' w' (m.allocate s i).2 ((s, i) :: asked) isOpen unsynced ∧
          w'.tables.relations = w.tables.relations := by
      have hunused : ∀ j, lookup s j m.rows ≠ some (k.counter w.tables.keys s + 1) := by
        intro j hj
        have := le_greatest_of_lookup hj
        omega
      obtain ⟨k', w', heq, hr, hc, ha⟩ := DurableKeys.allocate_fresh h.refines h.counts hn hunused
      have hm : m.allocate s i = _ := MemoryKeys.allocate_new hn
      rw [hcounter] at heq hr
      rw [hm] at hnext ⊢
      exact ⟨k', w', heq, hnext hr hc ha, ha.relations_eq⟩
    by_cases hasked : ∃ c ∈ asked, c.1 = s
    · obtain ⟨⟨c, hc, hscope, hattained⟩, hgreatest⟩ := h.counter_of_asked hasked
      have hle := le_greatest_of_lookup hattained
      by_cases hcounter : k.counter w.tables.keys s = greatest s m.rows
      · have hstale : stale m asked s i = false := by
          rw [Bool.eq_false_iff, Ne, stale_iff]
          exact fun hst => hst.2.2 c hc hscope (hcounter ▸ hattained)
        exact .inl ⟨hstale, hfresh hcounter⟩
      · obtain ⟨j, hj⟩ := h.dense.onto (s := s) (Nat.succ_pos (k.counter w.tables.keys s)) (by omega)
        have hstale : stale m asked s i = true := by
          rw [stale_iff]
          refine ⟨hn, hasked, ?_⟩
          intro c hc hscope hc'
          have := hgreatest c hc hscope _ hc'
          omega
        have htaken := DurableKeys.allocate_taken h.refines h.counts hn hj
        rw [h.load_eq] at htaken
        exact .inr ⟨hstale, htaken⟩
    · have hstale : stale m asked s i = false := by
        rw [Bool.eq_false_iff, Ne, stale_iff]
        exact fun hst => hasked hst.2.1
      exact .inl ⟨hstale, hfresh (h.counter_of_not_asked fun c hc hscope => hasked ⟨c, hc, hscope⟩)⟩

/-- With nothing left over synchronization changes nothing. -/
theorem act_sync_idle (h : k.unwritten = []) : KeyStep.sync.act (k, w) = .ok none (k, w) := by
  simp [act, DurableKeys.sync, h, Functor.map, EStateM.map]

theorem run_quiet {st : KeyStep} {x y : DurableKeys × Warehouse} (h : st.act x = .ok none y)
    (rest : List KeyStep) : run (st :: rest) x = run rest y := by
  rw [run, h]

theorem run_answered {st : KeyStep} {x y : DurableKeys × Warehouse} {n : Nat} (h : st.act x = .ok (some n) y)
    (rest : List KeyStep) : run (st :: rest) x = (n :: (run rest y).1, (run rest y).2) := by
  rw [run, h]

theorem run_refused {st : KeyStep} {x y : DurableKeys × Warehouse} {e : Error} (h : st.act x = .error e y)
    (rest : List KeyStep) : run (st :: rest) x = ([], some e) := by
  rw [run, h]

/-- What a run does, by whether it is timely. -/
structure Runs (x : DurableKeys × Warehouse) (m : MemoryKeys) (asked : List (String × String))
    (steps : List KeyStep) : Prop where
  prefix_eq : (run steps x).1 <+: m.answers (calls steps)
  of_timely : timely m asked steps = true → run steps x = (m.answers (calls steps), none)
  of_late : timely m asked steps = false → ∃ b, (run steps x).2 = some (.databaseFailed (.keys b))

/-- A step that answers nothing. -/
theorem Runs.quiet {st : KeyStep} {x y : DurableKeys × Warehouse} {asked' : List (String × String)}
    {rest : List KeyStep} (h : Runs y m asked' rest) (hact : st.act x = .ok none y)
    (hcalls : calls (st :: rest) = calls rest) (htimely : timely m asked (st :: rest) = timely m asked' rest) :
    Runs x m asked (st :: rest) := by
  have hrun := run_quiet hact rest
  refine ⟨?_, ?_, ?_⟩
  · rw [hrun, hcalls]
    exact h.prefix_eq
  · intro ht
    rw [hrun, hcalls]
    exact h.of_timely (htimely ▸ ht)
  · intro ht
    rw [hrun]
    exact h.of_late (htimely ▸ ht)

/-- A process that begins was asked for nothing. -/
theorem asked_empty (s i : String) :
    (s, i) ∈ ([] : List (String × String)) ↔ ∃ n, lookup s i DurableKeys.empty.cache = some n := by
  simp [DurableKeys.empty, lookup]

/-! ## Steps of a process -/

theorem After.start (h : After k w m asked false unsynced) :
    After k.start (Database.start w) m asked true unsynced :=
  ⟨h.refines.start h.load_eq_none, ⟨h.counts.known, h.counts.attained⟩, h.dense, h.asked_iff, rfl, h.synced⟩

theorem After.commit (h : After k w m asked isOpen unsynced) :
    After k.committed (Database.commit w) m asked false unsynced :=
  ⟨h.refines.commit, ⟨h.counts.known, h.counts.attained⟩, h.dense, h.asked_iff, rfl, h.synced⟩

theorem After.rollback (h : After k w m asked isOpen unsynced) :
    After k.rolledBack (Database.rollback w) m asked false true :=
  ⟨h.refines.rollback, ⟨h.counts.known, h.counts.attained⟩, h.dense, h.asked_iff, rfl, fun ht => by cases ht⟩

/-- Synchronization does not fail, and leaves no assignment unwritten. -/
theorem After.sync (h : After k w m asked false unsynced) : ∃ k' w',
    KeyStep.sync.act (k, w) = .ok none (k', w') ∧ After k' w' m asked false false := by
  obtain ⟨n, k', w', heq, hr, hcache, hcounters, hload, hleft⟩ := h.refines.sync h.load_eq_none
  have hact : KeyStep.sync.act (k, w) = .ok none (k', w') := by
    simp [act, Functor.map, EStateM.map, heq]
  have hcounts : k'.Counts := by
    constructor
    · intro s i n hn
      rw [hcache] at hn
      rw [DurableKeys.counter?, hcounters]
      exact h.counts.known hn
    · intro s c hc
      rw [DurableKeys.counter?, hcounters] at hc
      rw [hcache]
      exact h.counts.attained hc
  exact ⟨k', w', hact, hr, hcounts, h.dense, fun s i => by rw [hcache, h.asked_iff], by rw [hload]; rfl,
    fun _ => hleft⟩

theorem After.restart (h : After k w m asked false false) : After .empty w m [] false false :=
  ⟨h.refines.restart h.load_eq_none (h.synced rfl), DurableKeys.counts_empty, h.dense, asked_empty, rfl,
    fun _ => rfl⟩

/-- A call for a key begins a run with its answer, or ends it. -/
theorem After.runs_allocate (h : After k w m asked isOpen unsynced) {rest : List KeyStep}
    (hrest : ∀ {k' w'}, After k' w' (m.allocate s i).2 ((s, i) :: asked) isOpen unsynced →
      Runs (k', w') (m.allocate s i).2 ((s, i) :: asked) rest) :
    Runs (k, w) m asked (.allocate s i :: rest) := by
  rcases h.allocate s i with ⟨hstale, k', w', heq, hafter, -⟩ | ⟨hstale, state, heq⟩
  · have hact : (KeyStep.allocate s i).act (k, w) = .ok (some (m.allocate s i).1) (k', w') := by
      simp [act, Functor.map, EStateM.map, heq]
    have hrun := run_answered hact rest
    have hrest := hrest hafter
    refine ⟨?_, ?_, ?_⟩
    · rw [hrun]
      exact List.cons_prefix_cons.2 ⟨rfl, hrest.prefix_eq⟩
    · intro ht
      rw [timely, hstale, Bool.not_false, Bool.true_and] at ht
      rw [hrun, hrest.of_timely ht]
      rfl
    · intro ht
      rw [timely, hstale, Bool.not_false, Bool.true_and] at ht
      rw [hrun]
      exact hrest.of_late ht
  · have hact : (KeyStep.allocate s i).act (k, w) = .error (.databaseFailed (.keys isOpen)) state := by
      simp [act, Functor.map, EStateM.map, heq]
    have hrun := run_refused hact rest
    refine ⟨?_, ?_, fun _ => ⟨isOpen, ?_⟩⟩
    · rw [hrun]
      exact List.nil_prefix
    · intro ht
      rw [timely, hstale] at ht
      cases ht
    · rw [hrun]

/-- A run answers the keys of one process up to the first refused call. -/
theorem After.runs (h : After k w m asked isOpen unsynced) {steps : List KeyStep}
    (hallowed : allowed isOpen unsynced steps = true) : Runs (k, w) m asked steps := by
  induction steps generalizing k w m asked isOpen unsynced with
  | nil => exact ⟨List.prefix_refl _, fun _ => rfl, fun ht => by cases ht⟩
  | cons st rest ih =>
    cases st with
    | allocate s i => exact h.runs_allocate fun hafter => ih hafter hallowed
    | start =>
      rw [allowed, Bool.and_eq_true, Bool.not_eq_true'] at hallowed
      obtain ⟨rfl, hrest⟩ := hallowed
      exact (ih h.start hrest).quiet rfl rfl rfl
    | commit =>
      rw [allowed, Bool.and_eq_true] at hallowed
      exact (ih h.commit hallowed.2).quiet rfl rfl rfl
    | rollback =>
      rw [allowed, Bool.and_eq_true] at hallowed
      exact (ih h.rollback hallowed.2).quiet rfl rfl rfl
    | sync =>
      rw [allowed, Bool.and_eq_true, Bool.not_eq_true'] at hallowed
      obtain ⟨rfl, hrest⟩ := hallowed
      obtain ⟨k', w', hact, hafter⟩ := h.sync
      exact (ih hafter hrest).quiet hact rfl rfl
    | restart =>
      rw [allowed, Bool.and_eq_true, Bool.and_eq_true, Bool.not_eq_true', Bool.not_eq_true'] at hallowed
      obtain ⟨⟨rfl, rfl⟩, hrest⟩ := hallowed
      exact (ih h.restart hrest).quiet rfl rfl rfl

/-- The state of a process depends on the warehouse by the table of keys alone. -/
theorem After.congr {w' : Warehouse} (h : After k w m asked isOpen unsynced)
    (hkeys : w'.tables.keys = w.tables.keys) (hrestored : w'.restored = w.restored) :
    After k w' m asked isOpen unsynced := by
  obtain ⟨hr, hc, hd, ha, hl, hs⟩ := h
  refine ⟨⟨hr.inj, hr.cached, ?_, ?_, ?_, ?_, ?_, hr.unwritten_cached, hr.written_cached, hr.unwritten_nodup,
    hr.written_nodup, hr.not_undone⟩, hc, hd, ha, hl, hs⟩
  · rw [hkeys]
    exact hr.stored
  · rw [hkeys]
    exact hr.held
  · rw [hkeys, hrestored]
    exact hr.restored_sub
  · rw [hkeys, hrestored]
    exact hr.kept
  · rw [hkeys, hrestored]
    exact hr.idle

/-- The first process over an empty table. -/
theorem after_empty (hkeys : w.tables.keys = []) (hsaved : w.saved = none) :
    After .empty w .empty [] false false where
  refines := by
    have hrestored : w.restored = [] := by rw [Warehouse.restored, hsaved, Option.getD_none, hkeys]
    refine ⟨nofun, nofun, ?_, nofun, ?_, ?_, fun _ => hrestored.trans hkeys.symm, nofun, nofun, .nil, .nil, rfl⟩
    · rw [hkeys]
      exact nofun
    · rw [hrestored]
      exact nofun
    · rw [hkeys]
      exact nofun
  counts := DurableKeys.counts_empty
  dense := MemoryKeys.dense_empty
  asked_iff := asked_empty
  load_eq := rfl
  synced _ := rfl

/-- **Runs over an empty table.** A run answers what one process without a database answers to the same
calls, without failure, exactly when it is timely. A run that is not timely fails at a call for a key and
has answered the same keys up to there. The keys of one process are the places of the identifiers in the
order of first requests, so no transaction, synchronization or restart ever changes a key or makes two
identifiers share one. -/
theorem run_spec (w : Warehouse) (hkeys : w.tables.keys = []) (hsaved : w.saved = none)
    (steps : List KeyStep) (hallowed : allowed false false steps = true) :
    (run steps (.empty, w) = (MemoryKeys.empty.answers (calls steps), none) ↔
      timely .empty [] steps = true) ∧
    (run steps (.empty, w)).1 <+: MemoryKeys.empty.answers (calls steps) ∧
    (timely .empty [] steps = false → ∃ b, (run steps (.empty, w)).2 = some (.databaseFailed (.keys b))) ∧
    MemoryKeys.empty.answers (calls steps) =
      (calls steps).map fun c => (MemoryKeys.requested c.1 (calls steps)).idxOf c.2 + 1 := by
  have hruns := (after_empty hkeys hsaved).runs hallowed
  refine ⟨⟨fun heq => ?_, hruns.of_timely⟩, hruns.prefix_eq, hruns.of_late, MemoryKeys.answers_empty _⟩
  cases ht : timely .empty [] steps with
  | true => rfl
  | false =>
    obtain ⟨b, hb⟩ := hruns.of_late ht
    rw [heq] at hb
    cases hb

/-- A restarted process that meets the greatest key of its scope goes on after it, and a rollback keeps
the key that was answered in its transaction. -/
theorem run_timely :
    run [.allocate "items" "a", .start, .allocate "items" "b", .rollback, .sync, .restart,
      .allocate "items" "b", .allocate "items" "c"] (.empty, .empty) = ([1, 2, 2, 3], none) :=
  (run_spec .empty rfl rfl _ rfl).1.2 (by decide)

/-- A restarted process that meets another key of its scope first cannot give the next new identifier a
key: the counter stands at that key. -/
theorem run_stale :
    run [.allocate "items" "a", .allocate "items" "b", .sync, .restart, .allocate "items" "a",
        .allocate "items" "c"] (.empty, .empty) = ([1, 2, 1], some (.databaseFailed (.keys false))) ∧
      MemoryKeys.empty.answers [("items", "a"), ("items", "b"), ("items", "a"), ("items", "c")] =
        [1, 2, 1, 3] := by
  refine ⟨?_, rfl⟩
  rw [run_answered rfl, run_answered rfl, run_quiet (act_sync_idle rfl), run_quiet rfl, run_answered rfl,
    run_refused rfl]
  rfl

end KeyStep

end SnapshotStaging
