import SnapshotStaging.Load.Encoder
import SnapshotStaging.Proofs.Key.Runs
import SnapshotStaging.Proofs.Tables

/-!
# Steps that ask for keys

`Session.Answered s m asked` says that the store of keys of a session, whichever it is, has answered the
assignments `m`. `Meets` is the specification of a step of the encoder: it asks for the keys of `reqs`
in order and, unless a call for one is refused, takes a state with `P` to one with `Q`. The rules put the
specifications of steps together; a caller uses the specification of a step only.

Main results: `resolve_spec`, the two ways a call for a key goes, and `Meets.bind`.
-/

namespace SnapshotStaging

open Assignment

/-- A table of keys that every assignment of `m` is in. -/
def MemoryKeys.Within (m M : MemoryKeys) : Prop :=
  ∀ s i n, lookup s i m.rows = some n → lookup s i M.rows = some n

/-- The key of an identifier that has one. -/
def MemoryKeys.key (M : MemoryKeys) (s i : String) : Nat := (lookup s i M.rows).getD 0

theorem MemoryKeys.within_after (m : MemoryKeys) (calls : List (String × String)) : m.Within (m.after calls) :=
  fun _ _ _ h => lookup_after_of_lookup calls h

theorem MemoryKeys.Within.trans {m m' M : MemoryKeys} (h : m.Within m') (h' : m'.Within M) : m.Within M :=
  fun s i n hn => h' s i n (h s i n hn)

/-- The key that is answered is the key of every later table. -/
theorem MemoryKeys.Within.key_eq {m M : MemoryKeys} {s i : String} (h : (m.allocate s i).2.Within M) :
    (m.allocate s i).1 = M.key s i := by
  rw [key, h s i _ (lookup_allocate m s i), Option.getD_some]

namespace Session

variable {s : Session Warehouse} {m : MemoryKeys} {asked : List (String × String)}

/-- The store of keys has answered `m`, and `asked` since the process began. -/
def Answered (s : Session Warehouse) (m : MemoryKeys) (asked : List (String × String)) : Prop :=
  match s.keys with
  | .memory k => k = m ∧ m.Dense
  | .durable k => ∃ isOpen unsynced, KeyStep.After k s.database m asked isOpen unsynced

/-- Whether no call for a key is refused: a store in memory refuses none. -/
def prompt (durable : Bool) (m : MemoryKeys) (asked reqs : List (String × String)) : Bool :=
  !durable || KeyStep.timely m asked (reqs.map fun c => .allocate c.1 c.2)

theorem prompt_nil (durable : Bool) (m : MemoryKeys) (asked : List (String × String)) :
    prompt durable m asked [] = true := by
  simp [prompt, KeyStep.timely]

theorem prompt_append (durable : Bool) (m : MemoryKeys) (asked reqs rest : List (String × String)) :
    prompt durable m asked (reqs ++ rest) =
      (prompt durable m asked reqs && prompt durable (m.after reqs) (reqs.reverse ++ asked) rest) := by
  induction reqs generalizing m asked with
  | nil => simp [prompt, KeyStep.timely, MemoryKeys.after]
  | cons c reqs ih =>
    have hrest := ih (m.allocate c.1 c.2).2 (c :: asked)
    cases durable with
    | false => rfl
    | true =>
      simp only [prompt, Bool.not_true, Bool.false_or] at hrest ⊢
      rw [List.cons_append, List.map_cons, List.map_cons, KeyStep.timely, KeyStep.timely, hrest,
        MemoryKeys.after, Bool.and_assoc, List.reverse_cons, List.append_assoc]
      rfl

theorem Answered.dense (h : s.Answered m asked) : m.Dense := by
  unfold Answered at h
  split at h
  · exact h.2
  · obtain ⟨_, _, h⟩ := h
    exact h.dense

/-- Two sessions that have one store and one table of keys, which a rollback leaves one as well. -/
structure SameKeys (s s' : Session Warehouse) : Prop where
  store : s'.keys = s.keys
  rows : s'.database.tables.keys = s.database.tables.keys
  restored : s'.database.restored = s.database.restored

theorem SameKeys.refl (s : Session Warehouse) : s.SameKeys s := ⟨rfl, rfl, rfl⟩

theorem SameKeys.of_log (s : Session Warehouse) (log : List Log.Entry) : s.SameKeys { s with log := log } :=
  ⟨rfl, rfl, rfl⟩

/-- What a session has answered depends on its database by the table of keys alone. -/
theorem Answered.congr {s' : Session Warehouse} (h : s.Answered m asked) (hsame : s.SameKeys s') :
    s'.Answered m asked := by
  unfold Answered at h ⊢
  rw [hsame.store]
  split
  · next heq => rwa [heq] at h
  · next heq =>
    rw [heq] at h
    obtain ⟨o, u, h⟩ := h
    exact ⟨o, u, h.congr hsame.rows hsame.restored⟩

end Session

open Session in
/-- A call for a key: it is answered the key of one process, or refused by a store that is not prompt. -/
theorem Task.resolve_spec {s : Session Warehouse} {m : MemoryKeys} {asked : List (String × String)}
    (h : s.Answered m asked) (scope id : String) :
    (prompt s.keys.isDurable m asked [(scope, id)] = true ∧ ∃ s',
      Task.resolve scope id s = .ok (m.allocate scope id).1 s' ∧
        s'.Answered (m.allocate scope id).2 ((scope, id) :: asked) ∧
        s'.keys.isDurable = s.keys.isDurable ∧
        s'.database.tables.relations = s.database.tables.relations) ∨
    (prompt s.keys.isDurable m asked [(scope, id)] = false ∧ ∃ b s',
      Task.resolve scope id s = .error (.databaseFailed (.keys b)) s') := by
  obtain ⟨db, store, log⟩ := s
  cases store with
  | memory k =>
    obtain ⟨rfl, hdense⟩ := h
    exact .inl ⟨rfl, _, rfl, ⟨rfl, hdense.allocate scope id⟩, rfl, rfl⟩
  | durable k =>
    obtain ⟨o, u, h⟩ := h
    have hprompt : prompt (KeyStore.durable k).isDurable m asked [(scope, id)] =
        !KeyStep.stale m asked scope id := by
      simp [prompt, KeyStore.isDurable, KeyStep.timely]
    rw [hprompt]
    rcases h.allocate scope id with ⟨hstale, k', w', heq, hafter, hrelations⟩ | ⟨hstale, st, heq⟩
    · refine .inl ⟨by rw [hstale]; rfl, ⟨w', .durable k', log⟩, ?_, ⟨o, u, hafter⟩, rfl, hrelations⟩
      show onDurable k (DurableKeys.allocate scope id) _ = _
      simp only [onDurable, heq]
    · refine .inr ⟨by rw [hstale]; rfl, o, ⟨st.2, .durable st.1, log⟩, ?_⟩
      show onDurable k (DurableKeys.allocate scope id) _ = _
      simp only [onDurable, heq]

theorem Pass.onSession_ok {τ σ α : Type} {task : Task σ α} {s s' : Session σ} {a : α}
    (h : task s = .ok a s') (t : τ) : Pass.onSession task (t, s) = .ok a (t, s') := by
  rw [onSession, h]

/-! ## Specifications of steps -/

namespace Encoder

/-- A step asks for the keys of `reqs` in order. Unless a call for one is refused it takes an encoder and a
loading table with `P` to ones with `Q`; every key is that of the later table `M`. -/
def Meets {α : Type} (name : String) (M : MemoryKeys) (x : Step Warehouse α) (reqs : List (String × String))
    (P : Encoder → Option Relation → Prop) (Q : α → Encoder → Option Relation → Prop) : Prop :=
  ∀ e s m asked, s.Answered m asked → (m.after reqs).Within M → P e (s.database.find? name) →
    (Session.prompt s.keys.isDurable m asked reqs = true ∧ ∃ a e' s', x (e, s) = .ok a (e', s') ∧
      s'.Answered (m.after reqs) (reqs.reverse ++ asked) ∧ s'.keys.isDurable = s.keys.isDurable ∧
      Q a e' (s'.database.find? name)) ∨
    (Session.prompt s.keys.isDurable m asked reqs = false ∧ ∃ b st,
      x (e, s) = .error (.databaseFailed (.keys b)) st)

variable {α β : Type} {name : String} {M : MemoryKeys} {x : Step Warehouse α} {f : α → Step Warehouse β}
  {reqs rest : List (String × String)} {P : Encoder → Option Relation → Prop}
  {Q : α → Encoder → Option Relation → Prop} {R : β → Encoder → Option Relation → Prop}

/-- Steps in a row. -/
theorem Meets.bind (hx : Meets name M x reqs P Q) (hf : ∀ a, Meets name M (f a) rest (Q a) R) :
    Meets name M (x >>= f) (reqs ++ rest) P R := by
  intro e s m asked hs hM hP
  rw [MemoryKeys.after_append] at hM ⊢
  rw [Session.prompt_append]
  rcases hx e s m asked hs ((MemoryKeys.within_after _ _).trans hM) hP with
    ⟨hprompt, a, e', s', heq, hs', hdurable, hQ⟩ | ⟨hprompt, b, st, heq⟩
  · rw [hprompt, Bool.true_and, bind_ok heq, ← hdurable]
    rcases hf a e' s' _ _ hs' hM hQ with ⟨hprompt', c, e'', s'', heq', hs'', hdurable', hR⟩ | herror
    · refine .inl ⟨hprompt', c, e'', s'', heq', ?_, hdurable', hR⟩
      rw [List.reverse_append, List.append_assoc]
      exact hs''
    · exact .inr herror
  · rw [hprompt, Bool.false_and]
    exact .inr ⟨rfl, b, st, bind_error heq⟩

/-- A step that asks for no key, then another. -/
theorem Meets.then (hx : Meets name M x [] P Q) (hf : ∀ a, Meets name M (f a) rest (Q a) R) :
    Meets name M (x >>= f) rest P R := hx.bind hf

theorem Meets.mono {P' : Encoder → Option Relation → Prop} {Q' : α → Encoder → Option Relation → Prop}
    (h : Meets name M x reqs P Q) (hP : ∀ e r, P' e r → P e r) (hQ : ∀ a e r, Q a e r → Q' a e r) :
    Meets name M x reqs P' Q' := by
  intro e s m asked hs hM hP'
  rcases h e s m asked hs hM (hP _ _ hP') with ⟨hprompt, a, e', s', heq, hs', hdurable, hQa⟩ | herror
  · exact .inl ⟨hprompt, a, e', s', heq, hs', hdurable, hQ _ _ _ hQa⟩
  · exact .inr herror

/-- A fact about no state that the precondition has in it may be assumed. -/
theorem Meets.assuming {p : Prop} (hp : ∀ e r, P e r → p) (h : p → Meets name M x reqs P Q) :
    Meets name M x reqs P Q :=
  fun e s m asked hs hM hP => h (hp _ _ hP) e s m asked hs hM hP

theorem Meets.of_and {p : Prop} (h : p → Meets name M x reqs P Q) :
    Meets name M x reqs (fun e r => p ∧ P e r) Q :=
  Meets.assuming (fun _ _ hP => hP.1) fun hp => (h hp).mono (fun _ _ hP => hP.2) fun _ _ _ hQ => hQ

/-- A step that asks for no key. -/
theorem meets_quiet (h : ∀ e s, P e (s.database.find? name) → ∃ a e' s', x (e, s) = .ok a (e', s') ∧
    s.SameKeys s' ∧ Q a e' (s'.database.find? name)) : Meets name M x [] P Q := by
  intro e s m asked hs _ hP
  obtain ⟨a, e', s', heq, hsame, hQ⟩ := h e s hP
  exact .inl ⟨Session.prompt_nil _ _ _, a, e', s', heq, hs.congr hsame, by rw [hsame.store], hQ⟩

/-- A step that works on the encoder and the log and leaves the database alone. -/
theorem meets_local (h : ∀ e s, P e (s.database.find? name) → ∃ a e' log,
    x (e, s) = .ok a (e', { s with log := log }) ∧ Q a e' (s.database.find? name)) :
    Meets name M x [] P Q := by
  refine meets_quiet ?_
  intro e s hP
  obtain ⟨a, e', log, heq, hQ⟩ := h e s hP
  exact ⟨a, e', _, heq, .of_log s log, hQ⟩

theorem meets_pure (a : α) (h : ∀ e r, P e r → Q a e r) :
    Meets name M (pure a : Step Warehouse α) [] P Q :=
  meets_local fun e s hP => ⟨a, e, s.log, rfl, h _ _ hP⟩

theorem meets_own : Meets name M (Pass.own : Step Warehouse Encoder) [] P fun a e r => a = e ∧ P e r :=
  meets_local fun e s hP => ⟨e, e, s.log, rfl, rfl, hP⟩

/-- A step that looks at the encoder first. -/
theorem Meets.own {f : Encoder → Step Warehouse β} (h : ∀ e r, P e r → Meets name M (f e) rest P R) :
    Meets name M (Pass.own >>= f) rest P R := by
  intro e s m asked hs hM hP
  exact h e _ hP e s m asked hs hM hP

theorem meets_update (g : Encoder → Encoder) (Q : Unit → Encoder → Option Relation → Prop)
    (h : ∀ e r, P e r → Q () (g e) r) : Meets name M (Pass.update g) [] P Q :=
  meets_local fun e s hP => ⟨(), g e, s.log, rfl, h _ _ hP⟩

theorem meets_note (level : Log.Level) (message : String) :
    Meets name M (Pass.onSession (Task.note level message)) [] P fun _ => P :=
  meets_local fun e s hP => ⟨(), e, ⟨level, message, none⟩ :: s.log, rfl, hP⟩

theorem meets_noteWith (level : Log.Level) (message : String) (fields : List (String × Json)) :
    Meets name M (Pass.onSession (Task.noteWith level message fields)) [] P fun _ => P :=
  meets_local fun e s hP => ⟨(), e, ⟨level, message, some fields⟩ :: s.log, rfl, hP⟩

/-- A call for a key is answered the key of the later table. -/
theorem meets_resolve (scope id : String) :
    Meets name M (Pass.onSession (Task.resolve scope id)) [(scope, id)] P
      fun n e r => n = M.key scope id ∧ P e r := by
  intro e s m asked hs hM hP
  rcases Task.resolve_spec hs scope id with
    ⟨hprompt, s', heq, hs', hdurable, hrelations⟩ | ⟨hprompt, b, s', heq⟩
  · refine .inl ⟨hprompt, _, e, s', ?_, hs', hdurable, hM.key_eq, ?_⟩
    · simp only [Pass.onSession, heq]
    · rwa [Warehouse.find?, hrelations]
  · refine .inr ⟨hprompt, b, (e, s'), ?_⟩
    simp only [Pass.onSession, heq]

end Encoder

end SnapshotStaging
