import SnapshotStaging.Proofs.Key.Store
import SnapshotStaging.Load.Encoder

/-!
# A database with a journal

`Journaled σ` is the database `σ` that also writes down every statement it is asked for. What a load asks
for is a question about the journal, whatever database is behind it: `Is` and `At` are conditions on the
state of a pass that look at the journal and the store of keys only, and the rules below are those of
`Ends` for the steps that all passes are made of.
-/

namespace SnapshotStaging

structure Journaled (σ : Type) where
  database : σ
  /-- Every statement that was asked for, latest first. -/
  journal : List Statement

namespace Journaled

variable {σ τ α : Type}

/-! ## Conditions -/

/-- The pass is at `t`, the journal is `J` and the store of keys `k`. -/
def Is (t : τ) (J : List Statement) (k : KeyStore) (st : τ × Session (Journaled σ)) : Prop :=
  st.1 = t ∧ st.2.database.journal = J ∧ st.2.keys = k

/-- A condition on a pass, the journal and the store of keys. -/
def At (P : τ → List Statement → KeyStore → Prop) (st : τ × Session (Journaled σ)) : Prop :=
  P st.1 st.2.database.journal st.2.keys

variable {t : τ} {J : List Statement} {k : KeyStore} {P : τ → List Statement → KeyStore → Prop}
  {x : Pass τ (Journaled σ) α} {Q : α → τ × Session (Journaled σ) → Prop} {E : Error → Prop}

/-- A step may be looked at from one state at a time. -/
theorem ends_at (h : ∀ t J k, P t J k → Ends (Is t J k) x Q E) : Ends (At P) x Q E :=
  fun st hP => h _ _ _ hP st ⟨rfl, rfl, rfl⟩

theorem ends_is (hx : Ends (At P) x Q E) (h : P t J k) : Ends (Is t J k) x Q E := by
  refine hx.mono ?_ (fun _ _ h => h) fun _ h => h
  rintro ⟨t', s⟩ ⟨rfl, rfl, rfl⟩
  exact h

theorem ends_own {f : τ → Pass τ (Journaled σ) α} (h : Ends (Is t J k) (f t) Q E) :
    Ends (Is t J k) (Pass.own >>= f) Q E := by
  rintro ⟨t', s⟩ ⟨rfl, hJ, hk⟩
  exact h _ ⟨rfl, hJ, hk⟩

theorem ends_update (g : τ → τ) :
    Ends (Is t J k) (Pass.update g : Pass τ (Journaled σ) Unit) (fun _ => Is (g t) J k) E := by
  rintro ⟨t', s⟩ ⟨rfl, hJ, hk⟩
  exact ⟨rfl, hJ, hk⟩

theorem ends_note (level : Log.Level) (message : String) :
    Ends (Is t J k) (Pass.onSession (Task.note level message) : Pass τ (Journaled σ) Unit)
      (fun _ => Is t J k) E :=
  fun _ h => h

theorem ends_noteWith (level : Log.Level) (message : String) (fields : List (String × Json)) :
    Ends (Is t J k) (Pass.onSession (Task.noteWith level message fields) : Pass τ (Journaled σ) Unit)
      (fun _ => Is t J k) E :=
  fun _ h => h

/-! ## Statements and keys -/

variable [Database σ]

def execute (st : Statement) : EStateM Error (Journaled σ) Int := fun j =>
  match Database.execute st j.database with
  | .ok n db => .ok n ⟨db, st :: j.journal⟩
  | .error e db => .error e ⟨db, st :: j.journal⟩

instance : Database (Journaled σ) where
  start j := { j with database := Database.start j.database }
  commits j := Database.commits j.database
  commit j := { j with database := Database.commit j.database }
  rollback j := { j with database := Database.rollback j.database }
  execute := execute
  readable j := ({ j with database := (Database.readable j.database).1 }, (Database.readable j.database).2)
  keys j := Database.keys j.database
  addKeys rows j := ({ j with database := (Database.addKeys rows j.database).1 },
    (Database.addKeys rows j.database).2)

theorem untouched : Untouched (journal : Journaled σ → List Statement) :=
  ⟨fun _ => rfl, fun _ => rfl, fun _ => rfl, fun _ _ => rfl⟩

/-- Errors that the database or a durable store of keys gives rise to. -/
def Refused (σ : Type) [Database σ] (durable : Bool) (err : Error) : Prop :=
  (∃ (st : Statement) (db db' : σ), Database.execute st db = .error err db') ∨
    durable = true ∧ ∃ b, err = .databaseFailed (.keys b)

theorem ends_resolve (scope id : String) :
    Ends (Is t J k) (Pass.onSession (Task.resolve scope id) : Pass τ (Journaled σ) Nat)
      (fun n => At fun t' J' k' => t' = t ∧ J' = J ∧ k.Extends k' ∧ k'.key? scope id = some n)
      (Refused σ k.isDurable) := by
  rintro ⟨t', s⟩ ⟨rfl, rfl, rfl⟩
  cases hresolve : Task.resolve scope id s with
  | ok n s' =>
    obtain ⟨hjournal, hextends, hkey⟩ := Task.resolve_ok untouched hresolve
    simp only [Pass.onSession, hresolve]
    exact ⟨rfl, hjournal, hextends, hkey⟩
  | error err s' =>
    simp only [Pass.onSession, hresolve]
    exact .inr (Task.resolve_error hresolve)

theorem execute_ends (st : Statement) (s : Session (Journaled σ)) :
    match Task.execute st s with
    | .ok _ s' => s'.database.journal = st :: s.database.journal ∧ s'.keys = s.keys
    | .error err _ => ∃ db db' : σ, Database.execute st db = .error err db' := by
  have heq : (Database.execute st : EStateM Error (Journaled σ) Int) = execute st := rfl
  simp only [Task.execute, heq, execute]
  cases hexecute : Database.execute st s.database.database with
  | ok n db => exact ⟨rfl, rfl⟩
  | error err db => exact ⟨_, _, hexecute⟩

theorem ends_execute (st : Statement) {durable : Bool} :
    Ends (Is t J k) (Pass.onSession (Task.execute st) : Pass τ (Journaled σ) Int)
      (fun _ => Is t (st :: J) k) (Refused σ durable) := by
  rintro ⟨t', s⟩ ⟨rfl, rfl, rfl⟩
  have h := execute_ends st s
  cases hexecute : Task.execute st s with
  | ok n s' =>
    rw [hexecute] at h
    simp only [Pass.onSession, hexecute]
    exact ⟨rfl, h.1, h.2⟩
  | error err s' =>
    rw [hexecute] at h
    simp only [Pass.onSession, hexecute]
    exact .inl ⟨st, h⟩

end Journaled

end SnapshotStaging
