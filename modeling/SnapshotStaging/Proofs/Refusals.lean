import SnapshotStaging.Proofs.Tables

/-!
# Databases that refuse

A database *follows* the warehouse when what it does is what the warehouse does, and it may refuse any request:
a statement, a look at the table of keys, new keys or a commit. What it has refused has changed nothing, except
that a transaction may have begun. The warehouse follows itself, and so does an `Unreliable` one that refuses
the requests of given numbers.
-/

namespace SnapshotStaging

/-- What a database of type `σ` holds is a warehouse, which answers its requests or has them refused. -/
structure Follows {σ : Type} [Database σ] (view : σ → Warehouse) : Prop where
  start : ∀ db, view (Database.start db) = view db
  commit : ∀ db, view (Database.commit db) = (view db).commit
  rollback : ∀ db, view (Database.rollback db) = (view db).rollback
  keys : ∀ db, Database.keys db = (view db).tables.keys
  readable : ∀ db, view (Database.readable db).1 = view db
  executed : ∀ {st db n db'}, Database.execute st db = .ok n db' →
    Warehouse.execute st (view db) = .ok n (view db')
  notExecuted : ∀ {st db err db'}, Database.execute st db = .error err db' →
    view db' = view db ∨ view db' = (view db).begun
  added : ∀ {rows db db'}, Database.addKeys rows db = (db', true) → (view db).addKeys rows = (view db', true)
  notAdded : ∀ {rows db db'}, Database.addKeys rows db = (db', false) →
    view db' = view db ∨ view db' = (view db).begun

namespace Follows

variable {σ : Type} [Database σ] {view : σ → Warehouse} {db db' : σ} {b : Bool}

theorem asked (h : Follows view) (hread : Database.readable db = (db', b)) : view db' = view db := by
  rw [← h.readable db, hread]

end Follows

namespace Warehouse

/-- Beginning a transaction changes nothing that a rollback restores. -/
theorem begun_rollback (w : Warehouse) : w.begun.rollback = w.rollback := rfl

/-- A statement that fails may have begun a transaction. -/
theorem execute_error {st : Statement} {w w' : Warehouse} {err : Error} (h : execute st w = .error err w') :
    w' = w ∨ w' = w.begun := by
  have happly (v : Warehouse) (h : apply st v = .error err w') : w' = v := by
    cases st <;> simp only [apply, fail] at h <;> repeat' split at h
    all_goals cases h
    all_goals rfl
  unfold execute at h
  split at h
  · exact .inr (happly _ h)
  · exact .inl (happly _ h)

theorem addKeys_false {rows : List Assignment} {w w' : Warehouse} (h : w.addKeys rows = (w', false)) :
    w' = w.begun := by
  simp only [addKeys] at h
  split at h
  · cases h
  · cases h
    rfl

end Warehouse

/-- A warehouse that refuses some requests. -/
structure Unreliable where
  warehouse : Warehouse
  /-- The numbers of the requests that are refused. -/
  refused : List Nat
  /-- How many requests there were. -/
  requests : Nat := 0
  deriving DecidableEq, Repr

namespace Unreliable

def refuses (u : Unreliable) : Bool := u.refused.contains u.requests

/-- The state after a request that leaves the warehouse as `w`. -/
def next (u : Unreliable) (w : Warehouse) : Unreliable := { u with warehouse := w, requests := u.requests + 1 }

def execute (st : Statement) : EStateM Error Unreliable Int := fun u =>
  if u.refuses then .error (.databaseFailed .statement) (u.next u.warehouse)
  else
    match Warehouse.execute st u.warehouse with
    | .ok n w => .ok n (u.next w)
    | .error err w => .error err (u.next w)

def addKeys (rows : List Assignment) (u : Unreliable) : Unreliable × Bool :=
  if u.refuses then (u.next u.warehouse, false)
  else (u.next (u.warehouse.addKeys rows).1, (u.warehouse.addKeys rows).2)

instance : Database Unreliable where
  start u := u
  commits u := !u.refuses
  commit u := u.next u.warehouse.commit
  rollback u := u.next u.warehouse.rollback
  execute := execute
  readable u := (u.next u.warehouse, !u.refuses)
  keys u := u.warehouse.tables.keys
  addKeys := addKeys

end Unreliable

theorem follows_unreliable : Follows Unreliable.warehouse where
  start _ := rfl
  commit _ := rfl
  rollback _ := rfl
  keys _ := rfl
  readable _ := rfl
  executed {st u n u'} h := by
    have h : Unreliable.execute st u = .ok n u' := h
    unfold Unreliable.execute at h
    split at h
    · cases h
    · split at h
      · next hok =>
        cases h
        exact hok
      · cases h
  notExecuted {st u err u'} h := by
    have h : Unreliable.execute st u = .error err u' := h
    unfold Unreliable.execute at h
    split at h
    · cases h
      exact .inl rfl
    · split at h
      · cases h
      · next herror =>
        cases h
        exact Warehouse.execute_error herror
  added {rows u u'} h := by
    have h : Unreliable.addKeys rows u = (u', true) := h
    unfold Unreliable.addKeys at h
    split at h
    · cases h
    · obtain ⟨rfl, hadded⟩ := Prod.mk.inj h
      exact Prod.ext rfl hadded
  notAdded {rows u u'} h := by
    have h : Unreliable.addKeys rows u = (u', false) := h
    unfold Unreliable.addKeys at h
    split at h
    · cases h
      exact .inl rfl
    · obtain ⟨rfl, hadded⟩ := Prod.mk.inj h
      exact .inr (Warehouse.addKeys_false (Prod.ext rfl hadded))

end SnapshotStaging
