import SnapshotStaging.Proofs.Key.Store
import SnapshotStaging.Proofs.Refusals

/-!
# The steps of a durable store

What a call for a key and a synchronization do, on any database that follows the warehouse: one constructor
for each way that a step goes. Everything else about these steps is read off here.

Main results: `answered` and `refused`, the two outcomes of a call for a key, and `synced` and `unsynced`, those
of a synchronization.
-/

namespace SnapshotStaging

open Assignment

/-- The warehouse after rows were added to its table of keys. -/
def Warehouse.withKeys (w : Warehouse) (rows : List Assignment) : Warehouse :=
  { w.begun with tables := { w.tables with keys := w.tables.keys ++ rows } }

theorem Warehouse.of_addKeys {w w' : Warehouse} {rows : List Assignment} (h : w.addKeys rows = (w', true)) :
    w' = w.withKeys rows ∧ (∀ a ∈ rows, ∀ b ∈ w.tables.keys, Compatible a b) ∧ Consistent rows := by
  cases hinsert : Assignment.insertAll w.tables.keys rows with
  | none =>
    rw [addKeys_none hinsert] at h
    cases h
  | some all =>
    rw [addKeys_eq hinsert] at h
    obtain ⟨rfl, hcompatible, hnew⟩ := Assignment.of_insertAll hinsert
    cases h
    exact ⟨rfl, hcompatible, hnew⟩

namespace DurableKeys

/-- The assignment that a new identifier is given. -/
def next (k : DurableKeys) (rows : List Assignment) (s i : String) : Assignment := ⟨s, i, k.counter rows s + 1⟩

/-- The store after it has given a new identifier its key. -/
def given (k : DurableKeys) (rows : List Assignment) (s i : String) : DurableKeys :=
  (k.nextKey rows s).1.remember (k.next rows s i)

/-- The store after a refused insertion, which has undone the open transaction. -/
def spoilt (k : DurableKeys) (load : LoadTransaction) : DurableKeys :=
  { k with load := some { load with undone := true } }

/-- What an answered call has done. -/
inductive Answered (k : DurableKeys) (w : Warehouse) (s i : String) : Nat → DurableKeys → Warehouse → Prop
  | known {n : Nat} (h : lookup s i k.cache = some n) : Answered k w s i n k w
  | found {n : Nat} (hcache : lookup s i k.cache = none) (h : lookup s i w.tables.keys = some n) :
      Answered k w s i n (k.remember ⟨s, i, n⟩) w
  | written {load : LoadTransaction} (hcache : lookup s i k.cache = none) (hload : k.load = some load)
      (hundone : load.undone = false) (hrow : lookup s i w.tables.keys = none)
      (hfresh : ∀ b ∈ w.tables.keys, Compatible (k.next w.tables.keys s i) b) :
      Answered k w s i (k.counter w.tables.keys s + 1)
        ((k.given w.tables.keys s i).wrote (k.next w.tables.keys s i)) (w.withKeys [k.next w.tables.keys s i])
  | committed (hcache : lookup s i k.cache = none) (hload : k.load = none) (hrow : lookup s i w.tables.keys = none)
      (hfresh : ∀ b ∈ w.tables.keys, Compatible (k.next w.tables.keys s i) b) :
      Answered k w s i (k.counter w.tables.keys s + 1) (k.given w.tables.keys s i)
        (w.withKeys [k.next w.tables.keys s i]).commit

/-- What a refused call has done. -/
inductive Refused (k : DurableKeys) (w : Warehouse) (s : String) : DurableKeys → Warehouse → Prop
  | nothing : Refused k w s k w
  | written {load : LoadTransaction} (hload : k.load = some load) :
      Refused k w s ((k.nextKey w.tables.keys s).1.spoilt load) w.rollback
  | committed (hload : k.load = none) : Refused k w s (k.nextKey w.tables.keys s).1 w.rollback

/-- The assignments that a synchronization writes. -/
def due (k : DurableKeys) (rows : List Assignment) : List Assignment :=
  k.missing rows (k.unwritten.mergeSort pairLe)

/-- What a synchronization has done. -/
inductive Synced (k : DurableKeys) (w : Warehouse) : DurableKeys → Warehouse → Prop
  | idle (h : k.unwritten = []) : Synced k w k w
  | written (hfresh : ∀ a ∈ k.due w.tables.keys, ∀ b ∈ w.tables.keys, Compatible a b)
      (hdue : Consistent (k.due w.tables.keys)) :
      Synced k w { k with unwritten := [] } (w.withKeys (k.due w.tables.keys)).commit

variable {σ : Type} [Database σ] {view : σ → Warehouse} {k k' : DurableKeys} {db db' : σ} {s i : String} {n : Nat}
  {err : Error}

theorem next_key (k : DurableKeys) (rows : List Assignment) (s i : String) :
    (⟨s, i, (k.nextKey rows s).2⟩ : Assignment) = k.next rows s i := by
  rw [nextKey_snd]
  rfl

/-- **A call that is answered** has found the key in memory or in the table, or has given a new one. -/
theorem answered (hview : Follows view) (h : allocate s i (k, db) = .ok n (k', db')) :
    Answered k (view db) s i n k' (view db') := by
  simp only [allocate] at h
  split at h
  · next hcache =>
    cases h
    exact .known hcache
  · next hcache =>
    split at h
    · cases h
    · next hundone =>
      split at h
      · cases h
      · next db₁ hread =>
        have hseen := hview.asked hread
        rw [hview.keys, hseen] at h
        split at h
        · next hrow =>
          cases h
          rw [hseen]
          exact .found hcache hrow
        · next hrow =>
          rw [next_key, nextKey_snd, nextKey_load] at h
          split at h
          · next load hload =>
            have hundone : load.undone = false := by simpa [hload] using hundone
            split at h
            · next db₂ hadd =>
              cases h
              obtain ⟨heq, hfresh, -⟩ := Warehouse.of_addKeys (hview.added hadd)
              rw [hseen] at heq hfresh
              rw [heq]
              exact .written hcache hload hundone hrow fun b hb => hfresh _ (List.mem_singleton_self _) b hb
            · cases h
          · next hload =>
            split at h
            · next db₂ hadd =>
              split at h
              · cases h
                obtain ⟨heq, hfresh, -⟩ := Warehouse.of_addKeys (hview.added hadd)
                rw [hview.start, hseen] at heq hfresh
                rw [hview.commit, heq]
                exact .committed hcache hload hrow fun b hb => hfresh _ (List.mem_singleton_self _) b hb
              · cases h
            · cases h

/-- New keys that were refused leave what a rollback restores. -/
theorem rollback_notAdded {db₁ : σ} {rows : List Assignment} (hview : Follows view)
    (h : Database.addKeys rows db = (db₁, false)) : view (Database.rollback db₁) = (view db).rollback := by
  rw [hview.rollback]
  rcases hview.notAdded h with heq | heq
  · rw [heq]
  · rw [heq, Warehouse.begun_rollback]

/-- A commit that was refused leaves what a rollback restores. -/
theorem rollback_added {db₁ : σ} {rows : List Assignment} (hview : Follows view)
    (h : Database.addKeys rows db = (db₁, true)) : view (Database.rollback db₁) = (view db).rollback := by
  obtain ⟨heq, -⟩ := Warehouse.of_addKeys (hview.added h)
  rw [hview.rollback, heq]
  rfl

/-- **A call that is refused** hands out nothing: it has changed at most the counter of its scope, and undone
the open transaction. -/
theorem refused (hview : Follows view) (h : allocate s i (k, db) = .error err (k', db')) :
    err = .databaseFailed (.keys k.load.isSome) ∧ Refused k (view db) s k' (view db') := by
  simp only [allocate] at h
  split at h
  · cases h
  · split at h
    · next hundone =>
      cases h
      obtain ⟨load, hload, -⟩ := (Option.any_eq_true ..).1 hundone
      exact ⟨by rw [hload]; rfl, .nothing⟩
    · split at h
      · next db₁ hread =>
        cases h
        refine ⟨rfl, ?_⟩
        rw [hview.asked hread]
        exact .nothing
      · next db₁ hread =>
        have hseen := hview.asked hread
        rw [hview.keys, hseen] at h
        split at h
        · cases h
        · rw [next_key, nextKey_snd, nextKey_load] at h
          split at h
          · next load hload =>
            split at h
            · cases h
            · next db₂ hadd =>
              cases h
              refine ⟨by rw [hload]; rfl, ?_⟩
              rw [rollback_notAdded hview hadd, hseen]
              exact .written hload
          · next hload =>
            have hstart : view (Database.start db₁) = view db := (hview.start db₁).trans hseen
            split at h
            · next db₂ hadd =>
              split at h
              · cases h
              · cases h
                refine ⟨by rw [hload]; rfl, ?_⟩
                rw [rollback_added hview hadd, hstart]
                exact .committed hload
            · next db₂ hadd =>
              cases h
              refine ⟨by rw [hload]; rfl, ?_⟩
              rw [rollback_notAdded hview hadd, hstart]
              exact .committed hload

/-- A synchronization that succeeds has written what was left over. -/
theorem synced (hview : Follows view) (h : sync (k, db) = .ok n (k', db')) : Synced k (view db) k' (view db') := by
  simp only [sync] at h
  split at h
  · next hempty =>
    cases h
    have hsorted : k.unwritten.mergeSort pairLe = [] := List.isEmpty_iff.1 hempty
    have hlength : (k.unwritten.mergeSort pairLe).length = k.unwritten.length := List.length_mergeSort ..
    rw [hsorted] at hlength
    exact .idle (List.eq_nil_of_length_eq_zero hlength.symm)
  · split at h
    · cases h
    · next db₁ hread =>
      have hseen : view db₁ = view db := (hview.asked hread).trans (hview.start db)
      rw [hview.keys, hseen] at h
      split at h
      · next db₂ hadd =>
        split at h
        · cases h
          obtain ⟨heq, hfresh, hdue⟩ := Warehouse.of_addKeys (hview.added hadd)
          rw [hview.commit, heq, hseen]
          rw [hseen] at hfresh
          exact .written hfresh hdue
        · cases h
      · cases h

/-- A synchronization that fails drops nothing. -/
theorem unsynced (hview : Follows view) (h : sync (k, db) = .error err (k', db')) :
    k' = k ∧ view db' = (view db).rollback := by
  simp only [sync] at h
  split at h
  · cases h
  · split at h
    · next db₁ hread =>
      cases h
      have hseen : view db₁ = view db := (hview.asked hread).trans (hview.start db)
      exact ⟨rfl, by rw [hview.rollback, hseen]⟩
    · next db₁ hread =>
      have hseen : view db₁ = view db := (hview.asked hread).trans (hview.start db)
      split at h
      · next db₂ hadd =>
        split at h
        · cases h
        · cases h
          exact ⟨rfl, by rw [rollback_added hview hadd, hseen]⟩
      · next db₂ hadd =>
        cases h
        exact ⟨rfl, by rw [rollback_notAdded hview hadd, hseen]⟩

end DurableKeys

end SnapshotStaging
