import SnapshotStaging.Proofs.Steps

/-!
# What a store of keys remembers

A store in memory remembers all its assignments, a durable one those that its process has answered. What is
remembered stays, whatever the database does; a call for a remembered key changes nothing.

Main results: `resolve_known` and `resolve_ok`, the two sides of a call for a key, and `resolve_given`, a call
whose answer is known beforehand.
-/

namespace SnapshotStaging

open Assignment

namespace KeyStore

/-- The key of an identifier, when the store remembers it. -/
def key? (k : KeyStore) (scope id : String) : Option Nat :=
  match k with
  | .memory k => lookup scope id k.rows
  | .durable k => lookup scope id k.cache

/-- A later state of a store: it is of the same kind and remembers no less. -/
structure Extends (k k' : KeyStore) : Prop where
  kind : k'.isDurable = k.isDurable
  keys : ∀ {scope id n}, k.key? scope id = some n → k'.key? scope id = some n

theorem Extends.refl (k : KeyStore) : k.Extends k := ⟨rfl, fun h => h⟩

theorem Extends.trans {k k' k'' : KeyStore} (h : k.Extends k') (h' : k'.Extends k'') : k.Extends k'' :=
  ⟨h'.kind.trans h.kind, fun hn => h'.keys (h.keys hn)⟩

theorem extends_started (k : KeyStore) : k.Extends k.started := by
  cases k <;> exact ⟨rfl, fun h => h⟩

theorem extends_committed (k : KeyStore) : k.Extends k.committed := by
  cases k <;> exact ⟨rfl, fun h => h⟩

/-- A store that remembers one assignment more. -/
theorem lookup_cons_of_lookup {rows : List Assignment} {scope id s i : String} {m n : Nat}
    (hnew : lookup scope id rows = none) (h : lookup s i rows = some n) :
    lookup s i (⟨scope, id, m⟩ :: rows) = some n := by
  rw [lookup_cons, if_neg, h]
  rintro ⟨rfl, rfl⟩
  rw [hnew] at h
  cases h

end KeyStore

/-- A part of a database that neither transactions nor new keys touch. -/
structure Untouched {σ γ : Type} [Database σ] (φ : σ → γ) : Prop where
  start : ∀ db, φ (Database.start db) = φ db
  commit : ∀ db, φ (Database.commit db) = φ db
  readable : ∀ db, φ (Database.readable db).1 = φ db
  addKeys : ∀ rows db, φ (Database.addKeys rows db).1 = φ db

variable {σ γ : Type} [Database σ] {φ : σ → γ} {scope id : String} {n : Nat}

theorem Untouched.asked (hφ : Untouched φ) {db db' : σ} {b : Bool} (h : Database.readable db = (db', b)) :
    φ db' = φ db := by
  rw [← hφ.readable db, h]

theorem Untouched.added (hφ : Untouched φ) {rows : List Assignment} {db db' : σ} {b : Bool}
    (h : Database.addKeys rows db = (db', b)) : φ db' = φ db := by
  rw [← hφ.addKeys rows db, h]

namespace DurableKeys

variable {k k' : DurableKeys} {db db' : σ} {err : Error}

/-- What an answered call does: nothing for a remembered identifier, else the assignment is remembered. -/
theorem allocate_ok (hφ : Untouched φ) (h : allocate scope id (k, db) = .ok n (k', db')) :
    φ db' = φ db ∧ (lookup scope id k.cache = some n ∧ k' = k ∨
      lookup scope id k.cache = none ∧ k'.cache = ⟨scope, id, n⟩ :: k.cache) := by
  simp only [allocate] at h
  split at h
  · next hcache =>
    cases h
    exact ⟨rfl, .inl ⟨hcache, rfl⟩⟩
  · next hcache =>
    split at h
    · cases h
    · split at h
      · cases h
      · next read hread =>
        have hasked := hφ.asked hread
        split at h
        · cases h
          exact ⟨hasked, .inr ⟨hcache, rfl⟩⟩
        · have hremembered (a : Assignment) :
              (((k.nextKey (Database.keys read) scope).1).remember a).cache = a :: k.cache :=
            congrArg (a :: ·) (nextKey_cache ..)
          split at h
          · split at h
            · next hadd =>
              cases h
              exact ⟨(hφ.added hadd).trans hasked, .inr ⟨hcache, hremembered _⟩⟩
            · cases h
          · split at h
            · next hadd =>
              split at h
              · cases h
                refine ⟨?_, .inr ⟨hcache, hremembered _⟩⟩
                rw [hφ.commit, hφ.added hadd, hφ.start, hasked]
              · cases h
            · cases h

theorem allocate_error {st : DurableKeys × σ} (h : allocate scope id (k, db) = .error err st) :
    ∃ b, err = .databaseFailed (.keys b) := by
  simp only [allocate] at h
  split at h
  · cases h
  · split at h
    · cases h
      exact ⟨_, rfl⟩
    · split at h
      · cases h
        exact ⟨_, rfl⟩
      · split at h
        · cases h
        · split at h
          · split at h <;> cases h
            exact ⟨_, rfl⟩
          · split at h
            · split at h <;> cases h
              exact ⟨_, rfl⟩
            · cases h
              exact ⟨_, rfl⟩

end DurableKeys

namespace Task

variable {s s' : Session σ} {err : Error}

/-- A call for a remembered key changes nothing. -/
theorem resolve_known (h : s.keys.key? scope id = some n) : resolve scope id s = .ok n s := by
  obtain ⟨db, k, log⟩ := s
  cases k with
  | memory k =>
    have h : lookup scope id k.rows = some n := h
    simp [resolve, MemoryKeys.allocate, h]
  | durable k =>
    have h : lookup scope id k.cache = some n := h
    simp [resolve, onDurable, DurableKeys.allocate, h]

/-- A key that was answered is remembered. -/
theorem resolve_ok (hφ : Untouched φ) (h : resolve scope id s = .ok n s') :
    φ s'.database = φ s.database ∧ s.keys.Extends s'.keys ∧ s'.keys.key? scope id = some n := by
  obtain ⟨db, k, log⟩ := s
  cases k with
  | memory k =>
    simp only [resolve] at h
    cases h
    refine ⟨rfl, ⟨rfl, fun {s i m} hm => ?_⟩, MemoryKeys.lookup_allocate k scope id⟩
    exact MemoryKeys.lookup_allocate_of_lookup scope id hm
  | durable k =>
    simp only [resolve, onDurable] at h
    split at h
    · next hallocate =>
      cases h
      obtain ⟨hkept, ⟨hcache, rfl⟩ | ⟨hnew, hcache⟩⟩ := DurableKeys.allocate_ok hφ hallocate
      · exact ⟨hkept, .refl _, hcache⟩
      · refine ⟨hkept, ⟨rfl, fun {s i m} hm => ?_⟩, ?_⟩
        · show lookup s i _ = some m
          rw [hcache]
          exact KeyStore.lookup_cons_of_lookup hnew hm
        · show lookup scope id _ = some n
          rw [hcache, lookup_cons, if_pos ⟨rfl, rfl⟩]
    · cases h

/-- Only a durable store refuses a key. -/
theorem resolve_error (h : resolve scope id s = .error err s') :
    s.keys.isDurable = true ∧ ∃ b, err = .databaseFailed (.keys b) := by
  obtain ⟨db, k, log⟩ := s
  cases k with
  | memory k => cases h
  | durable k =>
    simp only [resolve, onDurable] at h
    split at h
    · cases h
    · next hallocate =>
      cases h
      exact ⟨rfl, DurableKeys.allocate_error hallocate⟩

end Task

/-! ## Keys that are known beforehand -/

namespace Session

/-- The key that an identifier has already, remembered or in the table of keys. -/
def given? (s : Session σ) (scope id : String) : Option Nat :=
  match s.keys with
  | .memory k => lookup scope id k.rows
  | .durable k =>
    (lookup scope id k.cache).or
      (if k.load.any (·.undone) then none else lookup scope id (Database.keys s.database))

theorem given?_of_key? {s : Session σ} (h : s.keys.key? scope id = some n) : s.given? scope id = some n := by
  obtain ⟨db, k, log⟩ := s
  cases k with
  | memory k => exact h
  | durable k =>
    have h : lookup scope id k.cache = some n := h
    simp [given?, h]

/-- What is given depends on the store and the table of keys alone. -/
theorem given?_congr {s s' : Session σ} (hkeys : s'.keys = s.keys)
    (hrows : Database.keys s'.database = Database.keys s.database) : s'.given? = s.given? := by
  funext scope id
  simp only [given?, hkeys, hrows]

/-- Opening the transaction of a load takes no key away. -/
theorem given?_loadStarted {s : Session σ} (hdb : Database.keys (Database.start s.database) = Database.keys s.database)
    (h : s.given? scope id = some n) : s.loadStarted.given? scope id = some n := by
  obtain ⟨db, k, log⟩ := s
  cases k with
  | memory k => exact h
  | durable k =>
    simp only [given?, Option.or_eq_some_iff] at h
    simp only [given?, loadStarted, KeyStore.started, DurableKeys.start, Option.or_eq_some_iff]
    rcases h with h | ⟨hcache, hrows⟩
    · exact .inl h
    · split at hrows
      · cases hrows
      · exact .inr ⟨hcache, by simpa [hdb] using hrows⟩

end Session

/-- A call for a key that is given is answered so, and gives no key and takes none away. -/
theorem Task.resolve_given {s : Session σ} (hread : Database.readable s.database = (s.database, true))
    (h : s.given? scope id = some n) :
    ∃ s', resolve scope id s = .ok n s' ∧ s'.database = s.database ∧ s'.given? = s.given? := by
  obtain ⟨db, k, log⟩ := s
  cases k with
  | memory k => exact ⟨_, resolve_known h, rfl, rfl⟩
  | durable k =>
    cases hcache : lookup scope id k.cache with
    | some m =>
      have hknown : (⟨db, .durable k, log⟩ : Session σ).given? scope id = some m :=
        Session.given?_of_key? hcache
      rw [hknown] at h
      cases h
      exact ⟨_, resolve_known hcache, rfl, rfl⟩
    | none =>
      simp only [Session.given?, hcache, Option.none_or] at h
      split at h
      · cases h
      · next hdone =>
        refine ⟨⟨db, .durable (k.remember ⟨scope, id, n⟩), log⟩, ?_, rfl, ?_⟩
        · simp [resolve, onDurable, DurableKeys.allocate, hcache, hdone, hread, h]
        · funext s i
          by_cases hsame : scope = s ∧ id = i
          · obtain ⟨rfl, rfl⟩ := hsame
            simp [Session.given?, DurableKeys.remember, lookup_cons, hcache, hdone, h]
          · simp [Session.given?, DurableKeys.remember, lookup_cons, hsame]

end SnapshotStaging
