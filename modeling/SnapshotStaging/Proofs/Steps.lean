import SnapshotStaging.Proofs.Tables

/-!
# Steps that may fail

`Ends P x Q E` is the specification of a step: from a state with `P` it succeeds with `Q` or fails with an
error of `E`. `Leaves P x Q R` says in what state a failure leaves it as well: in one with `R`. The rules follow
the forms of steps. `of_bind_ok` and its neighbours take a step apart whose result is known.
-/

namespace SnapshotStaging

variable {τ α β : Type} {x : EStateM Error τ α} {f : α → EStateM Error τ β} {a : α} {b : β} {st st' : τ}
  {err : Error}

/-! ## Taking steps apart -/

/-- Two steps in a row that succeed. -/
theorem of_bind_ok (h : (x >>= f) st = .ok b st') : ∃ a mid, x st = .ok a mid ∧ f a mid = .ok b st' := by
  cases hx : x st with
  | ok a mid => exact ⟨a, mid, rfl, by rwa [bind_ok hx] at h⟩
  | error err mid =>
    rw [bind_error hx] at h
    cases h

theorem discard_error (h : x st = .error err st') : (discard x) st = .error err st' := by
  show EStateM.map _ x st = _
  rw [EStateM.map, h]

theorem of_discard_ok (h : (discard x) st = .ok () st') : ∃ a, x st = .ok a st' := by
  cases hx : x st with
  | ok a mid =>
    rw [discard_ok hx] at h
    cases h
    exact ⟨a, rfl⟩
  | error err mid =>
    rw [discard_error hx] at h
    cases h

/-! ## Specifications -/

/-- From a state with `P` a step succeeds with `Q` or fails with an error of `E`. -/
def Ends (P : τ → Prop) (x : EStateM Error τ α) (Q : α → τ → Prop) (E : Error → Prop) : Prop :=
  ∀ st, P st →
    match x st with
    | .ok a st' => Q a st'
    | .error err _ => E err

variable {P : τ → Prop} {Q : α → τ → Prop} {R : β → τ → Prop} {E : Error → Prop}

theorem Ends.of_ok (h : Ends P x Q E) (hP : P st) (hx : x st = .ok a st') : Q a st' := by
  have hst := h st hP
  rwa [hx] at hst

theorem Ends.of_error (h : Ends P x Q E) (hP : P st) (hx : x st = .error err st') : E err := by
  have hst := h st hP
  rwa [hx] at hst

/-- A step that fails for no error of `E` succeeds. -/
theorem Ends.exists_ok (h : Ends P x Q E) (hP : P st) (hE : ∀ err, ¬ E err) : ∃ a st', x st = .ok a st' ∧ Q a st' := by
  have hst := h st hP
  cases hx : x st with
  | ok a st' =>
    rw [hx] at hst
    exact ⟨a, st', rfl, hst⟩
  | error err st' =>
    rw [hx] at hst
    exact absurd hst (hE err)

/-- A step that cannot fail. -/
theorem ends_of_ok (h : ∀ st, P st → ∃ a st', x st = .ok a st' ∧ Q a st') : Ends P x Q E := by
  intro st hP
  obtain ⟨a, st', hx, hQ⟩ := h st hP
  rwa [hx]

theorem ends_pure (h : ∀ st, P st → Q a st) : Ends P (pure a) Q E :=
  ends_of_ok fun st hP => ⟨a, st, rfl, h st hP⟩

theorem ends_throw (h : E err) : Ends P (throw err : EStateM Error τ α) Q E := fun _ _ => h

theorem Ends.bind (hx : Ends P x Q E) (hf : ∀ a, Ends (Q a) (f a) R E) : Ends P (x >>= f) R E := by
  intro st hP
  cases hst : x st with
  | ok a mid =>
    rw [bind_ok hst]
    exact hf a mid (hx.of_ok hP hst)
  | error err mid =>
    rw [bind_error hst]
    exact hx.of_error hP hst

theorem Ends.mono {P' : τ → Prop} {Q' : α → τ → Prop} {E' : Error → Prop} (h : Ends P x Q E)
    (hP : ∀ st, P' st → P st) (hQ : ∀ a st, Q a st → Q' a st) (hE : ∀ err, E err → E' err) :
    Ends P' x Q' E' := by
  intro st hP'
  have hst := h st (hP st hP')
  split
  · next heq => exact hQ _ _ (by rwa [heq] at hst)
  · next heq => exact hE _ (by rwa [heq] at hst)

theorem Ends.discard {R : PUnit → τ → Prop} (h : Ends P x (fun _ => R ()) E) : Ends P (discard x) R E := by
  intro st hP
  have hst := h st hP
  cases hx : x st with
  | ok a st' =>
    rw [hx] at hst
    rw [discard_ok hx]
    exact hst
  | error err st' =>
    rw [hx] at hst
    rw [discard_error hx]
    exact hst

/-- A fact about no state that the precondition has in it may be assumed. -/
theorem Ends.assuming {p : Prop} (hp : ∀ st, P st → p) (h : p → Ends P x Q E) : Ends P x Q E :=
  fun st hP => h (hp st hP) st hP

/-! ## States after failures -/

/-- From a state with `P` a step succeeds with `Q` or fails in a state with `R`. -/
def Leaves (P : τ → Prop) (x : EStateM Error τ α) (Q : α → τ → Prop) (R : τ → Prop) : Prop :=
  ∀ st, P st →
    match x st with
    | .ok a st' => Q a st'
    | .error _ st' => R st'

variable {U : τ → Prop}

theorem Leaves.of_ok (h : Leaves P x Q U) (hP : P st) (hx : x st = .ok a st') : Q a st' := by
  have hst := h st hP
  rwa [hx] at hst

theorem Leaves.of_error (h : Leaves P x Q U) (hP : P st) (hx : x st = .error err st') : U st' := by
  have hst := h st hP
  rwa [hx] at hst

/-- A step is specified by what it leaves in both outcomes. -/
theorem leaves_of_outcomes (hok : ∀ st a st', P st → x st = .ok a st' → Q a st')
    (herror : ∀ st err st', P st → x st = .error err st' → U st') : Leaves P x Q U := by
  intro st hP
  cases hx : x st with
  | ok a st' => exact hok st a st' hP hx
  | error err st' => exact herror st err st' hP hx

/-- A step whose failures are of no account. -/
theorem Ends.leaves (h : Ends P x Q E) : Leaves P x Q fun _ => True :=
  leaves_of_outcomes (fun _ _ _ hP hx => h.of_ok hP hx) fun _ _ _ _ _ => trivial

/-- The state that a step ends in. -/
def resulting : EStateM.Result Error τ α → τ
  | .ok _ st => st
  | .error _ st => st

/-- What holds of every state that a step ends in. -/
theorem leaves_of_resulting (h : ∀ st result, P st → x st = result → U (resulting result)) :
    Leaves P x (fun _ => U) U :=
  leaves_of_outcomes (fun _ _ _ hP hx => h _ _ hP hx) fun _ _ _ hP hx => h _ _ hP hx

theorem leaves_pure (h : ∀ st, P st → Q a st) : Leaves P (pure a) Q U := h

theorem leaves_throw (h : ∀ st, P st → U st) : Leaves P (throw err : EStateM Error τ α) Q U := h

theorem Leaves.bind (hx : Leaves P x Q U) (hf : ∀ a, Leaves (Q a) (f a) R U) : Leaves P (x >>= f) R U := by
  intro st hP
  cases hst : x st with
  | ok a mid =>
    rw [bind_ok hst]
    exact hf a mid (hx.of_ok hP hst)
  | error err mid =>
    rw [bind_error hst]
    exact hx.of_error hP hst

theorem Leaves.mono {P' : τ → Prop} {Q' : α → τ → Prop} {U' : τ → Prop} (h : Leaves P x Q U)
    (hP : ∀ st, P' st → P st) (hQ : ∀ a st, Q a st → Q' a st) (hU : ∀ st, U st → U' st) : Leaves P' x Q' U' :=
  leaves_of_outcomes (fun _ _ _ hP' hx => hQ _ _ (h.of_ok (hP _ hP') hx))
    fun _ _ _ hP' hx => hU _ (h.of_error (hP _ hP') hx)

theorem Leaves.discard {V : τ → Prop} (h : Leaves P x (fun _ => V) U) : Leaves P (discard x) (fun _ => V) U := by
  intro st hP
  cases hx : x st with
  | ok a st' =>
    rw [discard_ok hx]
    exact h.of_ok hP hx
  | error err st' =>
    rw [discard_error hx]
    exact h.of_error hP hx

/-- What is no matter of states stays. -/
theorem Leaves.keeping {p : Prop} (h : Leaves P x Q U) : Leaves (fun st => p ∧ P st) x (fun a st => p ∧ Q a st) U :=
  leaves_of_outcomes (fun _ _ _ hP hx => ⟨hP.1, h.of_ok hP.2 hx⟩) fun _ _ _ hP hx => h.of_error hP.2 hx

/-- A fact about no state that the precondition has in it may be assumed. -/
theorem Leaves.assuming {p : Prop} (h : p → Leaves P x Q U) : Leaves (fun st => p ∧ P st) x Q U :=
  fun st hP => h hP.1 st hP.2

/-- A step may be looked at from one state at a time. -/
theorem leaves_each (h : ∀ st, P st → Leaves (· = st) x Q U) : Leaves P x Q U := fun st hP => h st hP st rfl

end SnapshotStaging
