import SnapshotStaging.Page.Assembly

/-!
# What a row of events brings about

The marks of a row of events are the outcomes other than `nothing`, each with the number of events
read by then. `trace` collects them up to the first refusal. `Feeds` says which marks are due for a row
of events and where it leads; rows are put together by `Feeds.append`.

Main results: `run_trace`, a run hands over what `handed` finds in its marks, and `Feeds.handed_take`,
the same for every first part of the events.
-/

namespace SnapshotStaging

/-- Outcomes with the number of events read by then. -/
abbrev Marks := List (Nat × Outcome)

def Outcome.refuses : Outcome → Bool
  | .refused _ => true
  | _ => false

namespace Marks

/-- The records up to the first refusal, and that refusal. -/
def handed : Marks → List Json × Option Error
  | [] => ([], none)
  | (_, .nothing) :: rest => handed rest
  | (_, .record v) :: rest => (v :: (handed rest).1, (handed rest).2)
  | (_, .refused e) :: _ => ([], some e)

/-- Whether something is refused. -/
def stopped (ms : Marks) : Bool := ms.any fun m => m.2.refuses

/-- The marks up to the first refusal. -/
def upToRefusal : Marks → Marks
  | [] => []
  | m :: rest => if m.2.refuses then [m] else m :: upToRefusal rest

theorem stopped_append (ms ns : Marks) : stopped (ms ++ ns) = (stopped ms || stopped ns) :=
  List.any_append

theorem stopped_upToRefusal (ms : Marks) : stopped (upToRefusal ms) = stopped ms := by
  induction ms with
  | nil => rfl
  | cons m rest ih =>
    rw [upToRefusal]
    split
    · next h => simp [stopped, h]
    · next h => simpa [stopped, h] using ih

theorem upToRefusal_of_not_stopped {ms : Marks} (h : stopped ms = false) : upToRefusal ms = ms := by
  induction ms with
  | nil => rfl
  | cons m rest ih =>
    have hm : m.2.refuses = false ∧ stopped rest = false := by simpa [stopped] using h
    rw [upToRefusal, hm.1, if_neg Bool.false_ne_true, ih hm.2]

theorem upToRefusal_append (ms ns : Marks) :
    upToRefusal (ms ++ ns) = if stopped ms then upToRefusal ms else ms ++ upToRefusal ns := by
  induction ms with
  | nil => rfl
  | cons m rest ih =>
    rw [List.cons_append, upToRefusal, upToRefusal, ih]
    cases hm : m.2.refuses with
    | true => simp [stopped, hm]
    | false =>
      have hs : stopped (m :: rest) = stopped rest := by simp [stopped, hm]
      rw [hs, if_neg Bool.false_ne_true, if_neg Bool.false_ne_true]
      split <;> rfl

theorem handed_append {ms : Marks} (h : stopped ms = false) (ns : Marks) :
    handed (ms ++ ns) = ((handed ms).1 ++ (handed ns).1, (handed ns).2) := by
  induction ms with
  | nil => rfl
  | cons m rest ih =>
    have hm : m.2.refuses = false ∧ stopped rest = false := by simpa [stopped] using h
    obtain ⟨p, o⟩ := m
    cases o with
    | nothing => exact ih hm.2
    | record v => rw [List.cons_append, handed, handed, ih hm.2, List.cons_append]
    | refused e => cases hm.1

theorem stopped_iff_handed (ms : Marks) : stopped ms = false ↔ (handed ms).2 = none := by
  induction ms with
  | nil => exact ⟨fun _ => rfl, fun _ => rfl⟩
  | cons m rest ih =>
    obtain ⟨p, o⟩ := m
    cases o with
    | nothing => exact ih
    | record v => exact ih
    | refused e => exact ⟨(nomatch ·), (nomatch ·)⟩

/-- When the numbers grow, the refusals after the first are of no account in any first part. -/
theorem handed_filter_upToRefusal {ms : Marks} (h : ms.Pairwise (·.1 < ·.1)) (n : Nat) :
    handed ((upToRefusal ms).filter (·.1 ≤ n)) = handed (ms.filter (·.1 ≤ n)) := by
  induction ms with
  | nil => rfl
  | cons m rest ih =>
    obtain ⟨hm, hrest⟩ := List.pairwise_cons.1 h
    obtain ⟨p, o⟩ := m
    by_cases hp : p ≤ n
    · cases o with
      | refused e => simp [upToRefusal, Outcome.refuses, hp, handed]
      | nothing => simpa [upToRefusal, Outcome.refuses, hp, handed] using ih hrest
      | record v => simp [upToRefusal, Outcome.refuses, hp, handed, ih hrest]
    · have hnone : rest.filter (fun m => decide (m.1 ≤ n)) = [] := by
        rw [List.filter_eq_nil_iff]
        intro x hx
        have := hm x hx
        simp only [decide_eq_true_eq]
        omega
      have hrestNone := ih hrest
      rw [hnone] at hrestNone
      rw [upToRefusal, List.filter_cons_of_neg (by simpa using hp), hnone]
      split
      · rw [List.filter_cons_of_neg (by simpa using hp)]
        rfl
      · rw [List.filter_cons_of_neg (by simpa using hp), hrestNone]

end Marks

namespace Assembly

open Marks

variable [Platform] (table : String)

/-- The marks of a row of events up to the first refusal, when `p` events have been read before. -/
def trace (a : Assembly) (p : Nat) : List Event → Marks
  | [] => []
  | e :: rest =>
    match a.step table e with
    | (a, .nothing) => trace a (p + 1) rest
    | (a, .record v) => (p + 1, .record v) :: trace a (p + 1) rest
    | (_, .refused e) => [(p + 1, .refused e)]

/-- The state after a row of events. -/
def after (a : Assembly) (es : List Event) : Assembly :=
  es.foldl (fun a e => (a.step table e).1) a

/-- A run hands over what is in its marks. -/
theorem run_trace (a : Assembly) (p : Nat) (acc : List Json) (es : List Event) :
    (a.run table acc es).2 =
      (acc.reverse ++ (handed (trace table a p es)).1, (handed (trace table a p es)).2) := by
  induction es generalizing a p acc with
  | nil => simp [run, trace, handed]
  | cons e rest ih =>
    rw [run, trace]
    rcases a.step table e with ⟨a', _ | v | err⟩
    · exact ih a' (p + 1) acc
    · have := ih a' (p + 1) (v :: acc)
      simpa [handed] using this
    · simp [handed]

/-- A run without a refusal ends in the state after its events. -/
theorem run_after {a : Assembly} {p : Nat} {es : List Event} (h : stopped (trace table a p es) = false)
    (acc : List Json) : (a.run table acc es).1 = after table a es := by
  induction es generalizing a p acc with
  | nil => rfl
  | cons e rest ih =>
    rw [trace] at h
    rw [run, after, List.foldl_cons]
    generalize a.step table e = found at h ⊢
    obtain ⟨a', _ | v | err⟩ := found
    · exact ih h acc
    · exact ih (by simpa [stopped, Outcome.refuses] using h) (v :: acc)
    · cases h

theorem after_append (a : Assembly) (es fs : List Event) :
    after table a (es ++ fs) = after table (after table a es) fs := List.foldl_append

theorem trace_append (a : Assembly) (p : Nat) (es fs : List Event) :
    trace table a p (es ++ fs) =
      if stopped (trace table a p es) then trace table a p es
      else trace table a p es ++ trace table (after table a es) (p + es.length) fs := by
  induction es generalizing a p with
  | nil => rfl
  | cons e rest ih =>
    rw [List.cons_append, trace, trace, after, List.foldl_cons, List.length_cons,
      show p + (rest.length + 1) = p + 1 + rest.length by omega]
    rcases a.step table e with ⟨a', _ | v | err⟩
    · exact ih a' (p + 1)
    · have hs : stopped ((p + 1, .record v) :: trace table a' (p + 1) rest) =
          stopped (trace table a' (p + 1) rest) := by simp [stopped, Outcome.refuses]
      simp only [hs, ih a' (p + 1)]
      split <;> rfl
    · rfl

theorem lt_of_mem_trace {a : Assembly} {p : Nat} {es : List Event} {m : Nat × Outcome}
    (h : m ∈ trace table a p es) : p < m.1 := by
  induction es generalizing a p with
  | nil => cases h
  | cons e rest ih =>
    rw [trace] at h
    rcases hs : a.step table e with ⟨a', _ | v | err⟩
    · rw [hs] at h
      have := ih h
      omega
    · rw [hs] at h
      rcases List.mem_cons.1 h with rfl | h
      · exact Nat.lt_succ_self p
      · have := ih h
        omega
    · rw [hs] at h
      rw [List.mem_singleton.1 h]
      exact Nat.lt_succ_self p

/-- The marks of a first part of the events are those with a number in that part. -/
theorem trace_take (a : Assembly) (p n : Nat) (es : List Event) :
    trace table a p (es.take n) = (trace table a p es).filter (·.1 ≤ p + n) := by
  induction es generalizing a p n with
  | nil => simp [trace]
  | cons e rest ih =>
    cases n with
    | zero =>
      rw [List.take_zero, trace, eq_comm, List.filter_eq_nil_iff]
      intro m hm
      have := lt_of_mem_trace table hm
      simp only [decide_eq_true_eq]
      omega
    | succ n =>
      rw [List.take_succ_cons, trace, trace, show p + (n + 1) = p + 1 + n by omega]
      rcases a.step table e with ⟨a', _ | v | err⟩
      · exact ih a' (p + 1) n
      · simp [ih a' (p + 1) n]
      · simp

/-- From `a`, where `p` events have been read, the marks `ms` are due for the events `es`, which lead
to `next` unless something is refused. -/
structure Feeds (p : Nat) (a : Assembly) (es : List Event) (ms : Marks) (next : Assembly) : Prop where
  trace_eq : trace table a p es = upToRefusal ms
  after_eq : stopped ms = false → after table a es = next
  within : ∀ m ∈ ms, p < m.1 ∧ m.1 ≤ p + es.length
  growing : ms.Pairwise (·.1 < ·.1)

variable {table}

theorem Feeds.nil (p : Nat) (a : Assembly) : Feeds table p a [] [] a :=
  ⟨rfl, fun _ => rfl, by simp, .nil⟩

theorem Feeds.append {p : Nat} {a m next : Assembly} {es fs : List Event} {ms ns : Marks}
    (h1 : Feeds table p a es ms m) (h2 : Feeds table (p + es.length) m fs ns next) :
    Feeds table p a (es ++ fs) (ms ++ ns) next where
  trace_eq := by
    rw [trace_append, upToRefusal_append, h1.trace_eq, stopped_upToRefusal]
    cases hs : stopped ms with
    | true => rfl
    | false => simp [h1.after_eq hs, h2.trace_eq, upToRefusal_of_not_stopped hs]
  after_eq h := by
    rw [stopped_append, Bool.or_eq_false_iff] at h
    rw [after_append, h1.after_eq h.1, h2.after_eq h.2]
  within x hx := by
    rw [List.length_append]
    rcases List.mem_append.1 hx with hx | hx
    · have := h1.within x hx
      omega
    · have := h2.within x hx
      omega
  growing := by
    refine List.pairwise_append.2 ⟨h1.growing, h2.growing, fun x hx y hy => ?_⟩
    have := h1.within x hx
    have := h2.within y hy
    omega

/-- What is refused stays refused, whatever events follow. -/
theorem Feeds.stop {p : Nat} {a m : Assembly} {es : List Event} {ms : Marks} (h : Feeds table p a es ms m)
    (hs : stopped ms = true) (fs : List Event) (next : Assembly) : Feeds table p a (es ++ fs) ms next where
  trace_eq := by
    rw [trace_append, h.trace_eq, stopped_upToRefusal, if_pos hs]
  after_eq hnone := by
    rw [hs] at hnone
    cases hnone
  within x hx := by
    rw [List.length_append]
    have := h.within x hx
    omega
  growing := h.growing

/-- Where the events lead matters only when nothing is refused. -/
theorem Feeds.weaken {p : Nat} {a m next : Assembly} {es : List Event} {ms : Marks}
    (h : Feeds table p a es ms m) (heq : stopped ms = false → m = next) : Feeds table p a es ms next :=
  { h with after_eq := fun hs => (h.after_eq hs).trans (heq hs) }

/-- An event that brings about nothing. -/
theorem Feeds.quiet {a next : Assembly} {e : Event} (h : a.step table e = (next, .nothing)) (p : Nat) :
    Feeds table p a [e] [] next where
  trace_eq := by simp [trace, h, upToRefusal]
  after_eq _ := by simp [after, h]
  within := by simp
  growing := .nil

/-- An event with an outcome. -/
theorem Feeds.mark {a next : Assembly} {e : Event} {o : Outcome} (h : a.step table e = (next, o))
    (ho : o ≠ .nothing) (p : Nat) : Feeds table p a [e] [(p + 1, o)] next where
  trace_eq := by
    cases o with
    | nothing => exact absurd rfl ho
    | record v => simp [trace, h, upToRefusal, Outcome.refuses]
    | refused err => simp [trace, h, upToRefusal, Outcome.refuses]
  after_eq _ := by simp [after, h]
  within := by simp
  growing := List.pairwise_singleton ..

/-- Nothing is read after a refusal. -/
theorem Feeds.refuse {a m : Assembly} {e : Event} {err : Error} (h : a.step table e = (m, .refused err))
    (p : Nat) (rest : List Event) (next : Assembly) :
    Feeds table p a (e :: rest) [(p + 1, .refused err)] next where
  trace_eq := by simp [trace, h, upToRefusal, Outcome.refuses]
  after_eq hs := by cases hs
  within := by simp
  growing := List.pairwise_singleton ..

/-- **What is handed over after a first part of the events** are the records that are due by then. -/
theorem Feeds.handed_take {a next : Assembly} {es : List Event} {ms : Marks}
    (h : Feeds table 0 a es ms next) (n : Nat) :
    (a.run table [] (es.take n)).2 = handed (ms.filter (·.1 ≤ n)) := by
  rw [run_trace table a 0, trace_take, h.trace_eq, Nat.zero_add, handed_filter_upToRefusal h.growing]
  simp

/-- Without a refusal all events are read. -/
theorem Feeds.run_eq {a next : Assembly} {es : List Event} {ms : Marks} {p : Nat}
    (h : Feeds table p a es ms next) (hs : (handed ms).2 = none) (acc : List Json) :
    (a.run table acc es).1 = next := by
  rw [← stopped_iff_handed] at hs
  rw [run_after table (p := p) (by rw [h.trace_eq, stopped_upToRefusal, hs]), h.after_eq hs]

end Assembly

end SnapshotStaging
