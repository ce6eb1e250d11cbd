import SnapshotStaging.Key.Seen

/-!
# The bitmap of keys is a set

`contains` reads the bit of a key. One addition sets the bit of its key and no other (`contains_add`), tells whether
that bit was set before (`add_snd`), and makes the bytes as many as the key needs, if they were fewer (`size_add`). A
run of additions (`after`, `answers`) takes these along key by key. `add?` is an addition whose indices may lie outside
of the bytes; they never do, whatever was added before.

Main result `run_as_set`.
-/

namespace SnapshotStaging.SeenKeys

/-! ## One key -/

/-- Whether the bit of a key is set. -/
def contains (s : SeenKeys) (key : Nat) : Bool :=
  ((s.bytes[key / 8]?).getD 0).toNat.testBit (key % 8)

theorem contains_empty (key : Nat) : empty.contains key = false := by
  simp [contains, empty]

theorem toNat_mask (key : Nat) : (mask key).toNat = 2 ^ (key % 8) := by
  have hlt : key % 8 < 8 := Nat.mod_lt _ (by decide)
  have hpow : 2 ^ (key % 8) < 2 ^ 8 := Nat.pow_lt_pow_right (by decide) hlt
  rw [mask, UInt8.toNat_shiftLeft]
  simp only [UInt8.toNat_one, Nat.toUInt8_eq, UInt8.toNat_ofNat', Nat.one_shiftLeft]
  rw [Nat.mod_eq_of_lt (a := key % 8) (by omega), Nat.mod_eq_of_lt hlt, Nat.mod_eq_of_lt hpow]

theorem and_two_pow_eq_zero (n i : Nat) : n &&& 2 ^ i = 0 ↔ n.testBit i = false := by
  constructor
  · intro h
    have hbit : (n &&& 2 ^ i).testBit i = n.testBit i := by
      rw [Nat.testBit_and, Nat.testBit_two_pow_self, Bool.and_true]
    rw [← hbit, h, Nat.zero_testBit]
  · intro h
    refine Nat.eq_of_testBit_eq ?_
    intro j
    rw [Nat.testBit_and, Nat.testBit_two_pow, Nat.zero_testBit]
    by_cases hj : i = j
    · rw [← hj, h, Bool.false_and]
    · rw [decide_eq_false hj, Bool.and_false]

theorem and_mask_ne_zero (byte : UInt8) (key : Nat) :
    (byte &&& mask key ≠ 0) ↔ byte.toNat.testBit (key % 8) = true := by
  rw [Ne, ← UInt8.toNat_inj, UInt8.toNat_and, toNat_mask, UInt8.toNat_zero, and_two_pow_eq_zero,
    Bool.not_eq_false]

theorem widened_getElem? (s : SeenKeys) (key i : Nat) :
    ((s.widened key)[i]?).getD 0 = (s.bytes[i]?).getD 0 := by
  rw [widened, Array.getElem?_append]
  split
  · rfl
  · next h =>
    rw [Array.getElem?_eq_none (show s.bytes.size ≤ i by omega)]
    rw [Array.getElem?_replicate]
    split <;> rfl

theorem widened_getElem (s : SeenKeys) (key : Nat) (h : key / 8 < (s.widened key).size) :
    (s.widened key)[key / 8] = (s.bytes[key / 8]?).getD 0 := by
  rw [← widened_getElem? s key, Array.getElem?_eq_getElem h, Option.getD_some]

/-- Adding a key tells whether it was there before. -/
theorem add_snd (s : SeenKeys) (key : Nat) : (s.add key).2 = s.contains key := by
  rw [add, contains]
  dsimp only
  rw [widened_getElem, Bool.eq_iff_iff, decide_eq_true_iff, and_mask_ne_zero]

/-- Adding a key sets its bit and no other. -/
theorem contains_add (s : SeenKeys) (key other : Nat) :
    (s.add key).1.contains other = (decide (key = other) || s.contains other) := by
  rw [add, contains, contains]
  dsimp only
  by_cases hbyte : key / 8 = other / 8
  · rw [← hbyte, Array.getElem?_set_self, Option.getD_some, UInt8.toNat_or, Nat.testBit_or, toNat_mask,
      Nat.testBit_two_pow, widened_getElem, Bool.or_comm]
    congr 1
    rw [decide_eq_decide]
    omega
  · rw [Array.getElem?_set_ne _ (by exact hbyte), widened_getElem?]
    have hne : key ≠ other := fun heq => hbyte (by rw [heq])
    simp [hne]

/-- Adding a key makes room for it, and for no more than it. -/
theorem size_add (s : SeenKeys) (key : Nat) : (s.add key).1.size = max s.size (key / 8 + 1) := by
  rw [add, size, Array.size_set, widened, Array.size_append, Array.size_replicate, size]
  omega

/-! ## Indices that may fail -/

/-- An addition that extends the bytes only where a key needs more, and that gives nothing if it reads or writes at an
index outside of them. -/
def add? (s : SeenKeys) (key : Nat) : Option (SeenKeys × Bool) := do
  let bytes := if s.size ≤ key / 8 then s.bytes ++ Array.replicate (key / 8 + 1 - s.size) 0 else s.bytes
  let byte ← bytes[key / 8]?
  if h : key / 8 < bytes.size then
    some (⟨bytes.set (key / 8) (byte ||| mask key) h⟩, byte &&& mask key ≠ 0)
  else
    none

theorem widened_eq_ite (s : SeenKeys) (key : Nat) :
    s.widened key =
      if s.size ≤ key / 8 then s.bytes ++ Array.replicate (key / 8 + 1 - s.size) 0 else s.bytes := by
  rw [widened, size]
  split
  · rfl
  · next h =>
    have hnone : key / 8 + 1 - s.bytes.size = 0 := by omega
    rw [hnone, Array.replicate_zero, Array.append_empty]

/-- No index of an addition is outside of the bytes. -/
theorem add?_eq (s : SeenKeys) (key : Nat) : s.add? key = some (s.add key) := by
  have hlt := s.lt_size_widened key
  rw [add?, ← widened_eq_ite, Array.getElem?_eq_getElem hlt, Option.bind_eq_bind, Option.bind_some, dif_pos hlt]
  rfl

/-! ## Keys in turn -/

/-- The bitmap once keys have been added. -/
def after (s : SeenKeys) (keys : List Nat) : SeenKeys :=
  keys.foldl (fun s key => (s.add key).1) s

/-- What the additions of keys tell, in turn. -/
def answers (s : SeenKeys) : List Nat → List Bool
  | [] => []
  | key :: rest => (s.add key).2 :: answers (s.add key).1 rest

/-- Additions that may fail, in turn: the bitmap at the end, and what they tell. -/
def addAll? (s : SeenKeys) : List Nat → Option (SeenKeys × List Bool)
  | [] => some (s, [])
  | key :: rest => do
    let (s, answer) ← s.add? key
    let (s, answers) ← s.addAll? rest
    return (s, answer :: answers)

theorem addAll?_eq (s : SeenKeys) (keys : List Nat) : s.addAll? keys = some (s.after keys, s.answers keys) := by
  induction keys generalizing s with
  | nil => rfl
  | cons key rest ih =>
    rw [addAll?, add?_eq, Option.bind_eq_bind, Option.bind_some]
    dsimp only
    rw [ih, Option.bind_eq_bind, Option.bind_some]
    rfl

/-- A key that is added leaves the keys still to come, and joins those that are marked. -/
theorem contains_add_or_mem (s : SeenKeys) (first key : Nat) (rest : List Nat) :
    ((s.add first).1.contains key || decide (key ∈ rest)) = (s.contains key || decide (key ∈ first :: rest)) := by
  have hmem : decide (key ∈ first :: rest) = (decide (first = key) || decide (key ∈ rest)) := by
    simp [eq_comm]
  rw [contains_add, hmem, Bool.or_assoc, Bool.or_left_comm]

theorem contains_after (s : SeenKeys) (keys : List Nat) (key : Nat) :
    (s.after keys).contains key = (s.contains key || decide (key ∈ keys)) := by
  induction keys generalizing s with
  | nil => simp [after]
  | cons first rest ih =>
    rw [← contains_add_or_mem]
    exact ih _

/-- A key is told to be there if it was at the start, or was added since. -/
theorem answers_eq (s : SeenKeys) (keys : List Nat) :
    s.answers keys = keys.mapIdx fun i key => s.contains key || decide (key ∈ keys.take i) := by
  induction keys generalizing s with
  | nil => rfl
  | cons first rest ih =>
    rw [answers, List.mapIdx_cons, add_snd, ih]
    congr 1
    · simp
    · congr 1
      funext i key
      rw [List.take_succ_cons, contains_add_or_mem]

/-- Once a bitmap is as long as its greatest key asks for, it stays so: only a greater key makes it longer. -/
theorem size_after {s : SeenKeys} {greatest : Nat} (h : s.size = greatest / 8 + 1) (keys : List Nat) :
    (s.after keys).size = keys.foldl max greatest / 8 + 1 := by
  induction keys generalizing s greatest with
  | nil => exact h
  | cons key rest ih =>
    have hstep : (s.add key).1.size = max greatest key / 8 + 1 := by
      rw [size_add, h]
      omega
    exact ih hstep

theorem size_after_empty (keys : List Nat) : (empty.after keys).size = keys.max?.elim 0 (· / 8 + 1) := by
  cases keys with
  | nil => rfl
  | cons key rest =>
    have hfirst : (empty.add key).1.size = key / 8 + 1 := by
      rw [size_add]
      exact Nat.zero_max _
    rw [List.max?_cons']
    exact size_after hfirst rest

/-- **The bitmap is a set of keys**, whatever keys are added to it and in whatever order.

* No addition reads or writes outside of the bytes.
* An addition tells that its key was there exactly when the same key is among those before it.
* At every point there is one byte more than an eighth of the greatest key so far, rounded down, and none before the
  first key.
* The keys that are marked are those that were added, and no others. -/
theorem run_as_set (keys : List Nat) :
    empty.addAll? keys = some (empty.after keys, empty.answers keys) ∧
    empty.answers keys = keys.mapIdx (fun i key => decide (key ∈ keys.take i)) ∧
    (∀ i, (empty.after (keys.take i)).size = (keys.take i).max?.elim 0 (· / 8 + 1)) ∧
    ∀ key, (empty.after keys).contains key = decide (key ∈ keys) := by
  refine ⟨addAll?_eq empty keys, ?_, fun i => size_after_empty _, fun key => ?_⟩
  · rw [answers_eq]
    simp only [contains_empty, Bool.false_or]
  · rw [contains_after, contains_empty, Bool.false_or]

/-- Neighbours in a byte, the same key again, the next byte, and a key that skips bytes. -/
example : empty.answers [1, 7, 1, 8, 30, 7] = [false, false, true, false, false, true] ∧
    (empty.after [1, 7, 1, 8, 30, 7]).bytes = #[130, 1, 0, 64] := by
  decide

end SnapshotStaging.SeenKeys
