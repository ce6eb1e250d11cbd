import SnapshotStaging.Proofs.Json.Rewriting
import SnapshotStaging.Proofs.Json.Tree

/-!
# Documents without repeated members

A document is settled by letting every repeated member take the place of the one before it. Its leaves are then those
that count: what the document stands for is the settled document with a value for each leaf, and two ways of reading
the leaves give one canonical form exactly when they agree on these.

Main results `value_eq` and `canonical_json_eq_iff`.
-/

namespace SnapshotStaging.Tree

variable {α : Type} {f g : α → Json}

/-- Members with `name` set to a document, as `Json.put` sets it to a value. -/
def put (name : String) (t : Tree α) : List (String × Tree α) → List (String × Tree α)
  | [] => [(name, t)]
  | (n, u) :: rest => if n = name then (n, t) :: rest else (n, u) :: put name t rest

mutual

/-- The document with every repeated member in the place of the one before it. -/
def settled : Tree α → Tree α
  | .leaf a => .leaf a
  | .arr items => .arr (settledItems items)
  | .obj members => .obj (settledMembers [] members)

def settledItems : List (Tree α) → List (Tree α)
  | [] => []
  | t :: rest => t.settled :: settledItems rest

/-- The members held after more members. -/
def settledMembers (held : List (String × Tree α)) : List (String × Tree α) → List (String × Tree α)
  | [] => held
  | (name, t) :: rest => settledMembers (put name t.settled held) rest

end

mutual

/-- The document with a value for each leaf. -/
def json (f : α → Json) : Tree α → Json
  | .leaf a => f a
  | .arr items => .arr (jsonItems f items)
  | .obj members => .obj (jsonMembers f members)

def jsonItems (f : α → Json) : List (Tree α) → List Json
  | [] => []
  | t :: rest => t.json f :: jsonItems f rest

def jsonMembers (f : α → Json) : List (String × Tree α) → List (String × Json)
  | [] => []
  | (name, t) :: rest => (name, t.json f) :: jsonMembers f rest

end

theorem jsonMembers_put (f : α → Json) (name : String) (t : Tree α) (members : List (String × Tree α)) :
    jsonMembers f (put name t members) = Json.put name (t.json f) (jsonMembers f members) := by
  induction members with
  | nil => rfl
  | cons m rest ih =>
    obtain ⟨n, u⟩ := m
    by_cases heq : n = name
    · simp [put, Json.put, jsonMembers, heq]
    · simp [put, Json.put, jsonMembers, heq, ih]

theorem names_jsonMembers (f : α → Json) (members : List (String × Tree α)) :
    (jsonMembers f members).map Prod.fst = members.map Prod.fst := by
  induction members with
  | nil => rfl
  | cons m rest ih => rw [jsonMembers, List.map_cons, List.map_cons, ih]

/-! ## What a document stands for -/

mutual

/-- **What a document stands for** is the settled document with what its leaves stand for. -/
theorem value_eq (f : α → Json) : ∀ t : Tree α, t.value f = t.settled.json f
  | .leaf _ => rfl
  | .arr items => by rw [value, values_eq f items, settled, json]
  | .obj members => by
    rw [value, settled, json]
    exact congrArg Json.obj (memberValues_eq f [] members)

theorem values_eq (f : α → Json) : ∀ items : List (Tree α), values f items = jsonItems f (settledItems items)
  | [] => rfl
  | t :: rest => by rw [values, value_eq f t, values_eq f rest, settledItems, jsonItems]

theorem memberValues_eq (f : α → Json) : ∀ held members : List (String × Tree α),
    memberValues f (jsonMembers f held) members = jsonMembers f (settledMembers held members)
  | _, [] => rfl
  | held, (name, t) :: rest => by
    rw [memberValues, value_eq f t, settledMembers, ← jsonMembers_put]
    exact memberValues_eq f (put name t.settled held) rest

end

/-! ## Leaves that count -/

mutual

/-- Two ways of reading the leaves that agree give one value. -/
theorem json_congr : ∀ {t : Tree α}, (∀ a ∈ t.leaves, f a = g a) → t.json f = t.json g
  | .leaf a, h => h a (List.mem_singleton.2 rfl)
  | .arr _, h => congrArg Json.arr (jsonItems_congr h)
  | .obj _, h => congrArg Json.obj (jsonMembers_congr h)

theorem jsonItems_congr : ∀ {items : List (Tree α)}, (∀ a ∈ itemLeaves items, f a = g a) →
    jsonItems f items = jsonItems g items
  | [], _ => rfl
  | _ :: _, h => congrArg₂ List.cons (json_congr (List.forall_mem_append.1 h).1)
      (jsonItems_congr (List.forall_mem_append.1 h).2)

theorem jsonMembers_congr : ∀ {members : List (String × Tree α)}, (∀ a ∈ memberLeaves members, f a = g a) →
    jsonMembers f members = jsonMembers g members
  | [], _ => rfl
  | (name, _) :: _, h => congrArg₂ List.cons (congrArg (Prod.mk name) (json_congr (List.forall_mem_append.1 h).1))
      (jsonMembers_congr (List.forall_mem_append.1 h).2)

end

/-- Members whose names are apart stand in one order only. -/
theorem eq_of_perm_of_names {members members' : List (String × Json)} (hperm : members.Perm members')
    (hnames : members.map Prod.fst = members'.map Prod.fst) (hnodup : (members.map Prod.fst).Nodup) :
    members = members' := by
  induction members generalizing members' with
  | nil => exact (List.nil_perm.1 hperm).symm
  | cons m rest ih =>
    cases members' with
    | nil => cases hnames
    | cons m' rest' =>
      obtain ⟨name, v⟩ := m
      obtain ⟨name', v'⟩ := m'
      obtain ⟨rfl, hrest⟩ := List.cons.inj hnames
      obtain ⟨hnew, hnodup⟩ := List.nodup_cons.1 hnodup
      have hmem : (name, v) ∈ (name, v') :: rest' := hperm.mem_iff.1 (List.mem_cons_self ..)
      have hv : (name, v) = (name, v') := by
        rcases List.mem_cons.1 hmem with heq | hmem
        · exact heq
        · exact absurd (hrest ▸ List.mem_map_of_mem hmem) hnew
      rw [hv] at hperm ⊢
      rw [ih (List.Perm.cons_inv hperm) hrest hnodup]

mutual

/-- Settled documents repeat no name. -/
theorem distinct_json_settled (hf : ∀ a, (f a).isContainer = false) : ∀ t : Tree α, (t.settled.json f).Distinct
  | .leaf a => by
    have := hf a
    rw [settled, json]
    cases hfa : f a <;> simp_all [Json.Distinct, Json.isContainer]
  | .arr items => distinct_jsonItems_settled hf items
  | .obj members => distinct_jsonMembers_settled hf members ⟨List.nodup_nil, trivial⟩

theorem distinct_jsonItems_settled (hf : ∀ a, (f a).isContainer = false) : ∀ items : List (Tree α),
    Json.DistinctItems (jsonItems f (settledItems items))
  | [] => trivial
  | t :: rest => ⟨distinct_json_settled hf t, distinct_jsonItems_settled hf rest⟩

theorem distinct_jsonMembers_settled (hf : ∀ a, (f a).isContainer = false) : ∀ (members : List (String × Tree α))
    {held : List (String × Tree α)}, (Json.obj (jsonMembers f held)).Distinct →
    (Json.obj (jsonMembers f (settledMembers held members))).Distinct
  | [], _, h => h
  | (name, t) :: rest, held, h => by
    refine distinct_jsonMembers_settled hf rest ?_
    rw [jsonMembers_put]
    exact h.put (distinct_json_settled hf t) name

end

mutual

/-- One canonical form tells what the leaves are read as. -/
theorem eq_of_canonical_json (hf : ∀ a, (f a).isContainer = false) (hg : ∀ a, (g a).isContainer = false) :
    ∀ {t : Tree α}, (t.json f).Distinct → (t.json f).canonical = (t.json g).canonical → ∀ a ∈ t.leaves, f a = g a
  | .leaf b, _, h, a, ha => by
    rw [json, json, Json.canonical_of_scalar (hf b), Json.canonical_of_scalar (hg b)] at h
    rw [List.mem_singleton.1 ha]
    exact h
  | .arr _, hd, h, a, ha => eq_of_canonical_jsonItems hf hg hd (Json.arr.inj h) a ha
  | .obj members, hd, h, a, ha => by
    have hperm := Json.perm_of_sortMembers_eq (Json.obj.inj h)
    have hnames {f : α → Json} : (Json.canonicalMembers (jsonMembers f members)).map Prod.fst =
        members.map Prod.fst := by rw [Json.names_canonicalMembers, names_jsonMembers]
    have hnodup : (members.map Prod.fst).Nodup := names_jsonMembers f members ▸ hd.1
    have heq := eq_of_perm_of_names hperm (hnames.trans hnames.symm) (by rwa [hnames])
    exact eq_of_canonical_jsonMembers hf hg hd.2 heq a ha

theorem eq_of_canonical_jsonItems (hf : ∀ a, (f a).isContainer = false) (hg : ∀ a, (g a).isContainer = false) :
    ∀ {items : List (Tree α)}, Json.DistinctItems (jsonItems f items) →
      Json.canonicalItems (jsonItems f items) = Json.canonicalItems (jsonItems g items) →
      ∀ a ∈ itemLeaves items, f a = g a
  | t :: rest, hd, h, a, ha => by
    obtain ⟨ht, hrest⟩ := List.cons.inj h
    rcases List.mem_append.1 ha with ha | ha
    · exact eq_of_canonical_json hf hg hd.1 ht a ha
    · exact eq_of_canonical_jsonItems hf hg hd.2 hrest a ha

theorem eq_of_canonical_jsonMembers (hf : ∀ a, (f a).isContainer = false) (hg : ∀ a, (g a).isContainer = false) :
    ∀ {members : List (String × Tree α)}, Json.DistinctMembers (jsonMembers f members) →
      Json.canonicalMembers (jsonMembers f members) = Json.canonicalMembers (jsonMembers g members) →
      ∀ a ∈ memberLeaves members, f a = g a
  | (name, t) :: rest, hd, h, a, ha => by
    obtain ⟨ht, hrest⟩ := List.cons.inj h
    rcases List.mem_append.1 ha with ha | ha
    · exact eq_of_canonical_json hf hg hd.1 (Prod.mk.inj ht).2 a ha
    · exact eq_of_canonical_jsonMembers hf hg hd.2 hrest a ha

end

/-- **The leaves that count**: two ways of reading the leaves give a settled document one canonical form exactly when
they agree on its leaves. -/
theorem canonical_json_eq_iff (hf : ∀ a, (f a).isContainer = false) (hg : ∀ a, (g a).isContainer = false) (t : Tree α) :
    (t.settled.json f).canonical = (t.settled.json g).canonical ↔ ∀ a ∈ t.settled.leaves, f a = g a :=
  ⟨eq_of_canonical_json hf hg (distinct_json_settled hf t), fun h => congrArg Json.canonical (json_congr h)⟩

end SnapshotStaging.Tree
