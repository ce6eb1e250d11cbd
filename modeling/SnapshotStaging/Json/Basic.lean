import SnapshotStaging.Number.Double

/-!
# JSON values

Objects keep their members in order. `Json.put` is how repeated members are read: the first
occurrence fixes the place, the last one the value. The texts of a value are of some kind, and its
members are named by such texts.
-/

namespace SnapshotStaging

inductive Json (σ : Type := String)
  | null
  | bool (b : Bool)
  | int (n : Int)
  | float (x : Double)
  | str (s : σ)
  | arr (items : List (Json σ))
  | obj (members : List (σ × Json σ))
  deriving Inhabited

namespace Json

variable {σ : Type}

/-- Members with `name` set to `v`: in its place when there is one, else at the end. -/
def put [DecidableEq σ] (name : σ) (v : Json σ) : List (σ × Json σ) → List (σ × Json σ)
  | [] => [(name, v)]
  | (n, w) :: rest => if n = name then (n, v) :: rest else (n, w) :: put name v rest

/-- The value of a member. -/
def find? (name : String) : List (String × Json) → Option Json
  | [] => none
  | (n, v) :: rest => if n = name then some v else find? name rest

/-- The value of a member of an object; other values have no members. -/
def member? (name : String) : Json → Option Json
  | .obj members => find? name members
  | _ => none

def isNull : Json σ → Bool
  | .null => true
  | _ => false

/-- Objects and arrays; all other values are scalars. -/
def isContainer : Json σ → Bool
  | .arr _ => true
  | .obj _ => true
  | _ => false

mutual

/-- Every object in the value has pairwise different member names. -/
def Distinct : Json σ → Prop
  | .arr items => DistinctItems items
  | .obj members => (members.map Prod.fst).Nodup ∧ DistinctMembers members
  | _ => True

def DistinctItems : List (Json σ) → Prop
  | [] => True
  | v :: rest => v.Distinct ∧ DistinctItems rest

def DistinctMembers : List (σ × Json σ) → Prop
  | [] => True
  | (_, v) :: rest => v.Distinct ∧ DistinctMembers rest

end

mutual

/-- Whether an integer of the value is of some kind. -/
def anyInteger (p : Int → Bool) : Json σ → Bool
  | .int n => p n
  | .arr items => anyItemInteger p items
  | .obj members => anyMemberInteger p members
  | _ => false

def anyItemInteger (p : Int → Bool) : List (Json σ) → Bool
  | [] => false
  | v :: rest => v.anyInteger p || anyItemInteger p rest

def anyMemberInteger (p : Int → Bool) : List (σ × Json σ) → Bool
  | [] => false
  | (_, v) :: rest => v.anyInteger p || anyMemberInteger p rest

end

end Json

end SnapshotStaging
