import SnapshotStaging.Json.Basic
import SnapshotStaging.Platform
import SnapshotStaging.Text.Script

/-!
# Canonical order of members

The member `id` stands first and the others follow by name, at every level. Two values that differ
only in the order of members have the same canonical form. Putting a value into this order takes two
calls for each level, so a value can be nested too deep for the platform to order it.

| here | there |
| --- | --- |
| `nameLe` | the order of `_member_sort_key` |
| `canonical`, `orderingCalls`, `order?` | `canonicalize`: what it gives, the calls it takes, and both |
-/

namespace SnapshotStaging

/-- The member that identifies a record. -/
def idField : String := "id"

namespace Json

variable {σ κ : Type} [DecidableEq σ] [Script σ κ]

/-- The numbers of a name's code points. -/
def codes (name : σ) : List Nat := (Script.points name).map CodePoint.code

/-- The canonical order of member names: by the numbers of their code points, but for the name that stands first. -/
def nameLe (a b : σ) : Bool :=
  a = Script.ofString idField || (b ≠ Script.ofString idField && !(codes b).lex (codes a))

def sortMembers (members : List (σ × Json σ)) : List (σ × Json σ) :=
  members.mergeSort fun a b => nameLe a.1 b.1

mutual

def canonical : Json σ → Json σ
  | .arr items => .arr (canonicalItems items)
  | .obj members => .obj (sortMembers (canonicalMembers members))
  | v => v

def canonicalItems : List (Json σ) → List (Json σ)
  | [] => []
  | v :: items => v.canonical :: canonicalItems items

def canonicalMembers : List (σ × Json σ) → List (σ × Json σ)
  | [] => []
  | (name, v) :: members => (name, v.canonical) :: canonicalMembers members

end

mutual

/-- How many calls are open at once while a value is put into canonical order: one for each container and
one for going through what it holds, and one for each scalar. The name of a member is looked at two calls
deep. -/
def orderingCalls : Json σ → Nat
  | .arr items => 2 + itemCalls items
  | .obj members => 2 + memberCalls members
  | _ => 1

def itemCalls : List (Json σ) → Nat
  | [] => 0
  | v :: items => max v.orderingCalls (itemCalls items)

def memberCalls : List (σ × Json σ) → Nat
  | [] => 0
  | (_, v) :: members => max (max 2 v.orderingCalls) (memberCalls members)

end

/-- The canonical form, where the platform has the calls for it. -/
def order? [Platform] (v : Json σ) : Option (Json σ) :=
  if Platform.limits.admits v.orderingCalls then some v.canonical else none

end Json

end SnapshotStaging
