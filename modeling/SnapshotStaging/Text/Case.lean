import SnapshotStaging.Text.CaseTable

/-!
# Small letters

Every letter goes to its small form. The capital sigma is the final small sigma at the end of a word
and the ordinary one elsewhere; the dotted capital I leaves its dot behind as a mark of its own.
-/

namespace SnapshotStaging.Text

def within (table : List (Nat × Nat)) (c : Char) : Bool :=
  table.any fun (low, high) => low ≤ c.toNat && c.toNat ≤ high

/-- The small form of a letter, the character itself when it has none. -/
def lowerChar (c : Char) : Char :=
  if c.toNat < 0x80 then c.toLower
  else
    match lowering.find? fun (low, high, step, _) =>
        low ≤ c.toNat && c.toNat ≤ high && (c.toNat - low) % step = 0 with
    | some (_, _, _, distance) => Char.ofNat (c.toNat + distance).toNat
    | none => c

def isCased (c : Char) : Bool := within cased c

def isJoining (c : Char) : Bool := within joining c

/-- Whether the nearest character that does not join has case. -/
def casedBeside (cs : List Char) : Bool :=
  match cs.dropWhile isJoining with
  | c :: _ => isCased c
  | [] => false

/-- Lower-cases a row of characters; `before` holds the ones before it, nearest first. -/
def lowerOnto (before : List Char) (done : List Char) : List Char → List Char
  | [] => done.reverse
  | c :: rest =>
    if c = 'Σ' then
      let final := casedBeside before && !casedBeside rest
      lowerOnto (c :: before) ((if final then 'ς' else 'σ') :: done) rest
    else if c = 'İ' then lowerOnto (c :: before) ('\u0307' :: 'i' :: done) rest
    else lowerOnto (c :: before) (lowerChar c :: done) rest

def lower (cs : List Char) : List Char := lowerOnto [] [] cs

end SnapshotStaging.Text
