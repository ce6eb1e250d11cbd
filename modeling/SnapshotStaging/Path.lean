/-!
# Paths

A path is a root and the steps from it. Empty steps and steps that stay are left out of its text.
-/

namespace SnapshotStaging.Path

/-- What a path starts from: nothing, one slash, or exactly two. -/
def root (path : String) : String :=
  match path.toList with
  | '/' :: '/' :: '/' :: _ => "/"
  | '/' :: '/' :: _ => "//"
  | '/' :: _ => "/"
  | _ => ""

/-- The steps of a path that lead somewhere. -/
def steps (path : String) : List String :=
  (path.splitOn "/").filter fun s => s ≠ "" && s ≠ "."

/-- The path with these steps; a path that leads nowhere is written as a dot. -/
def ofSteps (root : String) (steps : List String) : String :=
  let path := root ++ "/".intercalate steps
  if path = "" then "." else path

def normal (path : String) : String := ofSteps (root path) (steps path)

/-- The path that a name leads to from a directory; a name with a root leads there from anywhere. -/
def join (directory name : String) : String :=
  if name.startsWith "/" then normal name
  else ofSteps (root directory) (steps directory ++ steps name)

end SnapshotStaging.Path
