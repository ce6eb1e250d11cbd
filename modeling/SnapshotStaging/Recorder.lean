import SnapshotStaging.Database

/-!
# A database that only records

Statements are kept as text and answered in one fixed way. A statement whose text holds one of the
refused pieces is recorded and fails.
-/

namespace SnapshotStaging

structure Recorder where
  dialect : Dialect
  refused : List String := []
  /-- How many rows every merge is said to append. -/
  appended : Int := -1
  /-- Latest text first. -/
  texts : List String := []

namespace Recorder

/-- Whether one text occurs in another. -/
def occurs (piece : List Char) : List Char → Bool
  | [] => piece.isEmpty
  | c :: rest => piece.isPrefixOf (c :: rest) || occurs piece rest

def write (r : Recorder) (text : String) : Recorder := { r with texts := text :: r.texts }

/-- The recorded texts in order. -/
def recorded (r : Recorder) : List String := r.texts.reverse

def execute (st : Statement) : EStateM Error Recorder Int := fun r =>
  let text := st.sql r.dialect
  let r := r.write text
  if r.refused.any fun piece => occurs piece.toList text.toList then
    .error (.databaseFailed .statement) r
  else
    match st with
    | .appendChanges _ => .ok r.appended r
    | _ => .ok (-1) r

instance : Database Recorder where
  start r := r.write "BEGIN"
  commit r := r.write "COMMIT"
  rollback r := r.write "ROLLBACK"
  execute := execute
  keys _ := []
  addKeys _ r := (r, true)

end Recorder

end SnapshotStaging
