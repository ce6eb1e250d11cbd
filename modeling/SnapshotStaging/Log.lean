import SnapshotStaging.Json.Basic

/-!
# Log entries

What a run tells about itself, in order. An entry may carry fields beside its message.
-/

namespace SnapshotStaging

namespace Log

inductive Level
  | unset
  | debug
  | info
  | warning
  | error
  | critical
  deriving DecidableEq, Repr

namespace Level

def name : Level → String
  | .unset => "NOTSET"
  | .debug => "DEBUG"
  | .info => "INFO"
  | .warning => "WARNING"
  | .error => "ERROR"
  | .critical => "CRITICAL"

def rank : Level → Nat
  | .unset => 0
  | .debug => 10
  | .info => 20
  | .warning => 30
  | .error => 40
  | .critical => 50

/-- The level of a name in capitals; two levels have a second name. -/
def ofName? : String → Option Level
  | "NOTSET" => some .unset
  | "DEBUG" => some .debug
  | "INFO" => some .info
  | "WARNING" => some .warning
  | "WARN" => some .warning
  | "ERROR" => some .error
  | "CRITICAL" => some .critical
  | "FATAL" => some .critical
  | _ => none

end Level

structure Entry where
  level : Level
  message : String
  fields : Option (List (String × Json)) := none

/-- The entries at or above a level. -/
def atLeast (level : Level) (entries : List Entry) : List Entry :=
  entries.filter fun e => level.rank ≤ e.level.rank

end Log

end SnapshotStaging
