import SnapshotStaging.Json.Canonical
import SnapshotStaging.Json.Printer
import SnapshotStaging.Json.Reader

/-!
# Canonical texts

The canonical text of a value is that of its canonical form. A text of any value is brought into canonical
form by reading it, putting what was read into order, and writing that.

| here | there |
| --- | --- |
| `renderCanonical`, `writeCanonical` | `canonical_text` with `ordered` unset |
| `canonicalText` | `canonicalize_text` |
-/

namespace SnapshotStaging.Json

variable {σ κ : Type} [DecidableEq σ] [Script σ κ]

/-- The canonical text of a value. -/
def renderCanonical (l : Layout) (v : Json σ) : σ := v.canonical.render l

/-- The canonical text on the platform, which may lack the calls to order the value or be unable to turn an
integer into text. -/
def writeCanonical [Platform] (l : Layout) (v : Json σ) : Except ReadError σ :=
  match v.order? with
  | none => .error .exhausted
  | some v => if v.anyInteger Platform.limits.overlong then .error .overlong else .ok (v.render l)

/-- The canonical text, without blanks, of the value that a text spells. -/
def canonicalText [Platform] (text : σ) : Except ReadError σ :=
  match load .any (Script.letters text) with
  | .ok v => writeCanonical .compact v
  | .error e => .error e

end SnapshotStaging.Json
