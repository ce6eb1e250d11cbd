import SnapshotStaging.Error
import SnapshotStaging.Log
import SnapshotStaging.Page.Octets
import SnapshotStaging.Path
import SnapshotStaging.Platform
import SnapshotStaging.Text.Blank
import SnapshotStaging.Text.Digit

/-!
# Directories of pages

For a table `t`, the file `t_count.txt` tells how many pages there are, `t_0.json`, `t_1.json`, …
hold them, and `t_test.json` may hold one more.

| here | there |
| --- | --- |
| `pathOf` | `LocalPageSource._path` |
| `legible?`, `pageCount`, `missingCount` | `LocalPageSource.page_count` |
| `page?` | `LocalPageSource.open_page` |
| `testPage?` | `LocalPageSource.extra_pages` |
-/

namespace SnapshotStaging

structure PageStore where
  path : String
  /-- Contents by name. -/
  files : List (String × List UInt8)
  /-- Whether the page for tests is read too. -/
  testPages : Bool := true

namespace PageStore

/-- The path of a file. -/
def pathOf (s : PageStore) (name : String) : String := Path.join s.path name

def find? (s : PageStore) (name : String) : Option (List UInt8) :=
  let path := s.pathOf name
  (s.files.find? fun f => s.pathOf f.1 = path).map (·.2)

def countName (table : String) : String := table ++ "_count.txt"

def pageName (table : String) (page : Int) : String :=
  s!"{table}_{String.ofList (signedDigits page)}.json"

def testName (table : String) : String := table ++ "_test.json"

/-- Digits of any script with single underscores between them, as a number. -/
def digitsValue? (value : Nat) (afterDigit : Bool) : List Char → Option Nat
  | [] => if afterDigit then some value else none
  | c :: rest =>
    match Text.digitValue? c with
    | some d => digitsValue? (10 * value + d) true rest
    | none => if c = '_' && afterDigit then digitsValue? value false rest else none

/-- The integer that a word spells, however long. -/
def integer? (word : List Char) : Option Int :=
  match word with
  | '-' :: rest => (digitsValue? 0 false rest).map fun n => -(n : Int)
  | '+' :: rest => (digitsValue? 0 false rest).map fun n => (n : Int)
  | _ => (digitsValue? 0 false word).map fun n => (n : Int)

/-- The integer that a word spells, if it has not too many digits; leading zeros are digits too. -/
def legible? [Platform] (word : List Char) : Option Int :=
  if Platform.limits.digitLimit.any fun most => most < word.countP fun c => (Text.digitValue? c).isSome then none
  else integer? word

/-- The number of pages of a table; none when nothing tells it. -/
def pageCount [Platform] (s : PageStore) (table : String) : Except Error (Option Nat) :=
  let path := s.pathOf (countName table)
  match s.find? (countName table) with
  | none => .ok none
  | some bytes =>
    match (Octets.decode? bytes).bind fun cs => legible? (Text.firstWord cs) with
    | none => .error (.unreadableCount path table)
    | some (.ofNat n) => .ok (some n)
    | some (.negSucc _) => .error (.negativeCount path table)

/-- What is noted when nothing tells the number of pages. -/
def missingCount (s : PageStore) (table : String) : Log.Entry :=
  ⟨.warning, s!"File not found: {s.pathOf (countName table)}", none⟩

def page? (s : PageStore) (table : String) (page : Int) : Option (List UInt8) :=
  s.find? (pageName table page)

/-- The page for tests, when there is one and it is to be read. -/
def testPage? (s : PageStore) (table : String) : Option (List UInt8) :=
  if s.testPages then s.find? (testName table) else none

end PageStore

end SnapshotStaging
