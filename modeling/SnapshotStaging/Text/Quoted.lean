import SnapshotStaging.Text.UnprintableTable

/-!
# Quoted text in messages

A text is quoted with single quotes, or with double quotes when it holds single quotes and no double
ones. The quote, the backslash and every character that is not printed are escaped.
-/

namespace SnapshotStaging.Text

def isPrinted (c : Char) : Bool :=
  if c.toNat < 0x80 then 0x20 ≤ c.toNat && c.toNat < 0x7F
  else !unprintable.any fun (low, high) => low ≤ c.toNat && c.toNat ≤ high

/-- The last `n` hexadecimal digits of a number, in front of `rest`. -/
def hexDigits (value : Nat) : Nat → List Char → List Char
  | 0, rest => rest
  | n + 1, rest => hexDigits (value / 16) n (Nat.digitChar (value % 16) :: rest)

def quoteChar (quote c : Char) : List Char :=
  if c = quote || c = '\\' then ['\\', c]
  else if c = '\n' then ['\\', 'n']
  else if c = '\r' then ['\\', 'r']
  else if c = '\t' then ['\\', 't']
  else if isPrinted c then [c]
  else if c.toNat < 0x100 then '\\' :: 'x' :: hexDigits c.toNat 2 []
  else if c.toNat < 0x10000 then '\\' :: 'u' :: hexDigits c.toNat 4 []
  else '\\' :: 'U' :: hexDigits c.toNat 8 []

def quoted (s : String) : List Char :=
  let cs := s.toList
  let quote := if cs.contains '\'' && !cs.contains '"' then '"' else '\''
  quote :: (cs.flatMap (quoteChar quote) ++ [quote])

end SnapshotStaging.Text
