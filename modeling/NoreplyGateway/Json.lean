import Mathlib

namespace NoreplyGateway.Json

def hexDigits : ℕ → ℕ → List Char
  | 0, _ => []
  | k + 1, n => hexDigits k (n / 16) ++ [Nat.digitChar (n % 16)]

def unicodeEscape (n : ℕ) : List Char := Char.ofNat 92 :: 'u' :: hexDigits 4 n

/-- The escapes of `json.dumps`, which leaves only printable ASCII as it is.
A character outside the basic plane becomes a surrogate pair. -/
def escape (c : Char) : List Char :=
  let n := c.toNat
  if n = 34 ∨ n = 92 then [Char.ofNat 92, c]
  else if n = 10 then [Char.ofNat 92, 'n']
  else if n = 13 then [Char.ofNat 92, 'r']
  else if n = 9 then [Char.ofNat 92, 't']
  else if n = 12 then [Char.ofNat 92, 'f']
  else if n = 8 then [Char.ofNat 92, 'b']
  else if 32 ≤ n ∧ n ≤ 126 then [c]
  else if n < 65536 then unicodeEscape n
  else unicodeEscape (55296 + (n - 65536) / 1024) ++ unicodeEscape (56320 + (n - 65536) % 1024)

def dumpString (s : String) : List Char :=
  Char.ofNat 34 :: (s.toList.flatMap escape ++ [Char.ofNat 34])

/-- `json.dumps` of a list of strings. -/
def dumps (l : List String) : String :=
  String.ofList ('[' :: ([',', ' '].intercalate (l.map dumpString) ++ [']']))

end NoreplyGateway.Json
