import Mathlib

/-! Methods of `str` on ASCII text. -/

namespace NoreplyGateway.PyText

def isSpace (c : Char) : Bool :=
  c = ' ' ∨ 9 ≤ c.toNat ∧ c.toNat ≤ 13 ∨ 28 ≤ c.toNat ∧ c.toNat ≤ 31

def strip (text : List Char) : List Char :=
  ((text.dropWhile isSpace).reverse.dropWhile isSpace).reverse

def upper (text : List Char) : List Char := text.map Char.toUpper

/-- `split()`, which leaves no empty words. -/
def split (text : List Char) : List (List Char) :=
  (text.splitOnP isSpace).filter (fun word ↦ !word.isEmpty)

/-- `partition` at a character. -/
def partition (c : Char) (text : List Char) : List Char × Bool × List Char :=
  (text.takeWhile (· ≠ c), c ∈ text, (text.dropWhile (· ≠ c)).tail)

def isDecimal (text : List Char) : Bool := !text.isEmpty && text.all Char.isDigit

/-- `int()` of decimal digits. -/
def toNat (text : List Char) : ℕ := text.foldl (fun n c ↦ 10 * n + (c.toNat - 48)) 0

/-- The text after the last `@`, if there is one. -/
def afterAt (text : List Char) : Option (List Char) :=
  if '@' ∈ text then some (text.reverse.takeWhile (· ≠ '@')).reverse else none

end NoreplyGateway.PyText
