import Mips64.Text.Blank

/-! Digits of every script. A decimal digit has a value by its place after the zero of its script;
the other digits (raised, circled, …) are digits without a decimal value. -/
namespace Mips64.Text

/-- The zeros of the scripts: each is followed by its nine other decimal digits. -/
def zeros : List Nat :=
  [48, 1632, 1776, 1984, 2406, 2534, 2662, 2790, 2918, 3046, 3174, 3302, 3430, 3558, 3664, 3792,
   3872, 4160, 4240, 6112, 6160, 6470, 6608, 6784, 6800, 6992, 7088, 7232, 7248, 42528, 43216,
   43264, 43472, 43504, 43600, 44016, 65296, 66720, 68912, 69734, 69872, 69942, 70096, 70384,
   70736, 70864, 71248, 71360, 71472, 71904, 72016, 72784, 73040, 73120, 92768, 92864, 93008,
   120782, 120792, 120802, 120812, 120822, 123200, 123632, 125264, 130032]

/-- The value of a decimal digit of any script. -/
def decimalValue? (c : Char) : Option Nat :=
  (zeros.find? (fun z => z ≤ c.toNat && c.toNat < z + 10)).map (c.toNat - ·)

/-- The ranges of digits that take no part in decimal numbers. -/
def nonDecimalDigits : List (Nat × Nat) :=
  [(178, 179), (185, 185), (4969, 4977), (6618, 6618), (8304, 8304), (8308, 8313), (8320, 8329),
   (9312, 9320), (9332, 9340), (9352, 9360), (9450, 9450), (9461, 9469), (9471, 9471),
   (10102, 10110), (10112, 10120), (10122, 10130), (68160, 68163), (69216, 69224), (69714, 69722),
   (127232, 127242)]

def isDigit (c : Char) : Bool :=
  (decimalValue? c).isSome ||
    nonDecimalDigits.any (fun r => r.1 ≤ c.toNat && c.toNat ≤ r.2)

def isAsciiDigit (c : Char) : Bool := '0' ≤ c && c ≤ '9'

theorem decimalValue?_lt {c : Char} {n : Nat} (h : decimalValue? c = some n) : n < 10 := by
  obtain ⟨z, hz, rfl⟩ := Option.map_eq_some_iff.1 h
  have hp := List.find?_some hz
  simp only [Bool.and_eq_true, decide_eq_true_eq] at hp
  omega

example : decimalValue? '7' = some 7 ∧ decimalValue? '\u0663' = some 3 := by decide
example : isDigit '\u00b2' = true ∧ decimalValue? '\u00b2' = none := by decide
example : isDigit '\u2167' = false := by decide

end Mips64.Text
