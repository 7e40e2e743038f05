import Mips64.Text.Digit

/-! Numbers as text: hexadecimal and binary digits of a fixed width, and the literals that are read
back. -/
namespace Mips64.Text

/-- The value of a hexadecimal digit of either case. -/
def hexValue? (c : Char) : Option Nat :=
  if '0' ≤ c && c ≤ '9' then some (c.toNat - 48)
  else if 'a' ≤ c && c ≤ 'f' then some (c.toNat - 87)
  else if 'A' ≤ c && c ≤ 'F' then some (c.toNat - 55)
  else none

/-- The number that digits denote in a base, the most significant first. -/
def ofDigits (base : Nat) (s : Text) : Nat :=
  s.foldl (fun n c => n * base + (hexValue? c).getD 0) 0

def isHexDigits (s : Text) : Bool := !s.isEmpty && s.all (fun c => (hexValue? c).isSome)

def isBinDigits (s : Text) : Bool := !s.isEmpty && s.all (fun c => c == '0' || c == '1')

def unsigned : Text → Text
  | '-' :: s => s
  | '+' :: s => s
  | s => s

/-- A nonempty run of ASCII digits, with or without a sign before it. -/
def isDecLiteral (s : Text) : Bool := !(unsigned s).isEmpty && (unsigned s).all isAsciiDigit

def ofDecLiteral : Text → Int
  | '-' :: s => -(ofDigits 10 s : Int)
  | '+' :: s => ofDigits 10 s
  | s => ofDigits 10 s

/-- The longest decimal numeral that is converted. -/
def maxDecimalDigits : Nat := 4300

/-- Lowercase hexadecimal, padded with zeros to a width in which a minus sign counts. -/
def hex (width : Nat) (n : Int) : Text :=
  if n < 0 then '-' :: zeroPad (width - 1) (Nat.toDigits 16 n.natAbs)
  else zeroPad width (Nat.toDigits 16 n.toNat)

/-- Hexadecimal with the mark `0x`, padded to a width in which sign and mark count. -/
def markedHex (width : Nat) (n : Int) : Text :=
  if n < 0 then '-' :: '0' :: 'x' :: zeroPad (width - 3) (Nat.toDigits 16 n.natAbs)
  else '0' :: 'x' :: zeroPad (width - 2) (Nat.toDigits 16 n.toNat)

def lastChars (count : Nat) (s : Text) : Text :=
  if count = 0 then s else s.drop (s.length - count)

/-- The low bits of a number, the highest first, with negative numbers in two's complement. A number
too low for the width keeps a `b` before the digits of its distance from zero. -/
def bits (width : Nat) (value : Int) : Text :=
  let n := if value < 0 then Nat.pow 2 width + value else value
  let digits := Nat.toDigits 2 n.natAbs
  lastChars width (zeroPad width (if n < 0 then 'b' :: digits else digits))

@[simp] theorem ofDigits_nil (base : Nat) : ofDigits base [] = 0 := rfl

example : hex 8 (-1) = "-0000001".toList ∧ hex 8 0x3c08 = "00003c08".toList := by decide
example : markedHex 10 5 = "0x00000005".toList ∧ markedHex 0 (-255) = "-0xff".toList := by decide
example : bits 3 (-1) = "111".toList ∧ bits 3 (-9) = "0b1".toList := by decide
example : ofDigits 16 "fF".toList = 255 ∧ ofDecLiteral "-12".toList = -12 := by decide

end Mips64.Text
