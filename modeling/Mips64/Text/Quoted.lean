import Mips64.Text.Printable

/-! Quoted text: a text between quotes on one line, in printable characters only. -/
namespace Mips64.Text

/-- Single quotes, or double quotes where that saves escaping. -/
def quoteMark (s : Text) : Char := if '\'' ∈ s ∧ '"' ∉ s then '"' else '\''

/-- The digits of an escape, as many as the escape has places. -/
def escapeDigits (places : Nat) (c : Char) : Text := zeroPad places (Nat.toDigits 16 c.toNat)

/-- How a character is written between quotes, where `shown` says which are written as they are. -/
def quotedChar (shown : Char → Bool) (mark c : Char) : Text :=
  if c = mark ∨ c = '\\' then ['\\', c]
  else if c = '\t' then ['\\', 't']
  else if c = '\n' then ['\\', 'n']
  else if c = '\r' then ['\\', 'r']
  else if shown c then [c]
  else if c.toNat < 0x100 then '\\' :: 'x' :: escapeDigits 2 c
  else if c.toNat < 0x10000 then '\\' :: 'u' :: escapeDigits 4 c
  else '\\' :: 'U' :: escapeDigits 8 c

/-- The text between quotes, where `shown` says which characters are written as they are. -/
def quotedWith (shown : Char → Bool) (s : Text) : Text :=
  let mark := quoteMark s
  mark :: s.flatMap (quotedChar shown mark) ++ [mark]

def quoted (s : Text) : Text := quotedWith isPrintable s

def quotedAscii (s : Text) : Text := quotedWith (fun c => isPrintable c && c.toNat < 0x80) s

example : quoted "a'b".toList = "\"a'b\"".toList := by decide
example : quoted "a'\"\x7f".toList = "'a\\'\"\\x7f'".toList := by decide
example : quotedAscii "é".toList = "'\\xe9'".toList := by decide +kernel
example : quoted "\u200b".toList = "'\\u200b'".toList := by decide +kernel

end Mips64.Text
