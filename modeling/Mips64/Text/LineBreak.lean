import Mips64.Text.Blank

/-! Line breaks, and the lines of a text. A break ends a line, so a final break opens no further
line. -/
namespace Mips64.Text

/-- The characters that end a line by themselves. -/
def isLineBreak (c : Char) : Bool :=
  let n := c.toNat
  (10 ≤ n && n ≤ 13) || (28 ≤ n && n ≤ 30) || n == 0x85 || n == 0x2028 || n == 0x2029

/-- A carriage return and the line feed after it are one break. -/
def lines : Text → List Text
  | [] => []
  | '\r' :: '\n' :: rest => [] :: lines rest
  | c :: rest =>
    if isLineBreak c then [] :: lines rest
    else match lines rest with
      | [] => [[c]]
      | line :: more => (c :: line) :: more

@[simp] theorem lines_nil : lines [] = [] := rfl

/-- Every line break is blank, so a stripped text neither starts nor ends with one. -/
theorem isBlank_of_isLineBreak {c : Char} (h : isLineBreak c = true) : isBlank c = true := by
  simp only [isLineBreak, isBlank, Bool.or_eq_true, Bool.and_eq_true, decide_eq_true_eq,
    beq_iff_eq] at h ⊢
  omega

example : lines "a\r\n\rb\n".toList = ["a".toList, [], "b".toList] := by decide
example : lines "a\u2028\u0085b".toList = ["a".toList, [], "b".toList] := by decide

end Mips64.Text
