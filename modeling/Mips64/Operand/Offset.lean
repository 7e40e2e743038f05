import Mips64.Failure

/-! Offset tokens: an immediate and, between parentheses, a register. -/
namespace Mips64.Operand

def isUnparenthesised (c : Char) : Bool := c != '(' && c != ')'

/-- The immediate and the register of an offset token. The register may not be blank, and no further
parentheses may occur. -/
def offsetParts (token : Text) : Except Failure (Text × Text) :=
  let malformed : Except Failure (Text × Text) := .error (.cause (.malformedOffset token))
  let t := Text.strip token
  match t.dropWhile isUnparenthesised with
  | '(' :: inner =>
    if inner.dropWhile isUnparenthesised = [')'] then
      let register := Text.strip (inner.takeWhile isUnparenthesised)
      if register.isEmpty then malformed
      else .ok (Text.strip (t.takeWhile isUnparenthesised), register)
    else malformed
  | _ => malformed

example : offsetParts " 8 ( $sp )".toList = .ok ("8".toList, "$sp".toList) := by rfl
example : offsetParts "8(($sp))".toList =
    .error (.cause (.malformedOffset "8(($sp))".toList)) := by rfl

end Mips64.Operand
