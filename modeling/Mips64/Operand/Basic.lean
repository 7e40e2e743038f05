import Mips64.Text.Blank

/-! Operands of instructions, and the kinds in which they are asked for. -/
namespace Mips64

/-- What an operand is read as. An offset token `imm(reg)` gives the immediate, and its register is
the base; a word is one bare token, a string may span tokens, and the rest is all that follows. -/
inductive OperandKind
  | general
  | control
  | number16
  | number24
  | number5
  | branch
  | offset
  | base
  | string
  | word
  | rest
  deriving DecidableEq, Repr

inductive Operand
  | register (index : Nat)
  | immediate (value : Int) (bits : Nat)
  | text (value : Text)
  deriving DecidableEq, Repr

/-- The number an operand puts into a word; text has none. -/
def Operand.value? : Operand → Option Int
  | .register index => some index
  | .immediate value _ => some value
  | .text _ => none

end Mips64
