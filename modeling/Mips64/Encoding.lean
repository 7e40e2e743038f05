import Mips64.Operand.Reading
import Mips64.Store
import Mips64.Tables

/-! Instructions encoded: written operands are read as the kinds that the instruction asks for, and
packed into a word. -/
namespace Mips64

namespace Instruction

/-- The operands of the kinds that are written, from a position of the operand list on. An offset
token gives its immediate and then its register. -/
def readFrom (symbols : Symbols) (here : Nat) (written : List Text) :
    List OperandKind → (position : Nat) → Except Failure (List Operand)
  | [], _ => .ok []
  | kind :: kinds, position =>
    match written[position]? with
    | none => .error (.fault .operandOutOfRange)
    | some token => do
      let first ← Operand.read symbols here kind token (some written) position
      let second ←
        if kind = .offset then do
          let (_, register) ← Operand.offsetParts (Operand.substitute symbols token)
          let base ← Operand.read symbols here .base register none 0
          pure [base]
        else pure []
      let others ← readFrom symbols here written kinds (position + 1)
      return first :: second ++ others

/-- The operands of an instruction, read from as many tokens as it asks for. -/
def readOperands (symbols : Symbols) (here : Nat) (i : Instruction) (written : List Text) :
    Except Failure (List Operand) :=
  if written.length = i.tokenCount then
    readFrom symbols here written (i.kinds.filter (· != .base)) 0
  else .error (.cause (.instructionArity i.symbol i.tokenCount written.length))

/-- The word of an instruction with written operands, at an address. -/
def encode (symbols : Symbols) (here : Nat) (i : Instruction) (written : List Text) :
    Except Failure Nat := do
  let operands ← i.readOperands symbols here written
  (i.word operands).mapError .fault

end Instruction

end Mips64
