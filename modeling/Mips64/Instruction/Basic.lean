import Mips64.Failure
import Mips64.Instruction.Field
import Mips64.Operand.Basic

/-! Instructions: a pattern of fixed bits, and the operands that are placed on top of it. -/
namespace Mips64

/-- An instruction of the machine. Each operand has a kind, as which it is read, and a field, into
which it is placed. -/
structure Instruction where
  symbol : Text
  description : String
  pseudocode : String
  base : Int
  operands : List (OperandKind × Field)
  deriving DecidableEq, Repr

namespace Instruction

/-- The instruction of separate lists of kinds and fields, which must be of one length. -/
def ofLists (symbol : Text) (description pseudocode : String) (base : Int)
    (kinds : List OperandKind) (fields : List Field) : Except Cause Instruction :=
  if kinds.length = fields.length then .ok ⟨symbol, description, pseudocode, base, kinds.zip fields⟩
  else .error (.unpairedFields symbol kinds.length fields.length)

def kinds (i : Instruction) : List OperandKind := i.operands.map Prod.fst

def fields (i : Instruction) : List Field := i.operands.map Prod.snd

def usesOffset (i : Instruction) : Bool := i.kinds.contains .offset

/-- The number of operands that are written, where an offset token is one for two. -/
def tokenCount (i : Instruction) : Nat :=
  if i.usesOffset then i.kinds.length - 1 else i.kinds.length

/-- The bits that operands add to a word. Fields and operands are paired as far as both reach. -/
def placed : List Field → List Operand → Except Fault Nat
  | field :: fields, operand :: operands =>
    match operand.value? with
    | none => .error .textInWord
    | some value => return field.embed value ||| (← placed fields operands)
  | _, _ => .ok 0

/-- The machine word of an instruction with operands: every operand in its field, on top of the
pattern. -/
def word (i : Instruction) (operands : List Operand) : Except Fault Nat :=
  return (i.base % 0x100000000).toNat ||| (← placed i.fields operands)

def note (i : Instruction) : String := i.description ++ ": " ++ i.pseudocode

def summary (i : Instruction) : String :=
  "Instruction(" ++ String.ofList i.symbol ++ ", " ++ String.ofList (Text.markedHex 10 i.base) ++
    ")"

end Instruction
end Mips64
