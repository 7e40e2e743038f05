import Mips64.Operand.Basic
import Mips64.Operand.Number
import Mips64.Operand.Offset
import Mips64.Operand.Quotation
import Mips64.Register

/-! Operands read as the kind that is asked for. A token that a definition names is replaced by its
text, and the text is then read as it stands. -/
namespace Mips64.Operand

/-- The definition that a token names. -/
def replacement? (symbols : Symbols) (token : Text) : Option Text :=
  symbols.definition? (Text.upper (Text.strip token))

/-- The text that stands for a token. -/
def substitute (symbols : Symbols) (token : Text) : Text :=
  (replacement? symbols token).getD token

def lowBits (bits : Nat) (value : Int) : Operand := .immediate (value % Nat.pow 2 bits) bits

/-- The token as an operand of a kind, without replacement; `here` is the address that branch
distances are counted from. The immediate inside an offset token is a token of its own, and is
replaced where a definition names it. -/
def readPlain (symbols : Symbols) (here : Nat) (kind : OperandKind) (token : Text)
    (operands : Option (List Text)) (position : Nat) : Except Failure Operand :=
  match kind with
  | .general | .base => return .register (← Register.read .general token)
  | .control => return .register (← Register.read .control token)
  | .number16 => return lowBits 16 (← value symbols token)
  | .number24 => return lowBits 24 (← value symbols token)
  | .number5 => return lowBits 5 (← value symbols token)
  | .branch => return .immediate (← displacement symbols here token) 16
  | .offset => do
    let (imm, _) ← offsetParts token
    return lowBits 16 (← value symbols (substitute symbols imm))
  | .word => return .text (Text.strip token)
  | .string => return .text (← stringAt operands position)
  | .rest => return .text (← restAt operands position)

/-- The token as an operand of a kind, after replacement. The replaced token is replaced in the
operand list as well. -/
def read (symbols : Symbols) (here : Nat) (kind : OperandKind) (token : Text)
    (operands : Option (List Text)) (position : Nat) : Except Failure Operand :=
  match replacement? symbols token with
  | none => readPlain symbols here kind token operands position
  | some written =>
    match operands with
    | none => readPlain symbols here kind written none position
    | some list =>
      if position < list.length then
        readPlain symbols here kind written (some (list.set position written)) position
      else .error (.fault .operandOutOfRange)

end Mips64.Operand
