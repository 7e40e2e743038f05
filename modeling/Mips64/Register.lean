import Mips64.Failure
import Mips64.Text.Uppercase

/-! Registers as they are written: `$` and a name of the bank, or `$` and a number up to 31. -/
namespace Mips64.Register

def bankSize : Nat := 32

/-- The number that digits of any script denote. -/
def decimalNumber (digits : Text) : Except Fault Nat :=
  if Text.maxDecimalDigits < digits.length then .error .longDecimal
  else match digits.mapM Text.decimalValue? with
    | none => .error .nonDecimalDigit
    | some values => .ok (values.foldl (fun n d => n * 10 + d) 0)

/-- The index that a written register stands for. Names win over numbers, and the case of letters
and the blanks around the token do not matter. -/
def read (bank : Bank) (token : Text) : Except Failure Nat :=
  let written := Text.upper (Text.strip token)
  let unknown : Except Failure Nat := .error (.cause (.unknownRegister bank written))
  match written with
  | '$' :: name =>
    match bank.names.lookup name with
    | some index => .ok index
    | none =>
      if !name.isEmpty && name.all Text.isDigit then
        match decimalNumber name with
        | .error fault => .error (.fault fault)
        | .ok index => if index < bankSize then .ok index else unknown
      else unknown
  | _ => unknown

example : read .general " $sp ".toList = .ok 29 := by rfl
example : read .general "$031".toList = .ok 31 := by rfl
example : read .control "$32".toList =
    .error (.cause (.unknownRegister .control "$32".toList)) := by rfl

end Mips64.Register
