import Mips64.Failure

/-! Operands that span tokens: a quoted string, and the rest of a line. -/
namespace Mips64.Operand

/-- The tokens up to the first that ends with a quote, that one included. -/
def throughQuote : List Text → Option (List Text)
  | [] => none
  | token :: rest =>
    if token.getLast? = some '"' then some [token] else (throughQuote rest).map (token :: ·)

/-- The string that opens a list of tokens. The tokens it spans are joined by single spaces and its
two quotes are dropped; the opening quote does not close it. -/
def leadingString : List Text → Except Failure Text
  | [] => .error (.fault .operandOutOfRange)
  | ('"' :: body) :: rest =>
    match throughQuote (body :: rest) with
    | some tokens => .ok (Text.joinWith ' ' tokens).dropLast
    | none => .error (.cause (.unterminatedString ('"' :: body)))
  | token :: _ => .error (.cause (.expectedString token))

/-- The string that starts at a position of the operand list. -/
def stringAt : Option (List Text) → Nat → Except Failure Text
  | none, _ => .error (.cause .noOperandList)
  | some operands, position => leadingString (operands.drop position)

/-- All that is written from a position of the operand list on. -/
def restAt : Option (List Text) → Nat → Except Failure Text
  | none, _ => .error (.cause .noOperandList)
  | some operands, position => .ok (Text.strip (Text.joinWith ' ' (operands.drop position)))

example : leadingString ["\"a".toList, "b\"".toList, "c".toList] = .ok "a b".toList := by rfl
example : leadingString ["\"".toList] =
    .error (.cause (.unterminatedString "\"".toList)) := by rfl

end Mips64.Operand
