import Mips64.Failure
import Mips64.Symbols
import Mips64.Text.Uppercase

/-! Numbers, addresses and branch distances as operands. -/
namespace Mips64.Operand

/-- The register of the upper half of an address, by name. -/
def baseName : Text := "BASE".toList

/-- The value of a token in capitals: the base register by name, a hexadecimal or binary literal
with its mark, or a decimal literal. A mark with nothing after it is no mark. -/
def literal (symbols : Symbols) (token : Text) : Except Failure Int :=
  if token = baseName then .ok symbols.base
  else match token with
    | [] => .error (.cause (.invalidNumber .empty))
    | '0' :: 'X' :: d :: ds =>
      if Text.isHexDigits (d :: ds) then .ok (Text.ofDigits 16 (d :: ds))
      else .error (.cause (.invalidNumber (.hexadecimal token)))
    | '0' :: 'B' :: d :: ds =>
      if Text.isBinDigits (d :: ds) then .ok (Text.ofDigits 2 (d :: ds))
      else .error (.cause (.invalidNumber (.binary token)))
    | _ =>
      if !Text.isDecLiteral token then .error (.cause (.invalidNumber (.decimal token)))
      else if Text.maxDecimalDigits < (Text.unsigned token).length then .error (.fault .longDecimal)
      else .ok (Text.ofDecLiteral token)

/-- The value of a token, whatever its case and the blanks around it. -/
def number (symbols : Symbols) (token : Text) : Except Failure Int :=
  literal symbols (Text.upper (Text.strip token))

/-- The address of a label, or else the value of a literal. -/
def address (symbols : Symbols) (token : Text) : Except Failure Int :=
  let name := Text.upper (Text.strip token)
  match symbols.label? name with
  | some a => .ok a
  | none => number symbols name

/-- A letter of the ASCII range or an underscore. -/
def startsName (c : Char) : Bool := c.isAlpha || c == '_'

/-- Whether a token has the shape of a label: a letter or an underscore, then letters, digits,
underscores and dots, with or without a dot before it all. -/
def isName (token : Text) : Bool :=
  let body := match token with
    | '.' :: rest => rest
    | _ => token
  match body with
  | [] => false
  | c :: cs => startsName c && cs.all (fun d => startsName d || d.isDigit || d == '.')

/-- The value of a token that may be a label. A token of a label's shape that is no number is
reported as a label that was not found. -/
def value (symbols : Symbols) (token : Text) : Except Failure Int :=
  match address symbols token with
  | .error (.cause (.invalidNumber flaw)) =>
    if isName (Text.strip token) then .error (.cause (.unresolvedLabel flaw))
    else .error (.cause (.invalidNumber flaw))
  | result => result

/-- The distance in words from an address to the target that a token names, in 16 bits. -/
def displacement (symbols : Symbols) (here : Nat) (token : Text) : Except Failure Int :=
  if (Text.strip token).isEmpty then .error (.cause .emptyBranchTarget)
  else match address symbols token with
    | .ok target => .ok ((target - here) / 4 % 0x10000)
    | .error (.cause (.invalidNumber flaw)) => .error (.cause (.unresolvedLabel flaw))
    | .error failure => .error failure

example : number Symbols.empty " 0xfF ".toList = .ok 255 := by rfl
example : number Symbols.empty "0x".toList =
    .error (.cause (.invalidNumber (.decimal "0X".toList))) := by rfl
example : value Symbols.empty ".loop".toList =
    .error (.cause (.unresolvedLabel (.decimal ".LOOP".toList))) := by rfl
example : displacement Symbols.empty 8 "4".toList = .ok 0xFFFF := by rfl

end Mips64.Operand
