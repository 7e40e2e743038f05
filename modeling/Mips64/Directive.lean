import Mips64.Line
import Mips64.Operand.Reading
import Mips64.Store

/-! Directives, written between brackets. One sets the base register, the other defines a name as a
text. -/
namespace Mips64.Directive

/-- Whether a line is a directive. -/
def isBracketed (line : Text) : Bool :=
  let t := Text.strip line
  2 ≤ t.length && t.head? == some '[' && t.getLast? == some ']'

/-- The name of a directive in capitals and its arguments, which commas and blanks part. -/
def parts (line : Text) : Text × List Text :=
  let inner := (Text.strip line).tail.dropLast.map (fun c => if c = ',' then ' ' else c)
  match Text.words inner with
  | [] => ([], [])
  | name :: arguments => (Text.upper name, arguments)

inductive Name
  | base
  | define
  deriving DecidableEq, Repr

def Name.ofText? (name : Text) : Option Name :=
  if name = "BASE".toList then some .base
  else if name = "DEFINE".toList then some .define
  else none

/-- Sets the base register to the value of a token, which is read like any number. -/
def applyBase (store : Store) (token : Text) : Except Failure Store := do
  let symbols := store.toSymbols
  let value ← Operand.value symbols (Operand.substitute symbols token)
  let set := store.withBase value
  return set.note (.base set.base)

/-- Defines a name as the tokens after it, joined by single spaces. Neither is replaced. -/
def applyDefine (store : Store) (name : Text) (tokens : List Text) : Except Failure Store :=
  (store.define (Text.upper (Text.strip name)) (Text.strip (Text.joinWith ' ' tokens))).mapError
    .cause

/-- What a directive asks for: a base, or a name for some tokens. -/
inductive Request
  | base (token : Text)
  | define (name : Text) (tokens : List Text)
  deriving DecidableEq

def request (line : Text) : Except Failure Request :=
  let (word, arguments) := parts line
  match Name.ofText? word with
  | none => .error (.cause (.unknownBracket word))
  | some .base =>
    match arguments with
    | [token] => .ok (.base token)
    | _ => .error (.cause (.directiveArity word 1 arguments.length))
  | some .define =>
    match arguments with
    | name :: token :: more => .ok (.define name (token :: more))
    | _ => .error (.cause (.directiveArity word 2 arguments.length))

def Request.apply (store : Store) : Request → Except Failure Store
  | .base token => applyBase store token
  | .define name tokens => applyDefine store name tokens

/-- Runs the directive that a line holds. It is read before the store is looked at. -/
def run (store : Store) (line : Text) : Except Failure Store :=
  request line >>= Request.apply store

example : isBracketed " [BASE 1] ".toList = true ∧ isBracketed "[".toList = false := by decide
example : parts "[define foo,bar  baz]".toList =
    ("DEFINE".toList, ["foo".toList, "bar".toList, "baz".toList]) := by decide

end Mips64.Directive
