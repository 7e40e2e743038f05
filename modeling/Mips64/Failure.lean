import Mips64.FileSystem.Refusal
import Mips64.Program.Format
import Mips64.Register.Bank
import Mips64.Text.Numeral

/-! Everything that can go wrong. A cause is a mistake in the source, reported in words and with the
line it was found on; a fault is an input that the tables or the machine representation cannot
carry, and has neither words nor line. -/
namespace Mips64

inductive Kind
  | severe
  | unknownMnemonic
  | unknownDirective
  | unknownMacro
  | wrongArgumentCount
  | wrongInstructionArity
  | wrongMacroArity
  | wrongDirectiveArity
  | unknownRegister
  | invalidNumberLiteral
  | unresolvedLabel
  | unscopedChildLabel
  | duplicateLabel
  | duplicateMacro
  | malformedOffset
  | expectedString
  | unterminatedString
  | macroRecursion
  | inclusion
  deriving DecidableEq, Repr

/-- A family and the wider families that contain it, up to the widest. -/
def Kind.lineage : Kind → List Kind
  | .severe => [.severe]
  | .wrongInstructionArity => [.wrongInstructionArity, .wrongArgumentCount, .severe]
  | .wrongMacroArity => [.wrongMacroArity, .wrongArgumentCount, .severe]
  | .wrongDirectiveArity => [.wrongDirectiveArity, .wrongArgumentCount, .severe]
  | kind => [kind, .severe]

inductive NumberFlaw
  | empty
  | hexadecimal (token : Text)
  | binary (token : Text)
  | decimal (token : Text)
  deriving DecidableEq, Repr

/-- A mistake in the source, or a file that cannot be read or written. -/
inductive Cause
  | stated (kind : Kind) (words : Option String)
  | unknownInstruction (mnemonic : Text)
  | unknownStatement (line mnemonic : Text)
  | unknownBracket (name : Text)
  | unknownBang (word : Text)
  | unknownMacro (mnemonic : Text)
  | instructionArity (symbol : Text) (needed given : Nat)
  | macroArity (symbol : Text) (description : String) (needed : Int) (given : Nat)
  | directiveArity (name : Text) (needed given : Nat)
  | unknownRegister (bank : Register.Bank) (token : Text)
  | invalidNumber (flaw : NumberFlaw)
  | unresolvedLabel (flaw : NumberFlaw)
  | emptyBranchTarget
  | unscopedChild (name : Text)
  | duplicateLabel (name : Text)
  | duplicateDefinition (name : Text)
  | malformedOffset (token : Text)
  | expectedString (token : Text)
  | unterminatedString (token : Text)
  | noOperandList
  | macroDepth (mnemonic : Text) (limit : Nat)
  | includeWithoutPath
  | includesItself (path : Text)
  | fileMissing (path : Text)
  | fileRefused (path : Text) (reason : FileSystem.Refusal)
  | writeRefused (what : Program.Artifact) (path : Text) (reason : FileSystem.Refusal)
  | wordOutOfRange (word : Int)
  | instructionTwice (symbol : Text)
  | macroTwice (symbol : Text)
  | unpairedFields (symbol : Text) (kinds fields : Nat)
  | passesDisagree (emitted counted : Nat)
  deriving DecidableEq, Repr

/-- An input outside what the tables or the machine representation can carry. -/
inductive Fault
  | longDecimal
  | nonDecimalDigit
  | templateBrace
  | templateNumbering
  | templateField
  | placeholderOutOfRange
  | namedPlaceholder
  | placeholderPart
  | placeholderKey
  | operandOutOfRange
  | textInWord
  | undecodable
  | wordOutOfRange
  | pathWithNul
  | withoutValue
  deriving DecidableEq, Repr

namespace Cause

def kind : Cause → Kind
  | stated kind _ => kind
  | unknownInstruction _ | unknownStatement _ _ => .unknownMnemonic
  | unknownBracket _ | unknownBang _ => .unknownDirective
  | unknownMacro _ => .unknownMacro
  | instructionArity _ _ _ => .wrongInstructionArity
  | macroArity _ _ _ _ => .wrongMacroArity
  | directiveArity _ _ _ => .wrongDirectiveArity
  | unknownRegister _ _ => .unknownRegister
  | invalidNumber _ => .invalidNumberLiteral
  | unresolvedLabel _ | emptyBranchTarget => .unresolvedLabel
  | unscopedChild _ => .unscopedChildLabel
  | duplicateLabel _ => .duplicateLabel
  | duplicateDefinition _ => .duplicateMacro
  | malformedOffset _ => .malformedOffset
  | expectedString _ => .expectedString
  | unterminatedString _ => .unterminatedString
  | macroDepth _ _ => .macroRecursion
  | includeWithoutPath | includesItself _ | fileMissing _ | fileRefused _ _ => .inclusion
  | noOperandList | writeRefused _ _ _ | wordOutOfRange _ | instructionTwice _ | macroTwice _
  | unpairedFields _ _ _ | passesDisagree _ _ => .severe

end Cause

def cite (t : Text) : String := "\"" ++ String.ofList t ++ "\""

/-- A text between single quotes, as reports cite names. -/
def citeName (t : Text) : String := "'" ++ String.ofList t ++ "'"

def NumberFlaw.message : NumberFlaw → String
  | .empty => "Number cannot be empty!"
  | .hexadecimal token => cite token ++ " is not a valid Hex Number."
  | .binary token => cite token ++ " is not a valid Binary Number."
  | .decimal token => cite token ++ " is not a valid Integer Number."

/-- The hint that follows where a number may have been meant as a label. -/
def labelHint : String := "(Perhaps you referenced a Label that doesn't exist?)"

namespace Cause

def words? : Cause → Option String
  | stated _ words => words
  | unknownInstruction m => some ("Unknown instruction " ++ cite m ++ ".")
  | unknownStatement line m =>
    some ("Failed to parse " ++ cite line ++ ": unknown mnemonic " ++ cite m ++ ".")
  | unknownBracket name => some (cite name ++ " is not a valid Pre-Processor directive.")
  | unknownBang word => some (cite word ++ " is not a valid directive.")
  | unknownMacro m => some ("Unknown macro " ++ cite m ++ ".")
  | instructionArity symbol needed given =>
    some ("Instruction " ++ cite symbol ++ " needs " ++ toString needed ++ " arguments, got " ++
      toString given ++ ".")
  | macroArity symbol description needed given =>
    some ("Macro " ++ cite symbol ++ " (" ++ description ++ ") needs " ++ toString needed ++
      " arguments, got " ++ toString given ++ ".")
  | directiveArity name needed given =>
    some ("The Pre-Processor directive " ++ cite name ++ " requires " ++ toString needed ++
      " arguments, got " ++ toString given ++ ".")
  | unknownRegister bank token =>
    some ("Expected " ++ bank.title ++ " register, got " ++ cite token ++ " instead.")
  | invalidNumber flaw => some flaw.message
  | unresolvedLabel flaw => some (flaw.message ++ " " ++ labelHint)
  | emptyBranchTarget => some "Branch Target cannot be empty!"
  | unscopedChild name =>
    some ("Child label " ++ citeName name ++ " declared without a preceding global label")
  | duplicateLabel name => some ("Label " ++ citeName name ++ " already exists")
  | duplicateDefinition name => some ("Macro " ++ citeName name ++ " already defined")
  | malformedOffset token => some ("Can't parse offset " ++ cite token ++ ".")
  | expectedString token =>
    some ("String expected, but " ++ cite token ++ " does not start with quotes.")
  | unterminatedString token =>
    some ("String starting with " ++ String.ofList token ++ " is never closed.")
  | noOperandList => some "No operand list supplied, impossible to parse a String."
  | macroDepth m limit =>
    some ("Macro " ++ cite m ++ " nests deeper than " ++ toString limit ++ " levels.")
  | includeWithoutPath => some "!INCLUDE needs a quoted file path."
  | includesItself path => some ("File " ++ cite path ++ " includes itself.")
  | fileMissing path => some ("The file " ++ cite path ++ " doesn't exist.")
  | fileRefused path reason =>
    some ("Error reading " ++ cite path ++ ": " ++ reason.message path)
  | writeRefused what path reason =>
    some ("Failed to write " ++ what.title ++ " file: " ++ reason.message path)
  | wordOutOfRange word =>
    some ("Machine word out of range: " ++ String.ofList (Text.markedHex 0 word))
  | instructionTwice symbol => some ("Instruction " ++ cite symbol ++ " is defined twice.")
  | macroTwice symbol => some ("Macro " ++ cite symbol ++ " is defined twice.")
  | unpairedFields symbol kinds fields =>
    some ("Instruction " ++ cite symbol ++ " has " ++ toString kinds ++ " kinds for " ++
      toString fields ++ " fields.")
  | passesDisagree emitted counted =>
    some ("Pass 2 emitted " ++ toString emitted ++ " words, pass 1 counted " ++ toString counted)

def message (c : Cause) : String := c.words?.getD "None"

end Cause

/-- Either of the two ways in which work stops. -/
inductive Failure
  | cause (c : Cause)
  | fault (f : Fault)
  deriving DecidableEq, Repr

structure Place where
  number : Int
  line : Text
  deriving DecidableEq, Repr

/-- A failure and, for a cause, the line it was found on. -/
structure Report where
  failure : Failure
  place : Option Place
  deriving DecidableEq, Repr

namespace Report

def unplaced (failure : Failure) : Report := ⟨failure, none⟩

/-- Attaches a line to a cause. The first line attached stays, and a fault takes none. -/
def attach (r : Report) (place : Place) : Report :=
  match r.failure, r.place with
  | .cause _, none => { r with place := some place }
  | _, _ => r

def text (c : Cause) : Option Place → String
  | none => c.message
  | some place =>
    c.message ++ " (line " ++ toString place.number ++ ": " ++
      String.ofList (Text.strip place.line) ++ ")"

@[simp] theorem attach_failure (r : Report) (p : Place) : (r.attach p).failure = r.failure := by
  unfold attach
  split <;> rfl

@[simp] theorem attach_attach (r : Report) (p q : Place) :
    (r.attach p).attach q = r.attach p := by
  obtain ⟨failure, place⟩ := r
  cases failure <;> cases place <;> rfl

end Report

/-- Succeeds where the condition holds; otherwise fails in the words given. -/
def ensure (condition : Bool) (kind : Kind) (words : Option String) : Except Cause Unit :=
  if condition then .ok () else .error (.stated kind words)

end Mips64
