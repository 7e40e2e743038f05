import Mips64.Program.Format
import Mips64.Text.Digit
import Mips64.Text.Quoted

/-! The command line: options by a letter or a word, which may be shortened, and the two files. -/
namespace Mips64.CommandLine

inductive Flag
  | help
  | format
  | listing
  | debug
  deriving DecidableEq, Repr

namespace Flag

def all : List Flag := [help, format, listing, debug]

def letter : Flag → Char
  | help => 'h'
  | format => 'f'
  | listing => 'l'
  | debug => 'd'

def word : Flag → String
  | help => "help"
  | format => "format"
  | listing => "listing"
  | debug => "debug"

def takesValue : Flag → Bool
  | format | listing => true
  | help | debug => false

def ofLetter? (c : Char) : Option Flag := all.find? (fun f => f.letter == c)

def longForm (f : Flag) : Text := '-' :: '-' :: f.word.toList

def title (f : Flag) : String := String.ofList ['-', f.letter] ++ "/--" ++ f.word

end Flag

inductive Misuse
  | ambiguous (argument : Text) (candidates : List Flag)
  | needsValue (flag : Flag)
  | ignoresValue (flag : Flag) (value : Text)
  | noFormat (value : Text)
  | missing (names : List String)
  | unrecognized (arguments : List Text)
  deriving DecidableEq, Repr

def Misuse.message : Misuse → String
  | ambiguous argument candidates =>
    "ambiguous option: " ++ String.ofList argument ++ " could match " ++
      ", ".intercalate (candidates.map (fun f => String.ofList f.longForm))
  | needsValue flag => "argument " ++ flag.title ++ ": expected one argument"
  | ignoresValue flag value =>
    "argument " ++ flag.title ++ ": ignored explicit argument " ++
      String.ofList (Text.quoted value)
  | noFormat value =>
    "argument " ++ Flag.format.title ++ ": invalid choice: " ++
      String.ofList (Text.quoted value) ++ " (choose from " ++
      ", ".intercalate
        (Program.Format.all.map (fun f => String.ofList (Text.quoted f.name.toList))) ++ ")"
  | missing names => "the following arguments are required: " ++ ", ".intercalate names
  | unrecognized arguments =>
    "unrecognized arguments: " ++ String.ofList (Text.joinWith ' ' arguments)

/-- What an argument is taken for. A group of letters is given by its first option and the
characters attached to it, a single option by the value attached to it, if there is one. -/
inductive Role
  | operand
  | letters (flag : Flag) (tail : Text)
  | single (flag : Flag) (value : Option Text)
  | unknown
  deriving DecidableEq, Repr

/-- Whether a text is a number behind a dash, with or without a point, up to a last line feed. -/
def isNegativeNumber : Text → Bool
  | '-' :: written =>
    let body := if written.getLast? = some '\n' then written.dropLast else written
    let isDecimal (c : Char) : Bool := (Text.decimalValue? c).isSome
    let after := body.dropWhile isDecimal
    match after with
    | [] => !body.isEmpty
    | '.' :: fraction => !fraction.isEmpty && fraction.all isDecimal
    | _ => false
  | _ => false

/-- The part before the first equals sign, and the part after it if there is one. -/
def splitEquals (argument : Text) : Text × Option Text :=
  let name := argument.takeWhile (· != '=')
  match argument.dropWhile (· != '=') with
  | [] => (name, none)
  | _ :: value => (name, some value)

/-- The role of an argument that names no option: numbers and arguments with spaces are operands. -/
def unnamedRole (argument : Text) : Role :=
  if isNegativeNumber argument || argument.contains ' ' then .operand else .unknown

/-- The role of an argument. The word of an option may be shortened as long as one option fits. An
equals sign right behind the first letter only parts it from what is attached to it. -/
def classify (argument : Text) : Except Misuse Role :=
  match argument with
  | '-' :: '-' :: _ =>
    let (name, value) := splitEquals argument
    match Flag.all.filter (fun f => name.isPrefixOf f.longForm) with
    | [] => .ok (unnamedRole argument)
    | [flag] => .ok (.single flag value)
    | flags => .error (.ambiguous argument flags)
  | '-' :: letter :: tail =>
    match Flag.ofLetter? letter with
    | some flag =>
      match tail with
      | ['='] => .ok (.single flag (some []))
      | '=' :: attached => .ok (.letters flag attached)
      | attached => .ok (.letters flag attached)
    | none => .ok (unnamedRole argument)
  | _ => .ok .operand

/-- Options in the order in which they take effect, and whether the next argument is the value of
the last. -/
structure Group where
  settings : List (Flag × Text)
  takesNext : Bool
  deriving DecidableEq, Repr

/-- An option without a value attached: one that needs a value takes the next argument. -/
def Group.bare (flag : Flag) (next : Option Text) : Except Misuse Group :=
  if flag.takesValue then
    match next with
    | some value => .ok ⟨[(flag, value)], true⟩
    | none => .error (.needsValue flag)
  else .ok ⟨[(flag, [])], false⟩

/-- The options of a group of letters. What is attached to an option that takes no value has to be
further options; attached to one that takes a value, it is the value. -/
def Group.ofLetters (next : Option Text) : Flag → Text → Except Misuse Group
  | flag, [] => Group.bare flag next
  | flag, c :: tail =>
    if flag.takesValue then .ok ⟨[(flag, c :: tail)], false⟩
    else match Flag.ofLetter? c with
      | none => .error (.ignoresValue flag (c :: tail))
      | some following => do
        let group ← Group.ofLetters next following tail
        return { group with settings := (flag, []) :: group.settings }

/-- A single option with the value attached to it, if there is one. -/
def Group.single (next : Option Text) (flag : Flag) : Option Text → Except Misuse Group
  | none => Group.bare flag next
  | some value =>
    if flag.takesValue then .ok ⟨[(flag, value)], false⟩
    else .error (.ignoresValue flag value)

/-- What the command line has settled so far. Operands and the format may be given without a
value. -/
structure Settings where
  operands : List (Option Text)
  extras : List Text
  format : Option Program.Format
  listing : Option Text
  debug : Bool
  deriving DecidableEq, Repr

/-- Why the work ends with the command line. -/
inductive Ending
  | help
  | misuse (m : Misuse)
  deriving DecidableEq, Repr

def endMark : Text := ['-', '-']

def operandNames : List String := ["in_file", "out_file"]

namespace Settings

def initial : Settings := ⟨[], [], some .raw, none, false⟩

def wantsOperand (s : Settings) : Bool := s.operands.length < operandNames.length

/-- Takes an operand with its value, or puts the argument aside if none is asked for. -/
def operand (s : Settings) (argument : Text) (value : Option Text) : Settings :=
  if s.wantsOperand then { s with operands := s.operands ++ [value] }
  else { s with extras := s.extras ++ [argument] }

/-- Applies an option. The mark that ends the options is no value: attached to an option, it leaves
the option without one. -/
def set (s : Settings) : Flag × Text → Except Ending Settings
  | (.help, _) => .error .help
  | (.debug, _) => .ok { s with debug := true }
  | (.listing, path) => .ok { s with listing := if path = endMark then none else some path }
  | (.format, name) =>
    if name = endMark then .ok { s with format := none }
    else match Program.Format.ofName? (String.ofList name) with
      | some format => .ok { s with format := some format }
      | none => .error (.misuse (.noFormat name))

def apply (s : Settings) (group : Group) : Except Ending Settings :=
  group.settings.foldlM set s

end Settings

/-- The arguments before the mark that ends the options with their roles, and those from the mark
on. -/
def classifyAll : List Text → Except Misuse (List (Text × Role) × List Text)
  | [] => .ok ([], [])
  | argument :: rest =>
    if argument = endMark then .ok ([], argument :: rest)
    else do
      let role ← classify argument
      let (roles, marked) ← classifyAll rest
      return ((argument, role) :: roles, marked)

/-- The operand at the front of the arguments, as the value of an option before it. -/
def nextValue : List (Text × Role) → Option Text
  | (argument, .operand) :: _ => some argument
  | _ => none

/-- The options that an argument in a role gives; an argument that is no option gives none. -/
def groupOf (rest : List (Text × Role)) : Role → Except Misuse (Option Group)
  | .operand | .unknown => .ok none
  | .letters flag tail => (Group.ofLetters (nextValue rest) flag tail).map some
  | .single flag value => (Group.single (nextValue rest) flag value).map some

/-- Settles the arguments before the mark, leaving out the first where it has been taken as the
value of an option. The flag `last` says whether the argument before was taken as an operand, and is
empty if that was none. -/
def settle : (taken : Bool) → (last : Option Bool) → List (Text × Role) → Settings →
    Except Ending (Settings × Option Bool)
  | _, last, [], s => .ok (s, last)
  | true, _, _ :: rest, s => settle false none rest s
  | false, _, (argument, role) :: rest, s =>
    match groupOf rest role with
    | .error m => .error (.misuse m)
    | .ok (some group) => do
      let applied ← s.apply group
      settle group.takesNext none rest applied
    | .ok none =>
      if role = .operand then
        settle false (some s.wantsOperand) rest (s.operand argument (some argument))
      else settle false none rest { s with extras := s.extras ++ [argument] }

/-- Settles the mark and the arguments after it, which are operands whatever they look like. The
mark goes with an operand beside it. A further mark is an operand without a value, unless it stands
right behind the first one and no operand before it. -/
def settleMarked (last : Option Bool) : List Text → Settings → Settings
  | [], s => s
  | mark :: rest, s =>
    let taken := last.getD s.wantsOperand
    let marked := if taken then s else { s with extras := s.extras ++ [mark] }
    let valueOf (first : Bool) (argument : Text) : Option Text :=
      if argument = endMark ∧ !(first && last.isNone) then none else some argument
    match rest with
    | [] => marked
    | argument :: more =>
      more.foldl (fun s a => s.operand a (valueOf false a))
        (marked.operand argument (valueOf true argument))

structure Arguments where
  input : Option Text
  output : Option Text
  format : Option Program.Format
  listing : Option Text
  debug : Bool
  deriving DecidableEq, Repr

/-- Reads a command line. All arguments are classified before any takes effect. -/
def parse (arguments : List Text) : Except Ending Arguments := do
  let (roles, marked) ← (classifyAll arguments).mapError .misuse
  let (settled, last) ← settle false none roles .initial
  let s := settleMarked last marked settled
  match s.operands with
  | [input, output] =>
    if s.extras.isEmpty then return ⟨input, output, s.format, s.listing, s.debug⟩
    else .error (.misuse (.unrecognized s.extras))
  | given => .error (.misuse (.missing (operandNames.drop given.length)))

end Mips64.CommandLine
