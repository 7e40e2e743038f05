import Mips64.Directive
import Mips64.Encoding

/-! Sessions: a store worked on by one operation after another. An operation looks at the store and
changes it step by step, and one that fails is answered with its failure and leaves the store as it
is by then to the next. -/
namespace Mips64.Session

inductive Query
  | label (name : Text)
  | definition (name : Text)
  | substitute (token : Text)
  | operand (kind : OperandKind) (token : Text) (written : Option (List Text)) (position : Nat)
  | plainOperand (kind : OperandKind) (token : Text) (written : Option (List Text))
      (position : Nat)
  | number (token : Text)
  | address (token : Text)
  | value (token : Text)
  | displacement (token : Text)
  | isInstruction (mnemonic : Text)
  | isExpansion (mnemonic : Text)
  | instruction (mnemonic : Text)
  | expansion (mnemonic : Text)
  | operands (mnemonic : Text) (written : List Text)
  | expand (mnemonic : Text) (written : List Text)
  | count (mnemonic : Text) (depth : Int)
  deriving DecidableEq, Repr

inductive Operation
  | declareLabel (name : Text) (address : Int)
  | declareChild (name : Text) (address : Int)
  | scope (name : Text)
  | define (name text : Text)
  | base (value : Int)
  | pushWord (word : Int)
  | directive (line : Text)
  | encode (mnemonic : Text) (written : List Text)
  | query (q : Query)
  deriving DecidableEq, Repr

inductive Reply
  | done
  | flag (holds : Bool)
  | word (word : Int)
  | label (address : Option Int)
  | definition (text : Option Text)
  | text (text : Text)
  | operand (operand : Operand)
  | operands (operands : List Operand)
  | number (value : Int)
  | displacement (words : Int)
  | instruction (instruction : Instruction)
  | expansion (expansion : Macro)
  | lines (lines : List Text)
  | count (words : Nat)
  deriving DecidableEq, Repr

def answer (t : Tables) (s : Store) : Query → Except Failure Reply
  | .label name => return .label (s.label? name)
  | .definition name => return .definition (s.definition? name)
  | .substitute token => return .text (Operand.substitute s.toSymbols token)
  | .operand kind token written position =>
    (Operand.read s.toSymbols s.size kind token written position).map .operand
  | .plainOperand kind token written position =>
    (Operand.readPlain s.toSymbols s.size kind token written position).map .operand
  | .number token => (Operand.number s.toSymbols token).map .number
  | .address token => (Operand.address s.toSymbols token).map .number
  | .value token => (Operand.value s.toSymbols token).map .number
  | .displacement token => (Operand.displacement s.toSymbols s.size token).map .displacement
  | .isInstruction mnemonic => return .flag (t.instruction? mnemonic).isSome
  | .isExpansion mnemonic => return .flag (t.expansion? mnemonic).isSome
  | .instruction mnemonic => ((t.instruction mnemonic).mapError .cause).map .instruction
  | .expansion mnemonic => ((t.expansion mnemonic).mapError .cause).map .expansion
  | .operands mnemonic written => do
    let i ← (t.instruction mnemonic).mapError .cause
    (i.readOperands s.toSymbols s.size written).map .operands
  | .expand mnemonic written => do
    let m ← (t.expansion mnemonic).mapError .cause
    (m.expand written).map .lines
  | .count mnemonic depth => ((t.count mnemonic depth).mapError .cause).map .count

/-- Work on a store. Where it fails, what it has done to the store by then stays done. -/
abbrev Work := EStateM Failure Store

namespace Work

def ensure (holds : Bool) (cause : Cause) : Work Unit :=
  if holds then pure () else throw (.cause cause)

/-- Takes what the store shows. -/
def look {α : Type} (view : Store → Except Failure α) : Work α := do
  match view (← get) with
  | .ok a => pure a
  | .error failure => throw failure

def declareLabel (name : Text) (address : Int) : Work Unit := do
  ensure ((← get).labels.lookup name).isNone (.duplicateLabel name)
  modify fun s => { s with labels := s.labels ++ [(name, address)] }
  modify (·.withScope name)
  modify (·.note (.label name address))

def declareChild (name : Text) (address : Int) : Work Unit := do
  let scope := (← get).scope
  ensure (!scope.isEmpty) (.unscopedChild name)
  ensure ((← get).children.lookup (scope, name)).isNone (.duplicateLabel (scope ++ name))
  modify fun s => { s with children := s.children ++ [((scope, name), address)] }
  modify (·.note (.label (scope ++ name) address))

def define (name text : Text) : Work Unit := do
  ensure ((← get).definitions.lookup name).isNone (.duplicateDefinition name)
  modify fun s => { s with definitions := s.definitions ++ [(name, text)] }
  modify (·.note (.definition name text))

def pushWord (word : Int) : Work Unit := do
  ensure (Store.isWord word) (.wordOutOfRange word)
  modify fun s => { s with words := s.words.push word }

def fulfil : Directive.Request → Work Unit
  | .base token => do
    let value ← look fun s => Operand.value s.toSymbols (Operand.substitute s.toSymbols token)
    modify (·.withBase value)
    modify fun s => s.note (.base s.base)
  | .define name tokens =>
    define (Text.upper (Text.strip name)) (Text.strip (Text.joinWith ' ' tokens))

/-- Runs the directive of a line that is one, and says whether it was. -/
def directive (line : Text) : Work Bool := do
  if Directive.isBracketed line then
    let request ← look fun _ => Directive.request line
    fulfil request
    return true
  else return false

/-- Encodes an instruction at the next address and puts out its word. -/
def encode (t : Tables) (mnemonic : Text) (written : List Text) : Work Int := do
  let i ← look fun _ => (t.instruction mnemonic).mapError .cause
  let word ← look fun s => i.encode s.toSymbols s.size written
  modify (·.noteWord word)
  pushWord word
  return word

def perform (t : Tables) : Operation → Work Reply
  | .declareLabel name address => do declareLabel name address; return .done
  | .declareChild name address => do declareChild name address; return .done
  | .scope name => do modify (·.withScope name); return .done
  | .define name text => do define name text; return .done
  | .base value => do modify (·.withBase value); return .done
  | .pushWord word => do pushWord word; return .done
  | .directive line => do return .flag (← directive line)
  | .encode mnemonic written => do return .word (← encode t mnemonic written)
  | .query q => look fun s => answer t s q

end Work

/-- One operation of a session, answered with its reply or its failure. -/
def step (t : Tables) (s : Store) (o : Operation) : Store × Except Failure Reply :=
  match (Work.perform t o).run s with
  | .ok reply next => (next, .ok reply)
  | .error failure next => (next, .error failure)

def run (t : Tables) (s : Store) (operations : List Operation) : Store :=
  operations.foldl (fun s o => (step t s o).1) s

@[simp] theorem run_nil (t : Tables) (s : Store) : run t s [] = s := rfl

@[simp] theorem run_cons (t : Tables) (s : Store) (o : Operation) (rest : List Operation) :
    run t s (o :: rest) = run t (step t s o).1 rest := rfl

theorem run_append (t : Tables) (s : Store) (operations more : List Operation) :
    run t s (operations ++ more) = run t (run t s operations) more :=
  List.foldl_append

end Mips64.Session
