import Mips64.Text.Blank
import Mips64.Text.Uppercase

/-! The parts of a source line: the comment that ends it, the label before a statement, and the
mnemonic and operands of the statement. -/
namespace Mips64.Line

/-- Whether a text starts with a comment mark: a semicolon, a hash or two slashes. -/
def startsWithComment : Text → Bool
  | ';' :: _ => true
  | '#' :: _ => true
  | '/' :: '/' :: _ => true
  | _ => false

/-- The text up to the first comment mark outside quotes, where `quoted` says whether it starts
inside them. Every quote character opens or closes. -/
def withoutCommentFrom : (quoted : Bool) → Text → Text
  | _, [] => []
  | quoted, c :: rest =>
    if c = '"' then c :: withoutCommentFrom (!quoted) rest
    else if !quoted && startsWithComment (c :: rest) then []
    else c :: withoutCommentFrom quoted rest

def withoutComment (line : Text) : Text := withoutCommentFrom false line

/-- The form in which a line is assembled: without comment, without blanks at its ends, in
capitals. -/
def normalize (line : Text) : Text := Text.upper (Text.strip (withoutComment line))

/-- The label that a line declares and what follows it. A label is a first word that ends with a
colon and has more to it than the colon. -/
def declaration (line : Text) : Option Text × Text :=
  let (word, rest) := Text.splitWord line
  if 2 ≤ word.length ∧ word.getLast? = some ':' then (some word.dropLast, Text.strip rest)
  else (none, line)

/-- A mnemonic in capitals and its operands. -/
structure Statement where
  mnemonic : Text
  operands : List Text
  deriving DecidableEq, Repr

/-- The statement of a line: commas part the operands, and blanks in them do not count. -/
def statement (line : Text) : Statement :=
  let (word, rest) := Text.splitWord (Text.strip line)
  let written := rest.filter (fun c => !Text.isBlank c)
  ⟨Text.upper word, if written.isEmpty then [] else written.splitOn ','⟩

/-- Whether a label is the child of a global label. -/
def isChild : Text → Bool
  | '.' :: _ => true
  | _ => false

example : withoutComment "x \"a;b\" ; c".toList = "x \"a;b\" ".toList := by decide
example : withoutComment "a / / b // c".toList = "a / / b ".toList := by decide
example : declaration "LOOP: NOP ".toList = (some "LOOP".toList, "NOP".toList) := by decide
example : declaration ": NOP".toList = (none, ": NOP".toList) := by decide
example : statement "lw $t0, 4 ( $sp )".toList =
    ⟨"LW".toList, ["$t0".toList, "4($sp)".toList]⟩ := by decide
example : statement "add a,".toList = ⟨"ADD".toList, ["a".toList, []]⟩ := by decide

end Mips64.Line
