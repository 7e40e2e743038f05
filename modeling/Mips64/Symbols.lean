import Mips64.Text.Blank

/-! The names of one assembly run. Labels, child labels and definitions stay in the order of their
declaration. -/
namespace Mips64

/-- What operands are read against: the names declared so far, the global label whose children are
in scope, and the base register. -/
structure Symbols where
  labels : List (Text × Int)
  children : List ((Text × Text) × Int)
  definitions : List (Text × Text)
  scope : Text
  base : Int
  deriving DecidableEq, Repr

namespace Symbols

def empty : Symbols := ⟨[], [], [], [], 0⟩

/-- The address of a label. A name that starts with a dot is looked up among the children of the
label in scope. -/
def label? (s : Symbols) : Text → Option Int
  | [] => none
  | '.' :: name =>
    if s.scope.isEmpty then none else s.children.lookup (s.scope, '.' :: name)
  | name => s.labels.lookup name

def definition? (s : Symbols) (name : Text) : Option Text := s.definitions.lookup name

end Symbols

end Mips64
