import Mips64.Failure
import Mips64.Log
import Mips64.Symbols

/-! The store of one assembly run. A name is declared once, and an operation that is refused leaves
nothing behind. -/
namespace Mips64

/-- The symbols of a run, the words it has put out and its log. -/
structure Store extends Symbols where
  words : Array Int
  log : Array Log.Record
  deriving DecidableEq, Repr

namespace Store

def empty : Store := ⟨Symbols.empty, #[], #[]⟩

/-- The size of the output in bytes, which is the address of the next word. -/
def size (s : Store) : Nat := s.words.size * 4

def note (s : Store) (r : Log.Record) : Store := { s with log := s.log.push r }

/-- Declares a global label and makes it the scope for child labels. -/
def declareLabel (s : Store) (name : Text) (address : Int) : Except Cause Store :=
  if (s.labels.lookup name).isSome then .error (.duplicateLabel name)
  else .ok ({ s with labels := s.labels ++ [(name, address)], scope := name }.note
    (.label name address))

def declareChild (s : Store) (name : Text) (address : Int) : Except Cause Store :=
  if s.scope.isEmpty then .error (.unscopedChild name)
  else if (s.children.lookup (s.scope, name)).isSome then
    .error (.duplicateLabel (s.scope ++ name))
  else .ok ({ s with children := s.children ++ [((s.scope, name), address)] }.note
    (.label (s.scope ++ name) address))

def withScope (s : Store) (name : Text) : Store := { s with scope := name }

def define (s : Store) (name text : Text) : Except Cause Store :=
  if (s.definitions.lookup name).isSome then .error (.duplicateDefinition name)
  else .ok ({ s with definitions := s.definitions ++ [(name, text)] }.note
    (.definition name text))

/-- Sets the base register to the low 16 bits of a value. -/
def withBase (s : Store) (value : Int) : Store := { s with base := value % 0x10000 }

def isWord (word : Int) : Bool := 0 ≤ word && word ≤ 0xFFFFFFFF

def pushWord (s : Store) (word : Int) : Except Cause Store :=
  if isWord word then .ok { s with words := s.words.push word }
  else .error (.wordOutOfRange word)

/-- Notes the bits of the word that is put out next. -/
def noteWord (s : Store) (word : Int) : Store := s.note (.encoded s.size (Text.bits 32 word))

@[simp] theorem note_toSymbols (s : Store) (r : Log.Record) :
    (s.note r).toSymbols = s.toSymbols := rfl

@[simp] theorem note_words (s : Store) (r : Log.Record) : (s.note r).words = s.words := rfl

theorem withBase_range (s : Store) (value : Int) :
    0 ≤ (s.withBase value).base ∧ (s.withBase value).base ≤ 0xFFFF := by
  simp only [withBase]
  omega

end Store
end Mips64
