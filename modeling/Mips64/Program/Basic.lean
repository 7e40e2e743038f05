import Mips64.Text.Blank

/-! Assembled programs. -/
namespace Mips64

/-- A line of the listing: where a word lies, the word, the text it was made from, and a note. -/
structure ListingEntry where
  address : Int
  word : Int
  text : Text
  note : String
  deriving DecidableEq, Repr

/-- The words of a program, its labels with their byte addresses, its base and its listing. -/
structure Program where
  words : Array Int
  labels : List (Text × Int)
  children : List ((Text × Text) × Int)
  base : Int
  listing : Array ListingEntry
  deriving DecidableEq, Repr

namespace Program

def size (p : Program) : Nat := p.words.size * 4

end Program
end Mips64
