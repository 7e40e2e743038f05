/-! Text as a list of characters, the blank characters, and the cuts that are made at them. -/
namespace Mips64

/-- Text is a list of characters, so its length counts code points. -/
abbrev Text := List Char

namespace Text

/-- A blank separates words: the spaces of every width, the tab, the line ends, and the four
information separators. A zero-width space is not blank. -/
def isBlank (c : Char) : Bool :=
  let n := c.toNat
  (9 ≤ n && n ≤ 13) || (28 ≤ n && n ≤ 32) || n == 0x85 || n == 0xA0 || n == 0x1680 ||
    (0x2000 ≤ n && n ≤ 0x200A) || n == 0x2028 || n == 0x2029 || n == 0x202F || n == 0x205F ||
    n == 0x3000

def stripLeft (s : Text) : Text := s.dropWhile isBlank

def stripRight (s : Text) : Text := (s.reverse.dropWhile isBlank).reverse

def strip (s : Text) : Text := stripRight (stripLeft s)

/-- The maximal runs of characters that are not blank. -/
def words (s : Text) : List Text := (s.splitOnP isBlank).filter (fun w => !w.isEmpty)

/-- The first word, and what follows the blanks after it. -/
def splitWord (s : Text) : Text × Text :=
  let t := stripLeft s
  (t.takeWhile (fun c => !isBlank c), stripLeft (t.dropWhile (fun c => !isBlank c)))

/-- The pieces in order with one separator between neighbours. -/
def joinWith (separator : Char) (pieces : List Text) : Text := [separator].intercalate pieces

def padRight (width : Nat) (s : Text) : Text := s ++ List.replicate (width - s.length) ' '

def zeroPad (width : Nat) (s : Text) : Text := List.replicate (width - s.length) '0' ++ s

@[simp] theorem stripLeft_nil : stripLeft [] = [] := rfl

@[simp] theorem strip_nil : strip [] = [] := rfl

@[simp] theorem words_nil : words [] = [] := rfl

example : words " 12 , 34\t".toList = ["12".toList, ",".toList, "34".toList] := by decide
example : strip "\u00a0a b\u3000".toList = "a b".toList := by decide
example : strip "\u200ba".toList ≠ "a".toList := by decide
example : splitWord "  a  b c ".toList = ("a".toList, "b c ".toList) := by decide

end Text
end Mips64
