import Mips64.Program.Basic
import Mips64.Program.Format
import Mips64.Text.Numeral

/-! The forms in which a program is written out. -/
namespace Mips64.Program

/-- A word of 32 bits as four bytes, the most significant first. -/
def wordBytes (word : Nat) : List UInt8 :=
  [(word / 0x1000000).toUInt8, (word / 0x10000).toUInt8, (word / 0x100).toUInt8, word.toUInt8]

def bytesOf : List Int → Option (List UInt8)
  | [] => some []
  | word :: rest =>
    if 0 ≤ word ∧ word < 0x100000000 then (bytesOf rest).map (wordBytes word.toNat ++ ·) else none

def bytes? (p : Program) : Option (List UInt8) := bytesOf p.words.toList

def hexWords (p : Program) : List Text := p.words.toList.map (Text.hex 8)

def markedWords (p : Program) : List Text := p.hexWords.map (fun w => '0' :: 'x' :: w)

/-- The words as the text of a memory initialisation file. Its vector is never empty: a program
without words has one zero. -/
def coe (p : Program) : Text :=
  let values := if p.words.isEmpty then [Text.hex 8 0] else p.hexWords
  "memory_initialization_radix=16;\nmemory_initialization_vector=\n".toList ++
    [',', '\n'].intercalate values ++ [';']

/-- Lines, each ended by a line feed. -/
def unlines (lines : List Text) : Text := lines.flatMap (· ++ ['\n'])

def hexText (p : Program) : Text := unlines p.hexWords

def listingWidth : Nat := 24

def listingLine (e : ListingEntry) : Text :=
  Text.hex 8 e.address ++ "  ".toList ++ Text.hex 8 e.word ++ "  ".toList ++
    Text.padRight listingWidth e.text ++ "  ; ".toList ++ e.note.toList

def listingLines (p : Program) : List Text := p.listing.toList.map listingLine

def listingText (p : Program) : Text := unlines p.listingLines

/-- The contents of a file that a program is written to; none where a word has no 32-bit form. -/
def contents? (p : Program) : Artifact → Option ByteArray
  | .words .raw => p.bytes?.map (fun bytes => ⟨bytes.toArray⟩)
  | .words .coe => some (String.ofList p.coe).toUTF8
  | .words .hex => some (String.ofList p.hexText).toUTF8
  | .listing => some (String.ofList p.listingText).toUTF8

example : wordBytes 0x3C080010 = [0x3C, 0x08, 0x00, 0x10] := by decide
example : listingLine ⟨4, 0, "NOP".toList, "No Operation: None"⟩ =
    "00000004  00000000  NOP                       ; No Operation: None".toList := by decide

end Mips64.Program
