import Mips64.Text.Quoted

/-! Why the system does not open or write a file, and how it answers when one is to be written. -/
namespace Mips64.FileSystem

/-- A reason of the system, by its number and words. A path that is not opened is named after the
words; a file that breaks off once it is open is not. -/
structure Refusal where
  number : Nat
  words : String
  namesPath : Bool
  deriving DecidableEq, Repr

namespace Refusal

def missing : Refusal := ⟨2, "No such file or directory", true⟩
def notDirectory : Refusal := ⟨20, "Not a directory", true⟩
def isDirectory : Refusal := ⟨21, "Is a directory", true⟩

/-- The reason with its number and, where it is named, the path as it was given. -/
def message (r : Refusal) (path : Text) : String :=
  "[Errno " ++ toString r.number ++ "] " ++ r.words ++
    if r.namesPath then ": " ++ String.ofList (Text.quoted path) else ""

end Refusal

/-- How the system answers when a file is to be written. It complies where the path allows it; it
refuses to open any path, for a reason of its own; or it opens the path, which empties the file, and
breaks off after some bytes, at the latest when the file is closed. -/
inductive Answer
  | complies
  | refuses (reason : Refusal)
  | breaksOff (count : Nat) (reason : Refusal)
  deriving DecidableEq, Repr

end Mips64.FileSystem
