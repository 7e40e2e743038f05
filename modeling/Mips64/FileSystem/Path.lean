import Mips64.Text.Blank

/-! Absolute paths, made from text without looking at any file. -/
namespace Mips64.FileSystem

/-- An absolute path in normal form: the names on the way from the root. A path whose text starts
with exactly two slashes keeps them, and names the same file as with one. -/
structure Path where
  doubled : Bool
  parts : List Text
  deriving DecidableEq, Repr

def isAbsolute (path : Text) : Bool := path.head? == some '/'

/-- A path taken from a directory: an absolute path stands for itself. -/
def join (directory path : Text) : Text :=
  if isAbsolute path then path
  else if directory.isEmpty || directory.getLast? == some '/' then directory ++ path
  else directory ++ '/' :: path

namespace Path

def text (p : Path) : Text :=
  (if p.doubled then ['/', '/'] else ['/']) ++ Text.joinWith '/' p.parts

def directory (p : Path) : Text := text { p with parts := p.parts.dropLast }

def name (p : Path) : Text := p.parts.getLast?.getD []

/-- Goes on from a place by one name: an empty name and a dot stay, two dots go up. -/
def follow (parts : List Text) (name : Text) : List Text :=
  if name.isEmpty || name == ['.'] then parts
  else if name == ['.', '.'] then parts.dropLast
  else parts ++ [name]

/-- Whether a text starts with two slashes and no third. -/
def startsDoubled : Text → Bool
  | '/' :: '/' :: rest => rest.head? != some '/'
  | _ => false

def ofText (path : Text) : Path := ⟨startsDoubled path, (path.splitOn '/').foldl follow []⟩

/-- The path that a text names when it is read in a directory. -/
def resolve (here : Path) (path : Text) : Path := ofText (join here.text path)

example : (ofText "/a/./b//../c/".toList).text = "/a/c".toList := by decide
example : (ofText "//..".toList).text = "//".toList := by decide
example : (ofText "///a".toList).text = "/a".toList := by decide
example : (ofText "/lib/io.asm".toList).directory = "/lib".toList := by decide

end Path
end Mips64.FileSystem
