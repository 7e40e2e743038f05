import Mips64.FileSystem.Path
import Mips64.FileSystem.Refusal

/-! A finite file system: regular files with their contents, directories, and the places that the
system lets nobody read. There are no links, so each file has one place. -/
namespace Mips64

/-- The regular files and the directories, each by the names on the way from the root. The root is a
directory without being listed. What is barred cannot be read, whatever is there. -/
structure FileSystem where
  files : List (List Text × ByteArray)
  directories : List (List Text)
  barred : List (List Text × FileSystem.Refusal)

namespace FileSystem

def file? (fs : FileSystem) (parts : List Text) : Option ByteArray := fs.files.lookup parts

def isDirectory (fs : FileSystem) (parts : List Text) : Bool :=
  parts.isEmpty || fs.directories.contains parts

/-- Why the system lets nobody read a place. -/
def bar? (fs : FileSystem) (parts : List Text) : Option Refusal := fs.barred.lookup parts

/-- Why a place that is no regular file cannot be read. -/
def refusal (fs : FileSystem) (parts : List Text) : Refusal :=
  if fs.isDirectory parts then .isDirectory
  else if (List.range parts.length).any (fun n => (fs.file? (parts.take n)).isSome) then
    .notDirectory
  else .missing

def read (fs : FileSystem) (path : Path) : Except Refusal ByteArray :=
  match fs.bar? path.parts, fs.file? path.parts with
  | some reason, _ => .error reason
  | none, some contents => .ok contents
  | none, none => .error (fs.refusal path.parts)

/-- The paths of regular files; nothing can be read under any other. -/
def readable (fs : FileSystem) : List Path :=
  fs.files.flatMap (fun entry => [⟨false, entry.1⟩, ⟨true, entry.1⟩])

theorem mem_readable {fs : FileSystem} {path : Path} {contents : ByteArray}
    (h : fs.read path = .ok contents) : path ∈ fs.readable := by
  unfold read at h
  split at h
  · cases h
  · rename_i found
    obtain ⟨before, after, split, _⟩ := List.lookup_eq_some_iff.1 found
    have inside : (path.parts, contents) ∈ fs.files := by
      cases h
      simp [split]
    refine List.mem_flatMap.2 ⟨_, inside, ?_⟩
    obtain ⟨doubled, parts⟩ := path
    cases doubled <;> simp
  · cases h

/-- The directory that is reached from one by following names on the disk, where every name on the
way has to be a directory. -/
def enter (fs : FileSystem) (directory : List Text) : List Text → Except Refusal (List Text)
  | [] => .ok directory
  | name :: rest =>
    let next := Path.follow directory name
    if fs.isDirectory next then fs.enter next rest
    else if (fs.file? next).isSome then .error .notDirectory
    else .error .missing

/-- The place at which a path, read in a directory, can be written as far as the files decide it: a
regular file, or a free name in a directory. -/
def writable (fs : FileSystem) (here : Path) (path : Text) : Except Refusal (List Text) :=
  let names := path.splitOn '/'
  let start := if isAbsolute path then [] else here.parts
  let trimmed := (names.reverse.dropWhile List.isEmpty).reverse
  if path.isEmpty then .error .missing
  else match trimmed.getLast? with
    | none => .error .isDirectory
    | some name => do
      let directory ← fs.enter start trimmed.dropLast
      let place := Path.follow directory name
      if trimmed.length < names.length || name == ['.'] || name == ['.', '.'] ||
          fs.isDirectory place then
        .error .isDirectory
      else return place

/-- The place at which a path is opened to be written, as the system answers. -/
def openPlace (fs : FileSystem) (answer : Answer) (here : Path) (path : Text) :
    Except Refusal (List Text) :=
  match answer with
  | .refuses reason => .error reason
  | .complies | .breaksOff _ _ => fs.writable here path

/-- Gives a place contents, new or in place of the old. -/
def put (fs : FileSystem) (parts : List Text) (contents : ByteArray) : FileSystem :=
  if (fs.file? parts).isSome then
    { fs with files := fs.files.map (fun e => if e.1 == parts then (parts, contents) else e) }
  else { fs with files := fs.files ++ [(parts, contents)] }

/-- Adds a directory together with the directories on the way to it. -/
def addDirectory (fs : FileSystem) (parts : List Text) : FileSystem :=
  { fs with directories :=
      fs.directories ++ (List.range (parts.length + 1)).map (fun n => parts.take n) }

/-- Adds a regular file together with the directories on the way to it. -/
def addFile (fs : FileSystem) (parts : List Text) (contents : ByteArray) : FileSystem :=
  (fs.addDirectory parts.dropLast).put parts contents

def bar (fs : FileSystem) (parts : List Text) (reason : Refusal) : FileSystem :=
  { fs with barred := (parts, reason) :: fs.barred }

def empty : FileSystem := ⟨[], [], []⟩

/-- Whether a path holds the character that no path may hold. -/
def hasNul (path : Text) : Bool := path.contains '\x00'

end FileSystem
end Mips64
