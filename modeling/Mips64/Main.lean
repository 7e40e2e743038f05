import Mips64.CommandLine.Run

/-! The command on a real disk. The files and directories that a run can touch are looked up first,
the run itself works on them as values, and what it has changed is written back. -/
namespace Mips64.Main
open FileSystem (Path)

/-- What is known of the disk, and the sources looked up so far. -/
structure Snapshot where
  files : FileSystem
  sources : List Path

def pathText (parts : List Text) : String := String.ofList (Path.text ⟨false, parts⟩)

def observe (files : FileSystem) (parts : List Text) : IO FileSystem := do
  if files.isDirectory parts || (files.file? parts).isSome then return files
  if ← ((← IO.currentDir) / pathText parts).isDir then return files.addDirectory parts
  match ← (IO.FS.readBinFile (pathText parts)).toBaseIO with
  | .ok contents => return files.put parts contents
  | .error (.permissionDenied _ code words) =>
    return files.bar parts ⟨code.toNat, words, true⟩
  | .error _ => return files

/-- Looks up every place on the way along names from a directory. -/
def observeWay (files : FileSystem) (directory : List Text) : List Text → IO FileSystem
  | [] => return files
  | name :: rest => do
    let next := Path.follow directory name
    observeWay (← observe files next) next rest

def observePath (files : FileSystem) (here : Path) (path : Text) : IO FileSystem :=
  observeWay files (if FileSystem.isAbsolute path then [] else here.parts) (path.splitOn '/')

/-- Looks up a source file and, in turn, the files that its include lines name. -/
partial def observeSource (known : Snapshot) (path : Path) : IO Snapshot := do
  if known.sources.contains path then return known
  let files ← observeWay known.files [] path.parts
  let mut snapshot : Snapshot := ⟨files, path :: known.sources⟩
  match Include.openLines files path with
  | .error _ => return snapshot
  | .ok lines =>
    for line in lines do
      match Include.target? line with
      | .ok (some target) =>
        snapshot ← observeSource snapshot (.ofText (FileSystem.join path.directory target))
      | _ => pure ()
    return snapshot

/-- Everything on the disk that a command line can touch. -/
def observeAll (here : Path) (arguments : CommandLine.Arguments) : IO FileSystem := do
  let place ← observeWay .empty [] here.parts
  let source ← match arguments.input with
    | some path => pure (← observeSource ⟨place, []⟩ (here.resolve path)).files
    | none => pure place
  let outputs := [arguments.output, arguments.listing].filterMap id
  outputs.foldlM (fun files path => observePath files here path) source

def writeBack (before after : FileSystem) : IO Unit := do
  for (parts, contents) in after.files do
    let unchanged := match before.file? parts with
      | some old => old.data == contents.data
      | none => false
    if !unchanged then IO.FS.writeBinFile (pathText parts) contents

def runHere (arguments : List Text) : IO UInt32 := do
  let here := Path.ofText (← IO.currentDir).toString.toList
  let files ← match CommandLine.parse arguments with
    | .ok given => observeAll here given
    | .error _ => pure .empty
  let outcome := CommandLine.run (fun _ => .complies) files here arguments
  writeBack files outcome.files
  IO.print outcome.out
  IO.eprint outcome.err
  match outcome.status with
  | .ok status => return status.toUInt32
  | .error _ => return 1

end Mips64.Main

def main (arguments : List String) : IO UInt32 :=
  Mips64.Main.runHere (arguments.map String.toList)
