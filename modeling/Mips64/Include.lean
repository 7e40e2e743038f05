import Mips64.FileSystem.Basic
import Mips64.Log
import Mips64.Operand.Quotation
import Mips64.Text.LineBreak
import Mips64.Text.Uppercase

/-! Sources read from files. An include line is replaced by the lines of the file it names; blank
lines are dropped. Files that are being read form a chain, and no file occurs in its own chain, so a
finite file system is read to the end. Chains may have any length: a limit that a host sets to
nested calls, of about a thousand, is outside the model. -/
namespace Mips64.Include

/-- The path that an include line names; none for a line of any other sort. -/
def target? (line : Text) : Except Failure (Option Text) :=
  let t := Text.strip line
  if t.head? = some '!' then
    match Text.words t with
    | [] => .ok none
    | word :: arguments =>
      if Text.upper word = "!INCLUDE".toList then
        match arguments with
        | [] => .error (.cause .includeWithoutPath)
        | _ => (Operand.leadingString arguments).map some
      else .error (.cause (.unknownBang word))
  else .ok none

/-- A reading that stopped short, with the log up to there. -/
structure Halt where
  log : Array Log.Record
  report : Report
  deriving DecidableEq, Repr

def Halt.attach (h : Halt) (place : Place) : Halt := { h with report := h.report.attach place }

structure Reading where
  log : Array Log.Record
  lines : List Text
  deriving DecidableEq, Repr

def Reading.prepend (lines : List Text) (r : Reading) : Reading :=
  { r with lines := lines ++ r.lines }

def decode (contents : ByteArray) : Except Fault (List Text) :=
  match String.fromUTF8? contents with
  | some text => .ok (Text.lines text.toList)
  | none => .error .undecodable

/-- The lines of a file that can be opened and is not on the chain. -/
def openLines (fs : FileSystem) (path : FileSystem.Path) : Except Failure (List Text) :=
  if FileSystem.hasNul path.text then .error (.fault .pathWithNul)
  else match fs.read path with
    | .ok contents => (decode contents).mapError .fault
    | .error reason =>
      if reason.number = FileSystem.Refusal.missing.number then
        .error (.cause (.fileMissing path.text))
      else .error (.cause (.fileRefused path.text reason))

theorem mem_readable_of_openLines {fs : FileSystem} {path : FileSystem.Path} {lines : List Text}
    (h : openLines fs path = .ok lines) : path ∈ fs.readable := by
  unfold openLines at h
  split at h
  · cases h
  · split at h
    · rename_i opened
      exact FileSystem.mem_readable opened
    · split at h <;> cases h

def unvisited (fs : FileSystem) (chain : List FileSystem.Path) : List FileSystem.Path :=
  fs.readable.filter (fun path => !chain.contains path)

theorem unvisited_cons_lt {fs : FileSystem} {chain : List FileSystem.Path}
    {path : FileSystem.Path} (inside : path ∈ fs.readable) (fresh : chain.contains path = false) :
    (unvisited fs (path :: chain)).length < (unvisited fs chain).length := by
  have member : path ∈ unvisited fs chain := List.mem_filter.2 ⟨inside, by rw [fresh]; rfl⟩
  have same : unvisited fs (path :: chain) =
      (unvisited fs chain).filter (fun other => other != path) := by
    simp only [unvisited, List.filter_filter, List.contains_cons, Bool.not_or, bne]
  rw [same]
  exact List.length_filter_lt_length_iff_exists.2 ⟨path, member, by simp⟩

/-- The line of a report on a file: the file's name, and the line. -/
def position (path : FileSystem.Path) (number : Nat) (line : Text) : Place :=
  ⟨number, path.name ++ ": ".toList ++ line⟩

mutual

/-- The lines of a file with its includes in place, where `chain` holds the files being read. -/
def flattenFile (fs : FileSystem) (chain : List FileSystem.Path) (path : FileSystem.Path)
    (log : Array Log.Record) : Except Halt Reading :=
  if _fresh : chain.contains path = false then
    match _opened : openLines fs path with
    | .ok lines => flattenLines fs (path :: chain) path 1 lines log
    | .error failure => .error ⟨log, .unplaced failure⟩
  else .error ⟨log, .unplaced (.cause (.includesItself path.text))⟩
termination_by ((unvisited fs chain).length, 0)
decreasing_by
  exact Prod.Lex.left _ _ (unvisited_cons_lt (mem_readable_of_openLines _opened) _fresh)

/-- The lines of a file from `number` on with their includes in place. -/
def flattenLines (fs : FileSystem) (chain : List FileSystem.Path) (path : FileSystem.Path)
    (number : Nat) (lines : List Text) (log : Array Log.Record) : Except Halt Reading :=
  match lines with
  | [] => .ok ⟨log, []⟩
  | line :: rest =>
    if (Text.strip line).isEmpty then flattenLines fs chain path (number + 1) rest log
    else
      match target? line with
      | .error failure =>
        .error (Halt.attach ⟨log, .unplaced failure⟩ (position path number line))
      | .ok none =>
        (flattenLines fs chain path (number + 1) rest log).map (Reading.prepend [line])
      | .ok (some target) =>
        let joined := FileSystem.join path.directory target
        let noted := log.push (.including joined path.text)
        match flattenFile fs chain (.ofText joined) noted with
        | .error h => .error (h.attach (position path number line))
        | .ok included =>
          (flattenLines fs chain path (number + 1) rest included.log).map
            (Reading.prepend included.lines)
termination_by ((unvisited fs chain).length, lines.length + 1)

end

/-- The lines of the file that a path, read in a directory, names. -/
def flatten (fs : FileSystem) (here : FileSystem.Path) (path : Text) : Except Halt Reading :=
  flattenFile fs [] (here.resolve path) #[]

example : target? " !include \"lib/io.asm\"".toList = .ok (some "lib/io.asm".toList) := by rfl
example : target? "! INCLUDE \"x\"".toList = .error (.cause (.unknownBang "!".toList)) := by rfl

end Mips64.Include
