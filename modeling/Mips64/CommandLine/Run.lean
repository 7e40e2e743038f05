import Mips64.Assembly
import Mips64.CommandLine.Arguments
import Mips64.Include
import Mips64.Program.Printing

/-! The assembler as a command: it reads a source file, assembles it and writes the files that are
asked for. -/
namespace Mips64.CommandLine

def commandName : String := "mips64-asm"

def usage : String :=
  "usage: " ++ commandName ++
    " [-h] [-f \x7bcoe,hex,raw\x7d] [-l PATH] [-d] in_file out_file\n"

def helpText : String :=
  usage ++ "\n" ++
    "MIPS64 Assembler - Convert assembly code to machine code\n" ++
    "\n" ++
    "positional arguments:\n" ++
    "  in_file               Input assembly file path\n" ++
    "  out_file              Output file path\n" ++
    "\n" ++
    "options:\n" ++
    "  -h, --help            show this help message and exit\n" ++
    "  -f \x7bcoe,hex,raw\x7d, --format \x7bcoe,hex,raw\x7d\n" ++
    "                        Output format (default: raw big-endian words)\n" ++
    "  -l PATH, --listing PATH\n" ++
    "                        Also write an address/word/source listing\n" ++
    "  -d, --debug           Enable debug output\n"

/-- What the command has done so far: its log, and the files as they are now. -/
structure Work where
  log : Array Log.Record
  files : FileSystem

structure Halt where
  work : Work
  report : Report

namespace Work

def halt (w : Work) (failure : Failure) : Halt := ⟨w, .unplaced failure⟩

def note (w : Work) (records : List Log.Record) : Work :=
  { w with log := w.log ++ records.toArray }

def assemble (w : Work) (here : FileSystem.Path) : Option Text → Except Halt (Work × Program)
  | none => .error (w.halt (.fault .withoutValue))
  | some path =>
    match Include.flatten w.files here path with
    | .error h => .error ⟨{ w with log := w.log ++ h.log }, h.report⟩
    | .ok reading =>
      let outcome := Assembly.assemble .builtin reading.lines
      let logged := { w with log := w.log ++ reading.log ++ outcome.run.store.log }
      match outcome.result with
      | .error report => .error ⟨logged, report⟩
      | .ok program =>
        .ok (logged.note [.assembled, .textSize program.size,
          .labelCount (program.labels.length + program.children.length),
          .instructionCount program.words.size], program)

/-- Writes a file of a program, as the system answers. What is broken off stays on the disk as far
as it has come. -/
def write (w : Work) (answer : FileSystem.Answer) (here : FileSystem.Path) (program : Program)
    (what : Program.Artifact) (path : Text) : Except Halt Work :=
  match program.contents? what with
  | none => .error (w.halt (.fault .wordOutOfRange))
  | some contents =>
    if FileSystem.hasNul path then .error (w.halt (.fault .pathWithNul))
    else match w.files.openPlace answer here path with
      | .error reason => .error (w.halt (.cause (.writeRefused what path reason)))
      | .ok place =>
        match answer with
        | .breaksOff count reason =>
          .error (halt { w with files := w.files.put place (contents.extract 0 count) }
            (.cause (.writeRefused what path reason)))
        | .complies | .refuses _ => .ok { w with files := w.files.put place contents }

def writeWords (w : Work) (answers : Program.Artifact → FileSystem.Answer)
    (here : FileSystem.Path) (program : Program) :
    Option Program.Format → Option Text → Except Halt Work
  | none, _ | _, none => .error (w.halt (.fault .withoutValue))
  | some format, some path => do
    let written ← w.write (answers (.words format)) here program (.words format) path
    return written.note [.wroteWords format path]

/-- Writes the listing of a program, where a path for it is given and not empty. -/
def writeListing (w : Work) (answers : Program.Artifact → FileSystem.Answer)
    (here : FileSystem.Path) (program : Program) : Option Text → Except Halt Work
  | none | some [] => .ok w
  | some path => do
    let written ← w.write (answers .listing) here program .listing path
    return written.note [.wroteListing path]

def carryOut (w : Work) (answers : Program.Artifact → FileSystem.Answer)
    (here : FileSystem.Path) (arguments : Arguments) : Except Halt (Work × Program) := do
  let (assembled, program) ← w.assemble here arguments.input
  let written ← assembled.writeWords answers here program arguments.format arguments.output
  let listed ← written.writeListing answers here program arguments.listing
  return (listed, program)

end Work

/-- The end of the command: its exit status, or a fault; what it has printed; and the files. -/
structure Outcome where
  status : Except Fault Nat
  out : String
  err : String
  files : FileSystem

/-- The log as it is printed: all of it, or nothing. -/
def printedLog (debug : Bool) (log : Array Log.Record) : String :=
  if debug then String.join (log.toList.map (fun r => r.line ++ "\n")) else ""

def success (program : Program) (output : Text) : String :=
  "Assembly completed successfully!\n" ++
    "  - " ++ toString program.words.size ++ " words (" ++ toString program.size ++ " bytes)\n" ++
    "  - Output: " ++ String.ofList output ++ "\n"

/-- Runs the command in a directory, where the system answers for each file that is written. -/
def run (answers : Program.Artifact → FileSystem.Answer) (files : FileSystem)
    (here : FileSystem.Path) (arguments : List Text) : Outcome :=
  match parse arguments with
  | .error .help => ⟨.ok 0, helpText, "", files⟩
  | .error (.misuse m) =>
    ⟨.ok 2, "", usage ++ commandName ++ ": error: " ++ m.message ++ "\n", files⟩
  | .ok given =>
    match Work.carryOut ⟨#[], files⟩ answers here given with
    | .ok (work, program) =>
      ⟨.ok 0, success program (given.output.getD []), printedLog given.debug work.log, work.files⟩
    | .error h =>
      let log := printedLog given.debug h.work.log
      match h.report.failure with
      | .cause c =>
        ⟨.ok 1, "", log ++ "Error: " ++ Report.text c h.report.place ++ "\n", h.work.files⟩
      | .fault f => ⟨.error f, "", log, h.work.files⟩

end Mips64.CommandLine
