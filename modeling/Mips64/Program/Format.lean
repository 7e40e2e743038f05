/-! The files that an assembled program can be written to. -/
namespace Mips64.Program

/-- The formats of the machine words: a memory initialisation text, one hexadecimal word a line, or
raw big-endian words. -/
inductive Format
  | coe
  | hex
  | raw
  deriving DecidableEq, Repr

def Format.all : List Format := [.coe, .hex, .raw]

def Format.name : Format → String
  | .coe => "coe"
  | .hex => "hex"
  | .raw => "raw"

def Format.ofName? (name : String) : Option Format := Format.all.find? (fun f => f.name == name)

/-- A file made from a program: its words in a format, or the listing. -/
inductive Artifact
  | words (format : Format)
  | listing
  deriving DecidableEq, Repr

def Artifact.title : Artifact → String
  | .words .coe => "COE"
  | .words .hex => "hex"
  | .words .raw => "raw"
  | .listing => "listing"

end Mips64.Program
