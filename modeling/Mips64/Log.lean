import Mips64.Program.Format
import Mips64.Text.Numeral
import Mips64.Text.Quoted

/-! The log of a run, as data. A record says what was done; its line is made only for printing. -/
namespace Mips64.Log

inductive Record
  | label (name : Text) (address : Int)
  | definition (name text : Text)
  | base (value : Int)
  | encoded (address : Nat) (bits : Text)
  | firstPass (instructions labels : Nat) (base : Int)
  | secondPass (words : Nat)
  | including (target path : Text)
  | assembled
  | textSize (bytes : Nat)
  | labelCount (labels : Nat)
  | instructionCount (instructions : Nat)
  | wroteWords (format : Program.Format) (path : Text)
  | wroteListing (path : Text)
  deriving DecidableEq, Repr

/-- Records of the whole run are for information, the others for finding mistakes. -/
inductive Level
  | debug
  | info
  deriving DecidableEq, Repr

def Level.name : Level → String
  | .debug => "DEBUG"
  | .info => "INFO"

namespace Record

def level : Record → Level
  | label _ _ | definition _ _ | base _ | encoded _ _ | firstPass _ _ _ | secondPass _
  | including _ _ => .debug
  | assembled | textSize _ | labelCount _ | instructionCount _ | wroteWords _ _
  | wroteListing _ => .info

/-- The part of the work that a record comes from. -/
def channel : Record → String
  | label _ _ | definition _ _ => "py_mips64_asm.symbols"
  | base _ => "py_mips64_asm.preprocessor"
  | encoded _ _ => "py_mips64_asm.instruction"
  | firstPass _ _ _ | secondPass _ => "py_mips64_asm.assembler"
  | including _ _ => "py_mips64_asm.source"
  | assembled | textSize _ | labelCount _ | instructionCount _ | wroteWords _ _
  | wroteListing _ => "py_mips64_asm.main"

private def hexOf (width : Nat) (n : Int) : String := String.ofList (Text.hex width n)

def message : Record → String
  | label name address => "label " ++ String.ofList name ++ " = 0x" ++ hexOf 0 address
  | definition name text =>
    "define " ++ String.ofList name ++ " = " ++ String.ofList (Text.quoted text)
  | base value => "base = 0x" ++ hexOf 4 value
  | encoded address bits => "0x" ++ hexOf 0 address ++ ": " ++ String.ofList bits
  | firstPass instructions labels start =>
    "pass 1: " ++ toString instructions ++ " instructions, " ++ toString labels ++
      " labels, base 0x" ++ hexOf 4 start
  | secondPass words => "pass 2: " ++ toString words ++ " words"
  | including target path =>
    "including " ++ String.ofList target ++ " from " ++ String.ofList path
  | assembled => "Assembly successful!"
  | textSize bytes => "Text size: " ++ toString bytes ++ " bytes"
  | labelCount labels => "Labels: " ++ toString labels
  | instructionCount instructions => "Instructions: " ++ toString instructions
  | wroteWords format path => "Wrote " ++ format.name ++ " file: " ++ String.ofList path
  | wroteListing path => "Wrote listing: " ++ String.ofList path

/-- A record as one line of a printed log. -/
def line (r : Record) : String := r.level.name ++ " " ++ r.channel ++ ": " ++ r.message

end Record
end Mips64.Log
