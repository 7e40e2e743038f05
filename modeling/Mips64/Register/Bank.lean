import Mips64.Text.Blank

/-! The two banks of registers and the names of their members. -/
namespace Mips64.Register

/-- General purpose registers, and the control registers of coprocessor 0. -/
inductive Bank
  | general
  | control
  deriving DecidableEq, Repr

def generalNames : List String :=
  ["R0", "AT", "V0", "V1", "A0", "A1", "A2", "A3",
   "T0", "T1", "T2", "T3", "T4", "T5", "T6", "T7",
   "S0", "S1", "S2", "S3", "S4", "S5", "S6", "S7",
   "T8", "T9", "K0", "K1", "GP", "SP", "S8", "RA"]

def generalAliases : List (String × Nat) := [("ZERO", 0), ("FP", 30)]

def controlNames : List String :=
  ["INDEX", "RANDOM", "ENTRYLO0", "ENTRYLO1", "CONTEXT", "PAGEMASK", "WIRED", "RSVD0",
   "BADVADDR", "COUNT", "ENTRYHI", "COMPARE", "STATUS", "CAUSE", "EPC", "PREVID",
   "CONFIG", "LLADDR", "WATCHLO", "WATCHHI", "XCONTEXT", "RSVD1", "RSVD2", "RSVD3",
   "RSVD4", "RSVD5", "PERR", "CACHEERR", "TAGLO", "TAGHI", "ERROREPC", "RSVD6"]

/-- Every name of a bank's registers with the index it stands for. -/
def Bank.names : Bank → List (Text × Nat)
  | .general => (generalNames.zipIdx ++ generalAliases).map (fun e => (e.1.toList, e.2))
  | .control => controlNames.zipIdx.map (fun e => (e.1.toList, e.2))

def Bank.title : Bank → String
  | .general => "general purpose"
  | .control => "COP0"

example : generalNames.length = 32 ∧ controlNames.length = 32 := by decide
example : (Bank.general.names.map Prod.fst).Nodup := by decide +kernel
example : (Bank.control.names.map Prod.fst).Nodup := by decide +kernel

end Mips64.Register
