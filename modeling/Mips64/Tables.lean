import Mips64.Instruction.Table
import Mips64.Line
import Mips64.Macro.Basic

/-! The instructions and macros that a run knows, found by mnemonic in any case. -/
namespace Mips64

/-- The instructions and macros of a run. A symbol occurs once in each. -/
structure Tables where
  instructions : List Instruction
  macros : List Macro
  deriving DecidableEq, Repr

namespace Tables

def builtin : Tables := ⟨Instruction.builtin, Macro.builtin⟩

def instruction? (t : Tables) (mnemonic : Text) : Option Instruction :=
  let symbol := Text.upper mnemonic
  t.instructions.find? (fun i => i.symbol == symbol)

def expansion? (t : Tables) (mnemonic : Text) : Option Macro :=
  let symbol := Text.upper mnemonic
  t.macros.find? (fun m => m.symbol == symbol)

def instruction (t : Tables) (mnemonic : Text) : Except Cause Instruction :=
  match t.instruction? mnemonic with
  | some i => .ok i
  | none => .error (.unknownInstruction mnemonic)

def expansion (t : Tables) (mnemonic : Text) : Except Cause Macro :=
  match t.expansion? mnemonic with
  | some m => .ok m
  | none => .error (.unknownMacro mnemonic)

/-- Adds an instruction, in place of the one of its symbol if there is one. -/
def putInstruction (t : Tables) (i : Instruction) : Tables :=
  if t.instructions.any (fun j => j.symbol == i.symbol) then
    { t with instructions := t.instructions.map (fun j => if j.symbol == i.symbol then i else j) }
  else { t with instructions := t.instructions ++ [i] }

/-- Adds a macro, in place of the one of its symbol if there is one. -/
def putMacro (t : Tables) (m : Macro) : Tables :=
  if t.macros.any (fun n => n.symbol == m.symbol) then
    { t with macros := t.macros.map (fun n => if n.symbol == m.symbol then m else n) }
  else { t with macros := t.macros ++ [m] }

def addInstruction (t : Tables) (i : Instruction) : Except Cause Tables :=
  if t.instructions.any (fun j => j.symbol == i.symbol) then .error (.instructionTwice i.symbol)
  else .ok (t.putInstruction i)

def addMacro (t : Tables) (m : Macro) : Except Cause Tables :=
  if t.macros.any (fun n => n.symbol == m.symbol) then .error (.macroTwice m.symbol)
  else .ok (t.putMacro m)

/-- The number of instructions that one use of a macro stands for, where macros nest to at most this
many levels. A template line that is neither instruction nor macro counts as one. -/
def countWithin (t : Tables) : (levels : Nat) → (mnemonic : Text) → Except Cause Nat
  | 0, mnemonic => .error (.macroDepth mnemonic Macro.maxDepth)
  | levels + 1, mnemonic => do
    let m ← t.expansion mnemonic
    m.templates.foldlM (fun total template =>
      let name := (Line.statement template).mnemonic
      if (t.instruction? name).isNone && (t.expansion? name).isSome then
        return total + (← t.countWithin levels name)
      else return total + 1) 0

/-- The number of instructions that one use of a macro at a depth of nesting stands for. -/
def count (t : Tables) (mnemonic : Text) (depth : Int) : Except Cause Nat :=
  t.countWithin (Macro.maxDepth + 1 - depth).toNat mnemonic

/-- The largest number of lines that a macro stands for. -/
def widest (t : Tables) : Nat := (t.macros.map (fun m => m.templates.length)).foldr max 0

theorem length_le_widest {t : Tables} {m : Macro} (h : m ∈ t.macros) :
    m.templates.length ≤ t.widest := by
  unfold widest
  generalize t.macros = macros at h
  induction macros with
  | nil => cases h
  | cons n rest ih =>
    rcases List.mem_cons.1 h with rfl | inside
    · exact Nat.le_max_left _ _
    · exact Nat.le_trans (ih inside) (Nat.le_max_right _ _)

theorem mem_of_instruction? {t : Tables} {mnemonic : Text} {i : Instruction}
    (h : t.instruction? mnemonic = some i) : i ∈ t.instructions :=
  List.mem_of_find?_eq_some h

theorem mem_of_expansion? {t : Tables} {mnemonic : Text} {m : Macro}
    (h : t.expansion? mnemonic = some m) : m ∈ t.macros :=
  List.mem_of_find?_eq_some h

example : (builtin.instruction? "addiu".toList).map Instruction.base = some 0x24000000 := by
  decide +kernel
example : builtin.count "call".toList 0 = .ok 3 := by rfl

end Tables
end Mips64
