import Mips64.Macro.Template

/-! Macros: pseudocode-instructions that stand for the lines of their templates. -/
namespace Mips64

/-- A pseudocode-instruction with its number of arguments and its template lines. -/
structure Macro where
  symbol : Text
  description : String
  arity : Int
  templates : List Text
  deriving DecidableEq, Repr

namespace Macro

/-- The levels to which macros may nest. -/
def maxDepth : Nat := 16

/-- The lines that a use of the macro with these arguments stands for. -/
def expand (m : Macro) (arguments : List Text) : Except Failure (List Text) :=
  if m.arity = arguments.length then
    (m.templates.mapM (fun t => Template.fill t arguments)).mapError .fault
  else .error (.cause (.macroArity m.symbol m.description m.arity arguments.length))

private theorem length_mapM {f : Text → Except Fault Text} {xs ys : List Text}
    (h : xs.mapM f = .ok ys) : ys.length = xs.length := by
  induction xs generalizing ys with
  | nil => cases h; rfl
  | cons x rest ih =>
    rw [List.mapM_cons] at h
    cases hx : f x with
    | error e => rw [hx] at h; cases h
    | ok y =>
      cases hr : rest.mapM f with
      | error e => rw [hx, hr] at h; cases h
      | ok zs =>
        rw [hx, hr] at h
        cases h
        simp [ih hr]

/-- A macro stands for as many lines as it has templates. -/
theorem length_expand {m : Macro} {arguments lines : List Text}
    (h : m.expand arguments = .ok lines) : lines.length = m.templates.length := by
  unfold expand at h
  split at h
  · cases filled : m.templates.mapM (fun t => Template.fill t arguments) with
    | error e => rw [filled] at h; cases h
    | ok ls =>
      rw [filled] at h
      cases h
      exact length_mapM filled
  · cases h

def summary (m : Macro) : String :=
  "Macro(" ++ String.ofList m.symbol ++ ", " ++ toString m.arity ++ ")"

def ofStrings (symbol description : String) (arity : Int) (templates : List String) : Macro :=
  ⟨symbol.toList, description, arity, templates.map String.toList⟩

def builtin : List Macro :=
  [ofStrings "B" "Unconditional Branch" 1 ["BEQ $R0, $R0, \x7b0\x7d"],
   ofStrings "GOTO" "Jump to BASE:target through a register" 2
     ["LUI \x7b0\x7d, BASE", "ADDIU \x7b0\x7d, \x7b0\x7d, \x7b1\x7d", "JR \x7b0\x7d"],
   ofStrings "CALL" "Call BASE:target through a register" 2
     ["LUI \x7b0\x7d, BASE", "ADDIU \x7b0\x7d, \x7b0\x7d, \x7b1\x7d", "JALR \x7b0\x7d"],
   ofStrings "RET" "Return from Call" 0 ["JR $RA"],
   ofStrings "MOVE" "Copy Register" 2 ["ADDU \x7b0\x7d, \x7b1\x7d, $R0"],
   ofStrings "BEQZ" "Branch on Equal Zero" 2 ["BEQ \x7b0\x7d, $R0, \x7b1\x7d"],
   ofStrings "BNEZ" "Branch on Not Equal Zero" 2 ["BNE \x7b0\x7d, $R0, \x7b1\x7d"],
   ofStrings "LI" "Load 16-bit Immediate" 2 ["ORI \x7b0\x7d, $R0, \x7b1\x7d"]]

example : (builtin.map Macro.symbol).Nodup := by decide

end Macro
end Mips64
