import Mips64.Assembly.FirstPass
import Mips64.Assembly.SecondPass
import Mips64.Text.LineBreak

/-! Assembly of a source in two passes. -/
namespace Mips64.Assembly

/-- Both passes over a source. They have to agree on the number of words. -/
def passes (t : Tables) (source : List Text) : Except Halt Run := do
  let counted ← firstPass t 1 source Run.empty
  let emitted ← secondPass t 1 source counted.rewound
  if emitted.store.size = emitted.count * 4 then
    return emitted.note (.secondPass emitted.store.words.size)
  else .error (emitted.halt (.cause (.passesDisagree emitted.store.words.size emitted.count)))

/-- The end of an assembly: what the run has done, and the program or why there is none. -/
structure Outcome where
  run : Run
  result : Except Report Program

def assemble (t : Tables) (source : List Text) : Outcome :=
  match passes t source with
  | .ok run => ⟨run, .ok run.program⟩
  | .error h => ⟨h.run, .error h.report⟩

def assembleText (t : Tables) (source : Text) : Outcome := assemble t (Text.lines source)

end Mips64.Assembly
