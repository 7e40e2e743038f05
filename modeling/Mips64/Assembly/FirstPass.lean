import Mips64.Assembly.Run
import Mips64.Directive

/-! The first pass: directives take effect, and labels get the addresses that counting instructions
gives. -/
namespace Mips64.Assembly

/-- Counts the instructions that a statement stands for. -/
def tallyStatement (t : Tables) (text : Text) (r : Run) : Except Halt Run :=
  let mnemonic := (Line.statement text).mnemonic
  if (t.instruction? mnemonic).isSome then .ok { r with count := r.count + 1 }
  else if (t.expansion? mnemonic).isSome then
    match t.count mnemonic 0 with
    | .ok n => .ok { r with count := r.count + n }
    | .error cause => .error (r.halt (.cause cause))
  else .error (r.halt (.cause (.unknownStatement text mnemonic)))

/-- Declares a label at the address counted so far. -/
def declare (name : Text) (r : Run) : Except Halt Run :=
  let address : Int := r.count * 4
  let declared :=
    if Line.isChild name then r.store.declareChild name address
    else r.store.declareLabel name address
  r.step (declared.mapError .cause)

/-- Accounts for a directive or a statement. -/
def tallyBody (t : Tables) (text : Text) (r : Run) : Except Halt Run :=
  if Directive.isBracketed text then r.step (Directive.run r.store text)
  else tallyStatement t text r

/-- Accounts for a line in normal form. A label may stand alone, or before a directive or a
statement. -/
def tally (t : Tables) (text : Text) (r : Run) : Except Halt Run :=
  if text.isEmpty then .ok r
  else if Directive.isBracketed text then r.step (Directive.run r.store text)
  else match Line.declaration text with
    | (none, body) => tallyStatement t body r
    | (some name, body) => do
      let declared ← declare name r
      if body.isEmpty then return declared else tallyBody t body declared

/-- Accounts for the lines of a source, numbered from `number` on. -/
def firstPass (t : Tables) : (number : Nat) → List Text → Run → Except Halt Run
  | _, [], r => .ok r
  | number, line :: rest, r =>
    match tally t (Line.normalize line) r with
    | .ok next => firstPass t (number + 1) rest next
    | .error h => .error (h.attach ⟨number, line⟩)

end Mips64.Assembly
