import Mips64.Assembly.Run
import Mips64.Directive

/-! The second pass: statements are encoded, and macros are expanded on the way. Lines that a macro
stands for go to the front of the agenda, so they are encoded before what followed the macro. -/
namespace Mips64.Assembly

def putWord (i : Instruction) (line : Text) (word : Int) (r : Run) : Except Halt Run :=
  let address := r.store.size
  let noted := { r with store := r.store.noteWord word }
  if Store.isWord word then
    .ok { noted with
      store := { noted.store with words := noted.store.words.push word }
      listing := noted.listing.push ⟨address, word, line, i.note⟩ }
  else .error (noted.halt (.cause (.wordOutOfRange word)))

def encodeInstruction (i : Instruction) (line : Text) (operands : List Text) (r : Run) :
    Except Halt Run :=
  match i.encode r.store.toSymbols r.store.size operands with
  | .ok word => putWord i line word r
  | .error failure => .error (r.halt failure)

/-- A bound on the work that an agenda of lines at depths of nesting can still cause. -/
def workload (t : Tables) : List (Text × Nat) → Nat
  | [] => 0
  | item :: agenda =>
    Nat.pow (t.widest + 1) (Macro.maxDepth + 1 - item.2) + workload t agenda

theorem workload_lt_cons (t : Tables) (item : Text × Nat) (agenda : List (Text × Nat)) :
    workload t agenda < workload t (item :: agenda) := by
  have positive : 0 < Nat.pow (t.widest + 1) (Macro.maxDepth + 1 - item.2) :=
    Nat.pow_pos (Nat.succ_pos _)
  rw [workload]
  omega

theorem workload_deeper (t : Tables) (lines : List Text) (depth : Nat)
    (agenda : List (Text × Nat)) :
    workload t (lines.map (fun line => (line, depth)) ++ agenda) =
      lines.length * Nat.pow (t.widest + 1) (Macro.maxDepth + 1 - depth) + workload t agenda := by
  induction lines with
  | nil => simp
  | cons line rest ih =>
    rw [List.map_cons, List.cons_append, workload, ih, List.length_cons, Nat.succ_mul]
    dsimp only
    omega

/-- The lines of a macro cause less work, a level deeper, than the macro itself. -/
theorem workload_lt_expansion {t : Tables} {m : Macro} {lines : List Text} {depth : Nat}
    (listed : m ∈ t.macros) (shallow : depth < Macro.maxDepth)
    (length : lines.length = m.templates.length) (line : Text) (agenda : List (Text × Nat)) :
    workload t (lines.map (fun l => (l, depth + 1)) ++ agenda) <
      workload t ((line, depth) :: agenda) := by
  have bound : lines.length ≤ t.widest := length ▸ Tables.length_le_widest listed
  have levels : Macro.maxDepth + 1 - depth = Macro.maxDepth - depth + 1 := by omega
  have inner : Macro.maxDepth + 1 - (depth + 1) = Macro.maxDepth - depth := by omega
  have positive : 0 < Nat.pow (t.widest + 1) (Macro.maxDepth - depth) :=
    Nat.pow_pos (Nat.succ_pos _)
  have smaller : lines.length * Nat.pow (t.widest + 1) (Macro.maxDepth - depth) ≤
      t.widest * Nat.pow (t.widest + 1) (Macro.maxDepth - depth) := Nat.mul_le_mul_right _ bound
  have power : Nat.pow (t.widest + 1) (Macro.maxDepth - depth + 1) =
      Nat.pow (t.widest + 1) (Macro.maxDepth - depth) * (t.widest + 1) := rfl
  rw [workload_deeper, inner, workload, levels, power, Nat.mul_add, Nat.mul_one]
  have swap := Nat.mul_comm t.widest (Nat.pow (t.widest + 1) (Macro.maxDepth - depth))
  omega

/-- Encodes the lines of an agenda, each at its depth of nesting. -/
def encodeAgenda (t : Tables) (agenda : List (Text × Nat)) (r : Run) : Except Halt Run :=
  match agenda with
  | [] => .ok r
  | (line, depth) :: rest =>
    let s := Line.statement line
    match t.instruction? s.mnemonic with
    | some i => do
      let next ← encodeInstruction i line s.operands r
      encodeAgenda t rest next
    | none =>
      match _found : t.expansion? s.mnemonic with
      | none => .error (r.halt (.cause (.unknownStatement line s.mnemonic)))
      | some m =>
        if _shallow : depth < Macro.maxDepth then
          match _expanded : m.expand s.operands with
          | .ok lines => encodeAgenda t (lines.map (fun l => (l, depth + 1)) ++ rest) r
          | .error failure => .error (r.halt failure)
        else .error (r.halt (.cause (.macroDepth s.mnemonic Macro.maxDepth)))
termination_by workload t agenda
decreasing_by
  · exact workload_lt_cons t (line, depth) rest
  · exact workload_lt_expansion (Tables.mem_of_expansion? _found) _shallow
      (Macro.length_expand _expanded) line rest

/-- Encodes the statement of a line in normal form, inside the scope of its label. -/
def encodeLine (t : Tables) (text : Text) (r : Run) : Except Halt Run :=
  if text.isEmpty || Directive.isBracketed text then .ok r
  else match Line.declaration text with
    | (none, body) => encodeAgenda t [(body, 0)] r
    | (some name, body) =>
      let entered :=
        if Line.isChild name then r else { r with store := r.store.withScope name }
      if body.isEmpty || Directive.isBracketed body then .ok entered
      else encodeAgenda t [(body, 0)] entered

/-- Encodes the lines of a source, numbered from `number` on. -/
def secondPass (t : Tables) : (number : Nat) → List Text → Run → Except Halt Run
  | _, [], r => .ok r
  | number, line :: rest, r =>
    match encodeLine t (Line.normalize line) r with
    | .ok next => secondPass t (number + 1) rest next
    | .error h => .error (h.attach ⟨number, line⟩)

end Mips64.Assembly
