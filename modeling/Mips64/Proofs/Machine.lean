import Mips64.Proofs.Decoding

/-! A machine that carries out words. A word stands for the instruction whose pattern it shows
outside the fields, and the instruction does what its pseudocode in the table says. Main statement:
the word of an instruction is carried out as that instruction, whatever its operands, unless it is
one of the idle pair. -/
namespace Mips64

/-- The general registers of a machine, and the address of the instruction that comes next. -/
structure Machine where
  registers : Nat → BitVec 64
  pc : BitVec 64

namespace Machine

/-- What a register holds. Register 0 is always zero. -/
def register (m : Machine) (index : Nat) : BitVec 64 := if index = 0 then 0 else m.registers index

def withRegister (m : Machine) (index : Nat) (value : BitVec 64) : Machine :=
  { m with registers := fun k => if k = index then value else m.registers k }

def next (m : Machine) : Machine := { m with pc := m.pc + 4 }

@[simp] lemma register_withRegister (m : Machine) {index : Nat} (nonzero : index ≠ 0)
    (value : BitVec 64) : (m.withRegister index value).register index = value := by
  simp [register, withRegister, nonzero]

@[simp] lemma register_next (m : Machine) (index : Nat) :
    m.next.register index = m.register index := rfl

end Machine

inductive Effect
  | loadUpper
  | addSigned
  | jump
  | jumpAndLink
  deriving DecidableEq

namespace Effect

/-- The effect that pseudocode of the table describes. -/
def ofPseudocode? (pseudocode : String) : Option Effect :=
  if pseudocode = "(rt)=imm<<16" then some loadUpper
  else if pseudocode = "(rt)=(rs)+SignExt(imm)" then some addSigned
  else if pseudocode = "PC=(rs)" then some jump
  else if pseudocode = "R31=PC+8; PC=(rs)" then some jumpAndLink
  else none

/-- The effect of a word on a machine. Registers are read before one is written. -/
def apply (m : Machine) (word : Nat) : Effect → Machine
  | loadUpper =>
    (m.withRegister (Field.rt.extract word)
      ((BitVec.ofNat 16 (Field.imm.extract word)).zeroExtend 64 <<< 16)).next
  | addSigned =>
    (m.withRegister (Field.rt.extract word)
      (m.register (Field.rs.extract word) +
        (BitVec.ofNat 16 (Field.imm.extract word)).signExtend 64)).next
  | jump => { m with pc := m.register (Field.rs.extract word) }
  | jumpAndLink =>
    { m.withRegister 31 (m.pc + 8) with pc := m.register (Field.rs.extract word) }

end Effect

namespace Instruction

def ofWord? (word : Nat) : Option Instruction := builtin.find? (fun i => i.Shows word)

variable {i : Instruction}

/-- The word of an instruction stands for it, the idle pair apart. -/
theorem ofWord?_pack (listed : i ∈ builtin) (busy : i.symbol ∉ ["NOP".toList, "SLL".toList])
    (values : List Int) : ofWord? (i.pack values) = some i := by
  have shows := (isClear_of_mem_builtin listed).shows_pack values
  cases found : ofWord? (i.pack values) with
  | none => exact absurd shows (by simpa using List.find?_eq_none.1 found i listed)
  | some j =>
    have other : j.Shows (i.pack values) := by simpa using List.find?_some found
    by_contra distinct
    have apart : i ≠ j := fun same => distinct (same ▸ rfl)
    rcases overlapsAtMostIdle listed (List.mem_of_find?_eq_some found) apart
      (overlaps_of_shows shows other) with ⟨nop, -⟩ | ⟨-, shift⟩
    · exact busy (by simp [nop])
    · exact busy (by simp [shift])

end Instruction

def Effect.ofWord? (word : Nat) : Option Effect :=
  (Instruction.ofWord? word).bind (fun i => ofPseudocode? i.pseudocode)

namespace Machine

def step (m : Machine) (word : Nat) : Option Machine :=
  (Effect.ofWord? word).map (fun effect => effect.apply m word)

def run (m : Machine) (words : List Nat) : Option Machine := words.foldlM step m

/-- The word of an instruction has the effect that its pseudocode describes. -/
lemma step_pack {i : Instruction} (listed : i ∈ Instruction.builtin)
    (busy : i.symbol ∉ ["NOP".toList, "SLL".toList]) {effect : Effect}
    (described : Effect.ofPseudocode? i.pseudocode = some effect) (values : List Int)
    (m : Machine) : m.step (i.pack values) = some (effect.apply m (i.pack values)) := by
  simp [step, Effect.ofWord?, Instruction.ofWord?_pack listed busy values, described]

end Machine
end Mips64
