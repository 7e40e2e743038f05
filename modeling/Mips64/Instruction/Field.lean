/-! The fields of a machine word that operands are placed in. -/
namespace Mips64

inductive Field
  | rs
  | rt
  | rd
  | sa
  | imm
  | target
  deriving DecidableEq, Repr

namespace Field

def shift : Field → Nat
  | rs => 21
  | rt => 16
  | rd => 11
  | sa => 6
  | imm => 0
  | target => 0

def width : Field → Nat
  | rs | rt | rd | sa => 5
  | imm => 16
  | target => 24

/-- The bits of a field, before they are shifted to its position. -/
def mask (f : Field) : Nat := Nat.pow 2 f.width - 1

/-- The low bits of a value at the position of a field. -/
def embed (f : Field) (value : Int) : Nat :=
  (value % Nat.pow 2 f.width).toNat * Nat.pow 2 f.shift

example : rs.embed (-1) = 0x03E00000 ∧ imm.embed 0x12345 = 0x2345 := by decide

end Field
end Mips64
