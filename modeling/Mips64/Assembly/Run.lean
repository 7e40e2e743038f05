import Mips64.Encoding
import Mips64.Program.Basic

/-! The state of an assembly run. A run that stops short keeps what it has done. -/
namespace Mips64.Assembly

/-- The store, the number of instructions that the first pass has counted, and the listing. -/
structure Run where
  store : Store
  count : Nat
  listing : Array ListingEntry
  deriving DecidableEq, Repr

structure Halt where
  run : Run
  report : Report
  deriving DecidableEq, Repr

def Halt.attach (h : Halt) (place : Place) : Halt := { h with report := h.report.attach place }

namespace Run

def empty : Run := ⟨Store.empty, 0, #[]⟩

def halt (r : Run) (failure : Failure) : Halt := ⟨r, .unplaced failure⟩

def step (r : Run) : Except Failure Store → Except Halt Run
  | .ok store => .ok { r with store := store }
  | .error failure => .error (r.halt failure)

def note (r : Run) (record : Log.Record) : Run := { r with store := r.store.note record }

/-- The run in which the second pass starts, after a first pass that ended in this one: labels are
declared, and none is in scope. -/
def rewound (r : Run) : Run :=
  let noted := r.note (.firstPass r.count (r.store.labels.length + r.store.children.length)
    r.store.base)
  { noted with store := noted.store.withScope [] }

def program (r : Run) : Program :=
  ⟨r.store.words, r.store.labels, r.store.children, r.store.base, r.listing⟩

end Run
end Mips64.Assembly
