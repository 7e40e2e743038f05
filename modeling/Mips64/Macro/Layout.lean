import Mips64.Text.Blank
import Mips64.Text.Digit

/-! Layouts: how a text is cut and padded where a template asks for it. A layout is written as a
fill character and an alignment, a width, and a limit behind a point, each of which may be left out.
-/
namespace Mips64.Template

/-- The largest number that a template can hold. -/
def maxNumber : Nat := 0x7FFFFFFFFFFFFFFF

/-- The number that digits of any script denote from a value on, and what follows them. There is
none where the number grows beyond the largest. -/
def numberFrom? (n : Nat) : Text → Option (Nat × Text)
  | [] => some (n, [])
  | c :: rest =>
    match Text.decimalValue? c with
    | none => some (n, c :: rest)
    | some digit =>
      if maxNumber < n * 10 + digit then none else numberFrom? (n * 10 + digit) rest

/-- On which side of the padding a text stands. -/
inductive Alignment
  | left
  | right
  | centre
  deriving DecidableEq, Repr

def Alignment.ofMark? : Char → Option Alignment
  | '<' => some left
  | '>' => some right
  | '^' => some centre
  | _ => none

/-- A text is cut to the limit first and then padded to the width. -/
structure Layout where
  fill : Char
  alignment : Alignment
  width : Nat
  limit : Option Nat
  deriving DecidableEq, Repr

namespace Layout

/-- The fill character, if one is written, the alignment, and what follows them. -/
def alignmentOf : Text → Option Char × Alignment × Text
  | [] => (none, .left, [])
  | [c] =>
    match Alignment.ofMark? c with
    | some alignment => (none, alignment, [])
    | none => (none, .left, [c])
  | c :: d :: rest =>
    match Alignment.ofMark? d with
    | some alignment => (some c, alignment, rest)
    | none =>
      match Alignment.ofMark? c with
      | some alignment => (none, alignment, d :: rest)
      | none => (none, .left, c :: d :: rest)

/-- The limit behind a point, which must be written out, and what follows it. -/
def limitOf? : Text → Option (Option Nat × Text)
  | '.' :: c :: rest =>
    if (Text.decimalValue? c).isSome then (numberFrom? 0 (c :: rest)).map (fun r => (some r.1, r.2))
    else none
  | ['.'] => none
  | t => some (none, t)

/-- The layout that a text describes. A zero before the width is a fill character where none is
written, and an `s` may stand at the end. -/
def ofText? (t : Text) : Option Layout :=
  let (written, alignment, rest) := alignmentOf t
  let (fill, sized) :=
    match written, rest with
    | none, '0' :: sized => ('0', sized)
    | _, _ => (written.getD ' ', rest)
  match numberFrom? 0 sized with
  | none => none
  | some (width, limited) =>
    match limitOf? limited with
    | some (limit, ending) =>
      if ending = [] ∨ ending = ['s'] then some ⟨fill, alignment, width, limit⟩ else none
    | none => none

/-- The text in a layout. Of an odd number of padding characters around a text, the right side has
one more. -/
def apply (l : Layout) (s : Text) : Text :=
  let cut := match l.limit with
    | some limit => s.take limit
    | none => s
  let missing := l.width - cut.length
  let before := match l.alignment with
    | .left => 0
    | .right => missing
    | .centre => missing / 2
  List.replicate before l.fill ++ cut ++ List.replicate (missing - before) l.fill

example : (ofText? "*^7.2".toList).map (fun l => l.apply "abc".toList) =
    some "**ab***".toList := by rfl
example : (ofText? "05".toList).map (fun l => l.apply "abc".toList) = some "abc00".toList := by rfl
example : ofText? "d".toList = none ∧ ofText? ".".toList = none := by decide

end Layout
end Mips64.Template
