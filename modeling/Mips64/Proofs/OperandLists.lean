import Mips64.Proofs.Failures
import Mips64.Proofs.Literals
import Mips64.Proofs.Operands

/-! The operands of an instruction, read token by token. An offset token gives two operands, and
every other token gives one. Main statement: where each base follows its offset, an instruction is
refused for its number of tokens exactly if they are not one for every other kind, and otherwise
its operands match its kinds one by one. -/
namespace Mips64

/-- The number of bits in the operands of a kind that are numbers. -/
def OperandKind.bits? : OperandKind → Option Nat
  | .number16 | .offset | .branch => some 16
  | .number24 => some 24
  | .number5 => some 5
  | _ => none

/-- An operand of the form and in the range of its kind. -/
def OperandKind.Fits (kind : OperandKind) : Operand → Prop
  | .register index => kind ∈ [.general, .control, .base] ∧ index < 32
  | .immediate value bits => kind.bits? = some bits ∧ 0 ≤ value ∧ value < 2 ^ bits
  | .text _ => False

/-- A failure that is about a numeral where it is about no cause. -/
def Failure.IsOfNumeral : Failure → Prop
  | .cause _ => True
  | .fault f => f = .longDecimal ∨ f = .nonDecimalDigit

open Failure (IsOfNumeral)

lemma Register.read_lt {bank : Bank} {token : Text} {index : Nat}
    (h : read bank token = .ok index) : index < 32 := by
  have named : ∀ entry ∈ bank.names, entry.2 < 32 := by cases bank <;> decide +kernel
  simp only [read] at h
  split at h
  · split at h
    · rename_i found
      cases h
      obtain ⟨before, after, names, -⟩ := List.lookup_eq_some_iff.1 found
      rw [names] at named
      exact named _ (List.mem_append_right _ List.mem_cons_self)
    · split at h
      · split at h
        · cases h
        · split at h
          · rename_i small
            cases h
            exact small
          · cases h
      · cases h
  · cases h

lemma Register.failsWithin_decimalNumber (digits : Text) :
    FailsWithin (fun f => f = .longDecimal ∨ f = .nonDecimalDigit) (decimalNumber digits) := by
  unfold decimalNumber
  split
  · exact .error (.inl rfl)
  · split
    · exact .error (.inr rfl)
    · exact .ok _

lemma Register.failsWithin_read_isOfNumeral (bank : Bank) (token : Text) :
    FailsWithin IsOfNumeral (read bank token) := by
  unfold read
  dsimp only
  split
  · split
    · exact .ok _
    · split
      · split
        · rename_i fault failed
          exact .error (failsWithin_decimalNumber _ fault failed)
        · split
          · exact .ok _
          · exact .error trivial
      · exact .error trivial
  · exact .error trivial

namespace Operand

lemma failsWithin_address_isOfNumeral (symbols : Symbols) (token : Text) :
    FailsWithin IsOfNumeral (address symbols token) := by
  unfold address
  dsimp only
  split
  · exact .ok _
  · intro failure failed
    unfold number at failed
    obtain ⟨n, denotes⟩ | long | ⟨flaw, invalid⟩ := literal_cases symbols
      (Text.upper (Text.strip (Text.upper (Text.strip token))))
    · cases failed.symm.trans (literal_of_denotes denotes)
    · cases failed.symm.trans (literal_of_isOverlong long)
      exact .inl rfl
    · cases failed.symm.trans invalid
      trivial

lemma failsWithin_value_isOfNumeral (symbols : Symbols) (token : Text) :
    FailsWithin IsOfNumeral (value symbols token) := by
  unfold value
  split
  · split <;> exact .error trivial
  · exact failsWithin_address_isOfNumeral symbols token

lemma failsWithin_displacement_isOfNumeral (symbols : Symbols) (here : Nat) (token : Text) :
    FailsWithin IsOfNumeral (displacement symbols here token) := by
  unfold displacement
  split
  · exact .error trivial
  · split
    · exact .ok _
    · exact .error trivial
    · rename_i failure _ failed
      exact .error (failsWithin_address_isOfNumeral symbols token failure failed)

lemma failsWithin_offsetParts_isOfNumeral (token : Text) :
    FailsWithin IsOfNumeral (offsetParts token) := by
  refine (failsWithin_offsetParts token).imp fun failure h => ?_
  cases failure with
  | cause c => trivial
  | fault f => exact h.2.elim

lemma failsWithin_readPlain_isOfNumeral {kind : OperandKind} (numeric : kind.isNumeric = true)
    (symbols : Symbols) (here : Nat) (token : Text) (operands : Option (List Text))
    (position : Nat) :
    FailsWithin IsOfNumeral (readPlain symbols here kind token operands position) := by
  cases kind with
  | general | base | control =>
    exact (Register.failsWithin_read_isOfNumeral _ _).bind fun _ _ => .ok _
  | number16 | number24 | number5 =>
    exact (failsWithin_value_isOfNumeral _ _).bind fun _ _ => .ok _
  | branch => exact (failsWithin_displacement_isOfNumeral _ _ _).bind fun _ _ => .ok _
  | offset =>
    refine (failsWithin_offsetParts_isOfNumeral _).bind fun _ _ => ?_
    exact (failsWithin_value_isOfNumeral _ _).bind fun _ _ => .ok _
  | word | string | rest => cases numeric

lemma displacement_range {symbols : Symbols} {here : Nat} {token : Text} {distance : Int}
    (h : displacement symbols here token = .ok distance) : 0 ≤ distance ∧ distance < 2 ^ 16 := by
  unfold displacement at h
  split at h
  · cases h
  · split at h
    · cases h
      omega
    · cases h
    · cases h

/-- A numeric operand is in the form and the range of its kind. -/
lemma fits_of_readPlain {kind : OperandKind} (numeric : kind.isNumeric = true) {symbols : Symbols}
    {here : Nat} {token : Text} {operands : Option (List Text)} {position : Nat} {operand : Operand}
    (h : readPlain symbols here kind token operands position = .ok operand) :
    kind.Fits operand := by
  have cut (bits : Nat) (value : Int) (known : kind.bits? = some bits) :
      kind.Fits (lowBits bits value) := by
    have positive : (0 : Int) < Nat.pow 2 bits := by exact_mod_cast Nat.two_pow_pos bits
    refine ⟨known, Int.emod_nonneg _ positive.ne', ?_⟩
    exact_mod_cast Int.emod_lt_of_pos value positive
  cases kind with
  | general | base | control =>
    obtain ⟨index, read, same⟩ := bind_eq_ok_iff.1 h
    cases same
    exact ⟨by simp, Register.read_lt read⟩
  | number16 | number24 | number5 =>
    obtain ⟨value, -, same⟩ := bind_eq_ok_iff.1 h
    cases same
    exact cut _ _ rfl
  | branch =>
    obtain ⟨distance, displaced, same⟩ := bind_eq_ok_iff.1 h
    cases same
    exact ⟨rfl, displacement_range displaced⟩
  | offset =>
    obtain ⟨parts, -, rest⟩ := bind_eq_ok_iff.1 h
    obtain ⟨value, -, same⟩ := bind_eq_ok_iff.1 rest
    cases same
    exact cut _ _ rfl
  | word | string | rest => cases numeric

section
variable {kind : OperandKind} (numeric : kind.isNumeric = true) {symbols : Symbols} {here : Nat}
  {token : Text} {operands : Option (List Text)} {position : Nat}
  (inside : ∀ list, operands = some list → position < list.length)
include numeric inside

lemma fits_of_read {operand : Operand}
    (h : read symbols here kind token operands position = .ok operand) : kind.Fits operand := by
  rw [read_numeric numeric symbols here token inside] at h
  exact fits_of_readPlain numeric h

lemma failsWithin_read_isOfNumeral :
    FailsWithin IsOfNumeral (read symbols here kind token operands position) := by
  rw [read_numeric numeric symbols here token inside]
  exact failsWithin_readPlain_isOfNumeral numeric _ _ _ _ _

end

/-- The immediate inside an offset token is read as a number of 16 bits. -/
lemma read_offset (symbols : Symbols) (here : Nat) (token : Text) {operands : Option (List Text)}
    {position : Nat} (inside : ∀ list, operands = some list → position < list.length) :
    read symbols here .offset token operands position = (do
      let (imm, _) ← offsetParts (substitute symbols token)
      read symbols here .number16 imm none 0) := by
  rw [read_numeric rfl symbols here token inside, readPlain]
  cases offsetParts (substitute symbols token) with
  | error failure => rfl
  | ok parts =>
    have half : read symbols here .number16 parts.1 none 0 =
        readPlain symbols here .number16 (substitute symbols parts.1) none 0 :=
      read_numeric rfl symbols here parts.1 (by rintro list ⟨⟩)
    exact half.symm

end Operand

namespace Instruction

section
variable (symbols : Symbols) (here : Nat) (written : List Text)

/-- The operands that one token gives: its own and, behind that of an offset token, the base
register in it. -/
def readToken (kind : OperandKind) (token : Text) (position : Nat) :
    Except Failure (List Operand) := do
  let first ← Operand.read symbols here kind token (some written) position
  if kind = .offset then
    let (_, register) ← Operand.offsetParts (Operand.substitute symbols token)
    let base ← Operand.read symbols here .base register none 0
    return [first, base]
  else return [first]

variable {symbols here written}

/-- Operands are read token by token. -/
lemma readFrom_cons {kind : OperandKind} {token : Text} {position : Nat}
    (found : written[position]? = some token) (kinds : List OperandKind) :
    readFrom symbols here written (kind :: kinds) position = (do
      let front ← readToken symbols here written kind token position
      let others ← readFrom symbols here written kinds (position + 1)
      return front ++ others) := by
  rw [readFrom, found, readToken]
  by_cases double : kind = .offset
  · simp only [if_pos double, bind_assoc, pure_bind]
  · simp only [if_neg double, bind_assoc, pure_bind]

/-- A token that is no offset token gives one operand. -/
lemma readToken_single {kind : OperandKind} (single : kind ≠ .offset) (token : Text)
    (position : Nat) : readToken symbols here written kind token position =
      (Operand.read symbols here kind token (some written) position).map ([·]) := by
  simp only [readToken, if_neg single]
  cases Operand.read symbols here kind token (some written) position <;> rfl

/-- The operands of an offset, each part read as a token of its own. -/
def readParts (here : Nat) (imm register : Text) (symbols : Symbols) :
    Except Failure (List Operand) := do
  let first ← Operand.read symbols here .number16 imm none 0
  let base ← Operand.read symbols here .base register none 0
  return [first, base]

/-- An offset token is cut once for both of its operands. -/
lemma readToken_offset {position : Nat} (inside : position < written.length) (token : Text) :
    readToken symbols here written .offset token position =
      (Operand.offsetParts (Operand.substitute symbols token) >>= fun parts =>
        readParts here parts.1 parts.2 symbols) := by
  rw [readToken, Operand.read_offset symbols here token (by rintro list ⟨⟩; exact inside)]
  cases Operand.offsetParts (Operand.substitute symbols token) with
  | error failure => rfl
  | ok parts => rfl

lemma readToken_single_eq_ok_iff {kind : OperandKind} (single : kind ≠ .offset) {token : Text}
    {position : Nat} {front : List Operand} :
    readToken symbols here written kind token position = .ok front ↔ ∃ first,
      Operand.read symbols here kind token (some written) position = .ok first ∧
        front = [first] := by
  rw [readToken_single single]
  cases Operand.read symbols here kind token (some written) position with
  | error failure => simp [Except.map]
  | ok first => simp [Except.map, eq_comm]

lemma readToken_offset_eq_ok_iff {position : Nat} (inside : position < written.length)
    {token : Text} {front : List Operand} :
    readToken symbols here written .offset token position = .ok front ↔
      ∃ imm register first base,
        Operand.offsetParts (Operand.substitute symbols token) = .ok (imm, register) ∧
        Operand.read symbols here .number16 imm none 0 = .ok first ∧
        Operand.read symbols here .base register none 0 = .ok base ∧ front = [first, base] := by
  rw [readToken_offset inside]
  constructor
  · intro h
    obtain ⟨parts, cut, h⟩ := bind_eq_ok_iff.1 h
    obtain ⟨first, half, h⟩ := bind_eq_ok_iff.1 h
    obtain ⟨base, read, h⟩ := bind_eq_ok_iff.1 h
    cases h
    exact ⟨parts.1, parts.2, first, base, cut, half, read, rfl⟩
  · rintro ⟨imm, register, first, base, cut, half, read, rfl⟩
    refine bind_eq_ok_iff.2 ⟨(imm, register), cut, ?_⟩
    exact bind_eq_ok_iff.2 ⟨first, half, bind_eq_ok_iff.2 ⟨base, read, rfl⟩⟩

/-- Operands are read where the first token can be read and the others can. -/
lemma readFrom_cons_eq_ok_iff {kind : OperandKind} {kinds : List OperandKind} {position : Nat}
    {operands : List Operand} :
    readFrom symbols here written (kind :: kinds) position = .ok operands ↔
      ∃ token front others, written[position]? = some token ∧
        readToken symbols here written kind token position = .ok front ∧
        readFrom symbols here written kinds (position + 1) = .ok others ∧
        operands = front ++ others := by
  cases found : written[position]? with
  | none => simp [readFrom, found]
  | some token =>
    rw [readFrom_cons found]
    constructor
    · intro h
      obtain ⟨front, read, h⟩ := bind_eq_ok_iff.1 h
      obtain ⟨others, rest, h⟩ := bind_eq_ok_iff.1 h
      cases h
      exact ⟨token, front, others, rfl, read, rest, rfl⟩
    · rintro ⟨_, front, others, ⟨⟩, read, rest, rfl⟩
      exact bind_eq_ok_iff.2 ⟨front, read, bind_eq_ok_iff.2 ⟨others, rest, rfl⟩⟩

/-- A token gives its own operand first, and an offset token one more. -/
lemma exists_of_readToken {kind : OperandKind} {token : Text} {position : Nat}
    {front : List Operand} (h : readToken symbols here written kind token position = .ok front) :
    ∃ operand second, Operand.read symbols here kind token (some written) position = .ok operand ∧
      front = operand :: second ∧ second.length = [kind].count .offset := by
  unfold readToken at h
  obtain ⟨operand, read, h⟩ := bind_eq_ok_iff.1 h
  split at h
  · rename_i double
    obtain ⟨parts, -, h⟩ := bind_eq_ok_iff.1 h
    obtain ⟨base, -, h⟩ := bind_eq_ok_iff.1 h
    cases h
    exact ⟨operand, [base], read, rfl, by simp [double]⟩
  · rename_i single
    cases h
    exact ⟨operand, [], read, rfl, by simp [single]⟩

/-- The number of operands before that of a token: one for each token before it, and one more for
each offset among them. -/
def operandsBefore (kinds : List OperandKind) (j : Nat) : Nat := j + (kinds.take j).count .offset

lemma operandsBefore_of_single {kinds : List OperandKind} (single : ∀ kind ∈ kinds, kind ≠ .offset)
    (j : Nat) : operandsBefore kinds j = j := by
  have unpaired : .offset ∉ kinds.take j := fun member => single _ (List.mem_of_mem_take member) rfl
  rw [operandsBefore, List.count_eq_zero.2 unpaired, Nat.add_zero]

/-- Whatever kinds are asked for, each token is read, and its operand has a place among all. -/
lemma getElem?_of_readFrom {kinds : List OperandKind} {position : Nat} {operands : List Operand}
    (h : readFrom symbols here written kinds position = .ok operands) :
    operands.length = operandsBefore kinds kinds.length ∧
    ∀ (j : Nat) (kind : OperandKind), kinds[j]? = some kind →
      ∃ token operand, written[position + j]? = some token ∧
        Operand.read symbols here kind token (some written) (position + j) = .ok operand ∧
        operands[operandsBefore kinds j]? = some operand := by
  induction kinds generalizing position operands with
  | nil =>
    cases h
    exact ⟨rfl, fun j kind kind_at => by simp at kind_at⟩
  | cons head kinds ih =>
    obtain ⟨token, front, others, token_at, first, rest, rfl⟩ := readFrom_cons_eq_ok_iff.1 h
    obtain ⟨operand, second, read, rfl, double⟩ := exists_of_readToken first
    obtain ⟨length, inner⟩ := ih rest
    have before (j : Nat) : operandsBefore (head :: kinds) (j + 1) =
        (operand :: second).length + operandsBefore kinds j := by
      rw [operandsBefore, operandsBefore, List.length_cons, double, List.take_succ_cons,
        ← List.singleton_append, List.count_append]
      omega
    refine ⟨?_, fun j kind kind_at => ?_⟩
    · rw [List.length_append, length]
      exact (before kinds.length).symm
    · cases j with
      | zero =>
        cases kind_at
        exact ⟨token, operand, token_at, read, rfl⟩
      | succ j =>
        have next : position + (j + 1) = position + 1 + j := by omega
        rw [next, before, List.getElem?_append_right (Nat.le_add_right _ _),
          Nat.add_sub_cancel_left]
        exact inner j kind kind_at

/-- A word is packed from operands that are read one after the other. -/
lemma encode_eq_ok {i : Instruction} {word : Nat} (h : i.encode symbols here written = .ok word) :
    ∃ operands, i.readOperands symbols here written = .ok operands ∧
      readFrom symbols here written (i.kinds.filter (· != .base)) 0 = .ok operands ∧
      i.word operands = .ok word := by
  obtain ⟨operands, reads, packed⟩ := bind_eq_ok_iff.1 h
  refine ⟨operands, reads, ?_, ?_⟩
  · unfold readOperands at reads
    split at reads
    · exact reads
    · cases reads
  · cases made : i.word operands with
    | error fault => rw [made] at packed; cases packed
    | ok n =>
      rw [made] at packed
      cases packed
      rfl

end

/-- The number of tokens before that of an operand, where a base has no token of its own. -/
def tokensBefore (kinds : List OperandKind) (j : Nat) : Nat :=
  (kinds.take j).countP (· != .base)

/-- Operands that match kinds one by one, each with the token it is read from. The operands of an
offset and of the base behind it are read from one text. -/
structure Matches (symbols : Symbols) (here : Nat) (written : List Text)
    (kinds : List OperandKind) (position : Nat) (operands : List Operand) : Prop where
  fits : List.Forall₂ OperandKind.Fits kinds operands
  single : ∀ j kind, kinds[j]? = some kind → kind ≠ .offset → kind ≠ .base →
    ∃ token operand, written[position + tokensBefore kinds j]? = some token ∧
      Operand.read symbols here kind token (some written) (position + tokensBefore kinds j) =
        .ok operand ∧ operands[j]? = some operand
  pair : ∀ j, kinds[j]? = some .offset →
    ∃ token imm register first base, written[position + tokensBefore kinds j]? = some token ∧
      Operand.offsetParts (Operand.substitute symbols token) = .ok (imm, register) ∧
      Operand.read symbols here .number16 imm none 0 = .ok first ∧
      Operand.read symbols here .base register none 0 = .ok base ∧
      operands[j]? = some first ∧ operands[j + 1]? = some base

/-- Kinds in which a base stands behind each offset and nowhere else, part by part. -/
inductive Coupled : List OperandKind → Prop
  | nil : Coupled []
  | single {kind : OperandKind} {kinds : List OperandKind} (one : kind ≠ .offset)
      (own : kind ≠ .base) (others : Coupled kinds) : Coupled (kind :: kinds)
  | pair {kinds : List OperandKind} (others : Coupled kinds) : Coupled (.offset :: .base :: kinds)

section
variable {symbols : Symbols} {here : Nat} {written : List Text} {kinds : List OperandKind}
  {position : Nat} {operands : List Operand}

lemma tokensBefore_cons_succ {kind : OperandKind} (own : kind ≠ .base) (kinds : List OperandKind)
    (j : Nat) : tokensBefore (kind :: kinds) (j + 1) = tokensBefore kinds j + 1 := by
  simp [tokensBefore, own]

lemma tokensBefore_pair (kinds : List OperandKind) (j : Nat) :
    tokensBefore (.offset :: .base :: kinds) (j + 2) = tokensBefore kinds j + 1 := by
  simp [tokensBefore]

/-- Operands match where what the first token gives does, and the others do. -/
lemma matches_single_iff {kind : OperandKind} (numeric : kind.isNumeric = true)
    (one : kind ≠ .offset) (own : kind ≠ .base) :
    Matches symbols here written (kind :: kinds) position operands ↔
      ∃ token front others, written[position]? = some token ∧
        readToken symbols here written kind token position = .ok front ∧
        Matches symbols here written kinds (position + 1) others ∧ operands = front ++ others := by
  have shift (j : Nat) : position + 1 + tokensBefore kinds j =
      position + tokensBefore (kind :: kinds) (j + 1) := by
    rw [tokensBefore_cons_succ own]
    omega
  constructor
  · intro h
    obtain ⟨token, first, token_at, read, first_at⟩ := h.single 0 kind rfl one own
    obtain ⟨others, rfl⟩ : ∃ others, operands = first :: others := by
      cases operands with
      | nil => cases first_at
      | cons _ others =>
        cases first_at
        exact ⟨others, rfl⟩
    refine ⟨token, [first], others, token_at,
      (readToken_single_eq_ok_iff one).2 ⟨first, read, rfl⟩, ⟨?_, ?_, ?_⟩, rfl⟩
    · exact (List.forall₂_cons.1 h.fits).2
    · intro j kind' kind_at
      rw [shift]
      exact h.single (j + 1) kind' kind_at
    · intro j kind_at
      rw [shift]
      exact h.pair (j + 1) kind_at
  · rintro ⟨token, front, others, token_at, read, h, rfl⟩
    obtain ⟨first, direct, rfl⟩ := (readToken_single_eq_ok_iff one).1 read
    have inside : position < written.length := (List.getElem?_eq_some_iff.1 token_at).1
    have fits := Operand.fits_of_read numeric (by rintro list ⟨⟩; exact inside) direct
    refine ⟨.cons fits h.fits, ?_, ?_⟩
    · intro j kind' kind_at one' own'
      cases j with
      | zero =>
        cases kind_at
        exact ⟨token, first, token_at, direct, rfl⟩
      | succ j =>
        rw [← shift]
        exact h.single j kind' kind_at one' own'
    · intro j kind_at
      cases j with
      | zero =>
        cases kind_at
        exact absurd rfl one
      | succ j =>
        rw [← shift]
        exact h.pair j kind_at

lemma fits_offset_of_number16 {operand : Operand} (fits : OperandKind.number16.Fits operand) :
    OperandKind.offset.Fits operand := by
  cases operand with
  | register index => exact absurd fits.1 (by decide)
  | immediate value bits => exact fits
  | text value => exact fits

lemma matches_pair_iff :
    Matches symbols here written (.offset :: .base :: kinds) position operands ↔
      ∃ token front others, written[position]? = some token ∧
        readToken symbols here written .offset token position = .ok front ∧
        Matches symbols here written kinds (position + 1) others ∧ operands = front ++ others := by
  have shift (j : Nat) : position + 1 + tokensBefore kinds j =
      position + tokensBefore (.offset :: .base :: kinds) (j + 2) := by
    rw [tokensBefore_pair]
    omega
  constructor
  · intro h
    obtain ⟨token, imm, register, first, base, token_at, cut, half, read, first_at, base_at⟩ :=
      h.pair 0 rfl
    have inside : position < written.length := (List.getElem?_eq_some_iff.1 token_at).1
    obtain ⟨others, rfl⟩ : ∃ others, operands = first :: base :: others := by
      cases operands with
      | nil => cases first_at
      | cons _ operands =>
        cases operands with
        | nil => cases base_at
        | cons _ others =>
          cases first_at
          cases base_at
          exact ⟨others, rfl⟩
    refine ⟨token, [first, base], others, token_at, (readToken_offset_eq_ok_iff inside).2
      ⟨imm, register, first, base, cut, half, read, rfl⟩, ⟨?_, ?_, ?_⟩, rfl⟩
    · exact (List.forall₂_cons.1 (List.forall₂_cons.1 h.fits).2).2
    · intro j kind kind_at
      rw [shift]
      exact h.single (j + 2) kind kind_at
    · intro j kind_at
      rw [shift]
      exact h.pair (j + 2) kind_at
  · rintro ⟨token, front, others, token_at, read, h, rfl⟩
    have inside : position < written.length := (List.getElem?_eq_some_iff.1 token_at).1
    obtain ⟨imm, register, first, base, cut, half, inner, rfl⟩ :=
      (readToken_offset_eq_ok_iff inside).1 read
    have first_fits := fits_offset_of_number16 (Operand.fits_of_read rfl (by rintro list ⟨⟩) half)
    have base_fits := Operand.fits_of_read rfl (by rintro list ⟨⟩) inner
    refine ⟨.cons first_fits (.cons base_fits h.fits), ?_, ?_⟩
    · intro j kind kind_at one own
      cases j with
      | zero =>
        cases kind_at
        exact absurd rfl one
      | succ j =>
        cases j with
        | zero =>
          cases kind_at
          exact absurd rfl own
        | succ j =>
          rw [← shift]
          exact h.single j kind kind_at one own
    · intro j kind_at
      cases j with
      | zero => exact ⟨token, imm, register, first, base, token_at, cut, half, inner, rfl, rfl⟩
      | succ j =>
        cases j with
        | zero => cases kind_at
        | succ j =>
          rw [← shift]
          exact h.pair j kind_at

/-- Operands are read exactly if they match their kinds. -/
lemma readFrom_eq_ok_iff_matches (coupled : Coupled kinds)
    (numeric : ∀ kind ∈ kinds, kind.isNumeric = true) :
    readFrom symbols here written (kinds.filter (· != .base)) position = .ok operands ↔
      Matches symbols here written kinds position operands := by
  induction coupled generalizing position operands with
  | nil =>
    constructor
    · intro h
      cases h
      exact ⟨.nil, by simp, by simp⟩
    · intro h
      cases h.fits
      rfl
  | @single kind kinds one own others ih =>
    have rest := fun k member => numeric k (List.mem_cons_of_mem kind member)
    rw [List.filter_cons_of_pos (by simpa using own), readFrom_cons_eq_ok_iff,
      matches_single_iff (numeric kind List.mem_cons_self) one own]
    simp only [ih rest]
  | @pair kinds others ih =>
    have rest : ∀ kind ∈ kinds, kind.isNumeric = true := fun k member =>
      numeric k (List.mem_cons_of_mem _ (List.mem_cons_of_mem _ member))
    rw [List.filter_cons_of_pos (by decide), List.filter_cons_of_neg (by decide),
      readFrom_cons_eq_ok_iff, matches_pair_iff]
    simp only [ih rest]

/-- Reading numeric operands from enough tokens never runs out of tokens. -/
lemma failsWithin_readFrom_isOfNumeral (numeric : ∀ kind ∈ kinds, kind.isNumeric = true)
    (enough : position + kinds.length ≤ written.length) :
    FailsWithin IsOfNumeral (readFrom symbols here written kinds position) := by
  induction kinds generalizing position with
  | nil => exact .ok _
  | cons kind kinds ih =>
    rw [List.length_cons] at enough
    have inside : position < written.length := by omega
    have single := numeric kind List.mem_cons_self
    have others : FailsWithin IsOfNumeral (readFrom symbols here written kinds (position + 1)) :=
      ih (fun k member => numeric k (List.mem_cons_of_mem kind member)) (by omega)
    rw [readFrom_cons (List.getElem?_eq_getElem inside)]
    refine FailsWithin.bind ?_ fun _ _ => others.bind fun _ _ => .ok _
    by_cases double : kind = .offset
    · subst double
      rw [readToken_offset inside]
      refine (Operand.failsWithin_offsetParts_isOfNumeral _).bind fun parts _ => ?_
      refine (Operand.failsWithin_read_isOfNumeral rfl (by rintro list ⟨⟩)).bind fun _ _ => ?_
      exact (Operand.failsWithin_read_isOfNumeral rfl (by rintro list ⟨⟩)).bind fun _ _ => .ok _
    · rw [readToken_single double]
      refine (Operand.failsWithin_read_isOfNumeral single ?_).map _
      rintro list ⟨⟩
      exact inside

end

/-- Kinds with one offset at most and a base directly behind it, and no other base. -/
structure IsPaired (kinds : List OperandKind) : Prop where
  once : kinds.count .offset ≤ 1
  base_iff : ∀ k, kinds[k]? = some .base ↔ ∃ j, k = j + 1 ∧ kinds[j]? = some .offset

lemma IsPaired.coupled {kinds : List OperandKind} (paired : IsPaired kinds) : Coupled kinds := by
  obtain ⟨-, base_iff⟩ := paired
  induction length : kinds.length using Nat.strong_induction_on generalizing kinds with
  | _ n ih =>
    cases kinds with
    | nil => exact .nil
    | cons kind kinds =>
      have own : kind ≠ .base := by
        rintro rfl
        obtain ⟨j, impossible, -⟩ := (base_iff 0).1 rfl
        omega
      by_cases double : kind = .offset
      · subst double
        have second := (base_iff 1).2 ⟨0, rfl, rfl⟩
        cases kinds with
        | nil => cases second
        | cons next kinds =>
          cases second
          simp only [List.length_cons] at length
          refine .pair (ih kinds.length (by omega) (fun k => ?_) rfl)
          rw [← List.getElem?_cons_succ, ← List.getElem?_cons_succ, base_iff]
          constructor
          · rintro ⟨j, same, at_j⟩
            obtain rfl : j = k + 1 := by omega
            cases k with
            | zero => cases at_j
            | succ k => exact ⟨k, rfl, at_j⟩
          · rintro ⟨j, rfl, at_j⟩
            exact ⟨j + 2, rfl, at_j⟩
      · simp only [List.length_cons] at length
        refine .single double own (ih kinds.length (by omega) (fun k => ?_) rfl)
        rw [← List.getElem?_cons_succ, base_iff]
        constructor
        · rintro ⟨j, same, at_j⟩
          obtain rfl : j = k := by omega
          cases j with
          | zero =>
            cases at_j
            exact absurd rfl double
          | succ j => exact ⟨j, rfl, at_j⟩
        · rintro ⟨j, rfl, at_j⟩
          exact ⟨j + 1, rfl, at_j⟩

lemma Coupled.length_eq {kinds : List OperandKind} (coupled : Coupled kinds) :
    kinds.length = kinds.countP (· != .base) + kinds.count .offset := by
  induction coupled with
  | nil => rfl
  | @single kind kinds one own others ih =>
    have counted : (kind :: kinds).countP (· != .base) = kinds.countP (· != .base) + 1 :=
      List.countP_cons_of_pos (by simpa using own)
    have plain : (kind :: kinds).count .offset = kinds.count .offset := List.count_cons_of_ne one
    rw [List.length_cons, counted, plain]
    omega
  | @pair kinds others ih =>
    have counted : (OperandKind.offset :: .base :: kinds).countP (· != .base) =
        kinds.countP (· != .base) + 1 := by simp
    have offsets : (OperandKind.offset :: .base :: kinds).count .offset =
        kinds.count .offset + 1 := by simp
    rw [List.length_cons, List.length_cons, counted, offsets]
    omega

/-- As many tokens are asked for as there are kinds other than the base. -/
lemma IsPaired.tokenCount_eq {i : Instruction} (paired : IsPaired i.kinds) :
    i.tokenCount = i.kinds.countP (· != .base) := by
  have length := paired.coupled.length_eq
  have once := paired.once
  unfold tokenCount usesOffset
  split
  · rename_i uses
    have offsets : 0 < i.kinds.count .offset := List.count_pos_iff.2 (by simpa using uses)
    omega
  · rename_i unused
    have offsets : i.kinds.count .offset = 0 := List.count_eq_zero.2 (by simpa using unused)
    omega

/-- An instruction whose kinds are paired is refused for its number of tokens exactly if they are
not one for each kind other than the base. It never looks for a token that is not there, and it
reads operands exactly if they match its kinds. -/
theorem readOperands_matches {i : Instruction} (numeric : i.isNumeric = true)
    (paired : IsPaired i.kinds) (symbols : Symbols) (here : Nat) (written : List Text) :
    ((∃ cause, i.readOperands symbols here written = .error (.cause cause) ∧
        cause.kind = .wrongInstructionArity) ↔ written.length ≠ i.kinds.countP (· != .base)) ∧
    i.readOperands symbols here written ≠ .error (.fault .operandOutOfRange) ∧
    ∀ operands, i.readOperands symbols here written = .ok operands ↔
      written.length = i.kinds.countP (· != .base) ∧
        Matches symbols here written i.kinds 0 operands := by
  have each : ∀ kind ∈ i.kinds, kind.isNumeric = true := List.all_eq_true.1 numeric
  rw [readOperands, paired.tokenCount_eq]
  by_cases count : written.length = i.kinds.countP (· != .base)
  · rw [if_pos count]
    have enough : 0 + (i.kinds.filter (· != .base)).length ≤ written.length := by
      rw [← List.countP_eq_length_filter]
      omega
    refine ⟨iff_of_false ?_ (not_not_intro count), ?_, fun operands => ?_⟩
    · rintro ⟨cause, failed, arity⟩
      have about := failsWithin_readFrom symbols here written _ 0 _ failed
      cases cause <;> first | exact about | cases arity
    · intro failed
      have kept : ∀ kind ∈ i.kinds.filter (· != .base), kind.isNumeric = true :=
        fun kind member => each kind (List.mem_of_mem_filter member)
      rcases failsWithin_readFrom_isOfNumeral kept enough _ failed with long | other
      · cases long
      · cases other
    · rw [readFrom_eq_ok_iff_matches paired.coupled each]
      exact (and_iff_right count).symm
  · rw [if_neg count]
    refine ⟨iff_of_true ⟨_, rfl, rfl⟩ count, ?_, fun operands => ?_⟩
    · rintro ⟨⟩
    · exact iff_of_false (by rintro ⟨⟩) fun h => count h.1

/-- A load through a definition of its offset token, with one token for two operands. -/
theorem readOperands_matches_load : ∃ i ∈ builtin,
    Matches ⟨[], [], [("SLOT".toList, "-8($sp)".toList)], [], 0⟩ 0 ["$t0".toList, "slot".toList]
      i.kinds 0 [.register 8, .immediate 0xFFF8 16, .register 29] ∧
    ∃ cause, i.readOperands Symbols.empty 0 ["$t0".toList] = .error (.cause cause) ∧
      cause.kind = .wrongInstructionArity := by
  obtain ⟨i, listed, load, read⟩ : ∃ i ∈ builtin, i.kinds = [.general, .offset, .base] ∧
      i.readOperands ⟨[], [], [("SLOT".toList, "-8($sp)".toList)], [], 0⟩ 0
        ["$t0".toList, "slot".toList] =
          .ok [.register 8, .immediate 0xFFF8 16, .register 29] := by decide +kernel
  have paired : IsPaired i.kinds := by
    rw [load]
    refine ⟨by decide, fun k => ?_⟩
    rcases k with _ | _ | _ | _ | k <;> simp
  have numeric := isNumeric_builtin i listed
  refine ⟨i, listed, (((readOperands_matches numeric paired _ _ _).2.2 _).1 read).2, ?_⟩
  refine (readOperands_matches numeric paired _ _ _).1.2 ?_
  rw [load]
  decide

end Instruction
end Mips64
