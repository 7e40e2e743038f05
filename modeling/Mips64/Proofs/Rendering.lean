import Mips64.Proofs.OperandLists
import Mips64.Proofs.Rewriting
import Mips64.Proofs.Sessions

/-! Instructions written as text. Registers are written by index, numbers in decimal, and branches
by the address they lead to. Main statement: the line of an instruction of the machine with values
for its fields is encoded as the word that holds these values. -/
namespace Mips64

namespace OperandKind

/-- The number of bits in the operands of a kind, registers included. -/
def width (kind : OperandKind) : Nat := kind.bits?.getD 5

def Admits (kind : OperandKind) (value : Int) : Prop := 0 ≤ value ∧ value < 2 ^ kind.width

def operand (kind : OperandKind) (value : Int) : Operand :=
  match kind.bits? with
  | some bits => .immediate value bits
  | none => .register value.toNat

/-- The text of a value as an operand of a kind, at an address. -/
def render (here : Nat) (kind : OperandKind) (value : Int) : Text :=
  match kind with
  | .general | .control | .base => '$' :: Text.decimal value
  | .branch => Text.decimal (here + 4 * (BitVec.ofInt 16 value).toInt)
  | _ => Text.decimal value

lemma value?_operand {kind : OperandKind} {value : Int} (positive : 0 ≤ value) :
    (kind.operand value).value? = some value := by
  unfold operand
  split
  · rfl
  · exact congrArg some (Int.toNat_of_nonneg positive)

end OperandKind

namespace Text

lemma mem_decimal {n : Int} {c : Char} (member : c ∈ decimal n) :
    c = '-' ∨ ∃ d < 10, c = Nat.digitChar d := by
  have digit (member : c ∈ Nat.toDigits 10 n.natAbs) : ∃ d < 10, c = Nat.digitChar d := by
    have spelt := spells_toDigits (show 2 ≤ 10 by decide) (by decide) n.natAbs
    obtain ⟨d, low, value⟩ := ((spells_iff (by decide)).1 spelt).2.1 c member
    exact ⟨d, low, (hexValue?_eq_some_iff_of_lt_ten low).1 value⟩
  unfold decimal at member
  split at member
  · rcases List.mem_cons.1 member with rfl | member
    · exact .inl rfl
    · exact .inr (digit member)
  · exact .inr (digit member)

/-- What holds of a minus sign and of the digits holds throughout a decimal text. -/
lemma forall_mem_decimal {p : Char → Prop} (minus : p '-') (digit : ∀ d < 10, p (Nat.digitChar d))
    (n : Int) : ∀ c ∈ decimal n, p c := by
  intro c member
  rcases mem_decimal member with rfl | ⟨d, low, rfl⟩
  · exact minus
  · exact digit d low

lemma decimal_ne_nil (n : Int) : decimal n ≠ [] := by
  unfold decimal
  split
  · exact List.cons_ne_nil _ _
  · exact Nat.toDigits_ne_nil

end Text

lemma Register.read_index (bank : Bank) {index : Nat} (known : index < 32) :
    read bank ('$' :: Text.decimal index) = .ok index := by
  have each : ∀ index < 32, read bank ('$' :: Text.decimal (index : Nat)) = .ok index := by
    cases bank <;> decide +kernel
  exact each index known

structure Symbols.IsBare (symbols : Symbols) : Prop where
  labels : symbols.labels = []
  children : symbols.children = []
  definitions : symbols.definitions = []

lemma Symbols.IsBare.label?_eq_none {symbols : Symbols} (bare : symbols.IsBare) (name : Text) :
    symbols.label? name = none := by
  unfold label?
  split
  · rfl
  · rw [bare.children]
    simp
  · rw [bare.labels]
    rfl

namespace Operand

/-- An offset token is cut into the texts it was put together from. -/
lemma offsetParts_join {imm register : Text} (nonempty : register ≠ [])
    (plain : ∀ c ∈ imm ++ register, Text.isBlank c = false ∧ isUnparenthesised c = true) :
    offsetParts (imm ++ '(' :: register ++ [')']) = .ok (imm, register) := by
  have first : ∀ c ∈ imm, isUnparenthesised c = true :=
    fun c member => (plain c (List.mem_append_left _ member)).2
  have second : ∀ c ∈ register, isUnparenthesised c = true :=
    fun c member => (plain c (List.mem_append_right _ member)).2
  have visible : ∀ c ∈ imm ++ '(' :: register ++ [')'], Text.isBlank c = false := by
    intro c member
    have cases : c ∈ imm ++ register ∨ c = '(' ∨ c = ')' := by
      simp only [List.append_assoc, List.cons_append, List.mem_append, List.mem_cons,
        List.not_mem_nil, or_false] at member ⊢
      tauto
    rcases cases with inside | rfl | rfl
    · exact (plain c inside).1
    · decide
    · decide
  have cut : (imm ++ '(' :: register ++ [')']).dropWhile isUnparenthesised =
      '(' :: (register ++ [')']) := by
    rw [List.append_assoc, List.dropWhile_append_of_pos first]
    rfl
  have front : (imm ++ '(' :: register ++ [')']).takeWhile isUnparenthesised = imm := by
    rw [List.append_assoc, List.takeWhile_append_of_pos first]
    simp [isUnparenthesised]
  have back : (register ++ [')']).dropWhile isUnparenthesised = [')'] := by
    rw [List.dropWhile_append_of_pos second]
    rfl
  have inner : (register ++ [')']).takeWhile isUnparenthesised = register := by
    rw [List.takeWhile_append_of_pos second]
    simp [isUnparenthesised]
  have ends (s : Text) (part : ∀ c ∈ s, c ∈ imm ++ register) : Text.strip s = s :=
    Text.strip_of_visible fun c member => (plain c (part c member)).1
  unfold offsetParts
  dsimp only
  rw [Text.strip_of_visible visible, cut]
  simp only [back, inner, front, ends imm (fun c => List.mem_append_left _),
    ends register (fun c => List.mem_append_right _), if_true]
  simp [nonempty]

section
variable {symbols : Symbols} (bare : symbols.IsBare)
include bare

lemma substitute_of_isBare (token : Text) : substitute symbols token = token := by
  rw [substitute, replacement?, Symbols.definition?, bare.definitions]
  rfl

lemma address_decimal {n : Int} (short : n.natAbs < 10 ^ Text.maxDecimalDigits) :
    address symbols (Text.decimal n) = .ok n := by
  have digits := Nat.toDigits_length 10 n.natAbs Text.maxDecimalDigits (by decide) short
  unfold address
  dsimp only
  rw [bare.label?_eq_none, (isDecimal_decimal n).upper_strip]
  exact number_decimal symbols digits

lemma value_decimal {n : Int} (short : n.natAbs < 10 ^ Text.maxDecimalDigits) :
    value symbols (Text.decimal n) = .ok n := by
  rw [value, address_decimal bare short]

lemma displacement_decimal {here : Nat} {n : Int} (short : n.natAbs < 10 ^ Text.maxDecimalDigits) :
    displacement symbols here (Text.decimal n) = .ok ((n - here) / 4 % 0x10000) := by
  have visible := Text.forall_mem_decimal (p := fun c => Text.isBlank c = false) (by decide)
    (by decide) n
  have written : (Text.strip (Text.decimal n)).isEmpty = false := by
    rw [Text.strip_of_visible visible]
    simpa using Text.decimal_ne_nil n
  rw [displacement, written, if_neg (by decide), address_decimal bare short]

/-- A number of few bits is read from its text and fits them. -/
lemma lowBits_decimal {bits : Nat} (few : bits ≤ 24) {n : Int} (positive : 0 ≤ n)
    (below : n < 2 ^ bits) :
    (value symbols (Text.decimal n) >>= fun v => pure (lowBits bits v)) =
      .ok (.immediate n bits) := by
  have small : 2 ^ bits ≤ 2 ^ 24 := Nat.pow_le_pow_right (by decide) few
  have short : n.natAbs < 10 ^ Text.maxDecimalDigits := by
    have low : n.natAbs < 2 ^ bits := by
      zify
      rwa [abs_of_nonneg positive]
    calc n.natAbs < 10 ^ 8 := by omega
      _ ≤ 10 ^ Text.maxDecimalDigits := Nat.pow_le_pow_right (by decide) (by decide)
  have whole : n % (Nat.pow 2 bits : Nat) = n :=
    Int.emod_eq_of_lt positive (by exact_mod_cast below)
  rw [value_decimal bare short]
  exact congrArg (fun v => Except.ok (Operand.immediate v bits)) whole

/-- A distance is read back from the address it leads to. -/
lemma displacement_target {here : Nat} (near : here + 2 ^ 17 < 10 ^ Text.maxDecimalDigits)
    {distance : Int} (positive : 0 ≤ distance) (below : distance < 2 ^ 16) :
    displacement symbols here (Text.decimal (here + 4 * (BitVec.ofInt 16 distance).toInt)) =
      .ok distance := by
  have lower := BitVec.le_toInt (BitVec.ofInt 16 distance)
  have upper := BitVec.toInt_lt (x := BitVec.ofInt 16 distance)
  have signed : (BitVec.ofInt 16 distance).toInt % 2 ^ 16 = distance := by
    rw [BitVec.toInt_ofInt]
    exact Int.bmod_emod.trans (Int.emod_eq_of_lt positive below)
  generalize (BitVec.ofInt 16 distance).toInt = words at *
  rw [displacement_decimal bare (by omega)]
  congr 1
  omega

/-- A value is read back from its text, whatever is written beside it. -/
lemma read_render {kind : OperandKind} (numeric : kind.isNumeric = true) (one : kind ≠ .offset)
    {here : Nat} {value : Int} (admitted : kind.Admits value)
    (near : kind = .branch → here + 2 ^ 17 < 10 ^ Text.maxDecimalDigits)
    {operands : Option (List Text)} {position : Nat}
    (inside : ∀ list, operands = some list → position < list.length) :
    read symbols here kind (kind.render here value) operands position =
      .ok (kind.operand value) := by
  obtain ⟨positive, below⟩ := admitted
  rw [read_numeric numeric symbols here _ inside, substitute_of_isBare bare]
  have register (bank : Register.Bank) (five : value < 2 ^ 5) :
      Register.read bank ('$' :: Text.decimal value) = .ok value.toNat := by
    have index := Register.read_index bank (show value.toNat < 32 by omega)
    rwa [Int.toNat_of_nonneg positive] at index
  cases kind with
  | general | base =>
    rw [OperandKind.render, readPlain, register .general below]
    rfl
  | control =>
    rw [OperandKind.render, readPlain, register .control below]
    rfl
  | number16 | number24 | number5 => exact lowBits_decimal bare (by decide) positive below
  | branch =>
    rw [OperandKind.render, readPlain, displacement_target bare (near rfl) positive below]
    rfl
  | offset => exact absurd rfl one
  | word | string | rest => cases numeric

end

end Operand

namespace Instruction

def offsetToken (imm register : Int) : Text :=
  Text.decimal imm ++ '(' :: ('$' :: Text.decimal register) ++ [')']

/-- The tokens of values as operands of kinds. An offset and the base behind it are one token. -/
def tokens (here : Nat) : List OperandKind → List Int → List Text
  | .offset :: .base :: kinds, imm :: register :: values =>
    offsetToken imm register :: tokens here kinds values
  | kind :: kinds, value :: values => kind.render here value :: tokens here kinds values
  | _, _ => []

/-- The line of an instruction with values, at an address. -/
def render (here : Nat) (i : Instruction) (values : List Int) : Text :=
  Line.ofStatement ⟨i.symbol, tokens here i.kinds values⟩

/-- A character that ends neither a token nor a part of it. -/
def isInner (c : Char) : Bool := !Text.isBlank c && c != ',' && Operand.isUnparenthesised c

lemma isInner_decimal (n : Int) : ∀ c ∈ Text.decimal n, isInner c = true :=
  Text.forall_mem_decimal (by decide) (by decide) n

lemma isInner_render (here : Nat) (kind : OperandKind) (value : Int) :
    ∀ c ∈ kind.render here value, isInner c = true := by
  cases kind with
  | general | control | base => exact List.forall_mem_cons.2 ⟨by decide, isInner_decimal _⟩
  | _ => exact isInner_decimal _

lemma offsetParts_offsetToken (imm register : Int) :
    Operand.offsetParts (offsetToken imm register) =
      .ok (Text.decimal imm, '$' :: Text.decimal register) := by
  refine Operand.offsetParts_join (List.cons_ne_nil _ _) fun c member => ?_
  have inner : isInner c = true := by
    rcases List.mem_append.1 member with left | right
    · exact isInner_decimal imm c left
    · exact isInner_render 0 .base register c right
  simp only [isInner, Bool.and_eq_true, Bool.not_eq_true'] at inner
  exact ⟨inner.1.1, inner.2⟩

lemma tokens_single {kind : OperandKind} (one : kind ≠ .offset) (here : Nat)
    (kinds : List OperandKind) (value : Int) (values : List Int) :
    tokens here (kind :: kinds) (value :: values) =
      kind.render here value :: tokens here kinds values := by
  cases kind with
  | offset => exact absurd rfl one
  | _ => rfl

section
variable {symbols : Symbols} (bare : symbols.IsBare) {here : Nat}
include bare

/-- Values are read back from their tokens. -/
lemma readFrom_tokens {kinds : List OperandKind} (coupled : Coupled kinds)
    (numeric : ∀ kind ∈ kinds, kind.isNumeric = true)
    (near : .branch ∈ kinds → here + 2 ^ 17 < 10 ^ Text.maxDecimalDigits) {values : List Int}
    (admitted : List.Forall₂ OperandKind.Admits kinds values) (before : List Text) :
    readFrom symbols here (before ++ tokens here kinds values) (kinds.filter (· != .base))
      before.length = .ok (List.zipWith OperandKind.operand kinds values) := by
  -- A token that has been read joins those before, so that the written list stays the same.
  induction coupled generalizing before values with
  | nil => rfl
  | @single kind kinds one own others ih =>
    cases admitted with
    | @cons _ value _ values first admitted =>
      rw [tokens_single one, List.filter_cons_of_pos (by simpa using own)]
      refine readFrom_cons_eq_ok_iff.2 ⟨kind.render here value, [kind.operand value],
        List.zipWith OperandKind.operand kinds values, by simp, ?_, ?_, rfl⟩
      · refine (readToken_single_eq_ok_iff one).2 ⟨_, ?_, rfl⟩
        refine Operand.read_render bare (numeric kind List.mem_cons_self) one first
          (fun branch => near (branch ▸ List.mem_cons_self)) ?_
        rintro list ⟨⟩
        simp
      · have rest := ih (fun k member => numeric k (List.mem_cons_of_mem kind member))
          (fun member => near (List.mem_cons_of_mem kind member)) admitted
          (before ++ [kind.render here value])
        simpa using rest
  | @pair kinds others ih =>
    cases admitted with
    | @cons _ imm _ _ first admitted =>
      cases admitted with
      | @cons _ register _ values second admitted =>
        rw [List.filter_cons_of_pos (by decide), List.filter_cons_of_neg (by decide)]
        have small : OperandKind.number16.Admits imm := first
        have half : Operand.read symbols here .number16 (Text.decimal imm) none 0 =
            .ok (OperandKind.number16.operand imm) :=
          Operand.read_render bare rfl (by decide) small (by rintro ⟨⟩) (by rintro list ⟨⟩)
        have base : Operand.read symbols here .base ('$' :: Text.decimal register) none 0 =
            .ok (OperandKind.base.operand register) :=
          Operand.read_render bare rfl (by decide) second (by rintro ⟨⟩) (by rintro list ⟨⟩)
        refine readFrom_cons_eq_ok_iff.2 ⟨offsetToken imm register,
          [OperandKind.number16.operand imm, OperandKind.base.operand register],
          List.zipWith OperandKind.operand kinds values, by simp [tokens], ?_, ?_, rfl⟩
        · refine (readToken_offset_eq_ok_iff (by simp [tokens])).2
            ⟨_, _, _, _, ?_, half, base, rfl⟩
          rw [Operand.substitute_of_isBare bare]
          exact offsetParts_offsetToken imm register
        · have rest := ih
            (fun k member => numeric k (List.mem_cons_of_mem _ (List.mem_cons_of_mem _ member)))
            (fun member => near (List.mem_cons_of_mem _ (List.mem_cons_of_mem _ member))) admitted
            (before ++ [offsetToken imm register])
          simpa [tokens] using rest

end

lemma length_tokens {kinds : List OperandKind} (coupled : Coupled kinds) (here : Nat)
    {values : List Int} (lengths : kinds.length = values.length) :
    (tokens here kinds values).length = kinds.countP (· != .base) := by
  induction coupled generalizing values with
  | nil => rfl
  | @single kind kinds one own others ih =>
    cases values with
    | nil => cases lengths
    | cons value values =>
      rw [tokens_single one, List.length_cons, ih (by simpa using lengths),
        List.countP_cons_of_pos (by simpa using own)]
  | @pair kinds others ih =>
    cases values with
    | nil => cases lengths
    | cons imm values =>
      cases values with
      | nil => simp at lengths
      | cons register values =>
        rw [tokens, List.length_cons, ih (by simpa using lengths),
          List.countP_cons_of_pos (by decide), List.countP_cons_of_neg (by decide)]

lemma map_value?_zipWith_operand {kinds : List OperandKind} {values : List Int}
    (admitted : List.Forall₂ OperandKind.Admits kinds values) :
    (List.zipWith OperandKind.operand kinds values).map Operand.value? = values.map some := by
  induction admitted with
  | nil => rfl
  | @cons kind value kinds values first others ih =>
    rw [List.zipWith_cons_cons, List.map_cons, List.map_cons, ih,
      OperandKind.value?_operand first.1]

/-- A text that stays one operand when a line is cut. -/
def IsToken (text : Text) : Prop :=
  text ≠ [] ∧ (∀ c ∈ text, Text.isBlank c = false) ∧ ',' ∉ text

lemma isToken_render (here : Nat) (kind : OperandKind) (value : Int) :
    IsToken (kind.render here value) := by
  have inner := isInner_render here kind value
  simp only [isInner, Bool.and_eq_true, Bool.not_eq_true', bne_iff_ne] at inner
  refine ⟨?_, fun c member => (inner c member).1.1, fun comma => (inner ',' comma).1.2 rfl⟩
  cases kind with
  | general | control | base => exact List.cons_ne_nil _ _
  | _ => exact Text.decimal_ne_nil _

lemma isToken_offsetToken (imm register : Int) : IsToken (offsetToken imm register) := by
  obtain ⟨-, visible, plain⟩ := isToken_render 0 .number16 imm
  obtain ⟨-, visible', plain'⟩ := isToken_render 0 .base register
  have each {p : Char → Prop} (first : ∀ c ∈ Text.decimal imm, p c)
      (second : ∀ c ∈ '$' :: Text.decimal register, p c) (opened : p '(') (closed : p ')') :
      ∀ c ∈ offsetToken imm register, p c := by
    rw [offsetToken, List.append_assoc]
    exact List.forall_mem_append.2 ⟨first, List.forall_mem_cons.2
      ⟨opened, List.forall_mem_append.2 ⟨second, by simpa using closed⟩⟩⟩
  refine ⟨by simp [offsetToken], each visible visible' (by decide) (by decide), ?_⟩
  intro comma
  refine each (p := (· ≠ ',')) ?_ ?_ (by decide) (by decide) ',' comma rfl
  · rintro c member rfl
    exact plain member
  · rintro c member rfl
    exact plain' member

lemma isToken_of_mem_tokens {here : Nat} {kinds : List OperandKind} {values : List Int}
    {token : Text} (member : token ∈ tokens here kinds values) : IsToken token := by
  fun_induction tokens here kinds values with
  | case1 kinds imm register values ih =>
    rcases List.mem_cons.1 member with rfl | later
    · exact isToken_offsetToken imm register
    · exact ih later
  | case2 kind kinds value values other ih =>
    rcases List.mem_cons.1 member with rfl | later
    · exact isToken_render here kind value
    · exact ih later
  | case3 => cases member

/-- An instruction that has a text: a base stands behind each offset and nowhere else, and fields
are as wide as the operands that are placed in them. -/
structure IsWritable (i : Instruction) : Prop where
  numeric : i.isNumeric = true
  coupled : Coupled i.kinds
  count : i.tokenCount = i.kinds.countP (· != .base)
  widths : i.fields.map Field.width = i.kinds.map OperandKind.width

def InRange (fields : List Field) (values : List Int) : Prop :=
  List.Forall₂ (fun field value => 0 ≤ value ∧ value < 2 ^ field.width) fields values

lemma IsWritable.admits {i : Instruction} (writable : i.IsWritable) {values : List Int}
    (ranged : InRange i.fields values) : List.Forall₂ OperandKind.Admits i.kinds values := by
  have widths : List.Forall₂ (fun (width : Nat) (value : Int) => 0 ≤ value ∧ value < 2 ^ width)
      (i.fields.map Field.width) values := List.forall₂_map_left_iff.2 ranged
  rw [writable.widths, List.forall₂_map_left_iff] at widths
  exact widths

/-- An instruction is encoded from its text as the word that holds its values. -/
theorem IsWritable.encode_tokens {i : Instruction} (writable : i.IsWritable) {symbols : Symbols}
    (bare : symbols.IsBare) {here : Nat} {values : List Int} (ranged : InRange i.fields values)
    (near : .branch ∈ i.kinds → here + 2 ^ 17 < 10 ^ Text.maxDecimalDigits) :
    i.encode symbols here (tokens here i.kinds values) = .ok (i.pack values) := by
  have admitted := writable.admits ranged
  have length := (length_tokens writable.coupled here admitted.length_eq).trans writable.count.symm
  have numeric : ∀ kind ∈ i.kinds, kind.isNumeric = true := List.all_eq_true.1 writable.numeric
  have operands := readFrom_tokens bare writable.coupled numeric near admitted []
  rw [encode, readOperands, if_pos length]
  refine bind_eq_ok_iff.2 ⟨_, operands, ?_⟩
  rw [word_eq_pack (map_value?_zipWith_operand admitted)]
  rfl

/-- Whether a base stands behind each offset and nowhere else. -/
def isCoupled : List OperandKind → Bool
  | [] => true
  | .offset :: .base :: kinds => isCoupled kinds
  | kind :: kinds => kind != .offset && kind != .base && isCoupled kinds

lemma coupled_of_isCoupled {kinds : List OperandKind} (checked : isCoupled kinds = true) :
    Coupled kinds := by
  fun_induction isCoupled kinds with
  | case1 => exact .nil
  | case2 kinds ih => exact .pair (ih checked)
  | case3 kind kinds other ih =>
    simp only [Bool.and_eq_true, bne_iff_ne] at checked
    exact .single checked.1.1 checked.1.2 (ih checked.2)

lemma isWritable_of_mem_builtin {i : Instruction} (listed : i ∈ builtin) : i.IsWritable := by
  have checked : ∀ i ∈ builtin, isCoupled i.kinds = true ∧
      i.tokenCount = i.kinds.countP (· != .base) ∧
      i.fields.map Field.width = i.kinds.map OperandKind.width := by decide +kernel
  obtain ⟨coupled, count, widths⟩ := checked i listed
  exact ⟨isNumeric_builtin i listed, coupled_of_isCoupled coupled, count, widths⟩

/-- The symbol of an instruction of the machine is a word in capitals. -/
lemma symbol_of_mem_builtin {i : Instruction} (listed : i ∈ builtin) :
    i.symbol ≠ [] ∧ (∀ c ∈ i.symbol, Text.isBlank c = false) ∧ Text.upper i.symbol = i.symbol := by
  have checked : ∀ i ∈ builtin, i.symbol ≠ [] ∧
      i.symbol.all (fun c => !Text.isBlank c) = true ∧ Text.upper i.symbol = i.symbol := by
    decide +kernel
  obtain ⟨nonempty, visible, capitals⟩ := checked i listed
  exact ⟨nonempty, by simpa using visible, capitals⟩

/-- An instruction of the machine is found by its symbol. -/
lemma instruction?_symbol {i : Instruction} (listed : i ∈ builtin) :
    Tables.builtin.instruction? i.symbol = some i := by
  have distinct : (builtin.map Instruction.symbol).Nodup := by decide +kernel
  unfold Tables.instruction?
  dsimp only
  rw [(symbol_of_mem_builtin listed).2.2]
  cases found : Tables.builtin.instructions.find? (fun j => j.symbol == i.symbol) with
  | none =>
    have other := List.find?_eq_none.1 found i listed
    exact absurd (beq_self_eq_true _) other
  | some j =>
    have same : j.symbol = i.symbol := by simpa using List.find?_some found
    rw [List.inj_on_of_nodup_map distinct (List.mem_of_find?_eq_some found) listed same]

/-- The line of an instruction is cut into its symbol and its tokens. -/
lemma statement_render {i : Instruction} (listed : i ∈ builtin) (here : Nat) (values : List Int) :
    Line.statement (i.render here values) = ⟨i.symbol, tokens here i.kinds values⟩ := by
  obtain ⟨nonempty, visible, capitals⟩ := symbol_of_mem_builtin listed
  have kept : tokens here i.kinds values ≠ [[]] := by
    intro empty
    have token : [] ∈ tokens here i.kinds values := empty ▸ List.mem_cons_self
    exact (isToken_of_mem_tokens token).1 rfl
  rw [render, Line.statement_ofStatement nonempty visible fun token member =>
    (isToken_of_mem_tokens member).2]
  dsimp only
  rw [capitals, if_neg kept]

end Instruction

namespace Session

lemma mapError_instruction {t : Tables} {mnemonic : Text} {i : Instruction}
    (known : t.instruction? mnemonic = some i) :
    (t.instruction mnemonic).mapError Failure.cause = .ok i := by
  rw [Tables.instruction, known]
  rfl

/-- An instruction that can be encoded puts out its word and leaves all else as it is. -/
lemma step_encode {t : Tables} {s : Store} {mnemonic : Text} {written : List Text}
    {i : Instruction} {word : Nat} (known : t.instruction? mnemonic = some i)
    (encodes : i.encode s.toSymbols s.size written = .ok word) :
    step t s (.encode mnemonic written) =
      ({ s.noteWord word with words := s.words.push word }, .ok (.word word)) := by
  have put : (Work.encode t mnemonic written).run s =
      .ok (word : Int) { s.noteWord word with words := s.words.push word } := by
    rw [Work.encode, run_look_bind (mapError_instruction known), run_look_bind encodes,
      run_putWord (Instruction.encode_lt encodes)]
  rw [step, Work.perform, EStateM.run_bind, put]
  rfl

/-- The line of an instruction of the machine with values for its fields puts out the word that
holds these values, wherever it stands and whatever the base is. The address that a branch leads to
must not have more digits than numbers may have. -/
theorem encode_render {i : Instruction} (listed : i ∈ Instruction.builtin) {s : Store}
    (bare : s.toSymbols.IsBare) {values : List Int} (ranged : Instruction.InRange i.fields values)
    (near : .branch ∈ i.kinds → s.size + 2 ^ 17 < 10 ^ Text.maxDecimalDigits) {line : Text}
    (written : Text.strip line = Text.strip (i.render s.size values)) :
    step Tables.builtin s
        (.encode (Line.statement line).mnemonic (Line.statement line).operands) =
      ({ s.noteWord (i.pack values) with words := s.words.push (i.pack values) },
        .ok (.word (i.pack values))) ∧
    ∀ operands, operands.map Operand.value? = values.map some →
      i.word operands = .ok (i.pack values) := by
  refine ⟨?_, fun operands carry => Instruction.word_eq_pack carry i⟩
  rw [← Line.statement_strip, written, Line.statement_strip, Instruction.statement_render listed]
  refine step_encode (Instruction.instruction?_symbol listed) ?_
  exact (Instruction.isWritable_of_mem_builtin listed).encode_tokens bare ranged near

/-- A branch back to the address before the first word. -/
theorem encode_render_branch :
    let i := Instruction.ofStrings "BEQ" "Branch on Equal" "if (rs==rt) PC=PC+imm*4" 0x10000000
      Instruction.compareBranch
    i.render 0 [4, 5, 0xFFFF] = "BEQ $4, $5, -4".toList ∧
      step Tables.builtin Store.empty
          (.encode "BEQ".toList ["$4".toList, "$5".toList, "-4".toList]) =
        ({ Store.empty.noteWord 0x1085FFFF with words := #[0x1085FFFF] },
          .ok (.word 0x1085FFFF)) := by
  intro i
  have text : i.render 0 [4, 5, 0xFFFF] = "BEQ $4, $5, -4".toList := by decide
  have packed : i.pack [4, 5, 0xFFFF] = 0x1085FFFF := by decide
  have near : Store.empty.size + 2 ^ 17 < 10 ^ Text.maxDecimalDigits :=
    calc Store.empty.size + 2 ^ 17 < 10 ^ 6 := by decide
      _ ≤ 10 ^ Text.maxDecimalDigits := Nat.pow_le_pow_right (by decide) (by decide)
  have ranged : Instruction.InRange i.fields [4, 5, 0xFFFF] :=
    .cons (by decide) (.cons (by decide) (.cons (by decide) .nil))
  have encoded := (encode_render (i := i) (s := Store.empty) (by decide +kernel) ⟨rfl, rfl, rfl⟩
    ranged (fun _ => near) rfl).1
  rw [packed] at encoded
  exact ⟨text, encoded⟩

end Session

end Mips64
