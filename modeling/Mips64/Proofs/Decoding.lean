import Mathlib.Data.Int.Bitwise
import Mathlib.Data.List.Pairwise
import Mips64.Instruction.Table

/-! Words read back. The fields of an instruction lie apart and its pattern is clear of them, so
every operand can be read off its word. Main statement: two words of the machine's instructions are
equal only if the instructions are and the operands agree in their fields, except that the shift of
nothing by nothing is the instruction that does nothing. -/
namespace Mips64

namespace Field

def extract (f : Field) (word : Nat) : Nat := word / 2 ^ f.shift % 2 ^ f.width

def covers (f : Field) (bit : Nat) : Bool := f.shift ≤ bit && bit < f.shift + f.width

/-- Two fields that share no bit. -/
def Apart (f g : Field) : Prop := f.shift + f.width ≤ g.shift ∨ g.shift + g.width ≤ f.shift

lemma Apart.symm {f g : Field} (h : f.Apart g) : g.Apart f := Or.symm h

instance : DecidableRel Apart := fun f g =>
  inferInstanceAs (Decidable (f.shift + f.width ≤ g.shift ∨ g.shift + g.width ≤ f.shift))

def span (f : Field) : Nat := f.mask * 2 ^ f.shift

lemma mask_eq (f : Field) : f.mask = 2 ^ f.width - 1 := rfl

lemma embed_eq (f : Field) (value : Int) :
    f.embed value = (value % 2 ^ f.width).toNat * 2 ^ f.shift := by
  have cast : ((Nat.pow 2 f.width : Nat) : Int) = 2 ^ f.width := Int.natCast_pow 2 f.width
  rw [embed, cast]
  rfl

lemma toNat_emod_lt (f : Field) (value : Int) : (value % 2 ^ f.width).toNat < 2 ^ f.width := by
  have positive : (0 : Int) < 2 ^ f.width := Int.pow_pos (by decide)
  have upper := Int.emod_lt_of_pos value positive
  have lower := Int.emod_nonneg value (Int.ne_of_gt positive)
  have cast : ((2 ^ f.width : Nat) : Int) = 2 ^ f.width := Int.natCast_pow 2 f.width
  omega

lemma testBit_extract (f : Field) (word bit : Nat) :
    (f.extract word).testBit bit = (decide (bit < f.width) && word.testBit (f.shift + bit)) := by
  rw [extract, Nat.testBit_mod_two_pow, Nat.testBit_div_two_pow, Nat.add_comm]

lemma testBit_embed (f : Field) (value : Int) (bit : Nat) :
    (f.embed value).testBit bit =
      (f.covers bit && (value % 2 ^ f.width).toNat.testBit (bit - f.shift)) := by
  rw [embed_eq, Nat.testBit_mul_two_pow, covers]
  by_cases low : f.shift ≤ bit
  · by_cases high : bit < f.shift + f.width
    · simp [low, high]
    · have beyond : (value % 2 ^ f.width).toNat.testBit (bit - f.shift) = false :=
        Nat.testBit_lt_two_pow ((f.toNat_emod_lt value).trans_le
          (Nat.pow_le_pow_right (by decide) (by omega)))
      simp [low, high, beyond]
  · simp [low]

lemma testBit_span (f : Field) (bit : Nat) : f.span.testBit bit = f.covers bit := by
  rw [span, mask_eq, Nat.testBit_mul_two_pow, Nat.testBit_two_pow_sub_one, covers]
  by_cases low : f.shift ≤ bit
  · simp only [low, decide_true, Bool.true_and, decide_eq_decide]
    omega
  · simp [low]

lemma extract_or (f : Field) (a b : Nat) : f.extract (a ||| b) = f.extract a ||| f.extract b := by
  refine Nat.eq_of_testBit_eq fun bit => ?_
  simp only [testBit_extract, Nat.testBit_or, Bool.and_or_distrib_left]

/-- A placed value can be read back. -/
lemma extract_embed (f : Field) (value : Int) :
    f.extract (f.embed value) = (value % 2 ^ f.width).toNat := by
  rw [extract, embed_eq, Nat.mul_div_cancel _ (Nat.two_pow_pos _),
    Nat.mod_eq_of_lt (f.toNat_emod_lt value)]

lemma extract_embed_of_apart {f g : Field} (apart : f.Apart g) (value : Int) :
    f.extract (g.embed value) = 0 := by
  refine Nat.eq_of_testBit_eq fun bit => ?_
  rw [testBit_extract, testBit_embed, Nat.zero_testBit]
  by_cases inside : bit < f.width
  · have outside : g.covers (f.shift + bit) = false := by
      simp only [covers, Bool.and_eq_false_iff, decide_eq_false_iff_not]
      rcases apart with below | above
      · left; omega
      · right; omega
    simp [outside]
  · simp [inside]

end Field

namespace Instruction

def packed : List Field → List Int → Nat
  | field :: fields, value :: values => field.embed value ||| packed fields values
  | _, _ => 0

/-- The machine word of an instruction with numbers as operands. -/
def pack (i : Instruction) (values : List Int) : Nat :=
  (i.base % 2 ^ 32).toNat ||| packed i.fields values

lemma placed_eq_packed {operands : List Operand} {values : List Int}
    (carry : operands.map Operand.value? = values.map some) (fields : List Field) :
    placed fields operands = .ok (packed fields values) := by
  induction fields generalizing operands values with
  | nil => cases operands <;> cases values <;> rfl
  | cons field fields ih =>
    cases operands with
    | nil =>
      cases values with
      | nil => rfl
      | cons value values => cases carry
    | cons operand operands =>
      cases values with
      | nil => cases carry
      | cons value values =>
        simp only [List.map_cons, List.cons.injEq] at carry
        rw [placed, carry.1]
        dsimp only
        rw [ih carry.2]
        rfl

/-- A word depends only on the numbers that the operands carry. -/
theorem word_eq_pack {operands : List Operand} {values : List Int}
    (carry : operands.map Operand.value? = values.map some) (i : Instruction) :
    i.word operands = .ok (i.pack values) := by
  rw [word, placed_eq_packed carry]
  rfl

lemma extract_packed_of_apart {f : Field} {fields : List Field} (apart : ∀ g ∈ fields, f.Apart g)
    (values : List Int) : f.extract (packed fields values) = 0 := by
  induction fields generalizing values with
  | nil => simp [packed, Field.extract]
  | cons g fields ih =>
    cases values with
    | nil => simp [packed, Field.extract]
    | cons value values =>
      rw [packed, Field.extract_or,
        Field.extract_embed_of_apart (apart g List.mem_cons_self),
        ih (fun g' member => apart g' (List.mem_cons_of_mem g member)), Nat.or_zero]

/-- Where fields lie apart, each holds the value that was placed in it. -/
lemma extract_packed {fields : List Field} (apart : fields.Pairwise Field.Apart)
    {values : List Int} {k : Nat} {f : Field} {value : Int} (at_k : fields[k]? = some f)
    (value_at : values[k]? = some value) :
    f.extract (packed fields values) = (value % 2 ^ f.width).toNat := by
  induction fields generalizing values k with
  | nil => simp at at_k
  | cons g fields ih =>
    obtain ⟨first, others⟩ := List.pairwise_cons.1 apart
    cases values with
    | nil => simp at value_at
    | cons head values =>
      rw [packed, Field.extract_or]
      cases k with
      | zero =>
        simp only [List.getElem?_cons_zero, Option.some.injEq] at at_k value_at
        subst at_k value_at
        rw [Field.extract_embed, extract_packed_of_apart first, Nat.or_zero]
      | succ k =>
        simp only [List.getElem?_cons_succ] at at_k value_at
        have behind : g.Apart f := first f (List.mem_of_getElem? at_k)
        rw [Field.extract_embed_of_apart behind.symm, ih others at_k value_at, Nat.zero_or]

lemma testBit_packed {fields : List Field} {bit : Nat}
    (outside : ∀ f ∈ fields, f.covers bit = false) (values : List Int) :
    (packed fields values).testBit bit = false := by
  induction fields generalizing values with
  | nil => simp [packed]
  | cons f fields ih =>
    cases values with
    | nil => simp [packed]
    | cons value values =>
      rw [packed, Nat.testBit_or, Field.testBit_embed, outside f List.mem_cons_self,
        ih (fun g member => outside g (List.mem_cons_of_mem f member)), Bool.false_and,
        Bool.or_false]

/-- Two lists of values agree in every field, position by position. -/
def AgreeOn (fields : List Field) (values others : List Int) : Prop :=
  ∀ (k : Nat) (f : Field) (x y : Int), fields[k]? = some f → values[k]? = some x →
    others[k]? = some y → x % 2 ^ f.width = y % 2 ^ f.width

/-- Values that agree in their fields add the same bits. -/
lemma packed_congr {fields : List Field} {values others : List Int}
    (lengths : values.length = others.length) (agree : AgreeOn fields values others) :
    packed fields values = packed fields others := by
  induction fields generalizing values others with
  | nil => simp [packed]
  | cons f fields ih =>
    match values, others, lengths with
    | [], [], _ => rfl
    | x :: values, y :: others, lengths =>
      have same : f.embed x = f.embed y := by
        rw [Field.embed_eq, Field.embed_eq, agree 0 f x y rfl rfl rfl]
      rw [packed, packed, same, ih (by simpa using lengths)]
      exact fun k g x y at_k x_at y_at => agree (k + 1) g x y at_k x_at y_at

def spanOf (fields : List Field) : Nat := fields.foldr (fun f bits => f.span ||| bits) 0

lemma testBit_spanOf (fields : List Field) (bit : Nat) :
    (spanOf fields).testBit bit = fields.any (fun f => f.covers bit) := by
  induction fields with
  | nil => simp [spanOf]
  | cons f fields ih =>
    rw [List.any_cons, ← ih, ← Field.testBit_span, ← Nat.testBit_or]
    rfl

/-- An instruction whose pattern and fields do not touch each other. -/
structure IsClear (i : Instruction) : Prop where
  base_nonneg : 0 ≤ i.base
  base_lt : i.base < 2 ^ 32
  apart : i.fields.Pairwise Field.Apart
  base_clear : ∀ f ∈ i.fields, f.extract i.base.toNat = 0

instance (i : Instruction) : Decidable i.IsClear :=
  decidable_of_iff (0 ≤ i.base ∧ i.base < 2 ^ 32 ∧ i.fields.Pairwise Field.Apart ∧
      ∀ f ∈ i.fields, f.extract i.base.toNat = 0)
    ⟨fun ⟨a, b, c, d⟩ => ⟨a, b, c, d⟩, fun ⟨a, b, c, d⟩ => ⟨a, b, c, d⟩⟩

/-- Every instruction of the machine has its fields apart and its pattern outside them. -/
theorem isClear_of_mem_builtin {i : Instruction} (listed : i ∈ builtin) : i.IsClear := by
  have all : ∀ i ∈ builtin, i.IsClear := by decide +kernel
  exact all i listed

section
variable {i j : Instruction} {values others : List Int}

lemma IsClear.pack_eq (clear : i.IsClear) (values : List Int) :
    i.pack values = i.base.toNat ||| packed i.fields values := by
  rw [pack, Int.emod_eq_of_lt clear.base_nonneg clear.base_lt]

/-- Every operand can be read off the word. -/
lemma IsClear.extract_pack (clear : i.IsClear) {k : Nat} {f : Field} {value : Int}
    (at_k : i.fields[k]? = some f) (value_at : values[k]? = some value) :
    f.extract (i.pack values) = (value % 2 ^ f.width).toNat := by
  rw [clear.pack_eq, Field.extract_or, clear.base_clear f (List.mem_of_getElem? at_k),
    extract_packed clear.apart at_k value_at, Nat.zero_or]

/-- Outside its fields a word shows the pattern of its instruction. -/
lemma IsClear.testBit_pack (clear : i.IsClear) {bit : Nat}
    (outside : ∀ f ∈ i.fields, f.covers bit = false) (values : List Int) :
    (i.pack values).testBit bit = i.base.toNat.testBit bit := by
  rw [clear.pack_eq, Nat.testBit_or, testBit_packed outside, Bool.or_false]

/-- A word that shows the pattern of an instruction outside the fields. -/
def Shows (i : Instruction) (word : Nat) : Prop :=
  word ||| spanOf i.fields = i.base.toNat ||| spanOf i.fields

instance (i : Instruction) (word : Nat) : Decidable (i.Shows word) :=
  inferInstanceAs (Decidable (_ = _))

lemma IsClear.shows_pack (clear : i.IsClear) (values : List Int) : i.Shows (i.pack values) := by
  refine Nat.eq_of_testBit_eq fun bit => ?_
  simp only [Nat.testBit_or, testBit_spanOf]
  by_cases inside : i.fields.any (fun f => f.covers bit) = true
  · simp [inside]
  · simp only [Bool.not_eq_true, List.any_eq_false] at inside
    rw [clear.testBit_pack (by simpa using inside)]

/-- The patterns of two instructions agree in all bits that are in no field of either. -/
def Overlaps (i j : Instruction) : Prop :=
  i.base.toNat ||| (spanOf i.fields ||| spanOf j.fields) =
    j.base.toNat ||| (spanOf i.fields ||| spanOf j.fields)

instance : DecidableRel Overlaps := fun _ _ => inferInstanceAs (Decidable (_ = _))

/-- Instructions that one word shows overlap. -/
lemma overlaps_of_shows {word : Nat} (one : i.Shows word) (other : j.Shows word) :
    i.Overlaps j := by
  calc i.base.toNat ||| (spanOf i.fields ||| spanOf j.fields)
    _ = word ||| spanOf i.fields ||| spanOf j.fields := by rw [← Nat.or_assoc, one]
    _ = word ||| spanOf j.fields ||| spanOf i.fields := Nat.or_right_comm _ _ _
    _ = j.base.toNat ||| (spanOf i.fields ||| spanOf j.fields) := by
      rw [other, Nat.or_assoc, Nat.or_comm (spanOf j.fields)]

/-- Instructions that have a word in common overlap. -/
lemma overlaps_of_pack_eq (clear : i.IsClear) (clear' : j.IsClear)
    (h : i.pack values = j.pack others) : i.Overlaps j :=
  overlaps_of_shows (h ▸ clear.shows_pack values) (clear'.shows_pack others)

/-- A word over an empty pattern is zero where every operand is zero in its field. -/
lemma IsClear.pack_eq_zero_iff (clear : i.IsClear) (blank : i.base = 0) :
    i.pack values = 0 ↔ ∀ (k : Nat) (f : Field) (x : Int), i.fields[k]? = some f →
      values[k]? = some x → x % 2 ^ f.width = 0 := by
  constructor
  · intro zero k f x at_k x_at
    have read := clear.extract_pack at_k x_at
    rw [zero, Field.extract, Nat.zero_div, Nat.zero_mod] at read
    have nonneg : 0 ≤ x % 2 ^ f.width := Int.emod_nonneg x (Int.ne_of_gt (Int.pow_pos (by decide)))
    omega
  · intro vanish
    rw [clear.pack_eq, blank, Int.toNat_zero, Nat.zero_or]
    generalize i.fields = fields at vanish
    induction fields generalizing values with
    | nil => rfl
    | cons f fields ih =>
      cases values with
      | nil => rfl
      | cons x values =>
        rw [packed, Field.embed_eq, vanish 0 f x rfl rfl, Int.toNat_zero, Nat.zero_mul, Nat.zero_or]
        exact ih fun k g y at_k y_at => vanish (k + 1) g y at_k y_at

/-- Words of one instruction are equal where the operands agree in their fields. -/
lemma IsClear.pack_eq_pack_iff (clear : i.IsClear) (lengths : values.length = others.length) :
    i.pack values = i.pack others ↔ AgreeOn i.fields values others := by
  constructor
  · intro same k f x y at_k x_at y_at
    have read := clear.extract_pack at_k x_at
    rw [same, clear.extract_pack at_k y_at] at read
    have modulus : (2 : Int) ^ f.width ≠ 0 := Int.ne_of_gt (Int.pow_pos (by decide))
    have nonneg := Int.emod_nonneg x modulus
    have nonneg' := Int.emod_nonneg y modulus
    omega
  · intro agree
    rw [pack, pack, packed_congr lengths agree]

end

/-- Nothing done by one instruction, and by a shift of nothing by nothing. -/
def IsIdlePair (i j : Instruction) (others : List Int) : Prop :=
  i.symbol = "NOP".toList ∧ j.symbol = "SLL".toList ∧ ∀ x ∈ others, x % 32 = 0

lemma Overlaps.symm {i j : Instruction} (h : i.Overlaps j) : j.Overlaps i := by
  rw [Overlaps, Nat.or_comm (spanOf j.fields)]
  exact Eq.symm h

/-- If two instructions overlap, then as the idle one and the shift do. -/
def OverlapsAtMostIdle (i j : Instruction) : Prop :=
  i.Overlaps j → (i.symbol = "NOP".toList ∧ j.symbol = "SLL".toList) ∨
    (j.symbol = "NOP".toList ∧ i.symbol = "SLL".toList)

instance : DecidableRel OverlapsAtMostIdle := fun _ _ => inferInstanceAs (Decidable (_ → _))

instance : Std.Symm OverlapsAtMostIdle := ⟨fun _ _ h overlaps => (h overlaps.symm).symm⟩

/-- No two instructions of the machine overlap, the idle pair apart. -/
lemma overlapsAtMostIdle {i j : Instruction} (listed : i ∈ builtin) (listed' : j ∈ builtin)
    (distinct : i ≠ j) : i.OverlapsAtMostIdle j := by
  have pairwise : builtin.Pairwise OverlapsAtMostIdle := by decide +kernel
  exact pairwise.forall listed listed' distinct

/-- A word of the idle instruction is one of the shift where all three operands vanish. -/
lemma pack_eq_pack_iff_of_nop {i j : Instruction} (listed : i ∈ builtin) (listed' : j ∈ builtin)
    (nop : i.symbol = "NOP".toList) (shift : j.symbol = "SLL".toList) {values others : List Int}
    (full : others.length = j.fields.length) :
    i.pack values = j.pack others ↔ ∀ x ∈ others, x % 32 = 0 := by
  have patterns : ∀ i ∈ builtin, (i.symbol = "NOP".toList → i.base = 0 ∧ i.fields = []) ∧
      (i.symbol = "SLL".toList → i.base = 0 ∧ ∀ f ∈ i.fields, f.width = 5) := by decide +kernel
  obtain ⟨blank, empty⟩ := (patterns i listed).1 nop
  obtain ⟨blank', narrow⟩ := (patterns j listed').2 shift
  have zero : i.pack values = 0 := by
    rw [(isClear_of_mem_builtin listed).pack_eq_zero_iff blank, empty]
    intro k f x at_k
    simp at at_k
  rw [zero, eq_comm, (isClear_of_mem_builtin listed').pack_eq_zero_iff blank']
  constructor
  · intro vanish x member
    obtain ⟨k, x_at⟩ := List.mem_iff_getElem?.1 member
    have bound : k < j.fields.length := full ▸ (List.getElem?_eq_some_iff.1 x_at).1
    have at_k := List.getElem?_eq_getElem bound
    have width := narrow _ (List.mem_of_getElem? at_k)
    have vanishes := vanish k _ x at_k x_at
    rw [width] at vanishes
    exact vanishes
  · intro vanish k f x at_k x_at
    rw [narrow f (List.mem_of_getElem? at_k)]
    exact vanish x (List.mem_of_getElem? x_at)

/-- The words of the machine's instructions can be read back: they show every operand in its field
and the pattern around them, and they are equal only for one instruction with operands that agree
in their fields, or for an idle pair. -/
theorem word_eq_word_iff {i j : Instruction} (listed : i ∈ builtin) (listed' : j ∈ builtin)
    {operands operands' : List Operand} {values others : List Int}
    (carry : operands.map Operand.value? = values.map some)
    (carry' : operands'.map Operand.value? = others.map some)
    (full : values.length = i.fields.length) (full' : others.length = j.fields.length) :
    (i.word operands = j.word operands' ↔
      (i = j ∧ AgreeOn i.fields values others) ∨ IsIdlePair i j others ∨ IsIdlePair j i values) ∧
    ∃ n, i.word operands = .ok n ∧
      (∀ (k : Nat) (f : Field) (x : Int), i.fields[k]? = some f → values[k]? = some x →
        (f.extract n : Int) = x % 2 ^ f.width) ∧
      ∀ bit, (∀ f ∈ i.fields, f.covers bit = false) → n.testBit bit = i.base.testBit bit := by
  have clear := isClear_of_mem_builtin listed
  have clear' := isClear_of_mem_builtin listed'
  rw [word_eq_pack carry, word_eq_pack carry', Except.ok.injEq]
  refine ⟨⟨fun same => ?_, ?_⟩, i.pack values, rfl, ?_, ?_⟩
  · by_cases one : i = j
    · subst one
      exact .inl ⟨rfl, (clear.pack_eq_pack_iff (full.trans full'.symm)).1 same⟩
    · have overlap := overlaps_of_pack_eq clear clear' same
      rcases overlapsAtMostIdle listed listed' one overlap with ⟨nop, shift⟩ | ⟨nop, shift⟩
      · exact .inr (.inl ⟨nop, shift,
          (pack_eq_pack_iff_of_nop listed listed' nop shift full').1 same⟩)
      · exact .inr (.inr ⟨nop, shift,
          (pack_eq_pack_iff_of_nop listed' listed nop shift full).1 same.symm⟩)
  · rintro (⟨rfl, agree⟩ | ⟨nop, shift, vanish⟩ | ⟨nop, shift, vanish⟩)
    · exact (clear.pack_eq_pack_iff (full.trans full'.symm)).2 agree
    · exact (pack_eq_pack_iff_of_nop listed listed' nop shift full').2 vanish
    · exact ((pack_eq_pack_iff_of_nop listed' listed nop shift full).2 vanish).symm
  · intro k f x at_k x_at
    rw [clear.extract_pack at_k x_at]
    exact Int.toNat_of_nonneg (Int.emod_nonneg x (Int.ne_of_gt (Int.pow_pos (by decide))))
  · intro bit outside
    rw [clear.testBit_pack outside]
    obtain ⟨base, natural⟩ := Int.eq_ofNat_of_zero_le clear.base_nonneg
    rw [natural]
    rfl

/-- A shift whose operands are multiples of 32 does nothing, and its word is that of the instruction
that does nothing; the field of its amount holds the amount's low bits. -/
theorem word_eq_word_iff_idle :
    ∃ i ∈ builtin, ∃ j ∈ builtin, i ≠ j ∧
      i.word [] = j.word [.register 0, .register 32, .immediate (-64) 32] ∧
      ∃ n, j.word [.register 0, .register 3, .immediate (-1) 32] = .ok n ∧
        Field.sa.extract n = 31 := by
  obtain ⟨i, listed, nop, fieldless⟩ : ∃ i ∈ builtin, i.symbol = "NOP".toList ∧ i.fields = [] := by
    decide +kernel
  obtain ⟨j, listed', shift, three⟩ : ∃ j ∈ builtin, j.symbol = "SLL".toList ∧
      j.fields = [.rd, .rt, .sa] := by decide +kernel
  have nothing : ([] : List Operand).map Operand.value? = ([] : List Int).map some := rfl
  have multiples : [Operand.register 0, .register 32, .immediate (-64) 32].map Operand.value? =
      [0, 32, -64].map some := rfl
  have low : [Operand.register 0, .register 3, .immediate (-1) 32].map Operand.value? =
      [0, 3, -1].map some := rfl
  refine ⟨i, listed, j, listed', ?_, ?_, ?_⟩
  · rintro rfl
    exact absurd (nop.symm.trans shift) (by decide)
  · have idle := word_eq_word_iff listed listed' nothing multiples (by rw [fieldless]; rfl)
      (by rw [three]; rfl)
    exact idle.1.2 (.inr (.inl ⟨nop, shift, by decide⟩))
  · obtain ⟨n, made, read, -⟩ :=
      (word_eq_word_iff listed' listed' low low (by rw [three]; rfl) (by rw [three]; rfl)).2
    have amount : (Field.sa.extract n : Int) = 31 := read 2 .sa (-1) (by rw [three]; rfl) rfl
    exact ⟨n, made, by omega⟩

end Instruction
end Mips64
