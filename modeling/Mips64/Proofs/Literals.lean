import Mathlib
import Mips64.Operand.Number
import Mips64.Proofs.MacroUse

/-! Number literals. A literal is accepted by looking at its length, at a mark of two characters and
at the digits behind it. Main statement: what is accepted is a grammar of three radices, each
literal has its positional value, and the texts in which numbers are commonly written denote
them. -/
namespace Mips64

namespace Text

/-- A numeral of a base and the number that it denotes by position: one or more digits, the most
significant first, with letters of either case for those beyond nine. -/
def Spells (base : Nat) (s : Text) (n : Nat) : Prop :=
  ∃ digits ≠ [], (∀ d ∈ digits, d < base) ∧ s.map Char.toLower = digits.map Nat.digitChar ∧
    n = Nat.ofDigits base digits.reverse

/-- The usual decimal text of a number, with a sign if it is negative. -/
def decimal (n : Int) : Text :=
  if n < 0 then '-' :: Nat.toDigits 10 n.natAbs else Nat.toDigits 10 n.natAbs

/-- What holds of the characters of the ASCII range, and of all beyond it, holds of all. -/
lemma forall_char {p : Char → Prop} (ascii : ∀ n < 128, p (Char.ofNat n))
    (beyond : ∀ c : Char, 128 ≤ c.toNat → p c) (c : Char) : p c := by
  by_cases small : c.toNat < 128
  · have known := ascii c.toNat small
    rwa [Char.ofNat_toNat] at known
  · exact beyond c (by omega)

lemma toLower_of_not_ascii {c : Char} (beyond : 128 ≤ c.toNat) : c.toLower = c := by
  refine Char.toLower_eq_of_not_isUpper ?_
  simp only [Char.isUpper, UInt32.le_iff_toNat_le, decide_eq_true_eq, not_and]
  intro _ high
  have code : c.toNat ≤ 90 := high
  omega

lemma hexValue?_of_not_ascii {c : Char} (beyond : 128 ≤ c.toNat) : hexValue? c = none := by
  have above {d : Char} (small : d.toNat < 128) : decide (c ≤ d) = false := by
    refine decide_eq_false fun low => ?_
    have code : c.toNat ≤ d.toNat := low
    omega
  simp [hexValue?, above (show '9'.toNat < 128 by decide), above (show 'f'.toNat < 128 by decide),
    above (show 'F'.toNat < 128 by decide)]

/-- The value of a digit is that of the digit character it is written with. -/
lemma hexValue?_eq_some_iff {c : Char} {d : Nat} :
    hexValue? c = some d ↔ d < 16 ∧ c.toLower = d.digitChar := by
  have small : ∀ d < 16, (Nat.digitChar d).toNat < 128 := by decide
  constructor
  · intro value
    revert value
    refine forall_char (p := fun c => hexValue? c = some d → d < 16 ∧ c.toLower = d.digitChar)
      ?_ ?_ c
    · have each : ∀ n < 128, ∀ d ∈ hexValue? (Char.ofNat n),
          d < 16 ∧ (Char.ofNat n).toLower = d.digitChar := by decide +kernel
      exact fun n ascii value => each n ascii d value
    · intro c beyond value
      rw [hexValue?_of_not_ascii beyond] at value
      cases value
  · rintro ⟨low, written⟩
    revert written
    refine forall_char (p := fun c => c.toLower = d.digitChar → hexValue? c = some d) ?_ ?_ c
    · have each : ∀ n < 128, ∀ d < 16, (Char.ofNat n).toLower = d.digitChar →
          hexValue? (Char.ofNat n) = some d := by decide +kernel
      exact fun n ascii => each n ascii d low
    · intro c beyond written
      have code := small d low
      rw [← written, toLower_of_not_ascii beyond] at code
      omega

/-- A visible character of the ASCII range. -/
def isPlainAscii (c : Char) : Bool := c.toNat < 128 && !isBlank c

lemma isPlainAscii_of_toLower {c : Char} (plain : isPlainAscii c.toLower = true) :
    isPlainAscii c = true := by
  revert plain
  refine forall_char (p := fun c => isPlainAscii c.toLower = true → isPlainAscii c = true)
    (by decide +kernel) ?_ c
  intro c beyond plain
  rwa [toLower_of_not_ascii beyond] at plain

lemma isPlainAscii_of_hexValue? {c : Char} {d : Nat} (value : hexValue? c = some d) :
    isPlainAscii c = true := by
  have each : ∀ d < 16, isPlainAscii (Nat.digitChar d) = true := by decide
  obtain ⟨low, written⟩ := hexValue?_eq_some_iff.1 value
  exact isPlainAscii_of_toLower (written ▸ each d low)

/-- In the ASCII range capitals are taken letter by letter. -/
lemma upper_strip_of_isPlainAscii {s : Text} (plain : ∀ c ∈ s, isPlainAscii c = true) :
    upper (strip s) = s.map Char.toUpper := by
  simp only [isPlainAscii, Bool.and_eq_true, decide_eq_true_eq, Bool.not_eq_true'] at plain
  rw [strip_of_visible fun c member => (plain c member).2, upper]
  induction s with
  | nil => rfl
  | cons c s ih =>
    rw [List.flatMap_cons, upperChar_ascii (plain c List.mem_cons_self).1, List.map_cons,
      ih fun d member => plain d (List.mem_cons_of_mem c member)]
    rfl

/-- Digits up to nine have no letter case. -/
lemma hexValue?_eq_some_iff_of_lt_ten {c : Char} {d : Nat} (low : d < 10) :
    hexValue? c = some d ↔ c = d.digitChar := by
  have same : c.toLower = d.digitChar ↔ c = d.digitChar := by
    refine forall_char (p := fun c => c.toLower = d.digitChar ↔ c = d.digitChar) ?_ ?_ c
    · have each : ∀ n < 128, ∀ d < 10,
          ((Char.ofNat n).toLower = d.digitChar ↔ Char.ofNat n = d.digitChar) := by decide +kernel
      exact fun n ascii => each n ascii d low
    · intro c beyond
      rw [toLower_of_not_ascii beyond]
  rw [hexValue?_eq_some_iff, same]
  exact and_iff_right (by omega)

lemma ofDigits_concat (base : Nat) (s : Text) (c : Char) :
    ofDigits base (s ++ [c]) = ofDigits base s * base + (hexValue? c).getD 0 := by
  rw [ofDigits, List.foldl_append]
  rfl

lemma ofDigits_append (base : Nat) (s rest : Text) :
    ofDigits base (s ++ rest) = ofDigits base s * base ^ rest.length + ofDigits base rest := by
  induction rest using List.reverseRecOn with
  | nil => simp
  | append_singleton rest c ih =>
    rw [← List.append_assoc, ofDigits_concat, ih, ofDigits_concat, List.length_append,
      List.length_singleton, pow_succ]
    ring

section
variable {base : Nat} {s : Text} {n : Nat}

/-- Digits are read off the characters they are written with. -/
lemma map_hexValue?_iff {digits : List Nat} (low : ∀ d ∈ digits, d < 16) :
    s.map hexValue? = digits.map some ↔ s.map Char.toLower = digits.map Nat.digitChar := by
  induction s generalizing digits with
  | nil => cases digits <;> simp
  | cons c s ih =>
    cases digits with
    | nil => simp
    | cons d digits =>
      have first := low d List.mem_cons_self
      simp only [List.map_cons, List.cons.injEq, hexValue?_eq_some_iff, first, true_and,
        ih fun d' member => low d' (List.mem_cons_of_mem d member)]

/-- The value that is added up digit by digit is the value by position. -/
lemma ofDigits_of_map {digits : List Nat} (read : s.map hexValue? = digits.map some) :
    ofDigits base s = Nat.ofDigits base digits.reverse := by
  calc ofDigits base s
    _ = (s.map hexValue?).foldl (fun n d => n * base + d.getD 0) 0 := by
      rw [List.foldl_map, ofDigits]
    _ = digits.foldl (fun n d => n * base + d) 0 := by
      rw [read, List.foldl_map]
      rfl
    _ = Nat.ofDigits base digits.reverse := by
      rw [Nat.ofDigits_eq_foldr, List.foldr_reverse]
      simp only [Nat.cast_id, Nat.mul_comm base, Nat.add_comm]

/-- A text is a numeral if all its characters are digits, and denotes what they add up to. -/
lemma spells_iff (small : base ≤ 16) : Spells base s n ↔
    s ≠ [] ∧ (∀ c ∈ s, ∃ d < base, hexValue? c = some d) ∧ n = ofDigits base s := by
  constructor
  · rintro ⟨digits, nonempty, low, written, rfl⟩
    have read := (map_hexValue?_iff fun d member => (low d member).trans_le small).2 written
    refine ⟨?_, ?_, (ofDigits_of_map read).symm⟩
    · rintro rfl
      exact nonempty (List.map_eq_nil_iff.1 written.symm)
    · intro c member
      have value : hexValue? c ∈ digits.map some := read ▸ List.mem_map_of_mem member
      obtain ⟨d, listed, same⟩ := List.mem_map.1 value
      exact ⟨d, low d listed, same.symm⟩
  · rintro ⟨nonempty, each, rfl⟩
    have read : s.map hexValue? = (s.map fun c => (hexValue? c).getD 0).map some := by
      rw [List.map_map]
      refine List.map_congr_left fun c member => ?_
      obtain ⟨d, -, value⟩ := each c member
      simp [value]
    have low : ∀ d ∈ s.map (fun c => (hexValue? c).getD 0), d < base := by
      intro d listed
      obtain ⟨c, member, rfl⟩ := List.mem_map.1 listed
      obtain ⟨d, bound, value⟩ := each c member
      simpa [value] using bound
    refine ⟨_, by simpa using nonempty, low, ?_, ofDigits_of_map read⟩
    exact (map_hexValue?_iff fun d listed => (low d listed).trans_le small).1 read

lemma isHexDigits_iff : isHexDigits s = true ↔ ∃ n, Spells 16 s n := by
  have each (c : Char) : (hexValue? c).isSome = true ↔ ∃ d < 16, hexValue? c = some d := by
    rw [Option.isSome_iff_exists]
    exact exists_congr fun d => ⟨fun value => ⟨(hexValue?_eq_some_iff.1 value).1, value⟩, And.right⟩
  simp [isHexDigits, spells_iff (show 16 ≤ 16 by decide), each]

lemma isBinDigits_iff : isBinDigits s = true ↔ ∃ n, Spells 2 s n := by
  have each (c : Char) : (c = '0' ∨ c = '1') ↔ ∃ d < 2, hexValue? c = some d := by
    constructor
    · rintro (rfl | rfl)
      · exact ⟨0, by decide, rfl⟩
      · exact ⟨1, by decide, rfl⟩
    · rintro ⟨d, low, value⟩
      rw [hexValue?_eq_some_iff_of_lt_ten (by omega)] at value
      subst value
      revert d
      decide
  simp [isBinDigits, spells_iff (show 2 ≤ 16 by decide), each]

lemma isDecLiteral_iff : isDecLiteral s = true ↔ ∃ n, Spells 10 (unsigned s) n := by
  have each (c : Char) : isAsciiDigit c = true ↔ ∃ d < 10, hexValue? c = some d := by
    constructor
    · intro digit
      have high : c.toNat ≤ 57 := (by simpa [isAsciiDigit] using digit : _ ∧ c ≤ '9').2
      exact ⟨c.toNat - 48, by omega, if_pos digit⟩
    · rintro ⟨d, low, value⟩
      rw [hexValue?_eq_some_iff_of_lt_ten low] at value
      subst value
      revert d
      decide
  simp [isDecLiteral, spells_iff (show 10 ≤ 16 by decide), each]

/-- The case of letters does not change a numeral. -/
lemma Spells.congr {t : Text} (spelt : Spells base s n)
    (same : t.map Char.toLower = s.map Char.toLower) : Spells base t n := by
  obtain ⟨digits, nonempty, low, written, value⟩ := spelt
  exact ⟨digits, nonempty, low, same.trans written, value⟩

lemma Spells.isPlainAscii (small : base ≤ 16) (spelt : Spells base s n) {c : Char}
    (member : c ∈ s) : isPlainAscii c = true := by
  obtain ⟨d, -, value⟩ := ((spells_iff small).1 spelt).2.1 c member
  exact isPlainAscii_of_hexValue? value

/-- A numeral starts with no sign. -/
lemma unsigned_of_spells (spelt : Spells 10 s n) :
    unsigned s = s ∧ ofDecLiteral s = ofDigits 10 s := by
  have other {c : Char} (no : hexValue? c = none) {rest : Text} : s ≠ c :: rest := by
    rintro rfl
    obtain ⟨d, -, value⟩ := ((spells_iff (by decide)).1 spelt).2.1 c List.mem_cons_self
    rw [no] at value
    cases value
  unfold unsigned ofDecLiteral
  split
  · exact absurd rfl (other (by decide))
  · exact absurd rfl (other (by decide))
  · exact ⟨rfl, rfl⟩

/-- The digits of a number spell it. -/
lemma spells_toDigits (large : 2 ≤ base) (small : base ≤ 16) (n : Nat) :
    Spells base (Nat.toDigits base n) n := by
  have own : ∀ d < 16, hexValue? d.digitChar = some d := by decide
  have digit (d : Nat) (low : d < base) : hexValue? d.digitChar = some d :=
    own d (low.trans_le small)
  rw [spells_iff small]
  induction n using Nat.strong_induction_on with
  | _ n ih =>
    rw [Nat.toDigits_eq_if large]
    split
    · rename_i low
      refine ⟨by simp, ?_, ?_⟩
      · simpa using ⟨n, low, digit n low⟩
      · rw [← List.nil_append [_], ofDigits_concat, digit n low]
        simp
    · obtain ⟨-, each, value⟩ := ih (n / base) (Nat.div_lt_self (by omega) large)
      have low : n % base < base := Nat.mod_lt n (by omega)
      refine ⟨by simp, ?_, ?_⟩
      · intro c member
        rcases List.mem_append.1 member with higher | last
        · exact each c higher
        · rw [List.mem_singleton.1 last]
          exact ⟨n % base, low, digit _ low⟩
      · rw [ofDigits_concat, ← value, digit _ low]
        exact (Nat.div_add_mod' n base).symm

end

end Text

namespace Operand

/-- A decimal literal with the digits in it and its value. -/
inductive IsDecimal : Text → Text → Int → Prop
  | unsigned {digits : Text} {n : Nat} (spelt : Text.Spells 10 digits n) :
      IsDecimal digits digits n
  | positive {digits : Text} {n : Nat} (spelt : Text.Spells 10 digits n) :
      IsDecimal ('+' :: digits) digits n
  | negative {digits : Text} {n : Nat} (spelt : Text.Spells 10 digits n) :
      IsDecimal ('-' :: digits) digits (-n)

/-- What a token in capitals denotes: the base register by its name, and a literal its value. -/
inductive Denotes (symbols : Symbols) : Text → Int → Prop
  | base : Denotes symbols "BASE".toList symbols.base
  | hexadecimal {digits : Text} {n : Nat} (spelt : Text.Spells 16 digits n) :
      Denotes symbols ('0' :: 'X' :: digits) n
  | binary {digits : Text} {n : Nat} (spelt : Text.Spells 2 digits n) :
      Denotes symbols ('0' :: 'B' :: digits) n
  | decimal {token digits : Text} {n : Int} (written : IsDecimal token digits n)
      (short : digits.length ≤ 4300) : Denotes symbols token n

def IsOverlong (token : Text) : Prop :=
  ∃ digits n, IsDecimal token digits n ∧ 4300 < digits.length

/-- Decimal literals are recognised, and cut and added up as they are written. -/
lemma isDecimal_iff {token digits : Text} {n : Int} : IsDecimal token digits n ↔
    Text.isDecLiteral token = true ∧ digits = Text.unsigned token ∧
      n = Text.ofDecLiteral token := by
  constructor
  · intro written
    cases written with
    | unsigned spelt =>
      obtain ⟨same, value⟩ := Text.unsigned_of_spells spelt
      refine ⟨Text.isDecLiteral_iff.2 ⟨_, same.symm ▸ spelt⟩, same.symm, ?_⟩
      rw [value, ← ((Text.spells_iff (by decide)).1 spelt).2.2]
    | positive spelt =>
      exact ⟨Text.isDecLiteral_iff.2 ⟨_, spelt⟩, rfl,
        congrArg _ ((Text.spells_iff (by decide)).1 spelt).2.2⟩
    | negative spelt =>
      exact ⟨Text.isDecLiteral_iff.2 ⟨_, spelt⟩, rfl,
        congrArg (fun n : Nat => -(n : Int)) ((Text.spells_iff (by decide)).1 spelt).2.2⟩
  · rintro ⟨literal, rfl, rfl⟩
    obtain ⟨n, spelt⟩ := Text.isDecLiteral_iff.1 literal
    obtain rfl := ((Text.spells_iff (by decide)).1 spelt).2.2
    unfold Text.unsigned Text.ofDecLiteral at *
    split at spelt
    · exact .negative spelt
    · exact .positive spelt
    · exact .unsigned spelt

section
variable {symbols : Symbols} {token : Text}

/-- A decimal literal has neither the name of the base nor the mark of another radix. -/
lemma literal_of_isDecLiteral (decimal : Text.isDecLiteral token = true) :
    literal symbols token =
      if 4300 < (Text.unsigned token).length then .error (.fault .longDecimal)
      else .ok (Text.ofDecLiteral token) := by
  have other {token' : Text} (no : Text.isDecLiteral token' = false) : token ≠ token' := by
    rintro rfl
    rw [no] at decimal
    cases decimal
  unfold literal
  rw [if_neg (other (by decide))]
  split
  · cases decimal
  · cases decimal
  · cases decimal
  · rw [decimal]
    rfl

lemma zero_cons_ne_baseName (rest : Text) : '0' :: rest ≠ baseName := by
  intro same
  have spelt : baseName = ['B', 'A', 'S', 'E'] := by decide
  rw [spelt, List.cons.injEq] at same
  exact absurd same.1 (by decide)

/-- A token is read as what it denotes. -/
lemma literal_of_denotes {n : Int} (h : Denotes symbols token n) :
    literal symbols token = .ok n := by
  cases h with
  | base => rfl
  | hexadecimal spelt =>
    obtain ⟨nonempty, -, rfl⟩ := (Text.spells_iff (by decide)).1 spelt
    obtain ⟨d, digits, rfl⟩ := List.exists_cons_of_ne_nil nonempty
    unfold literal
    rw [if_neg (zero_cons_ne_baseName _)]
    exact if_pos (Text.isHexDigits_iff.2 ⟨_, spelt⟩)
  | binary spelt =>
    obtain ⟨nonempty, -, rfl⟩ := (Text.spells_iff (by decide)).1 spelt
    obtain ⟨d, digits, rfl⟩ := List.exists_cons_of_ne_nil nonempty
    unfold literal
    rw [if_neg (zero_cons_ne_baseName _)]
    exact if_pos (Text.isBinDigits_iff.2 ⟨_, spelt⟩)
  | decimal written short =>
    obtain ⟨decimal, rfl, rfl⟩ := isDecimal_iff.1 written
    rw [literal_of_isDecLiteral decimal, if_neg (by omega)]

lemma literal_of_isOverlong (long : IsOverlong token) :
    literal symbols token = .error (.fault .longDecimal) := by
  obtain ⟨_, _, written, more⟩ := long
  obtain ⟨decimal, rfl, rfl⟩ := isDecimal_iff.1 written
  rw [literal_of_isDecLiteral decimal, if_pos more]

/-- A token denotes a value, or is too long, or is no number. -/
lemma literal_cases (symbols : Symbols) (token : Text) :
    (∃ n, Denotes symbols token n) ∨ IsOverlong token ∨
      ∃ flaw, literal symbols token = .error (.cause (.invalidNumber flaw)) := by
  unfold literal
  split
  · rename_i named
    subst named
    exact .inl ⟨_, .base⟩
  · split
    · exact .inr (.inr ⟨_, rfl⟩)
    · split
      · rename_i digits
        obtain ⟨n, spelt⟩ := Text.isHexDigits_iff.1 digits
        exact .inl ⟨n, .hexadecimal spelt⟩
      · exact .inr (.inr ⟨_, rfl⟩)
    · split
      · rename_i digits
        obtain ⟨n, spelt⟩ := Text.isBinDigits_iff.1 digits
        exact .inl ⟨n, .binary spelt⟩
      · exact .inr (.inr ⟨_, rfl⟩)
    · split
      · exact .inr (.inr ⟨_, rfl⟩)
      · rename_i decimal
        have written := isDecimal_iff.2 ⟨by simpa using decimal, rfl, rfl⟩
        by_cases long : 4300 < (Text.unsigned token).length
        · exact .inr (.inl ⟨_, _, written, long⟩)
        · exact .inl ⟨_, .decimal written (by omega)⟩

/-- A token is read as a number exactly if it denotes it. -/
theorem literal_eq_ok_iff {n : Int} : literal symbols token = .ok n ↔ Denotes symbols token n := by
  refine ⟨fun read => ?_, literal_of_denotes⟩
  obtain ⟨m, denotes⟩ | long | ⟨flaw, failed⟩ := literal_cases symbols token
  · cases read.symm.trans (literal_of_denotes denotes)
    exact denotes
  · cases read.symm.trans (literal_of_isOverlong long)
  · cases read.symm.trans failed

theorem literal_eq_longDecimal_iff :
    literal symbols token = .error (.fault .longDecimal) ↔ IsOverlong token := by
  refine ⟨fun read => ?_, literal_of_isOverlong⟩
  obtain ⟨m, denotes⟩ | long | ⟨flaw, failed⟩ := literal_cases symbols token
  · cases read.symm.trans (literal_of_denotes denotes)
  · exact long
  · cases read.symm.trans failed

end

/-- The capitals of a decimal literal are the literal itself. -/
lemma IsDecimal.upper_strip {token digits : Text} {n : Int} (written : IsDecimal token digits n) :
    Text.upper (Text.strip token) = token := by
  have own : ∀ d < 10, (Nat.digitChar d).toUpper = d.digitChar := by decide
  have digit {s : Text} {n : Nat} (spelt : Text.Spells 10 s n) :
      ∀ c ∈ s, Text.isPlainAscii c = true ∧ c.toUpper = c := by
    intro c member
    obtain ⟨d, low, value⟩ := ((Text.spells_iff (by decide)).1 spelt).2.1 c member
    refine ⟨Text.isPlainAscii_of_hexValue? value, ?_⟩
    rw [(Text.hexValue?_eq_some_iff_of_lt_ten low).1 value]
    exact own d low
  have each : ∀ c ∈ token, Text.isPlainAscii c = true ∧ c.toUpper = c := by
    cases written with
    | unsigned spelt => exact digit spelt
    | positive spelt => exact List.forall_mem_cons.2 ⟨by decide, digit spelt⟩
    | negative spelt => exact List.forall_mem_cons.2 ⟨by decide, digit spelt⟩
  rw [Text.upper_strip_of_isPlainAscii fun c member => (each c member).1]
  exact (List.map_congr_left fun c member => (each c member).2).trans (List.map_id _)

/-- The decimal text of a number is a literal of it. -/
lemma isDecimal_decimal (n : Int) :
    IsDecimal (Text.decimal n) (Nat.toDigits 10 n.natAbs) n := by
  have spelt := Text.spells_toDigits (show 2 ≤ 10 by decide) (by decide) n.natAbs
  unfold Text.decimal
  split
  · convert IsDecimal.negative spelt using 1
    omega
  · convert IsDecimal.unsigned spelt using 1
    omega

/-- A number of few enough digits is read from its decimal text. -/
lemma number_decimal (symbols : Symbols) {n : Int}
    (short : (Nat.toDigits 10 n.natAbs).length ≤ 4300) :
    number symbols (Text.decimal n) = .ok n := by
  have written := isDecimal_decimal n
  rw [number, written.upper_strip]
  exact literal_of_denotes (.decimal written short)

/-- A number is read from its digits behind the mark of their radix, in letters of either case. -/
lemma number_marked {symbols : Symbols} {s digits : Text} {mark : Char} {base n : Nat}
    (small : base ≤ 16) (plain : Text.isPlainAscii mark = true) (spelt : Text.Spells base digits n)
    (written : s.map Char.toLower = '0' :: mark :: digits)
    (denotes : ∀ digits, Text.Spells base digits n →
      Denotes symbols ('0' :: mark.toUpper :: digits) n) :
    number symbols s = .ok n := by
  have each : ∀ c ∈ s, Text.isPlainAscii c = true := by
    intro c member
    have lower : c.toLower ∈ '0' :: mark :: digits := written ▸ List.mem_map_of_mem member
    refine Text.isPlainAscii_of_toLower ?_
    rcases List.mem_cons.1 lower with zero | lower
    · rw [zero]
      decide
    · rcases List.mem_cons.1 lower with same | digit
      · rwa [same]
      · exact spelt.isPlainAscii small digit
  have capitals : s.map Char.toUpper = '0' :: mark.toUpper :: digits.map Char.toUpper := by
    calc s.map Char.toUpper
      _ = (s.map Char.toLower).map Char.toUpper := by
        simp [List.map_map, Function.comp_def]
      _ = '0' :: mark.toUpper :: digits.map Char.toUpper := by
        rw [written]
        rfl
  rw [number, Text.upper_strip_of_isPlainAscii each, capitals]
  refine literal_of_denotes (denotes _ (spelt.congr ?_))
  simp

/-- A token is a number exactly if the grammar of literals gives it one, and its value is then that
of its digits by position. Otherwise it is a decimal literal that is too long, or it is reported as
no number. A number is read from its decimal text, and from its hexadecimal and binary digits behind
their marks. -/
theorem number_grammar (symbols : Symbols) (token : Text) :
    (∀ n, number symbols token = .ok n ↔ Denotes symbols (Text.upper (Text.strip token)) n) ∧
    (number symbols token = .error (.fault .longDecimal) ↔
      IsOverlong (Text.upper (Text.strip token))) ∧
    ((¬ ∃ n, Denotes symbols (Text.upper (Text.strip token)) n) →
      ¬ IsOverlong (Text.upper (Text.strip token)) →
      ∃ cause, number symbols token = .error (.cause cause) ∧
        cause.kind = .invalidNumberLiteral) ∧
    (∀ n : Int, (Nat.toDigits 10 n.natAbs).length ≤ 4300 →
      number symbols (Text.decimal n) = .ok n) ∧
    (∀ (n : Nat) (s : Text), s.map Char.toLower = '0' :: 'x' :: Nat.toDigits 16 n →
      number symbols s = .ok n) ∧
    ∀ (n : Nat) (s : Text), s.map Char.toLower = '0' :: 'b' :: Nat.toDigits 2 n →
      number symbols s = .ok n := by
  refine ⟨fun n => literal_eq_ok_iff, literal_eq_longDecimal_iff, ?_,
    fun n => number_decimal symbols, ?_, ?_⟩
  · intro undenoted short
    obtain ⟨n, denotes⟩ | long | ⟨flaw, failed⟩ :=
      literal_cases symbols (Text.upper (Text.strip token))
    · exact absurd ⟨n, denotes⟩ undenoted
    · exact absurd long short
    · exact ⟨.invalidNumber flaw, failed, rfl⟩
  · intro n s written
    exact number_marked (by decide) (by decide) (Text.spells_toDigits (by decide) (by decide) n)
      written fun _ => .hexadecimal
  · intro n s written
    exact number_marked (by decide) (by decide) (Text.spells_toDigits (by decide) (by decide) n)
      written fun _ => .binary

/-- A negative number, letters of both cases, and a digit that its radix does not have. -/
theorem number_grammar_radices :
    number Symbols.empty (Text.decimal (-12)) = .ok (-12) ∧
    number Symbols.empty "0xBeEf".toList = .ok 0xBEEF ∧
    number Symbols.empty "0B101".toList = .ok 5 ∧
    ∃ cause, number Symbols.empty "0b102".toList = .error (.cause cause) ∧
      cause.kind = .invalidNumberLiteral := by
  obtain ⟨value, long, invalid, decimal, hexadecimal, binary⟩ :=
    number_grammar Symbols.empty "0b102".toList
  have failed : number Symbols.empty "0b102".toList =
      .error (.cause (.invalidNumber (.binary "0B102".toList))) := by rfl
  refine ⟨decimal (-12) (by decide), hexadecimal 0xBEEF _ (by decide), binary 5 _ (by decide),
    invalid ?_ ?_⟩
  · rintro ⟨n, denotes⟩
    cases failed.symm.trans ((value n).2 denotes)
  · intro overlong
    cases failed.symm.trans (long.2 overlong)

end Operand
end Mips64
