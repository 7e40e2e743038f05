import Mips64.Proofs.Expansion

/-! Texts whose numerals can be converted: they are not too long, and all their digits are decimal.
Main statement: neither capitals nor cuts add digits to a text, so what is read from such a text is
such a text. -/
namespace Mips64

namespace Text

def digits (s : Text) : Text := s.filter isDigit

/-- Whatever numeral is cut from the text, it can be converted. -/
def IsConvertible (s : Text) : Prop :=
  (digits s).length ≤ maxDecimalDigits ∧ ∀ c ∈ digits s, (decimalValue? c).isSome = true

instance (s : Text) : Decidable (IsConvertible s) := inferInstanceAs (Decidable (_ ∧ _))

lemma IsConvertible.of_digits {s t : Text} (h : IsConvertible t)
    (fewer : (digits s).Sublist (digits t)) : IsConvertible s :=
  ⟨fewer.length_le.trans h.1, fun c member => h.2 c (fewer.subset member)⟩

lemma IsConvertible.of_sublist {s t : Text} (h : IsConvertible t) (part : s.Sublist t) :
    IsConvertible s :=
  h.of_digits (part.filter isDigit)

def digitRanges : List (Nat × Nat) := zeros.map (fun z => (z, z + 9)) ++ nonDecimalDigits

lemma exists_digitRange {c : Char} (digit : isDigit c = true) :
    ∃ range ∈ digitRanges, range.1 ≤ c.toNat ∧ c.toNat ≤ range.2 := by
  simp only [isDigit, Bool.or_eq_true] at digit
  rcases digit with decimal | other
  · obtain ⟨value, found⟩ := Option.isSome_iff_exists.1 decimal
    obtain ⟨z, first, -⟩ := Option.map_eq_some_iff.1 found
    have near := List.find?_some first
    simp only [Bool.and_eq_true, decide_eq_true_eq] at near
    refine ⟨(z, z + 9), List.mem_append_left _ (List.mem_map_of_mem ?_), near.1, by omega⟩
    exact List.mem_of_find?_eq_some first
  · obtain ⟨range, listed, near⟩ := List.any_eq_true.1 other
    simp only [Bool.and_eq_true, decide_eq_true_eq] at near
    exact ⟨range, List.mem_append_right _ listed, near⟩

lemma isDigit_ofNat {n : Nat} (outside : ∀ range ∈ digitRanges, n < range.1 ∨ range.2 < n) :
    isDigit (Char.ofNat n) = false := by
  have positive : ∀ range ∈ digitRanges, 0 < range.1 := by decide +kernel
  by_contra digit
  obtain ⟨range, listed, low, high⟩ := exists_digitRange (Bool.not_eq_false _ ▸ digit)
  have start := positive range listed
  have apart := outside range listed
  -- A number that is no code point stands for the null character.
  have code : (Char.ofNat n).toNat = n ∨ (Char.ofNat n).toNat = 0 := by
    by_cases valid : n.isValidChar
    · left
      rw [Char.ofNat, dif_pos valid]
      rfl
    · right
      rw [Char.ofNat, dif_neg valid]
      rfl
  omega

/-- The capitals of a run are no digits. -/
lemma isDigit_capital {r : CaseRun} (listed : r ∈ caseRuns) {n capital : Nat}
    (found : r.capital? n = some capital) : isDigit (Char.ofNat capital) = false := by
  have apart : ∀ r ∈ caseRuns, ∀ range ∈ digitRanges,
      r.image + r.stride * r.count ≤ range.1 ∨ range.2 < r.image := by decide +kernel
  unfold CaseRun.capital? at found
  split at found
  · rename_i inside
    cases found
    refine isDigit_ofNat fun range member => ?_
    have beside := apart r listed range member
    omega
  · cases found

/-- A character is its own capital, or has a capital form without digits. -/
lemma upperChar_cases (c : Char) :
    upperChar c = [c] ∨ ∀ d ∈ upperChar c, isDigit d = false := by
  have ascii : ∀ n < 128, upperChar (Char.ofNat n) = [Char.ofNat n] ∨
      ∀ d ∈ upperChar (Char.ofNat n), isDigit d = false := by decide +kernel
  have forms : ∀ entry ∈ expansions, ∀ n ∈ entry.2, isDigit (Char.ofNat n) = false := by
    decide +kernel
  by_cases small : c.toNat < 128
  · have known := ascii c.toNat small
    rwa [Char.ofNat_toNat] at known
  · rw [upperChar, if_neg small]
    split
    · rename_i form found
      right
      intro d member
      obtain ⟨n, inside, rfl⟩ := List.mem_map.1 member
      obtain ⟨before, after, split, -⟩ := List.lookup_eq_some_iff.1 found
      exact forms (c.toNat, form) (split ▸ List.mem_append_right _ List.mem_cons_self) n inside
    · split
      · rename_i capital found
        right
        intro d member
        obtain ⟨r, listed, of_run⟩ := List.exists_of_findSome?_eq_some found
        rw [List.mem_singleton.1 member]
        exact isDigit_capital listed of_run
      · exact .inl rfl

/-- Capitals have no digits that the text has not. -/
lemma digits_upper_sublist (s : Text) : (digits (upper s)).Sublist (digits s) := by
  induction s with
  | nil => exact .slnil
  | cons c s ih =>
    have head : (digits (upperChar c)).Sublist (digits [c]) := by
      rcases upperChar_cases c with same | without
      · rw [same]
      · rw [digits, List.filter_eq_nil_iff.2 fun d member => by simp [without d member]]
        exact List.nil_sublist _
    have joined := head.append ih
    rwa [digits, digits, digits, digits, ← List.filter_append, ← List.filter_append] at joined

lemma IsConvertible.upper {s : Text} (h : IsConvertible s) : IsConvertible (upper s) :=
  h.of_digits (digits_upper_sublist s)

lemma strip_sublist (s : Text) : (strip s).Sublist s := by
  obtain ⟨blanks, -, split⟩ := stripRight_append_blanks (stripLeft s)
  have right : (strip s).Sublist (stripLeft s) := by
    conv_rhs => rw [split]
    exact List.sublist_append_left _ _
  exact right.trans (List.dropWhile_sublist _)

lemma IsConvertible.strip {s : Text} (h : IsConvertible s) : IsConvertible (strip s) :=
  h.of_sublist (strip_sublist s)

/-- A text of digits has as many characters as it has digits. -/
lemma digits_of_all {s : Text} (all : ∀ c ∈ s, isDigit c = true) : digits s = s :=
  List.filter_eq_self.2 all

lemma isDigit_of_isAsciiDigit {c : Char} (ascii : isAsciiDigit c = true) : isDigit c = true := by
  have each : ∀ n < 58, isAsciiDigit (Char.ofNat n) = true → isDigit (Char.ofNat n) = true := by
    decide +kernel
  have small : c.toNat < 58 := by
    simp only [isAsciiDigit, Bool.and_eq_true, decide_eq_true_eq, Char.le_def,
      UInt32.le_iff_toNat_le] at ascii
    exact Nat.lt_succ_of_le ascii.2
  have known := each c.toNat small
  rw [Char.ofNat_toNat] at known
  exact known ascii

lemma unsigned_sublist (s : Text) : (unsigned s).Sublist s := by
  unfold unsigned
  split
  · exact List.sublist_cons_self _ _
  · exact List.sublist_cons_self _ _
  · exact List.Sublist.refl _

/-- A convertible decimal literal is not too long. -/
lemma IsConvertible.length_unsigned_le {s : Text} (h : IsConvertible s)
    (decimal : isDecLiteral s = true) : (unsigned s).length ≤ maxDecimalDigits := by
  simp only [isDecLiteral, Bool.and_eq_true, List.all_eq_true] at decimal
  have all : digits (unsigned s) = unsigned s :=
    digits_of_all fun c member => isDigit_of_isAsciiDigit (decimal.2 c member)
  rw [← all]
  exact (h.of_sublist (unsigned_sublist s)).1

end Text

/-- A partial function succeeds on a whole list where it does on every item. -/
lemma exists_mapM_eq_some {α β : Type} {f : α → Option β} {xs : List α}
    (h : ∀ x ∈ xs, (f x).isSome = true) : ∃ ys, xs.mapM f = some ys := by
  induction xs with
  | nil => exact ⟨[], rfl⟩
  | cons x xs ih =>
    obtain ⟨y, first⟩ := Option.isSome_iff_exists.1 (h x List.mem_cons_self)
    obtain ⟨ys, others⟩ := ih fun x' member => h x' (List.mem_cons_of_mem x member)
    exact ⟨y :: ys, mapM_eq_some_iff.2 (.cons first (mapM_eq_some_iff.1 others))⟩

namespace Register

lemma exists_decimalNumber {name : Text} (convertible : Text.IsConvertible name)
    (all : ∀ c ∈ name, Text.isDigit c = true) : ∃ n, decimalNumber name = .ok n := by
  obtain ⟨short, decimal⟩ := convertible
  rw [Text.digits_of_all all] at short decimal
  obtain ⟨values, read⟩ := exists_mapM_eq_some decimal
  rw [decimalNumber, if_neg (by omega), read]
  exact ⟨_, rfl⟩

end Register
end Mips64
