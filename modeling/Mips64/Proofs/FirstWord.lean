import Mathlib.Data.List.DropRight
import Mips64.Line
import Mips64.Macro.Template

/-! The first word of a line, from which its mnemonic is taken. Blanks around the line do not change
it, and a template whose first word has no brace keeps it however it is filled. -/
namespace Mips64

namespace Text

/-- What holds of all characters of a text is decided character by character. The search through all
characters that there are, which would decide it as well, is far too long. -/
instance (priority := 2000) decidableForallMem {s : Text} {p : Char → Prop} [DecidablePred p] :
    Decidable (∀ c ∈ s, p c) :=
  List.decidableBAll p s

lemma stripRight_append_blanks (s : Text) :
    ∃ blanks, (∀ c ∈ blanks, isBlank c = true) ∧ s = stripRight s ++ blanks :=
  ⟨s.rtakeWhile isBlank, fun _ h => List.mem_rtakeWhile_imp h,
    List.rdropWhile_append_rtakeWhile.symm⟩

lemma head?_strip_of_visible {c : Char} (visible : isBlank c = false) (s : Text) :
    (strip (c :: s)).head? = some c := by
  have left : stripLeft (c :: s) = c :: s := List.dropWhile_cons_of_neg (by simp [visible])
  obtain ⟨blanks, allBlank, split⟩ := stripRight_append_blanks (c :: s)
  rw [strip, left]
  cases kept : stripRight (c :: s) with
  | nil =>
    rw [kept, List.nil_append] at split
    have blank := allBlank c (split ▸ List.mem_cons_self)
    rw [visible] at blank
    cases blank
  | cons d kept' =>
    rw [kept] at split
    cases split
    rfl

lemma takeWhile_append_blanks (s blanks : Text) (h : ∀ c ∈ blanks, isBlank c = true) :
    (s ++ blanks).takeWhile (fun c => !isBlank c) = s.takeWhile (fun c => !isBlank c) := by
  have dropped : blanks.takeWhile (fun c => !isBlank c) = [] := by
    cases blanks with
    | nil => rfl
    | cons c rest => simp [h c]
  rw [List.takeWhile_append]
  split
  · rename_i whole
    rw [dropped, List.append_nil]
    exact ((List.takeWhile_prefix _).eq_of_length whole).symm
  · rfl

lemma stripLeft_stripRight_stripLeft (s : Text) :
    stripLeft (stripRight (stripLeft s)) = stripRight (stripLeft s) := by
  obtain ⟨blanks, allBlank, split⟩ := stripRight_append_blanks (stripLeft s)
  cases kept : stripRight (stripLeft s) with
  | nil => rfl
  | cons c rest =>
    have head : stripLeft s = c :: (rest ++ blanks) := by rw [split, kept]; rfl
    have visible : isBlank c = false := by
      have twice : stripLeft (stripLeft s) = stripLeft s := List.dropWhile_idempotent isBlank s
      cases blank : isBlank c with
      | false => rfl
      | true =>
        have shorter := congrArg List.length twice
        rw [head, stripLeft, List.dropWhile_cons_of_pos blank] at shorter
        have bound := (List.dropWhile_suffix isBlank (l := rest ++ blanks)).length_le
        simp only [List.length_cons] at shorter
        omega
    exact List.dropWhile_cons_of_neg (by simp [visible])

/-- Blanks around a text do not change its first word. -/
lemma splitWord_strip_fst (s : Text) : (splitWord (strip s)).1 = (splitWord s).1 := by
  obtain ⟨blanks, allBlank, split⟩ := stripRight_append_blanks (stripLeft s)
  simp only [splitWord, strip, stripLeft_stripRight_stripLeft]
  conv_rhs => rw [split]
  exact (takeWhile_append_blanks _ _ allBlank).symm

/-- The parts of a text that is cut around its first word: blanks, the word, and a rest that starts
with a blank if it is not empty. Only an empty rest follows an empty word. -/
structure Cut (blanks word rest : Text) : Prop where
  leading : ∀ c ∈ blanks, isBlank c = true
  visible : ∀ c ∈ word, isBlank c = false
  parted : ∀ c, rest.head? = some c → isBlank c = true
  rest_nil : word = [] → rest = []

lemma Cut.splitWord_eq {blanks word rest : Text} (h : Cut blanks word rest) :
    splitWord (blanks ++ (word ++ rest)) = (word, stripLeft rest) := by
  have start : stripLeft (blanks ++ (word ++ rest)) = word ++ rest := by
    rw [stripLeft, List.dropWhile_append_of_pos h.leading]
    cases word with
    | nil => simp [h.rest_nil rfl]
    | cons c _ => simp [h.visible c]
  have stop : rest.takeWhile (fun c => !isBlank c) = [] ∧
      rest.dropWhile (fun c => !isBlank c) = rest := by
    cases rest with
    | nil => exact ⟨rfl, rfl⟩
    | cons c _ => simp [h.parted c rfl]
  have visible : ∀ c ∈ word, (!isBlank c) = true := fun c hc => by simp [h.visible c hc]
  simp only [splitWord, start]
  rw [List.takeWhile_append_of_pos visible, List.dropWhile_append_of_pos visible, stop.1, stop.2,
    List.append_nil]

lemma Cut.splitWord_fst {blanks word rest : Text} (h : Cut blanks word rest) :
    (splitWord (blanks ++ (word ++ rest))).1 = word := by
  rw [h.splitWord_eq]

lemma visible_of_head?_stripLeft {s : Text} {c : Char} (h : (stripLeft s).head? = some c) :
    isBlank c = false := by
  have stopped := List.head?_dropWhile_not isBlank s
  simp only [stripLeft] at h
  rw [h] at stopped
  exact stopped

/-- Every text is cut around its first word. -/
lemma exists_cut (s : Text) :
    ∃ blanks rest, s = blanks ++ ((splitWord s).1 ++ rest) ∧ Cut blanks (splitWord s).1 rest := by
  refine ⟨s.takeWhile isBlank, (stripLeft s).dropWhile (fun c => !isBlank c), ?_, ?_⟩
  · simp only [splitWord, List.takeWhile_append_dropWhile]
    exact List.takeWhile_append_dropWhile.symm
  · refine ⟨fun c h => List.mem_takeWhile_imp h, fun c h => ?_, fun c h => ?_, fun h => ?_⟩
    · simpa using List.mem_takeWhile_imp h
    · have stopped := List.head?_dropWhile_not (fun c => !isBlank c) (stripLeft s)
      rw [h] at stopped
      simpa using stopped
    · cases start : stripLeft s with
      | nil => rfl
      | cons c rest =>
        have visible := visible_of_head?_stripLeft (s := s) (c := c) (by rw [start]; rfl)
        simp [splitWord, start, visible] at h

end Text

namespace Template

/-- A character that stands for itself in a template. -/
def isPlain (c : Char) : Bool := c != '\x7b' && c != '\x7d'

lemma pieces_cons {c : Char} (plain : isPlain c = true) (rest : Text) :
    pieces (c :: rest) = .plain c :: pieces rest := by
  simp only [isPlain, Bool.and_eq_true, bne_iff_ne] at plain
  rw [pieces, piecesFrom.eq_def]
  simp [plain.1, plain.2, pieces]

/-- A plain character is written out before what the rest of the template gives. -/
lemma fill_cons {c : Char} (plain : isPlain c = true) (rest : Text) (arguments : List Text) :
    fill (c :: rest) arguments = (fill rest arguments).map (c :: ·) := by
  have within : fillWithin arguments maxLevels .undecided (c :: rest) =
      (fillWithin arguments maxLevels .undecided rest).map (fun r => (r.1, c :: r.2)) := by
    rw [maxLevels, fillWithin, fillWithin, pieces_cons plain]
    rfl
  rw [fill, fill, within]
  cases fillWithin arguments maxLevels .undecided rest <;> rfl

lemma fill_append {written : Text} (plain : ∀ c ∈ written, isPlain c = true) (rest : Text)
    (arguments : List Text) :
    fill (written ++ rest) arguments = (fill rest arguments).map (written ++ ·) := by
  induction written with
  | nil =>
    rw [List.nil_append]
    cases fill rest arguments <;> rfl
  | cons c written ih =>
    have tail : ∀ d ∈ written, isPlain d = true := fun d h => plain d (List.mem_cons_of_mem c h)
    rw [List.cons_append, fill_cons (plain c List.mem_cons_self), ih tail]
    cases fill rest arguments <;> rfl

lemma isPlain_of_isBlank {c : Char} (h : Text.isBlank c = true) : isPlain c = true := by
  simp only [isPlain, Bool.and_eq_true, bne_iff_ne]
  constructor <;> rintro rfl <;> exact absurd h (by decide)

/-- A template whose first word has no brace keeps that word. -/
theorem splitWord_fill {template line : Text} {arguments : List Text}
    (plain : ∀ c ∈ (Text.splitWord template).1, isPlain c = true)
    (filled : fill template arguments = .ok line) :
    (Text.splitWord line).1 = (Text.splitWord template).1 := by
  obtain ⟨blanks, rest, template_eq, cut⟩ := Text.exists_cut template
  generalize (Text.splitWord template).1 = word at *
  subst template_eq
  have lead : ∀ c ∈ blanks, isPlain c = true := fun c h => isPlain_of_isBlank (cut.leading c h)
  rw [fill_append lead, fill_append plain] at filled
  -- The rest is empty, or its first character is a blank and is written out as well.
  cases rest with
  | nil =>
    cases filled
    exact cut.splitWord_fst
  | cons b rest =>
    rw [fill_cons (isPlain_of_isBlank (cut.parted b rfl))] at filled
    cases inner : fill rest arguments with
    | error fault => rw [inner] at filled; cases filled
    | ok out =>
      rw [inner] at filled
      cases filled
      refine Text.Cut.splitWord_fst ⟨cut.leading, cut.visible, ?_, ?_⟩
      · intro c h
        cases h
        exact cut.parted b rfl
      · intro h
        cases cut.rest_nil h

end Template

namespace Line

lemma mnemonic_eq (line : Text) :
    (statement line).mnemonic = Text.upper (Text.splitWord line).1 := by
  simp only [statement, Text.splitWord_strip_fst]

/-- A template whose first word has no brace keeps its mnemonic. -/
lemma mnemonic_fill {template line : Text} {arguments : List Text}
    (plain : ∀ c ∈ (Text.splitWord template).1, Template.isPlain c = true)
    (filled : Template.fill template arguments = .ok line) :
    (statement line).mnemonic = (statement template).mnemonic := by
  rw [mnemonic_eq, mnemonic_eq, Template.splitWord_fill plain filled]

end Line
end Mips64
