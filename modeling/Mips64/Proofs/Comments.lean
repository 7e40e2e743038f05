import Mathlib.Algebra.Ring.Parity
import Mathlib.Order.Bounds.Basic
import Mips64.Line

/-! Comments of source lines. A line is scanned once, and quotes switch on the way whether a mark
counts. Main statement: what is kept is the line up to the first mark with an even number of quotes
before it. A second scan therefore changes nothing, and a comment put behind a line in which all
quotes are closed leaves no trace. -/
namespace Mips64.Line

def commentMarks : List Text := [[';'], ['#'], ['/', '/']]

/-- A comment starts at a position: one of the marks stands there, and the number of quotes before
it is even. -/
def CommentAt (line : Text) (k : Nat) : Prop :=
  Even ((line.take k).count '"') ∧ ∃ mark ∈ commentMarks, mark <+: line.drop k

instance (line : Text) (k : Nat) : Decidable (CommentAt line k) :=
  inferInstanceAs (Decidable (_ ∧ _))

lemma startsWithComment_iff {s : Text} :
    startsWithComment s = true ↔ ∃ mark ∈ commentMarks, mark <+: s := by
  fun_cases startsWithComment s with
  | case1 | case2 | case3 => simp [commentMarks, List.prefix_cons_iff]
  | case4 s no_semicolon no_hash no_slashes =>
    simp only [commentMarks, List.mem_cons, List.not_mem_nil, or_false, exists_eq_or_imp,
      exists_eq_left, Bool.false_eq_true, false_iff, not_or]
    refine ⟨?_, ?_, ?_⟩ <;> rintro ⟨rest, rfl⟩
    · exact no_semicolon rest rfl
    · exact no_hash rest rfl
    · exact no_slashes rest rfl

/-- Where a comment could start is decided by the quotes before and the text behind. -/
lemma commentAt_append_length (before rest : Text) :
    CommentAt (before ++ rest) before.length ↔
      Even (before.count '"') ∧ startsWithComment rest = true := by
  rw [CommentAt, List.take_left, List.drop_left, startsWithComment_iff]

/-- One step of the scan, behind any text: it ends where a comment starts, or keeps the character
and goes on behind it. -/
lemma withoutCommentFrom_cons (before : Text) (c : Char) (rest : Text) :
    withoutCommentFrom (decide (Odd (before.count '"'))) (c :: rest) =
      if CommentAt (before ++ c :: rest) before.length then []
      else c :: withoutCommentFrom (decide (Odd ((before ++ [c]).count '"'))) rest := by
  rw [withoutCommentFrom]
  simp only [commentAt_append_length]
  by_cases quote : c = '"'
  · have toggled : (!decide (Odd (before.count '"'))) =
        decide (Odd ((before ++ ['"']).count '"')) := by
      rw [← decide_not, decide_eq_decide, List.count_append, List.count_singleton_self,
        Nat.odd_add_one]
    subst quote
    rw [if_pos rfl, if_neg (by simp [startsWithComment]), toggled]
  · simp [quote]

/-- The scan behind a text keeps all up to the first comment from there on, or up to the end of the
line. -/
lemma exists_end_withoutCommentFrom (before rest : Text) :
    ∃ k, before.length ≤ k ∧
      before ++ withoutCommentFrom (decide (Odd (before.count '"'))) rest =
        (before ++ rest).take k ∧
      (∀ j, before.length ≤ j → j < k → ¬ CommentAt (before ++ rest) j) ∧
      (CommentAt (before ++ rest) k ∨ k = (before ++ rest).length) := by
  induction rest generalizing before with
  | nil => exact ⟨before.length, le_rfl, by simp [withoutCommentFrom], by omega, .inr (by simp)⟩
  | cons c rest ih =>
    rw [withoutCommentFrom_cons]
    split
    · rename_i starts
      exact ⟨before.length, le_rfl, by simp, by omega, .inl starts⟩
    · rename_i goes_on
      have later := ih (before ++ [c])
      rw [List.append_assoc before [c] rest, List.append_assoc before [c], List.singleton_append,
        List.singleton_append, List.length_append, List.length_singleton] at later
      obtain ⟨k, behind, kept, no_comment, ends⟩ := later
      refine ⟨k, by omega, kept, fun j from_here earlier => ?_, ends⟩
      obtain rfl | further := Nat.eq_or_lt_of_le from_here
      · exact goes_on
      · exact no_comment j further earlier

/-- A line is kept up to its first comment, or to its end. -/
lemma exists_end_withoutComment (line : Text) :
    ∃ k, withoutComment line = line.take k ∧ (∀ j < k, ¬ CommentAt line j) ∧
      (CommentAt line k ∨ k = line.length) := by
  obtain ⟨k, -, kept, no_comment, ends⟩ := exists_end_withoutCommentFrom [] line
  exact ⟨k, kept, fun j => no_comment j (Nat.zero_le j), ends⟩

section
variable {line : Text} {k : Nat}

lemma CommentAt.lt_length (starts : CommentAt line k) : k < line.length := by
  obtain ⟨-, mark, listed, stands⟩ := starts
  by_contra beyond
  rw [List.drop_eq_nil_of_le (by omega), List.prefix_nil] at stands
  subst stands
  revert listed
  decide

lemma withoutComment_of_isLeast (first : IsLeast {k | CommentAt line k} k) :
    withoutComment line = line.take k := by
  obtain ⟨j, kept, no_comment, ends⟩ := exists_end_withoutComment line
  have bound : k ≤ line.length := first.1.lt_length.le
  have not_before : j ≤ k := by
    by_contra earlier
    exact no_comment k (by omega) first.1
  rcases ends with starts | rfl
  · have not_behind : k ≤ j := first.2 starts
    rw [kept, Nat.le_antisymm not_before not_behind]
  · rw [kept, Nat.le_antisymm bound not_before]

lemma withoutComment_of_forall_not (uncommented : ∀ k, ¬ CommentAt line k) :
    withoutComment line = line := by
  obtain ⟨k, kept, -, starts | rfl⟩ := exists_end_withoutComment line
  · exact absurd starts (uncommented k)
  · rw [kept, List.take_length]

lemma CommentAt.append (starts : CommentAt line k) (rest : Text) :
    CommentAt (line ++ rest) k := by
  have inside := starts.lt_length.le
  obtain ⟨even, mark, listed, stands⟩ := starts
  refine ⟨?_, mark, listed, ?_⟩
  · rwa [List.take_append_of_le_length inside]
  · rw [List.drop_append_of_le_length inside]
    exact stands.trans (List.prefix_append _ _)

/-- A mark reaches from a text into what is put behind it only where two slashes meet. -/
lemma mark_prefix_of_append {mark s rest : Text} (listed : mark ∈ commentMarks)
    (stands : mark <+: s ++ rest) (nonempty : s ≠ [])
    (apart : s.getLast? = some '/' → rest.head? ≠ some '/') : mark <+: s := by
  obtain _ | ⟨c, _ | ⟨d, s⟩⟩ := s
  · exact absurd rfl nonempty
  · simp only [commentMarks, List.mem_cons, List.not_mem_nil, or_false] at listed
    obtain ⟨behind, split⟩ := stands
    rcases listed with rfl | rfl | rfl
    · exact ⟨[], congrArg (fun s => s.take 1) split⟩
    · exact ⟨[], congrArg (fun s => s.take 1) split⟩
    · cases split
      exact absurd rfl (apart rfl)
  · have short : ∀ mark ∈ commentMarks, mark.length ≤ 2 := by decide
    refine List.prefix_of_prefix_length_le stands (List.prefix_append _ _) ?_
    exact (short mark listed).trans (by simp)

/-- What is put behind a line starts no comment inside it, unless two slashes meet. -/
lemma CommentAt.of_append {rest : Text} (starts : CommentAt (line ++ rest) k)
    (inside : k < line.length)
    (apart : line.getLast? = some '/' → rest.head? ≠ some '/') : CommentAt line k := by
  obtain ⟨even, mark, listed, stands⟩ := starts
  rw [List.take_append_of_le_length inside.le] at even
  rw [List.drop_append_of_le_length inside.le] at stands
  have nonempty : line.drop k ≠ [] := by
    rw [Ne, List.drop_eq_nil_iff]
    omega
  have last : (line.drop k).getLast? = line.getLast? := by
    rw [List.getLast?_drop, if_neg (by omega)]
  exact ⟨even, mark, listed, mark_prefix_of_append listed stands nonempty (last ▸ apart)⟩

/-- No comment is left in what is kept. -/
lemma not_commentAt_withoutComment (line : Text) (k : Nat) :
    ¬ CommentAt (withoutComment line) k := by
  obtain ⟨first, kept, no_comment, -⟩ := exists_end_withoutComment line
  intro starts
  rw [kept] at starts
  have before : k < first := starts.lt_length.trans_le (List.length_take_le _ _)
  have in_line := starts.append (line.drop first)
  rw [List.take_append_drop] at in_line
  exact no_comment k before in_line

/-- A comment behind closed quotes is cut off, and with it nothing of the line. -/
lemma withoutComment_append {rest : Text} (closed : Even (line.count '"'))
    (starts : startsWithComment rest = true)
    (apart : line.getLast? = some '/' → rest.head? ≠ some '/') :
    withoutComment (line ++ rest) = withoutComment line := by
  obtain ⟨k, kept, no_comment, ends⟩ := exists_end_withoutComment line
  have inside : k ≤ line.length := by
    rcases ends with starts | rfl
    · exact starts.lt_length.le
    · exact le_rfl
  have first : IsLeast {k | CommentAt (line ++ rest) k} k := by
    constructor
    · rcases ends with starts | rfl
      · exact starts.append rest
      · exact (commentAt_append_length line rest).2 ⟨closed, starts⟩
    · intro j earlier
      by_contra before
      exact no_comment j (by omega) (earlier.of_append (by omega) apart)
  rw [withoutComment_of_isLeast first, kept, List.take_append_of_le_length inside]

end

/-- A line is kept up to the first position at which a comment mark stands behind an even number of
quotes, and whole if there is none. So a second time nothing is cut off. If the quotes of a line are
closed, then a comment put behind it is cut off and nothing else, where the line must not end with a
slash if the comment starts with two. -/
theorem withoutComment_exact (line : Text) :
    (∀ k, IsLeast {k | CommentAt line k} k → withoutComment line = line.take k) ∧
    ((∀ k, ¬ CommentAt line k) → withoutComment line = line) ∧
    withoutComment (withoutComment line) = withoutComment line ∧
    (Even (line.count '"') → ∀ text : Text,
      withoutComment (line ++ ';' :: text) = withoutComment line ∧
      withoutComment (line ++ '#' :: text) = withoutComment line ∧
      (line.getLast? ≠ some '/' →
        withoutComment (line ++ '/' :: '/' :: text) = withoutComment line)) := by
  refine ⟨fun k => withoutComment_of_isLeast, withoutComment_of_forall_not, ?_, ?_⟩
  · exact withoutComment_of_forall_not (not_commentAt_withoutComment line)
  · intro closed text
    refine ⟨?_, ?_, fun no_slash => ?_⟩
    · exact withoutComment_append closed rfl (by simp)
    · exact withoutComment_append closed rfl (by simp)
    · exact withoutComment_append closed rfl fun slash => absurd slash no_slash

/-- A slash before the mark, a mark in closed quotes, and marks in quotes that stay open. -/
theorem withoutComment_exact_quoted :
    IsLeast {k | CommentAt "x \";\" /; c".toList k} 7 ∧
    withoutComment "x \";\" /; c".toList = "x \";\" /".toList ∧
    (∀ k, ¬ CommentAt "x \";\" \"//".toList k) ∧
    withoutComment "x \";\" \"//".toList = "x \";\" \"//".toList ∧
    Even ("x \";\"".toList.count '"') ∧
    withoutComment "x \";\"// \"c".toList = withoutComment "x \";\"".toList := by
  have first : IsLeast {k | CommentAt "x \";\" /; c".toList k} 7 := by
    refine ⟨by decide, fun k starts => ?_⟩
    have before : ∀ k < 7, ¬ CommentAt "x \";\" /; c".toList k := by decide
    by_contra earlier
    exact before k (by omega) starts
  have quoted : ∀ k, ¬ CommentAt "x \";\" \"//".toList k := by
    intro k starts
    have inside : ∀ k < "x \";\" \"//".toList.length, ¬ CommentAt "x \";\" \"//".toList k := by
      decide
    exact inside k starts.lt_length starts
  have closed : Even ("x \";\"".toList.count '"') := by decide
  have behind := (withoutComment_exact "x \";\"".toList).2.2.2 closed " \"c".toList
  exact ⟨first, (withoutComment_exact _).1 7 first, quoted, (withoutComment_exact _).2.1 quoted,
    closed, behind.2.2 (by decide)⟩

-- A slash at the end of a line is taken for the first of the two that start the comment.
example : withoutComment "a/// c".toList = "a".toList ∧
    withoutComment "a/".toList = "a/".toList := by decide

end Mips64.Line
