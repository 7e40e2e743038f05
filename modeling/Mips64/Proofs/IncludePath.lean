import Mathlib.Data.List.Chain
import Mips64.Proofs.Inclusion

/-! The path that an include line names. The line is cut into words, and the words between the
quotes are put together again. Main statement: a path between quotes is read whatever follows it on
the line, with one space for each of its runs of blanks. -/
namespace Mips64

namespace Text

/-- The text with one space for each run of blanks, where `inside` says that it starts within a run
which has its space already. -/
def squeezeFrom : (inside : Bool) → Text → Text
  | _, [] => []
  | inside, c :: rest =>
    if isBlank c then
      if inside then squeezeFrom true rest else ' ' :: squeezeFrom true rest
    else c :: squeezeFrom false rest

/-- The text with one space for each run of blanks. -/
def squeeze (s : Text) : Text := squeezeFrom false s

/-- The only blanks of a text are spaces, and no two of them stand side by side. -/
def HasSingleSpaces (s : Text) : Prop :=
  (∀ c ∈ s, isBlank c = true → c = ' ') ∧
    s.IsChain (fun c d => isBlank c = true → isBlank d = false)

instance (s : Text) : Decidable (HasSingleSpaces s) :=
  inferInstanceAs (Decidable ((∀ c ∈ s, isBlank c = true → c = ' ') ∧
    s.IsChain (fun c d => isBlank c = true → isBlank d = false)))

example : squeeze " a \t b\n".toList = " a b ".toList := by decide

lemma length_squeezeFrom_le (inside : Bool) (s : Text) :
    (squeezeFrom inside s).length ≤ s.length := by
  induction s generalizing inside with
  | nil => simp [squeezeFrom]
  | cons c s ih =>
    have run := ih true
    have word := ih false
    rw [squeezeFrom]
    split
    · split <;> simp <;> omega
    · simpa using word

lemma hasSingleSpaces_cons_iff {c : Char} {s : Text} : HasSingleSpaces (c :: s) ↔
    HasSingleSpaces s ∧
      (isBlank c = true → c = ' ' ∧ ∀ d, s.head? = some d → isBlank d = false) := by
  simp only [HasSingleSpaces, List.forall_mem_cons, List.isChain_cons, Option.mem_def]
  constructor
  · rintro ⟨⟨first, others⟩, apart, chain⟩
    exact ⟨⟨others, chain⟩, fun blank => ⟨first blank, fun d start => apart d start blank⟩⟩
  · rintro ⟨⟨others, chain⟩, first⟩
    exact ⟨⟨fun blank => (first blank).1, others⟩, fun d start blank => (first blank).2 d start,
      chain⟩

/-- A text is left as it is where its blanks are single spaces; within a run it must start with
another character. -/
lemma squeezeFrom_eq_self_iff (inside : Bool) (s : Text) : squeezeFrom inside s = s ↔
    HasSingleSpaces s ∧ (inside = true → ∀ c, s.head? = some c → isBlank c = false) := by
  induction s generalizing inside with
  | nil => simp [squeezeFrom, HasSingleSpaces]
  | cons c s ih =>
    rw [hasSingleSpaces_cons_iff, squeezeFrom]
    cases blank : isBlank c with
    | false => simp [blank, ih]
    | true =>
      cases inside with
      | false =>
        have space : ' ' = c ↔ c = ' ' := eq_comm
        simp only [if_true, Bool.false_eq_true, if_false, List.cons.injEq, ih, space]
        tauto
      | true =>
        have short := length_squeezeFrom_le true s
        have shorter : squeezeFrom true s ≠ c :: s := by
          intro same
          rw [same, List.length_cons] at short
          omega
        simp [shorter, blank]

lemma words_append_cons {b : Char} (blank : isBlank b = true) (s t : Text) :
    words (s ++ b :: t) = words s ++ words t := by
  rw [words, List.splitOnP_append_cons s t blank, List.filter_append]
  rfl

lemma words_of_visible {w : Text} (nonempty : w ≠ []) (visible : ∀ c ∈ w, isBlank c = false) :
    words w = [w] := by
  simp [words, List.splitOnP_eq_singleton visible, nonempty]

lemma words_cons_blank {b : Char} (blank : isBlank b = true) (t : Text) :
    words (b :: t) = words t :=
  words_append_cons blank [] t

lemma words_blanks_append {blanks : Text} (blank : ∀ c ∈ blanks, isBlank c = true) (t : Text) :
    words (blanks ++ t) = words t := by
  induction blanks with
  | nil => rfl
  | cons b blanks ih =>
    rw [List.cons_append, words_cons_blank (blank b List.mem_cons_self)]
    exact ih fun c member => blank c (List.mem_cons_of_mem b member)

lemma words_append_of_blank {s t : Text} (parted : ∀ c, t.head? = some c → isBlank c = true) :
    words (s ++ t) = words s ++ words t := by
  cases t with
  | nil => simp
  | cons b t =>
    rw [words_append_cons (parted b rfl), words_cons_blank (parted b rfl)]

/-- Blanks around a text do not change its words. -/
lemma words_strip (s : Text) : words (strip s) = words s := by
  obtain ⟨blanks, allBlank, split⟩ := stripRight_append_blanks (stripLeft s)
  have trailing : words blanks = [] := by
    simpa using words_blanks_append allBlank []
  have left : words (stripLeft s) = words s := by
    conv_rhs => rw [← List.takeWhile_append_dropWhile (p := isBlank) (l := s)]
    exact (words_blanks_append (fun c member => List.mem_takeWhile_imp member) _).symm
  have right : words (stripLeft s) = words (strip s) := by
    rw [split, words_append_of_blank fun c first => allBlank c (List.mem_of_mem_head? first),
      trailing, List.append_nil]
    rfl
  rw [← left, right]

lemma joinWith_cons {c : Char} {s : Text} {pieces : List Text} (nonempty : pieces ≠ []) :
    joinWith c (s :: pieces) = s ++ c :: joinWith c pieces := by
  obtain ⟨t, pieces, rfl⟩ := List.exists_cons_of_ne_nil nonempty
  simp [joinWith]

/-- The words of a text that ends with a visible character give, put together without that
character, the text with one space for each run of blanks. A word `w` may have been started. -/
lemma exists_words_concat {q : Char} (visible : isBlank q = false) (s w : Text)
    (started : ∀ c ∈ w, isBlank c = false) : ∃ before last,
      words (w ++ (s ++ [q])) = before ++ [last ++ [q]] ∧
      joinWith ' ' (before ++ [last]) = w ++ squeezeFrom w.isEmpty s := by
  induction s generalizing w with
  | nil =>
    refine ⟨[], w, words_of_visible (by simp) ?_, by simp [joinWith, squeezeFrom]⟩
    intro c member
    rcases List.mem_append.1 member with old | new
    · exact started c old
    · cases List.mem_singleton.1 new
      exact visible
  | cons c s ih =>
    cases blank : isBlank c with
    | false =>
      obtain ⟨before, last, cut, joined⟩ := ih (w ++ [c]) (by
        intro d member
        rcases List.mem_append.1 member with old | new
        · exact started d old
        · cases List.mem_singleton.1 new
          exact blank)
      refine ⟨before, last, ?_, ?_⟩
      · rw [← cut]
        simp
      · have going : List.isEmpty (w ++ [c]) = false := by simp
        rw [joined, going, squeezeFrom, blank]
        simp
    | true =>
      obtain ⟨before, last, cut, joined⟩ := ih [] (by simp)
      cases w with
      | nil =>
        refine ⟨before, last, ?_, ?_⟩
        · rw [← cut]
          exact words_cons_blank blank _
        · rw [joined]
          simp [squeezeFrom, blank]
      | cons d w =>
        refine ⟨(d :: w) :: before, last, ?_, ?_⟩
        · change words ((d :: w) ++ c :: (s ++ [q])) = (d :: w) :: (before ++ [last ++ [q]])
          rw [words_append_cons blank, words_of_visible (by simp) started]
          exact congrArg _ cut
        · rw [List.cons_append, joinWith_cons (by simp), joined]
          simp [squeezeFrom, blank]

end Text

namespace Include

/-- The words of a text between quotes. -/
lemma exists_words_quoted {s : Text} (unquoted : '"' ∉ s) : ∃ body more before last,
    Text.words ('"' :: (s ++ ['"'])) = ('"' :: body) :: more ∧
    body :: more = before ++ [last ++ ['"']] ∧ (∀ piece ∈ before, '"' ∉ piece) ∧
    Text.joinWith ' ' (before ++ [last]) = Text.squeeze s := by
  obtain ⟨before, last, cut, joined⟩ :=
    Text.exists_words_concat (q := '"') (by decide) s ['"'] (by decide)
  have letters : (before ++ [last ++ ['"']]).flatten = '"' :: (Text.compact s ++ ['"']) := by
    rw [← cut, Text.flatten_words]
    exact congrArg ('"' :: ·) (Text.compact_append s ['"'])
  cases before with
  | nil =>
    have whole : last = '"' :: Text.squeeze s := by
      simpa [Text.joinWith, Text.squeeze] using joined
    rw [whole] at cut
    exact ⟨Text.squeeze s ++ ['"'], [], [], Text.squeeze s, cut, rfl, by simp,
      by simp [Text.joinWith]⟩
  | cons first before =>
    rw [List.cons_append, Text.joinWith_cons (by simp)] at joined
    cases first with
    | nil => cases joined
    | cons d body =>
      obtain ⟨rfl, behind⟩ := List.cons.inj joined
      refine ⟨body, before ++ [last ++ ['"']], body :: before, last, cut, rfl, ?_, ?_⟩
      · intro piece member quote
        have closed : (body :: before).flatten ++ last ++ ['"'] = Text.compact s ++ ['"'] := by
          simpa using letters
        have inner := List.append_cancel_right closed
        have inside : '"' ∈ Text.compact s := by
          rw [← inner]
          exact List.mem_append_left last (List.mem_flatten_of_mem member quote)
        exact unquoted (List.mem_of_mem_filter inside)
      · rw [List.cons_append, Text.joinWith_cons (by simp)]
        exact behind

/-- A path between quotes, which itself has none, is read from an include line with one space for
each of its runs of blanks, whatever follows behind a blank. So it is read as it is if and only if
its blanks are single spaces. -/
theorem target?_quoted (path rest : Text) (unquoted : '"' ∉ path)
    (parted : ∀ c, rest.head? = some c → Text.isBlank c = true) :
    target? ("!INCLUDE \"".toList ++ (path ++ '"' :: rest)) = .ok (some (Text.squeeze path)) ∧
    (target? ("!INCLUDE \"".toList ++ (path ++ '"' :: rest)) = .ok (some path) ↔
      Text.HasSingleSpaces path) := by
  obtain ⟨body, more, before, last, cut, closed, unclosed, joined⟩ := exists_words_quoted unquoted
  have line : "!INCLUDE \"".toList ++ (path ++ '"' :: rest) =
      "!INCLUDE".toList ++ ' ' :: (('"' :: (path ++ ['"'])) ++ rest) := by simp
  have written : Text.words (Text.strip ("!INCLUDE \"".toList ++ (path ++ '"' :: rest))) =
      "!INCLUDE".toList :: ('"' :: body) :: (more ++ Text.words rest) := by
    rw [Text.words_strip, line, Text.words_append_cons (by decide),
      Text.words_append_of_blank parted, cut, Text.words_of_visible (by decide) (by decide)]
    rfl
  have names : Names ("!INCLUDE \"".toList ++ (path ++ '"' :: rest)) (Text.squeeze path) := by
    rw [← joined]
    have split : body :: (more ++ Text.words rest) =
        before ++ (last ++ ['"']) :: Text.words rest := by
      rw [← List.cons_append, closed]
      simp
    refine .intro (Text.head?_strip_of_visible (by decide) _) written (by decide) split ?_
    intro piece member ends
    exact unclosed piece member (List.mem_of_getLast? ends)
  have read := target?_eq_some_iff.2 names
  refine ⟨read, ?_⟩
  rw [read]
  simpa [Text.squeeze] using Text.squeezeFrom_eq_self_iff false path

/-- A path with spaces at its ends, first with a run of blanks and more text behind it. -/
theorem target?_quoted_spaced :
    target? "!INCLUDE \" my\t lib.asm \" \"more\"".toList = .ok (some " my lib.asm ".toList) ∧
    target? "!INCLUDE \" my lib.asm \"".toList = .ok (some " my lib.asm ".toList) := by
  have loose := target?_quoted " my\t lib.asm ".toList " \"more\"".toList (by decide) (by
    rintro c ⟨⟩
    decide)
  have tidy := target?_quoted " my lib.asm ".toList [] (by decide) (by rintro c ⟨⟩)
  exact ⟨loose.1, tidy.2.2 (by decide)⟩

end Include
end Mips64
