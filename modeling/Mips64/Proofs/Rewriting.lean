import Mips64.Proofs.Operands

/-! A line in normal form with another text for one of its operands. Main statement: its label and
the rest of its statement stay as they are, unless the line becomes a directive. -/
namespace Mips64

namespace Text

/-- A text that goes on behind its first word: blanks, the word, a gap, and the rest. Another rest
may take its place. -/
lemma exists_front {s : Text} (more : (splitWord s).2 ≠ []) : ∃ blanks gap,
    s = blanks ++ ((splitWord s).1 ++ (gap ++ (splitWord s).2)) ∧ (splitWord s).1 ≠ [] ∧
    (∀ c ∈ gap, isBlank c = true) ∧ ∀ tail, Cut blanks (splitWord s).1 (gap ++ tail) := by
  obtain ⟨blanks, rest, split, cut⟩ := exists_cut s
  have behind : (splitWord s).2 = stripLeft rest := by
    conv_lhs => rw [split, cut.splitWord_eq]
  cases rest with
  | nil => exact absurd behind more
  | cons b rest =>
    have blank := cut.parted b rfl
    have gap_eq : (b :: rest).takeWhile isBlank = b :: rest.takeWhile isBlank :=
      List.takeWhile_cons_of_pos blank
    refine ⟨blanks, (b :: rest).takeWhile isBlank, ?_, fun empty => ?_, fun c member =>
      List.mem_takeWhile_imp member, fun tail => ⟨cut.leading, cut.visible, ?_, fun empty => ?_⟩⟩
    · rw [behind, stripLeft, List.takeWhile_append_dropWhile]
      exact split
    · cases cut.rest_nil empty
    · rw [gap_eq]
      rintro c ⟨⟩
      exact blank
    · cases cut.rest_nil empty

end Text

namespace Line

lemma written_eq (line : Text) : written line = Text.compact (Text.splitWord line).2 := by
  have whole := compact_eq_written line
  rw [Text.compact_eq_splitWord] at whole
  exact (List.append_cancel_left whole).symm

/-- A first word with a colon is a label, and the rest is what follows it. -/
lemma declaration_cut {blanks word rest : Text} (cut : Text.Cut blanks word rest) :
    declaration (blanks ++ (word ++ rest)) =
      if 2 ≤ word.length ∧ word.getLast? = some ':' then (some word.dropLast, Text.strip rest)
      else (none, blanks ++ (word ++ rest)) := by
  have twice : Text.strip (Text.stripLeft rest) = Text.strip rest :=
    congrArg Text.stripRight (List.dropWhile_idempotent Text.isBlank rest)
  simp only [declaration, cut.splitWord_eq, twice]

/-- Blanks around a line do not change its statement. -/
lemma statement_strip (line : Text) : statement (Text.strip line) = statement line := by
  have same : written (Text.strip line) = written line := by
    have whole := compact_eq_written (Text.strip line)
    rw [Text.compact_strip, compact_eq_written, Text.splitWord_strip_fst] at whole
    exact (List.append_cancel_left whole).symm
  rw [statement_eq, statement_eq, Text.splitWord_strip_fst, same]

lemma statement_append_blanks {blanks : Text} (blank : ∀ c ∈ blanks, Text.isBlank c = true)
    (line : Text) : statement (blanks ++ line) = statement line := by
  have same : Text.strip (blanks ++ line) = Text.strip line :=
    congrArg Text.stripRight (List.dropWhile_append_of_pos blank)
  rw [← statement_strip, same, statement_strip]

/-- The statement of a line whose first word goes before a gap. -/
lemma statement_cut {blanks word gap tail : Text} (cut : Text.Cut blanks word (gap ++ tail))
    (blank : ∀ c ∈ gap, Text.isBlank c = true) :
    statement (blanks ++ (word ++ (gap ++ tail))) =
      ⟨Text.upper word, cutOperands (Text.compact tail)⟩ := by
  generalize line_eq : blanks ++ (word ++ (gap ++ tail)) = line
  have first : (Text.splitWord line).1 = word := by rw [← line_eq, cut.splitWord_eq]
  have behind : written line = Text.compact tail := by
    have whole := compact_eq_written line
    rw [first, ← line_eq] at whole
    simp only [Text.compact_append, Text.compact_of_blank cut.leading,
      Text.compact_of_blank blank, Text.compact_of_visible cut.visible, List.nil_append] at whole
    rw [line_eq] at whole
    exact (List.append_cancel_left whole).symm
  rw [statement_eq, first, behind]

/-- The part of a line in normal form behind its label and its mnemonic. -/
def operandText (text : Text) : Text :=
  match (declaration text).1 with
  | none => (Text.splitWord text).2
  | some _ => (Text.splitWord (Text.splitWord text).2).2

/-- A line in normal form with another text between the commas of one of its operands. -/
def withOperand (text : Text) (position : Nat) (piece : Text) : Text :=
  text.take (text.length - (operandText text).length) ++
    Text.joinWith ',' (((operandText text).splitOn ',').set position piece)

lemma withOperand_eq {text front : Text} (split : text = front ++ operandText text)
    (position : Nat) (piece : Text) :
    withOperand text position piece =
      front ++ Text.joinWith ',' (((operandText text).splitOn ',').set position piece) := by
  have length : text.length - (operandText text).length = front.length := by
    have total := congrArg List.length split
    rw [List.length_append] at total
    omega
  have kept : text.take front.length = front := by
    conv_lhs => rw [split, List.take_left]
  rw [withOperand, length, kept]

/-- Operands are parted before or after their blanks are taken out. -/
lemma cutOperands_compact (tail : Text) :
    cutOperands (Text.compact tail) =
      if (tail.splitOn ',').map Text.compact = [[]] then []
      else (tail.splitOn ',').map Text.compact := by
  have joined : [','].intercalate (tail.splitOn ',') = tail := List.intercalate_splitOn ','
  have pieces : Text.compact tail = [','].intercalate ((tail.splitOn ',').map Text.compact) := by
    conv_lhs => rw [← joined, Text.compact_intercalate]
    rfl
  rw [pieces]
  refine cutOperands_intercalate fun s member comma => ?_
  obtain ⟨piece, inside, rfl⟩ := List.mem_map.1 member
  simpa using (of_mem_splitOnP inside (List.mem_of_mem_filter comma)).2

/-- An operand that is written with another text is read as that text. -/
lemma cutOperands_set {tail piece : Text} {position : Nat}
    (inside : position < (cutOperands (Text.compact tail)).length)
    (nonempty : Text.compact piece ≠ []) (apart : ',' ∉ piece) :
    cutOperands (Text.compact (Text.joinWith ',' ((tail.splitOn ',').set position piece))) =
      (cutOperands (Text.compact tail)).set position (Text.compact piece) := by
  have parted : (Text.joinWith ',' ((tail.splitOn ',').set position piece)).splitOn ',' =
      (tail.splitOn ',').set position piece := by
    refine List.splitOn_intercalate ',' (fun s member comma => ?_) ?_
    · rcases List.mem_or_eq_of_mem_set member with old | rfl
      · simpa using (of_mem_splitOnP old comma).2
      · exact apart comma
    · simp [List.splitOn, List.splitOnP_ne_nil]
  rw [cutOperands_compact _, cutOperands_compact tail, parted, List.map_set]
  rw [cutOperands_compact tail] at inside
  split at inside
  · cases inside
  · rename_i several
    have member := List.mem_set inside (Text.compact piece)
    rw [if_neg several, if_neg]
    intro single
    rw [single, List.mem_singleton] at member
    exact nonempty member

section
variable {text piece : Text} {position : Nat}

lemma splitWord_ne_nil_of_operands {line : Text}
    (inside : position < (statement line).operands.length) : (Text.splitWord line).2 ≠ [] := by
  intro empty
  rw [operands_eq, written_eq, empty] at inside
  cases inside

lemma statement_set {blanks word gap tail : Text} (cut : ∀ tail, Text.Cut blanks word (gap ++ tail))
    (blank : ∀ c ∈ gap, Text.isBlank c = true) {line : Text}
    (line_eq : line = blanks ++ (word ++ (gap ++ tail)))
    (inside : position < (statement line).operands.length)
    (nonempty : Text.compact piece ≠ []) (apart : ',' ∉ piece) :
    statement (blanks ++ (word ++
        (gap ++ Text.joinWith ',' ((tail.splitOn ',').set position piece)))) =
      ⟨(statement line).mnemonic,
        (statement line).operands.set position (Text.compact piece)⟩ := by
  rw [line_eq, statement_cut (cut tail) blank] at inside ⊢
  rw [statement_cut (cut _) blank, cutOperands_set inside nonempty apart]

/-- Another text for an operand leaves the label of a line, and the rest of its statement. -/
lemma declaration_withOperand
    (inside : position < (statement (declaration text).2).operands.length)
    (nonempty : Text.compact piece ≠ []) (apart : ',' ∉ piece) :
    ∃ body, declaration (withOperand text position piece) = ((declaration text).1, body) ∧
      statement body = ⟨(statement (declaration text).2).mnemonic,
        (statement (declaration text).2).operands.set position (Text.compact piece)⟩ := by
  by_cases labelled : 2 ≤ (Text.splitWord text).1.length ∧
      (Text.splitWord text).1.getLast? = some ':'
  · have declares : declaration text = (some (Text.splitWord text).1.dropLast,
        Text.strip (Text.splitWord text).2) := if_pos labelled
    rw [declares, statement_strip] at inside ⊢
    have more' := splitWord_ne_nil_of_operands inside
    have more : (Text.splitWord text).2 ≠ [] := by
      intro empty
      rw [empty] at more'
      exact more' rfl
    obtain ⟨blanks, gap, split, -, blank, cut⟩ := Text.exists_front more
    obtain ⟨blanks', gap', split', -, blank', cut'⟩ := Text.exists_front more'
    have behind : operandText text = (Text.splitWord (Text.splitWord text).2).2 := by
      rw [operandText, declares]
    -- All that stands before the operands stays as it is, the gaps included.
    have whole : text = (blanks ++ ((Text.splitWord text).1 ++ (gap ++ (blanks' ++
        ((Text.splitWord (Text.splitWord text).2).1 ++ gap'))))) ++ operandText text := by
      rw [behind]
      simpa using split.trans (by rw [← split'])
    have line_eq := withOperand_eq whole position piece
    simp only [List.append_assoc] at line_eq
    have replaced := statement_set cut' blank' split' inside nonempty apart
    rw [← behind] at replaced
    refine ⟨_, ?_, (statement_strip _).trans ((statement_append_blanks blank _).trans replaced)⟩
    rw [line_eq, declaration_cut (cut _), if_pos labelled]
  · have bare : declaration text = (none, text) := if_neg labelled
    rw [bare] at inside ⊢
    obtain ⟨blanks, gap, split, -, blank, cut⟩ :=
      Text.exists_front (splitWord_ne_nil_of_operands inside)
    have behind : operandText text = (Text.splitWord text).2 := by rw [operandText, bare]
    have whole : text = (blanks ++ ((Text.splitWord text).1 ++ gap)) ++ operandText text := by
      rw [behind]
      simpa using split
    have line_eq := withOperand_eq whole position piece
    simp only [List.append_assoc] at line_eq
    have replaced := statement_set cut blank split inside nonempty apart
    rw [← behind] at replaced
    refine ⟨_, ?_, replaced⟩
    rw [line_eq, declaration_cut (cut _), if_neg labelled]

end

end Line

namespace Assembly

/-- The mnemonic of a text between brackets starts with a bracket. -/
lemma head?_of_isBracketed {line : Text} (bracketed : Directive.isBracketed line = true) :
    (Line.statement line).mnemonic.head? = some '[' := by
  simp only [Directive.isBracketed, Bool.and_eq_true, beq_iff_eq] at bracketed
  obtain ⟨⟨-, head⟩, -⟩ := bracketed
  cases stripped : Text.strip line with
  | nil => rw [stripped] at head; cases head
  | cons c rest =>
    rw [stripped] at head
    cases head
    rw [← Line.statement_strip, Line.mnemonic_eq, stripped]
    rfl

lemma contentOf_eq_statement_iff {text s : Text} : contentOf text = .statement s ↔
    s = text ∧ text ≠ [] ∧ Directive.isBracketed text = false := by
  unfold contentOf
  split
  · rename_i empty
    simp [List.isEmpty_iff.1 empty]
  · rename_i nonempty
    split
    · rename_i bracketed
      simp [bracketed]
    · rename_i unbracketed
      rw [List.isEmpty_iff] at nonempty
      simp [nonempty, unbracketed, eq_comm]

/-- A statement can be written with another text for one of its operands. -/
theorem shape_withOperand {text s piece : Text} {position : Nat}
    (holds : (shape text).content = .statement s)
    (inside : position < (Line.statement s).operands.length)
    (nonempty : Text.compact piece ≠ []) (apart : ',' ∉ piece)
    (head : (Line.statement s).mnemonic.head? ≠ some '[')
    (unbracketed : Directive.isBracketed (Line.withOperand text position piece) = false) :
    ∃ s', shape (Line.withOperand text position piece) = ⟨(shape text).label, .statement s'⟩ ∧
      Line.statement s' = ⟨(Line.statement s).mnemonic,
        (Line.statement s).operands.set position (Text.compact piece)⟩ := by
  have open_end : Directive.isBracketed text = false := by
    by_contra bracketed
    rw [Bool.not_eq_false] at bracketed
    simp only [shape, bracketed, if_true] at holds
    cases holds
  simp only [shape, open_end, unbracketed, Bool.false_eq_true, if_false] at holds ⊢
  obtain ⟨rfl, -, -⟩ := contentOf_eq_statement_iff.1 holds
  obtain ⟨body, declares, replaced⟩ := Line.declaration_withOperand inside nonempty apart
  have present : body ≠ [] := by
    rintro rfl
    have operands := congrArg (fun s => s.operands.length) replaced
    simp only [List.length_set] at operands
    rw [← operands] at inside
    cases inside
  have open_body : Directive.isBracketed body = false := by
    by_contra bracketed
    have bracket := head?_of_isBracketed (Bool.not_eq_false _ ▸ bracketed)
    rw [replaced] at bracket
    exact head bracket
  rw [declares]
  exact ⟨body, congrArg _ (contentOf_eq_statement_iff.2 ⟨rfl, present, open_body⟩), replaced⟩

end Assembly
end Mips64
