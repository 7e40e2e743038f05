import Mips64.Proofs.Emission

/-! Macros mean what they stand for. A line that uses a macro can be written out: its label on a
line of its own, and then the lines that the macro stands for. Main statement: what assembles with
the macro assembles written out, to the same program; and with the machine's own macros also the
other way round. -/
namespace Mips64

lemma Text.stripLeft_of_visible {s : Text} (visible : ∀ c ∈ s, isBlank c = false) :
    stripLeft s = s := by
  cases s with
  | nil => rfl
  | cons c s =>
    rw [stripLeft, List.dropWhile_cons_of_neg]
    simp [visible c List.mem_cons_self]

lemma Text.strip_of_visible {s : Text} (visible : ∀ c ∈ s, isBlank c = false) : strip s = s := by
  have reversed : stripLeft s.reverse = s.reverse :=
    stripLeft_of_visible fun c member => visible c (List.mem_reverse.1 member)
  rw [strip, stripLeft_of_visible visible, stripRight]
  exact (congrArg List.reverse reversed).trans (List.reverse_reverse s)

/-- A word is the first word of itself. -/
lemma Text.splitWord_of_visible {s : Text} (visible : ∀ c ∈ s, isBlank c = false) :
    splitWord s = (s, []) := by
  have all : ∀ c ∈ s, (!isBlank c) = true := fun c member => by simp [visible c member]
  simp only [splitWord, stripLeft_of_visible visible]
  rw [List.takeWhile_eq_self_iff.2 all, List.dropWhile_eq_nil_iff.2 all]
  rfl

lemma Text.visible_of_mem_splitWord {s : Text} {c : Char} (member : c ∈ (splitWord s).1) :
    isBlank c = false := by
  simpa using List.mem_takeWhile_imp member

namespace Assembly

/-- A label with its colon is a line that declares the label and holds nothing else. -/
lemma shape_label {line name : Text} (h : labelOf line = some name) :
    shape (name ++ [':']) = ⟨some name, .nothing⟩ := by
  simp only [labelOf, shape, Line.declaration] at h
  split at h
  · cases h
  · dsimp only at h
    split at h
    · rename_i long
      cases h
      rw [List.dropLast_append_getLast? _ long.2]
      generalize word_eq : (Text.splitWord (Line.normalize line)).1 = word at long
      have visible : ∀ c ∈ word, Text.isBlank c = false := by
        rw [← word_eq]
        exact fun c => Text.visible_of_mem_splitWord
      have open_end : Directive.isBracketed word = false := by
        simp [Directive.isBracketed, Text.strip_of_visible visible, long.2]
      simp [shape, open_end, Line.declaration, Text.splitWord_of_visible visible, long, contentOf]
    · cases h

/-- A line that is neither empty nor a directive and starts with no label is a statement. -/
lemma shape_bare {line : Text} (nonempty : line ≠ [])
    (unbracketed : Directive.isBracketed line = false)
    (unlabelled : (Line.declaration line).1 = none) : shape line = ⟨none, .statement line⟩ := by
  rcases parts : Line.declaration line with ⟨label, body⟩
  rw [parts] at unlabelled
  cases unlabelled
  cases declaration_none parts
  simp [shape, unbracketed, parts, contentOf, nonempty]

/-- The lines that the macro of a line stands for. The line uses a macro if beside its label it
holds a statement whose mnemonic is a macro and no instruction. -/
def macroLines? (t : Tables) (line : Text) : Option (List Text) :=
  match (shape (Line.normalize line)).content with
  | .statement s =>
    match t.role (Line.statement s).mnemonic with
    | .expansion m => (m.expand (Line.statement s).operands).toOption
    | _ => none
  | _ => none

lemma macroLines?_eq_some {t : Tables} {line : Text} {lines : List Text}
    (h : macroLines? t line = some lines) : ∃ statement m,
      (shape (Line.normalize line)).content = .statement statement ∧
      t.role (Line.statement statement).mnemonic = .expansion m ∧
      m.expand (Line.statement statement).operands = .ok lines := by
  unfold macroLines? at h
  split at h
  · rename_i statement holds
    split at h
    · rename_i m role
      cases expanded : m.expand (Line.statement statement).operands with
      | error failure => rw [expanded] at h; cases h
      | ok lines' =>
        rw [expanded] at h
        cases h
        exact ⟨statement, m, holds, role, expanded⟩
    · cases h
  · cases h

/-- A line written out: its label on a line of its own, if it has one, and then other lines. -/
def writtenOut (line : Text) (lines : List Text) : List Text :=
  (labelOf line).toList.map (fun name => name ++ [':']) ++ lines

section
variable {t : Tables}

lemma tallyStatement_of_stands (plain : t.HasPlainMnemonics) {levels : Nat}
    (shallow : levels ≤ Macro.maxDepth + 1) {line : Text} {texts : List Text}
    (stands : t.instructionLines levels line = some texts) (r : Run) :
    tallyStatement t line r = .ok { r with count := r.count + texts.length } := by
  have known : t.role (Line.statement line).mnemonic ≠ .unknown := by
    intro role
    rw [Tables.instructionLines_unknown role] at stands
    cases stands
  rw [tallyStatement_eq known, Tables.weight_eq_length plain stands shallow]

lemma tallyLines_of_stands (plain : t.HasPlainMnemonics) {levels : Nat}
    (shallow : levels ≤ Macro.maxDepth + 1) {lines : List Text} {lists : List (List Text)}
    (statements : ∀ e ∈ lines, shape (Line.normalize e) = ⟨none, .statement e⟩)
    (each : List.Forall₂ (fun e texts => t.instructionLines levels e = some texts) lines lists)
    (r : Run) :
    tallyLines t lines r = .ok { r with count := r.count + lists.flatten.length } := by
  induction each generalizing r with
  | nil => rfl
  | @cons e texts lines lists first _ ih =>
    have tallied : tally t (Line.normalize e) r =
        .ok { r with count := r.count + texts.length } := by
      rw [tally_eq, statements e List.mem_cons_self]
      exact tallyStatement_of_stands plain shallow first r
    rw [tallyLines_cons, tallied, List.flatten_cons, List.length_append, ← Nat.add_assoc]
    exact ih (fun e' member => statements e' (List.mem_cons_of_mem e member)) _

lemma encodeLines_of_stands {levels : Nat} (shallow : levels ≤ Macro.maxDepth)
    {lines : List Text} {lists : List (List Text)}
    (statements : ∀ e ∈ lines, shape (Line.normalize e) = ⟨none, .statement e⟩)
    (each : List.Forall₂ (fun e texts => t.instructionLines levels e = some texts) lines lists)
    (r : Run) :
    encodeLines t lines r = lines.foldlM (fun r e => encodeNested t levels e r) r := by
  induction each generalizing r with
  | nil => rfl
  | @cons e texts lines lists first _ ih =>
    -- As a line of the source it may nest deeper than inside the macro, but it does not.
    have encoded : encodeLine t (Line.normalize e) r = encodeNested t levels e r := by
      rw [encodeLine_eq, statements e List.mem_cons_self, encodeNested_eq_foldlM first]
      exact encodeNested_eq_foldlM (Tables.instructionLines_mono shallow first) r
    rw [encodeLines_cons, List.foldlM_cons, encoded]
    exact congrArg _ (funext fun next =>
      ih (fun e' member => statements e' (List.mem_cons_of_mem e member)) next)

end

section
variable {t : Tables} {line : Text} {lines : List Text}

/-- Both passes take the label of a line on a line of its own as they take it on its line. -/
lemma tallyLines_writtenOut
    (unchanged : ∀ l ∈ writtenOut line lines, Line.normalize l = l) (r : Run) :
    tallyLines t (writtenOut line lines) r =
      declareLabel (labelOf line) r >>= tallyLines t lines := by
  cases label : labelOf line with
  | none => rw [writtenOut, label]; rfl
  | some name =>
    have fixed : Line.normalize (name ++ [':']) = name ++ [':'] :=
      unchanged _ (by simp [writtenOut, label])
    have declares : tally t (Line.normalize (name ++ [':'])) r = declareLabel (some name) r := by
      rw [fixed, tally_eq, shape_label label]
      exact bind_pure _
    rw [writtenOut, label]
    exact (tallyLines_cons t _ lines r).trans (congrArg (· >>= tallyLines t lines) declares)

lemma encodeLines_writtenOut
    (unchanged : ∀ l ∈ writtenOut line lines, Line.normalize l = l) (r : Run) :
    encodeLines t (writtenOut line lines) r =
      encodeLines t lines (enterScope (labelOf line) r) := by
  cases label : labelOf line with
  | none => rw [writtenOut, label]; rfl
  | some name =>
    have fixed : Line.normalize (name ++ [':']) = name ++ [':'] :=
      unchanged _ (by simp [writtenOut, label])
    have enters : encodeLine t (Line.normalize (name ++ [':'])) r =
        .ok (enterScope (some name) r) := by
      rw [fixed, encodeLine_eq, shape_label label]
      rfl
    rw [writtenOut, label]
    exact (encodeLines_cons t _ lines r).trans (congrArg (· >>= encodeLines t lines) enters)

/-- Where its lines stand for instruction lines, both passes do the same with the use of a macro and
with the lines written out. -/
theorem passes_writtenOut (plain : t.HasPlainMnemonics) (uses : macroLines? t line = some lines)
    (unchanged : ∀ l ∈ writtenOut line lines, Line.normalize l = l)
    (bare : ∀ e ∈ lines, e ≠ [] ∧ Directive.isBracketed e = false ∧ (Line.declaration e).1 = none)
    {lists : List (List Text)} (each : List.Forall₂
      (fun e texts => t.instructionLines (Macro.maxDepth - 1) e = some texts) lines lists)
    (r : Run) :
    tallyLines t (writtenOut line lines) r = tally t (Line.normalize line) r ∧
      encodeLines t (writtenOut line lines) r = encodeLine t (Line.normalize line) r := by
  obtain ⟨statement, m, holds, role, expanded⟩ := macroLines?_eq_some uses
  have statements : ∀ e ∈ lines, shape (Line.normalize e) = ⟨none, .statement e⟩ := by
    intro e member
    obtain ⟨nonempty, unbracketed, unlabelled⟩ := bare e member
    rw [unchanged e (List.mem_append_right _ member), shape_bare nonempty unbracketed unlabelled]
  constructor
  · have stands : t.instructionLines Macro.maxDepth statement = some lists.flatten := by
      have inner := mapM_eq_some_iff.2 each
      exact (Tables.instructionLines_expansion role expanded).trans
        (congrArg (Option.map List.flatten) inner)
    rw [tallyLines_writtenOut unchanged, tally_eq, holds]
    refine congrArg _ (funext fun declared => ?_)
    rw [tallyLines_of_stands plain (by decide) statements each]
    exact (tallyStatement_of_stands plain (Nat.le_succ _) stands declared).symm
  · rw [encodeLines_writtenOut unchanged, encodeLine_eq, holds,
      encodeLines_of_stands (Nat.sub_le _ _) statements each]
    exact (encodeNested_expansion role expanded (Macro.maxDepth - 1) _).symm

end

/-- Lines that both passes treat alike may replace each other in a source. -/
lemma assemble_result_congr {t : Tables} {xs ys : List Text}
    (tallies : ∀ r, tallyLines t xs r = tallyLines t ys r)
    (encodes : ∀ r, encodeLines t xs r = encodeLines t ys r) (before after : List Text)
    (p : Program) :
    (assemble t (before ++ xs ++ after)).result = .ok p ↔
      (assemble t (before ++ ys ++ after)).result = .ok p := by
  have tallied (r : Run) : tallyLines t (before ++ xs ++ after) r =
      tallyLines t (before ++ ys ++ after) r := by
    simp only [tallyLines_append, funext tallies]
  have encoded (r : Run) : encodeLines t (before ++ xs ++ after) r =
      encodeLines t (before ++ ys ++ after) r := by
    simp only [encodeLines_append, funext encodes]
  simp only [assemble_result_eq_ok_iff, passes_eq_ok_iff, tallied, encoded]

/-- In a source that assembles, the lines of a macro stand for instruction lines. -/
lemma stands_of_assemble {t : Tables} {before after : List Text} {line : Text} {lines : List Text}
    {p : Program} (assembled : (assemble t (before ++ line :: after)).result = .ok p)
    (uses : macroLines? t line = some lines) : ∃ lists, List.Forall₂
      (fun e texts => t.instructionLines (Macro.maxDepth - 1) e = some texts) lines lists := by
  obtain ⟨statement, m, holds, role, expanded⟩ := macroLines?_eq_some uses
  obtain ⟨final, both, -⟩ := assemble_result_eq_ok_iff.1 assembled
  obtain ⟨counted, emitted, -, second, -, -⟩ := passes_eq_ok_iff.1 both
  rw [encodeLines_append] at second
  obtain ⟨r, -, second⟩ := bind_eq_ok_iff.1 second
  rw [encodeLines_cons] at second
  obtain ⟨next, encodes, -⟩ := bind_eq_ok_iff.1 second
  have stands := exists_lineTexts encodes holds
  obtain ⟨lists, each, -⟩ := Option.map_eq_some_iff.1
    ((Tables.instructionLines_expansion role expanded).symm.trans stands)
  exact ⟨lists, mapM_eq_some_iff.1 each⟩

/-- The machine's own macros stand for instructions. -/
lemma exists_instruction_of_expand {m : Macro} (listed : m ∈ Macro.builtin)
    {arguments lines : List Text} (expanded : m.expand arguments = .ok lines) {e : Text}
    (member : e ∈ lines) :
    ∃ i, Tables.builtin.role (Line.statement e).mnemonic = .instruction i := by
  have instructions : ∀ m ∈ Macro.builtin, ∀ template ∈ m.templates,
      (Tables.builtin.instruction? (Line.statement template).mnemonic).isSome := by decide +kernel
  have same := Macro.forall₂_mnemonic (Tables.hasPlainMnemonics_builtin m listed) expanded
  obtain ⟨template, inside, mnemonic⟩ := exists_mem_of_forall₂ same member
  have known := instructions m listed template inside
  rw [← mnemonic] at known
  obtain ⟨i, found⟩ := Option.isSome_iff_exists.1 known
  exact ⟨i, Tables.role_eq_instruction_iff.2 found⟩

lemma stands_builtin {line : Text} {lines : List Text}
    (uses : macroLines? Tables.builtin line = some lines) :
    List.Forall₂ (fun e texts =>
      Tables.builtin.instructionLines (Macro.maxDepth - 1) e = some texts) lines
        (lines.map (fun e => [e])) := by
  obtain ⟨statement, m, -, role, expanded⟩ := macroLines?_eq_some uses
  have listed := Tables.mem_of_expansion? (Tables.role_eq_expansion_iff.1 role).2
  rw [List.forall₂_map_right_iff, List.forall₂_same]
  intro e member
  obtain ⟨i, instruction⟩ := exists_instruction_of_expand listed expanded member
  exact Tables.instructionLines_instruction instruction

lemma ne_nil_of_stands {t : Tables} {levels : Nat} {lines : List Text} {lists : List (List Text)}
    (each : List.Forall₂ (fun e texts => t.instructionLines levels e = some texts) lines lists)
    (blank : [] ∈ lines → t.instruction? [] = none ∧ t.expansion? [] = none) :
    ∀ e ∈ lines, e ≠ [] := by
  rintro e member rfl
  have unknown : t.role (Line.statement []).mnemonic = .unknown :=
    Tables.role_eq_unknown_iff.2 (blank member)
  obtain ⟨texts, -, stands⟩ := exists_mem_of_forall₂ each.flip member
  cases (Tables.instructionLines_unknown unknown).symm.trans stands

/-- A source that uses a macro assembles to the same program with that line written out. An empty
line of the macro is the exception, where the tables hold an entry for it, because an empty line of
a source is passed over. With the machine's own tables the line may be written either way. -/
theorem assemble_writtenOut {t : Tables} (plain : t.HasPlainMnemonics) (before after : List Text)
    {line : Text} {lines : List Text} (uses : macroLines? t line = some lines)
    (unchanged : ∀ l ∈ writtenOut line lines, Line.normalize l = l)
    (bare : ∀ e ∈ lines, Directive.isBracketed e = false ∧ (Line.declaration e).1 = none)
    (blank : [] ∈ lines → t.instruction? [] = none ∧ t.expansion? [] = none) :
    (∀ p, (assemble t (before ++ line :: after)).result = .ok p →
      (assemble t (before ++ writtenOut line lines ++ after)).result = .ok p) ∧
    (t = Tables.builtin → ∀ p,
      (assemble t (before ++ writtenOut line lines ++ after)).result = .ok p →
      (assemble t (before ++ line :: after)).result = .ok p) := by
  -- Only the reason why the lines stand for instructions differs between the two directions.
  have alike {lists : List (List Text)} (each : List.Forall₂
      (fun e texts => t.instructionLines (Macro.maxDepth - 1) e = some texts) lines lists)
      (p : Program) : (assemble t (before ++ line :: after)).result = .ok p ↔
        (assemble t (before ++ writtenOut line lines ++ after)).result = .ok p := by
    have nonempty := ne_nil_of_stands each blank
    have same := passes_writtenOut plain uses unchanged
      (fun e member => ⟨nonempty e member, bare e member⟩) each
    have split : before ++ line :: after = before ++ [line] ++ after := by simp
    rw [split]
    refine assemble_result_congr (fun r => ?_) (fun r => ?_) before after p
    · rw [(same r).1, tallyLines_cons]
      exact bind_pure _
    · rw [(same r).2, encodeLines_cons]
      exact bind_pure _
  constructor
  · intro p assembled
    obtain ⟨lists, each⟩ := stands_of_assemble assembled uses
    exact (alike each p).1 assembled
  · rintro rfl p assembled
    exact (alike (stands_builtin uses) p).2 assembled

/-- A jump to itself through a macro. -/
def selfJump : Text := "loop: goto $t0, loop".toList

def selfJumpLines : List Text :=
  ["LUI $T0, BASE".toList, "ADDIU $T0, $T0, LOOP".toList, "JR $T0".toList]

/-- The jump written out, behind another instruction, gives the same words and the same label. -/
theorem assemble_writtenOut_selfJump : ∃ p : Program,
    (assemble Tables.builtin ["nop".toList, selfJump]).result = .ok p ∧
      (assemble Tables.builtin ("nop".toList :: "LOOP:".toList :: selfJumpLines)).result = .ok p ∧
      p.words.size = 4 ∧ p.labels = [("LOOP".toList, 4)] := by
  have evaluated : (program? Tables.builtin ["nop".toList, selfJump]).map
      (fun p => (p.words.size, p.labels)) = some (4, [("LOOP".toList, 4)]) := by decide +kernel
  obtain ⟨p, made, tables⟩ := Option.map_eq_some_iff.1 evaluated
  obtain ⟨size, labels⟩ := Prod.mk.inj tables
  have assembled := assemble_result_of_program? made
  have uses : macroLines? Tables.builtin selfJump = some selfJumpLines := by decide +kernel
  have written : writtenOut selfJump selfJumpLines = "LOOP:".toList :: selfJumpLines := by
    decide +kernel
  have same := (assemble_writtenOut Tables.hasPlainMnemonics_builtin ["nop".toList] [] uses
    (by decide +kernel) (by decide +kernel) (by decide +kernel)).1 p assembled
  rw [written, List.append_nil] at same
  exact ⟨p, assembled, same, size, labels⟩

/-- Tables in which the empty mnemonic is an instruction, and a macro stands for an empty line. -/
def blankTables : Tables := ⟨[⟨[], "", "", 1, []⟩], [⟨"M".toList, "", 0, [[]]⟩]⟩

/-- An empty line that a macro stands for can be an instruction; written out it is passed over. -/
theorem assemble_writtenOut_blank : blankTables.HasPlainMnemonics ∧
    macroLines? blankTables "M".toList = some [[]] ∧
    (∀ l ∈ writtenOut "M".toList [[]], Line.normalize l = l) ∧
    (∀ e ∈ [([] : Text)], Directive.isBracketed e = false ∧ (Line.declaration e).1 = none) ∧
    ∃ p q : Program, (assemble blankTables ["M".toList]).result = .ok p ∧
      (assemble blankTables (writtenOut "M".toList [[]])).result = .ok q ∧
      p.words = #[1] ∧ q.words = #[] := by
  have evaluated : (program? blankTables ["M".toList]).map Program.words = some #[1] := by
    decide +kernel
  have skipped : (program? blankTables (writtenOut "M".toList [[]])).map Program.words =
      some #[] := by decide +kernel
  obtain ⟨p, made, one⟩ := Option.map_eq_some_iff.1 evaluated
  obtain ⟨q, made', wordless⟩ := Option.map_eq_some_iff.1 skipped
  exact ⟨by decide +kernel, by decide +kernel, by decide +kernel, by decide +kernel, p, q,
    assemble_result_of_program? made, assemble_result_of_program? made', one, wordless⟩

end Assembly
end Mips64
