import Mips64.Proofs.Emission
import Mips64.Proofs.Failures

/-! The agreement of the passes. A line that the second pass encodes has been counted by the first
pass for exactly the words that it gives. So the passes never disagree at the end, and the address
of a label is the place in the output where the words after its declaration start. -/
namespace Mips64.Assembly

lemma declareLabel_frame {label : Option Text} {r next : Run}
    (h : declareLabel label r = .ok next) :
    next.count = r.count ∧ next.store.words = r.store.words ∧ next.listing = r.listing := by
  cases label with
  | none => cases h; exact ⟨rfl, rfl, rfl⟩
  | some name =>
    obtain ⟨-, -, -, rfl⟩ | ⟨-, -, rfl⟩ := declare_cases h
    · exact ⟨rfl, rfl, rfl⟩
    · exact ⟨rfl, rfl, rfl⟩

lemma Run.step_count {x : Except Failure Store} {r next : Run} (h : r.step x = .ok next) :
    next.count = r.count := by
  cases x with
  | error failure => cases h
  | ok store => cases h; rfl

/-- The first pass counts a line for the weight of its statement, if it has one. -/
lemma tally_count_cases {t : Tables} {line : Text} {r next : Run}
    (tallied : tally t (Line.normalize line) r = .ok next) :
    (∃ text n, (shape (Line.normalize line)).content = .statement text ∧
      t.weight (Macro.maxDepth + 1) (Line.statement text).mnemonic = .ok n ∧
      next.count = r.count + n) ∨
    (lineTexts t line = [] ∧ next.count = r.count) := by
  rw [tally_eq] at tallied
  obtain ⟨declared, first, rest⟩ := bind_eq_ok_iff.1 tallied
  rw [← (declareLabel_frame first).1]
  cases holds : (shape (Line.normalize line)).content with
  | statement text =>
    rw [holds] at rest
    obtain ⟨n, weight, rfl⟩ := tallyStatement_cases rest
    exact .inl ⟨text, n, rfl, weight, rfl⟩
  | nothing =>
    rw [holds] at rest
    cases rest
    exact .inr ⟨by simp [lineTexts, holds], rfl⟩
  | directive text =>
    rw [holds] at rest
    exact .inr ⟨by simp [lineTexts, holds], Run.step_count rest⟩

/-- The first pass counts a line that can be encoded for the instruction lines that it stands
for. -/
theorem tally_count {t : Tables} (plain : t.HasPlainMnemonics) {line : Text} {r next s after : Run}
    (tallied : tally t (Line.normalize line) r = .ok next)
    (encodes : encodeLine t (Line.normalize line) s = .ok after) :
    next.count = r.count + (lineTexts t line).length := by
  obtain ⟨text, n, holds, weight, counted⟩ | ⟨nothing, counted⟩ := tally_count_cases tallied
  · -- The first pass counts one level deeper than the second expands, which makes no difference.
    have stands := exists_lineTexts encodes holds
    rw [Tables.weight_eq_length plain stands (Nat.le_succ _)] at weight
    cases weight
    exact counted
  · rw [nothing]
    exact counted

/-- The first pass puts out no words. -/
lemma tallyLines_frame {t : Tables} {lines : List Text} {r next : Run}
    (h : tallyLines t lines r = .ok next) :
    next.store.words = r.store.words ∧ next.listing = r.listing := by
  induction lines generalizing r with
  | nil => cases h; exact ⟨rfl, rfl⟩
  | cons line lines ih =>
    rw [tallyLines_cons] at h
    obtain ⟨tallied, first, others⟩ := bind_eq_ok_iff.1 h
    rw [tally_eq] at first
    obtain ⟨declared, label, content⟩ := bind_eq_ok_iff.1 first
    obtain ⟨-, words, listing⟩ := declareLabel_frame label
    obtain ⟨-, -, -, words', listing'⟩ := tallyContent_frame content
    exact ⟨(ih others).1.trans (words'.trans words), (ih others).2.trans (listing'.trans listing)⟩

theorem count_eq_length {t : Tables} (plain : t.HasPlainMnemonics) {lines : List Text}
    {r start s : Run} (tallied : tallyLines t lines Run.empty = .ok r)
    (encodes : encodeLines t lines start = .ok s) : r.count = (emissions t lines).length := by
  induction lines using List.reverseRecOn generalizing r s with
  | nil => cases tallied; rfl
  | append_singleton lines line ih =>
    obtain ⟨r₁, tallied, tally_last⟩ := tallyLines_concat_eq_ok_iff.1 tallied
    obtain ⟨s₁, encodes, encode_last⟩ := encodeLines_concat_eq_ok_iff.1 encodes
    rw [tally_count plain tally_last encode_last, ih tallied encodes, emissions_concat]
    simp

/-- The second pass, started where the first one ended, puts out the words of the instruction lines
that lines stand for. -/
lemma emitted_of_rewound {t : Tables} {source lines : List Text} {counted s : Run}
    (first : tallyLines t source Run.empty = .ok counted)
    (second : encodeLines t lines counted.rewound = .ok s) :
    Emitted t counted.rewound.store.toSymbols counted.count lines (emissions t lines) s := by
  obtain ⟨words, listing⟩ := tallyLines_frame first
  exact emitted_of_encodeLines words listing rfl second

/-- Where a pass succeeds on a source, it does so on the lines before any point of it. -/
lemma tallyLines_of_append {t : Tables} {lines more : List Text} {start r : Run}
    (h : tallyLines t (lines ++ more) start = .ok r) :
    ∃ next, tallyLines t lines start = .ok next := by
  rw [tallyLines_append] at h
  obtain ⟨next, first, -⟩ := bind_eq_ok_iff.1 h
  exact ⟨next, first⟩

lemma encodeLines_of_append {t : Tables} {lines more : List Text} {start r : Run}
    (h : encodeLines t (lines ++ more) start = .ok r) :
    ∃ next, encodeLines t lines start = .ok next := by
  rw [encodeLines_append] at h
  obtain ⟨next, first, -⟩ := bind_eq_ok_iff.1 h
  exact ⟨next, first⟩

/-- An address is the place in the output of a source where the words after these lines start. -/
def IsOutputOffset (t : Tables) (source lines : List Text) (address : Int) : Prop :=
  ∃ counted s, firstPass t 1 source Run.empty = .ok counted ∧
    secondPass t 1 lines counted.rewound = .ok s ∧ address = 4 * s.store.words.size

/-- Where the first pass has counted what the second pass puts out, it has counted a place in the
output. -/
lemma isOutputOffset_of_count {t : Tables} {source lines : List Text} {counted s : Run}
    {count : Nat} (first : tallyLines t source Run.empty = .ok counted)
    (encodes : encodeLines t lines counted.rewound = .ok s)
    (same : count = (emissions t lines).length) :
    IsOutputOffset t source lines (count * 4 : Int) := by
  refine ⟨counted, s, firstPass_eq_ok_iff.2 first, secondPass_eq_ok_iff.2 encodes, ?_⟩
  rw [(emitted_of_rewound first encodes).words_size, same]
  exact Int.mul_comm _ _

/-- The address that the first pass counts is the place that the second pass reaches. -/
theorem IsCounted.isOutputOffset {t : Tables} (plain : t.HasPlainMnemonics)
    {lines more : List Text} {counted emitted : Run} {address : Int}
    (first : tallyLines t (lines ++ more) Run.empty = .ok counted)
    (second : encodeLines t (lines ++ more) counted.rewound = .ok emitted)
    (h : IsCounted t lines address) : IsOutputOffset t (lines ++ more) lines address := by
  obtain ⟨r, tallied, rfl⟩ := h
  obtain ⟨s, encodes⟩ := encodeLines_of_append second
  exact isOutputOffset_of_count first encodes (count_eq_length plain tallied encodes)

/-- The passes over a whole source agree on the number of words. -/
theorem size_eq_count {t : Tables} (plain : t.HasPlainMnemonics) {source : List Text}
    {counted emitted : Run} (first : tallyLines t source Run.empty = .ok counted)
    (second : encodeLines t source counted.rewound = .ok emitted) :
    emitted.store.size = emitted.count * 4 := by
  have done := emitted_of_rewound first second
  rw [Store.size, done.words_size, done.count_eq, count_eq_length plain first second]

/-- A program, and the symbols in the end, are what the second pass has left. -/
lemma exists_emitted_of_assemble {t : Tables} {source : List Text} {p : Program}
    (h : (assemble t source).result = .ok p) :
    ∃ counted emitted, tallyLines t source Run.empty = .ok counted ∧
      encodeLines t source counted.rewound = .ok emitted ∧
      (assemble t source).run.store.toSymbols = emitted.store.toSymbols ∧
      p = emitted.program := by
  obtain ⟨final, both, rfl⟩ := assemble_result_eq_ok_iff.1 h
  obtain ⟨counted, emitted, first, second, -, rfl⟩ := passes_eq_ok_iff.1 both
  refine ⟨counted, emitted, first, second, ?_, rfl⟩
  rw [assemble_run_of_passes both]
  rfl

/-- A program holds the tables that the first pass has made and the words that the second pass has
put out. -/
lemma exists_runs_of_assemble {t : Tables} {source : List Text} {p : Program}
    (h : (assemble t source).result = .ok p) :
    ∃ counted emitted, tallyLines t source Run.empty = .ok counted ∧
      encodeLines t source counted.rewound = .ok emitted ∧ p.labels = counted.store.labels ∧
      p.children = counted.store.children ∧ p.words = emitted.store.words ∧
      p.listing = emitted.listing ∧
      (assemble t source).run.store.definitions = counted.store.definitions := by
  obtain ⟨counted, emitted, first, second, final, rfl⟩ := exists_emitted_of_assemble h
  have symbols := (emitted_of_rewound first second).symbols_eq
  have labels := congrArg Symbols.labels symbols
  have children := congrArg Symbols.children symbols
  have definitions := congrArg Symbols.definitions (final.trans symbols)
  exact ⟨counted, emitted, first, second, labels, children, rfl, rfl, definitions⟩

/-- Both passes together fail only because of a line of the source. -/
lemma failsWithin_passes {t : Tables} (plain : t.HasPlainMnemonics) (source : List Text) :
    FailsWithin Halt.IsOfLine (passes t source) := by
  refine (failsWithin_firstPass t 1 source Run.empty).bind fun counted first => ?_
  refine (failsWithin_secondPass t 1 source counted.rewound).bind fun emitted second => ?_
  rw [if_pos (size_eq_count plain (firstPass_eq_ok_iff.1 first) (secondPass_eq_ok_iff.1 second))]
  exact .ok _

/-- Around a line of the source, the first pass counts what the second pass puts out. -/
lemma agree_on_line {t : Tables} (plain : t.HasPlainMnemonics) {before after : List Text}
    {line : Text} {counted emitted : Run}
    (first : tallyLines t (before ++ line :: after) Run.empty = .ok counted)
    (second : encodeLines t (before ++ line :: after) counted.rewound = .ok emitted) :
    ∃ r r' s s', tallyLines t before Run.empty = .ok r ∧
      tallyLines t (before ++ [line]) Run.empty = .ok r' ∧
      encodeLines t before counted.rewound = .ok s ∧
      encodeLines t (before ++ [line]) counted.rewound = .ok s' ∧
      r'.count = r.count + (lineTexts t line).length ∧
      s'.store.words.size = s.store.words.size + (lineTexts t line).length := by
  have split : before ++ line :: after = (before ++ [line]) ++ after := by simp
  rw [split] at first second
  obtain ⟨r', tallied'⟩ := tallyLines_of_append first
  obtain ⟨s', encodes'⟩ := encodeLines_of_append second
  obtain ⟨r, tallied, tally_line⟩ := tallyLines_concat_eq_ok_iff.1 tallied'
  obtain ⟨s, encodes, encode_line⟩ := encodeLines_concat_eq_ok_iff.1 encodes'
  refine ⟨r, r', s, s', tallied, tallied', encodes, encodes',
    tally_count plain tally_line encode_line, ?_⟩
  rw [(emitted_of_rewound first encodes').words_size, (emitted_of_rewound first encodes).words_size,
    emissions_concat]
  simp

/-- A table whose addresses the first pass has counted holds places in the output, if these
addresses are places in the output. -/
lemma forall₂_isOutputOffset_of {t : Tables} {source : List Text}
    (placed : ∀ lines more address, source = lines ++ more → IsCounted t lines address →
      IsOutputOffset t source lines address)
    {α : Type} {key : Declaration → α} {ds : List Declaration} {entries : List (α × Int)}
    (declared : ∀ d ∈ ds, d ∈ declarations source)
    (h : List.Forall₂ (fun d entry => entry.1 = key d ∧ IsCounted t d.before entry.2) ds entries) :
    List.Forall₂ (fun d entry => entry.1 = key d ∧ IsOutputOffset t source d.before entry.2)
      ds entries := by
  refine ((List.forall₂_and_left _ _).2 ⟨declared, h⟩).imp ?_
  rintro d entry ⟨member, name, counts⟩
  obtain ⟨line, rest, split, -⟩ := mem_declarations.1 member
  exact ⟨name, placed _ _ _ split counts⟩

lemma forall₂_isOutputOffset {t : Tables} (plain : t.HasPlainMnemonics) {source : List Text}
    {counted emitted : Run} (first : tallyLines t source Run.empty = .ok counted)
    (second : encodeLines t source counted.rewound = .ok emitted) {α : Type}
    {key : Declaration → α} {ds : List Declaration} {entries : List (α × Int)}
    (declared : ∀ d ∈ ds, d ∈ declarations source)
    (h : List.Forall₂ (fun d entry => entry.1 = key d ∧ IsCounted t d.before entry.2) ds entries) :
    List.Forall₂ (fun d entry => entry.1 = key d ∧ IsOutputOffset t source d.before entry.2)
      ds entries := by
  refine forall₂_isOutputOffset_of ?_ declared h
  rintro lines more address rfl counts
  exact counts.isOutputOffset plain first second

/-- The passes agree line by line, so their numbers of words never differ at the end; and the tables
of a program hold one entry for each declaration of the source, at the place in the output where the
words after it start. -/
theorem passes_agree {t : Tables} (plain : t.HasPlainMnemonics) (source : List Text) :
    (∀ counted emitted, firstPass t 1 source Run.empty = .ok counted →
      secondPass t 1 source counted.rewound = .ok emitted →
      (∀ before line after, source = before ++ line :: after → ∃ r r' s s' n,
        firstPass t 1 before Run.empty = .ok r ∧
        firstPass t 1 (before ++ [line]) Run.empty = .ok r' ∧
        secondPass t 1 before counted.rewound = .ok s ∧
        secondPass t 1 (before ++ [line]) counted.rewound = .ok s' ∧
        r'.count = r.count + n ∧ s'.store.words.size = s.store.words.size + n) ∧
      ∃ p, (assemble t source).result = .ok p) ∧
    (∀ report emitted counted, (assemble t source).result = .error report →
      report.failure ≠ .cause (.passesDisagree emitted counted)) ∧
    (∀ p, (assemble t source).result = .ok p →
      List.Forall₂ (fun d entry => entry.1 = d.name ∧ IsOutputOffset t source d.before entry.2)
        (globalLabels source) p.labels ∧
      List.Forall₂ (fun d entry => entry.1 = (scopeAfter d.before, d.name) ∧
          IsOutputOffset t source d.before entry.2)
        (childLabels source) p.children ∧
      (p.labels.map Prod.fst).Nodup ∧ (p.children.map Prod.fst).Nodup) := by
  simp only [firstPass_eq_ok_iff, secondPass_eq_ok_iff]
  refine ⟨fun counted emitted first second => ⟨?_, ?_⟩, ?_, ?_⟩
  · rintro before line after rfl
    obtain ⟨r, r', s, s', parts⟩ := agree_on_line plain first second
    exact ⟨r, r', s, s', _, parts⟩
  · have agree := size_eq_count plain first second
    exact ⟨_, assemble_result_eq_ok_iff.2
      ⟨_, passes_eq_ok_iff.2 ⟨counted, emitted, first, second, agree, rfl⟩, rfl⟩⟩
  · intro report emitted counted failed same
    rw [assemble] at failed
    cases both : passes t source with
    | ok final => rw [both] at failed; cases failed
    | error h =>
      rw [both] at failed
      cases failed
      have ofLine : h.report.failure.IsOfLine := failsWithin_passes plain source h both
      rw [same] at ofLine
      exact ofLine
  · intro p assembled
    obtain ⟨counted, emitted, first, second, labels, children, -, -, -⟩ :=
      exists_runs_of_assemble assembled
    have labelled := labelled_of_tallyLines first
    rw [labels, children]
    refine ⟨?_, ?_, labelled.labels_nodup, labelled.children_nodup⟩
    · exact forall₂_isOutputOffset plain first second (fun d => List.mem_of_mem_filter)
        labelled.labels
    · exact forall₂_isOutputOffset plain first second (fun d => List.mem_of_mem_filter)
        labelled.children

/-- A jump through a macro to a label further on, with a child label on the way. -/
def forwardJump : List Text :=
  ["start: goto $t0, done".toList, ".in: nop".toList, "done: b start".toList]

/-- The three words of the jump are counted before they are put out. -/
theorem passes_agree_forwardJump :
    Tables.builtin.HasPlainMnemonics ∧ ∃ p : Program,
      (assemble Tables.builtin forwardJump).result = .ok p ∧
      p.labels = [("START".toList, 0), ("DONE".toList, 16)] ∧
      IsOutputOffset Tables.builtin forwardJump (forwardJump.take 2) 16 := by
  have plain := Tables.hasPlainMnemonics_builtin
  have evaluated : (program? Tables.builtin forwardJump).map Program.labels =
      some [("START".toList, 0), ("DONE".toList, 16)] := by decide +kernel
  obtain ⟨p, made, labels⟩ := Option.map_eq_some_iff.1 evaluated
  have assembled := assemble_result_of_program? made
  have entries := ((passes_agree plain forwardJump).2.2 p assembled).1
  rw [labels] at entries
  obtain _ | ⟨-, _ | ⟨⟨-, offset⟩, -⟩⟩ := entries
  exact ⟨plain, p, assembled, labels, offset⟩

end Mips64.Assembly
