import Mips64.Proofs.PassAgreement

/-! What the comparison of the passes is worth where templates take their mnemonics from arguments.
The first pass counts such a template for one word, whatever it comes to stand for. Main statement:
where every macro has a template and no macro is named with a brace, a line gives at least the words
that it is counted for, so passes that agree at the end have agreed at every line. A macro without
templates gives fewer words than its use is counted for, and can make up for a line that gives
more. -/
namespace Mips64

/-- Capitals keep the braces of a text. -/
lemma Text.mem_upper_of_not_isPlain {word : Text} {c : Char} (member : c ∈ word)
    (brace : Template.isPlain c = false) : c ∈ upper word := by
  have capital : upperChar c = [c] := by
    simp only [Template.isPlain, Bool.and_eq_false_iff, bne_eq_false_iff_eq] at brace
    rcases brace with rfl | rfl
    · rfl
    · rfl
  exact List.mem_flatMap.2 ⟨c, member, by rw [capital]; exact List.mem_singleton_self c⟩

namespace Tables

/-- Every macro has a template, and none is named with a brace. -/
def HasFullMacros (t : Tables) : Prop :=
  ∀ m ∈ t.macros, m.templates ≠ [] ∧ ∀ c ∈ m.symbol, Template.isPlain c = true

instance (t : Tables) : Decidable t.HasFullMacros :=
  decidable_of_iff (t.macros.all (fun m => !m.templates.isEmpty && m.symbol.all Template.isPlain) =
      true)
    (by simp [HasFullMacros])

/-- Templates keep their mnemonics, or else every macro has a template and none is named with a
brace. -/
def CountsSoundly (t : Tables) : Prop := t.HasPlainMnemonics ∨ t.HasFullMacros

/-- A template whose first word has a brace is counted for one word. -/
lemma weight_of_brace {t : Tables} (full : t.HasFullMacros) {template : Text} {c : Char}
    (member : c ∈ (Text.splitWord template).1) (brace : Template.isPlain c = false) (levels : Nat) :
    t.weight levels (Line.statement template).mnemonic = .ok 1 := by
  have kept : c ∈ Text.upper (Line.statement template).mnemonic := by
    rw [Line.mnemonic_eq]
    exact Text.mem_upper_of_not_isPlain (Text.mem_upper_of_not_isPlain member brace) brace
  cases role : t.role (Line.statement template).mnemonic with
  | instruction i => rw [weight, role]
  | unknown => rw [weight, role]
  | expansion m =>
    have found := (role_eq_expansion_iff.1 role).2
    have named : m.symbol = Text.upper (Line.statement template).mnemonic := by
      simpa using List.find?_some found
    have plain := (full m (mem_of_expansion? found)).2 c (named ▸ kept)
    rw [brace] at plain
    cases plain

lemma exists_foldlM_weight_le {t : Tables} {levels : Nat} {templates : List Text}
    {lists : List (List Text)}
    (each : List.Forall₂ (fun template texts => ∃ n,
      t.weight levels (Line.statement template).mnemonic = .ok n ∧ n ≤ texts.length)
      templates lists) (total : Nat) :
    ∃ n, templates.foldlM (fun total template =>
        (t.weight levels (Line.statement template).mnemonic).map (total + ·)) total = .ok n ∧
      n ≤ total + lists.flatten.length := by
  induction each generalizing total with
  | nil => exact ⟨total, rfl, Nat.le_add_right _ _⟩
  | cons first _ ih =>
    obtain ⟨n, weight, bound⟩ := first
    obtain ⟨m, others, le⟩ := ih (total + n)
    refine ⟨m, ?_, ?_⟩
    · rw [List.foldlM_cons, weight]
      exact others
    · rw [List.flatten_cons, List.length_append]
      omega

/-- The first pass counts a line for at most the instructions that the line stands for, of which
there is at least one. -/
theorem exists_weight_le {t : Tables} (full : t.HasFullMacros) {levels more : Nat} {line : Text}
    {texts : List Text} (stands : t.instructionLines levels line = some texts)
    (deeper : levels ≤ more) : 0 < texts.length ∧
      ∃ n, t.weight more (Line.statement line).mnemonic = .ok n ∧ n ≤ texts.length := by
  refine instructionLines_induction
    (motive := fun levels line texts => ∀ more, levels ≤ more → 0 < texts.length ∧
      ∃ n, t.weight more (Line.statement line).mnemonic = .ok n ∧ n ≤ texts.length)
    ?_ ?_ stands more deeper
  · intro levels line i role more _
    refine ⟨Nat.zero_lt_one, 1, ?_, le_rfl⟩
    rw [weight, role]
  · intro levels line m lines lists role expanded each more deeper
    obtain ⟨inner, rfl⟩ : ∃ inner, more = inner + 1 := ⟨more - 1, by omega⟩
    have found := (role_eq_expansion_iff.1 role).2
    have filled := Macro.forall₂_of_expand expanded
    have nonempty := (full m (mem_of_expansion? found)).1
    clear expanded
    -- A template keeps its mnemonic, and so its weight; or it has a brace, and counts for one.
    have weights : List.Forall₂ (fun template texts => 0 < texts.length ∧
        ∃ n, t.weight inner (Line.statement template).mnemonic = .ok n ∧ n ≤ texts.length)
        m.templates lists := by
      clear nonempty
      generalize m.templates = templates at filled ⊢
      induction filled generalizing lists with
      | nil => cases each; exact .nil
      | @cons template _ _ _ fills _ ih =>
        obtain _ | ⟨first, others⟩ := each
        obtain ⟨positive, n, weight, bound⟩ := first inner (by omega)
        refine .cons ⟨positive, ?_⟩ (ih _ others)
        by_cases plain : ∀ c ∈ (Text.splitWord template).1, Template.isPlain c = true
        · exact ⟨n, Line.mnemonic_fill plain fills ▸ weight, bound⟩
        · push Not at plain
          obtain ⟨c, member, brace⟩ := plain
          exact ⟨1, weight_of_brace full member (by simpa using brace) inner, positive⟩
    constructor
    · generalize m.templates = templates at nonempty weights
      cases weights with
      | nil => exact absurd rfl nonempty
      | cons first _ =>
        rw [List.flatten_cons, List.length_append]
        exact Nat.add_pos_left first.1 _
    · obtain ⟨n, counted, bound⟩ := exists_foldlM_weight_le (weights.imp fun _ _ => And.right) 0
      rw [weight, role]
      refine ⟨n, ?_, by simpa using bound⟩
      simp only [countWithin_succ found, counted]

end Tables

namespace Assembly

variable {t : Tables}

/-- The first pass counts a line for at most the words that it gives. -/
lemma tally_count_le (full : t.HasFullMacros) {line : Text} {r next s after : Run}
    (tallied : tally t (Line.normalize line) r = .ok next)
    (encodes : encodeLine t (Line.normalize line) s = .ok after) :
    next.count ≤ r.count + (lineTexts t line).length := by
  obtain ⟨text, n, holds, weight, counted⟩ | ⟨nothing, counted⟩ := tally_count_cases tallied
  · have stands := exists_lineTexts encodes holds
    obtain ⟨-, m, same, bound⟩ := Tables.exists_weight_le full stands (Nat.le_succ _)
    cases weight.symm.trans same
    omega
  · omega

/-- From one line of a source on to another, the count grows by at most the words that are put
out. -/
lemma count_add_length_le (full : t.HasFullMacros) {lines more : List Text} {r r' start s : Run}
    (tallied : tallyLines t lines Run.empty = .ok r)
    (tallied' : tallyLines t (lines ++ more) Run.empty = .ok r')
    (encodes : encodeLines t (lines ++ more) start = .ok s) :
    r'.count + (emissions t lines).length ≤ r.count + (emissions t (lines ++ more)).length := by
  induction more using List.reverseRecOn generalizing r' s with
  | nil =>
    rw [List.append_nil] at tallied' ⊢
    cases tallied.symm.trans tallied'
    exact le_rfl
  | append_singleton more line ih =>
    rw [← List.append_assoc] at tallied' encodes ⊢
    obtain ⟨r₁, tallied₁, tally_last⟩ := tallyLines_concat_eq_ok_iff.1 tallied'
    obtain ⟨s₁, encodes₁, encode_last⟩ := encodeLines_concat_eq_ok_iff.1 encodes
    have before := ih tallied₁ encodes₁
    have last := tally_count_le full tally_last encode_last
    rw [emissions_concat, List.length_append, List.length_map]
    omega

/-- Passes that agree at the end of a source agree at every line of it. -/
theorem count_eq_length_of_size_eq (full : t.HasFullMacros) {lines more : List Text}
    {counted emitted r : Run} (first : tallyLines t (lines ++ more) Run.empty = .ok counted)
    (second : encodeLines t (lines ++ more) counted.rewound = .ok emitted)
    (agree : emitted.store.size = emitted.count * 4)
    (tallied : tallyLines t lines Run.empty = .ok r) : r.count = (emissions t lines).length := by
  have done := emitted_of_rewound first second
  have total : counted.count = (emissions t (lines ++ more)).length := by
    rw [Store.size, done.words_size, done.count_eq] at agree
    omega
  obtain ⟨s, encodes⟩ := encodeLines_of_append second
  have nothing : tallyLines t [] Run.empty = .ok Run.empty := rfl
  have upTo := count_add_length_le full nothing tallied encodes
  have onward := count_add_length_le full tallied first second
  have start : Run.empty.count + (emissions t []).length = 0 := rfl
  rw [List.nil_append] at upTo
  omega

/-- Where the passes agree at the end, every address that the first pass has counted is a place in
the output. -/
lemma isOutputOffset_of_size_eq (sound : t.CountsSoundly) {lines more : List Text}
    {counted emitted : Run} {address : Int}
    (first : tallyLines t (lines ++ more) Run.empty = .ok counted)
    (second : encodeLines t (lines ++ more) counted.rewound = .ok emitted)
    (agree : emitted.store.size = emitted.count * 4) (h : IsCounted t lines address) :
    IsOutputOffset t (lines ++ more) lines address := by
  rcases sound with plain | full
  · exact h.isOutputOffset plain first second
  · obtain ⟨r, tallied, rfl⟩ := h
    obtain ⟨s, encodes⟩ := encodeLines_of_append second
    exact isOutputOffset_of_count first encodes
      (count_eq_length_of_size_eq full first second agree tallied)

/-- A program of such tables has its labels where the words after their declarations start, whatever
the templates take from their arguments. -/
theorem labels_placed (sound : t.CountsSoundly) {source : List Text} {p : Program}
    (assembled : (assemble t source).result = .ok p) :
    List.Forall₂ (fun d entry => entry.1 = d.name ∧ IsOutputOffset t source d.before entry.2)
      (globalLabels source) p.labels ∧
    List.Forall₂ (fun d entry => entry.1 = (scopeAfter d.before, d.name) ∧
        IsOutputOffset t source d.before entry.2)
      (childLabels source) p.children := by
  obtain ⟨final, both, rfl⟩ := assemble_result_eq_ok_iff.1 assembled
  obtain ⟨counted, emitted, first, second, agree, rfl⟩ := passes_eq_ok_iff.1 both
  have symbols := (emitted_of_rewound first second).symbols_eq
  have labels := congrArg Symbols.labels symbols
  have children := congrArg Symbols.children symbols
  have labelled := labelled_of_tallyLines first
  have placed : ∀ lines more address, source = lines ++ more → IsCounted t lines address →
      IsOutputOffset t source lines address := by
    rintro lines more address rfl counts
    exact isOutputOffset_of_size_eq sound first second agree counts
  constructor
  · change List.Forall₂ _ _ emitted.store.toSymbols.labels
    rw [labels]
    exact forall₂_isOutputOffset_of placed (fun d => List.mem_of_mem_filter) labelled.labels
  · change List.Forall₂ _ _ emitted.store.toSymbols.children
    rw [children]
    exact forall₂_isOutputOffset_of placed (fun d => List.mem_of_mem_filter) labelled.children

def withMacros (macros : List Macro) : Tables := ⟨Instruction.builtin, macros⟩

/-- A macro whose templates are its argument. -/
def twice : Macro := .ofStrings "TWICE" "" 1 ["\x7b0\x7d", "\x7b0\x7d"]

/-- An argument repeated before a label. -/
def repeated : List Text := ["twice nop".toList, "done: nop".toList]

/-- The label behind the macro has the address of the third word. -/
theorem labels_placed_repeated : (withMacros [twice]).CountsSoundly ∧ ∃ p : Program,
    (assemble (withMacros [twice]) repeated).result = .ok p ∧ p.labels = [("DONE".toList, 8)] ∧
    IsOutputOffset (withMacros [twice]) repeated (repeated.take 1) 8 := by
  have sound : (withMacros [twice]).CountsSoundly := .inr (by decide)
  have evaluated : (program? (withMacros [twice]) repeated).map Program.labels =
      some [("DONE".toList, 8)] := by decide +kernel
  obtain ⟨p, made, labels⟩ := Option.map_eq_some_iff.1 evaluated
  have assembled := assemble_result_of_program? made
  have entries := (labels_placed sound assembled).1
  rw [labels] at entries
  obtain _ | ⟨⟨-, offset⟩, -⟩ := entries
  exact ⟨sound, p, assembled, labels, offset⟩

/-- A place in the output is behind the words of the instruction lines before it. -/
lemma IsOutputOffset.eq_length {source lines : List Text} {address : Int}
    (h : IsOutputOffset t source lines address) : address = 4 * (emissions t lines).length := by
  obtain ⟨counted, s, first, second, rfl⟩ := h
  rw [(emitted_of_rewound (firstPass_eq_ok_iff.1 first) (secondPass_eq_ok_iff.1 second)).words_size]

/-- A macro whose template is its argument, one without templates, and one with two. -/
def hollow : Tables :=
  withMacros [.ofStrings "X" "" 1 ["\x7b0\x7d"], .ofStrings "NONE" "" 0 [],
    .ofStrings "TWO" "" 0 ["NOP", "NOP"]]

/-- A line that gives no word and a line that gives two, each of which is counted for one. -/
def offsetting : List Text := ["x none".toList, "here: nop".toList, "x two".toList]

/-- The two miscounts make up for each other, and the label between them has the address of the word
behind the one that it stands before. -/
theorem not_labels_placed_offsetting : ∃ p : Program,
    (assemble hollow offsetting).result = .ok p ∧ p.words.size = 3 ∧
    p.labels = [("HERE".toList, 4)] ∧
    ¬ List.Forall₂ (fun d entry => entry.1 = d.name ∧
        IsOutputOffset hollow offsetting d.before entry.2)
      (globalLabels offsetting) p.labels := by
  have evaluated : (program? hollow offsetting).map (fun p => (p.words.size, p.labels)) =
      some (3, [("HERE".toList, 4)]) := by decide +kernel
  obtain ⟨p, made, same⟩ := Option.map_eq_some_iff.1 evaluated
  obtain ⟨size, labels⟩ := Prod.mk.injEq _ _ _ _ ▸ same
  have declared : globalLabels offsetting = [⟨offsetting.take 1, "HERE".toList⟩] := by
    decide +kernel
  have nothing : (emissions hollow (offsetting.take 1)).length = 0 := by decide +kernel
  refine ⟨p, assemble_result_of_program? made, size, labels, ?_⟩
  rw [labels, declared]
  rintro (_ | ⟨⟨-, offset⟩, -⟩)
  have address := offset.eq_length
  rw [nothing] at address
  exact absurd address (by decide)

end Assembly
end Mips64
