import Mips64.Proofs.Labels

/-! The words of a program. A source stands for a list of instruction lines, each with the lines of
the source up to the one that it comes from. Main statement: the second pass puts out one word for
each of them, encoded at its own address and in the scope of the line that it comes from. -/
namespace Mips64.Assembly

/-- An instruction line that a source stands for, with the lines of the source up to the one that it
comes from. -/
structure Emission where
  lines : List Text
  text : Text
  deriving DecidableEq

/-- The instruction lines that a line of a source stands for. -/
def lineTexts (t : Tables) (line : Text) : List Text :=
  match (shape (Line.normalize line)).content with
  | .statement s => (t.instructionLines Macro.maxDepth s).getD []
  | _ => []

def emissions (t : Tables) (source : List Text) : List Emission :=
  collect (fun before line => (lineTexts t line).map (Emission.mk (before ++ [line]))) [] source

lemma emissions_concat (t : Tables) (lines : List Text) (line : Text) :
    emissions t (lines ++ [line]) =
      emissions t lines ++ (lineTexts t line).map (Emission.mk (lines ++ [line])) := by
  simp only [emissions, collect_concat]

/-- The word of an instruction line at a position of the output, read against symbols in the scope
of its line. -/
def Emission.Encodes (t : Tables) (symbols : Symbols) (position : Nat) (e : Emission)
    (i : Instruction) (word : Nat) : Prop :=
  t.instruction? (Line.statement e.text).mnemonic = some i ∧
    i.encode { symbols with scope := scopeAfter e.lines } (position * 4)
      (Line.statement e.text).operands = .ok word

/-- A run of the second pass that started with these symbols and this count, has come to the end of
lines, and has put out and listed the words of these instruction lines. -/
structure Emitted (t : Tables) (symbols : Symbols) (count : Nat) (lines : List Text)
    (done : List Emission) (r : Run) : Prop where
  symbols_eq : r.store.toSymbols = { symbols with scope := scopeAfter lines }
  count_eq : r.count = count
  words_size : r.store.words.size = done.length
  listing_size : r.listing.size = done.length
  encoded : ∀ (k : Nat) (e : Emission), done[k]? = some e → ∃ (i : Instruction) (word : Nat),
    e.Encodes t symbols k i word ∧ r.store.words[k]? = some (word : Int) ∧
      r.listing[k]? = some ⟨k * 4, word, e.text, i.note⟩

section
variable {t : Tables} {symbols : Symbols} {count : Nat} {lines : List Text} {done : List Emission}
  {r next : Run}

/-- One instruction line adds its word. -/
lemma Emitted.encodeText {text : Text} (h : Emitted t symbols count lines done r)
    (step : encodeText t r text = .ok next) :
    Emitted t symbols count lines (done ++ [⟨lines, text⟩]) next := by
  obtain ⟨i, word, found, encodes, rfl⟩ := encodeText_cases step
  refine ⟨h.symbols_eq, h.count_eq, ?_, ?_, ?_⟩
  · simp [h.words_size]
  · simp [h.listing_size]
  · -- A position is one of those before, which keep their words, or the new one.
    intro k e at_k
    by_cases old : k < done.length
    · rw [List.getElem?_append_left old] at at_k
      obtain ⟨j, word', encodes', word_at, listed_at⟩ := h.encoded k e at_k
      refine ⟨j, word', encodes', ?_, ?_⟩
      · change (r.store.words.push (word : Int))[k]? = _
        rw [Array.getElem?_push, if_neg (by rw [h.words_size]; omega), word_at]
      · change (r.listing.push _)[k]? = _
        rw [Array.getElem?_push, if_neg (by rw [h.listing_size]; omega), listed_at]
    · rw [List.getElem?_append_right (by omega)] at at_k
      obtain rfl : k = done.length := by
        have bound := (List.getElem?_eq_some_iff.1 at_k).1
        simp only [List.length_singleton] at bound
        omega
      simp only [Nat.sub_self, List.getElem?_cons_zero, Option.some.injEq] at at_k
      subst at_k
      refine ⟨i, word, ⟨found, ?_⟩, ?_, ?_⟩
      · rw [h.symbols_eq, Store.size, h.words_size] at encodes
        exact encodes
      · simp [← h.words_size]
      · simp [← h.listing_size, Store.size, h.words_size]

lemma Emitted.encodeTexts {texts : List Text} (h : Emitted t symbols count lines done r)
    (steps : texts.foldlM (Assembly.encodeText t) r = .ok next) :
    Emitted t symbols count lines (done ++ texts.map (Emission.mk lines)) next := by
  induction texts generalizing done r with
  | nil => cases steps; simpa using h
  | cons text texts ih =>
    rw [List.foldlM_cons] at steps
    obtain ⟨middle, first, others⟩ := bind_eq_ok_iff.1 steps
    simpa using ih (h.encodeText first) others

/-- Entering the scope of a line makes it the scope that the second pass encodes in. -/
lemma Emitted.enterScope (h : Emitted t symbols count lines done r) (line : Text) :
    Emitted t symbols count (lines ++ [line]) done (enterScope (labelOf line) r) := by
  have after := scopeAfter_concat lines line
  cases declares : labelOf line with
  | none =>
    rw [declares] at after
    exact ⟨by rw [after]; exact h.symbols_eq, h.count_eq, h.words_size, h.listing_size, h.encoded⟩
  | some name =>
    rw [declares] at after
    simp only [Assembly.enterScope]
    split
    · rename_i child
      rw [scopeFrom, if_pos child] at after
      exact ⟨by rw [after]; exact h.symbols_eq, h.count_eq, h.words_size, h.listing_size, h.encoded⟩
    · rename_i global
      rw [scopeFrom, if_neg global] at after
      refine ⟨?_, h.count_eq, h.words_size, h.listing_size, h.encoded⟩
      have others := h.symbols_eq
      simp only [Store.withScope, after]
      rw [others]

/-- A line that is encoded stands for instruction lines if it has a statement. -/
lemma exists_lineTexts {line : Text} (h : encodeLine t (Line.normalize line) r = .ok next)
    {statement : Text} (holds : (shape (Line.normalize line)).content = .statement statement) :
    t.instructionLines Macro.maxDepth statement = some (lineTexts t line) := by
  rw [encodeLine_eq, holds] at h
  obtain ⟨texts, stands⟩ := exists_instructionLines h
  simp only [lineTexts, holds, stands, Option.getD_some]

/-- One line adds the words of the instruction lines that it stands for. -/
theorem Emitted.step {line : Text} (h : Emitted t symbols count lines done r)
    (encodes : encodeLine t (Line.normalize line) r = .ok next) :
    Emitted t symbols count (lines ++ [line])
      (done ++ (lineTexts t line).map (Emission.mk (lines ++ [line]))) next := by
  have entered := h.enterScope line
  cases holds : (shape (Line.normalize line)).content with
  | statement s =>
    have stands := exists_lineTexts encodes holds
    rw [encodeLine_eq, holds, encodeContent, encodeNested_eq_foldlM stands] at encodes
    exact entered.encodeTexts encodes
  | nothing =>
    rw [encodeLine_eq, holds] at encodes
    cases encodes
    simpa [lineTexts, holds, labelOf] using entered
  | directive d =>
    rw [encodeLine_eq, holds] at encodes
    cases encodes
    simpa [lineTexts, holds, labelOf] using entered

end

/-- The second pass puts out the words of the instruction lines that the source stands for. -/
theorem emitted_of_encodeLines {t : Tables} {lines : List Text} {start r : Run}
    (words : start.store.words = #[]) (listing : start.listing = #[])
    (scope : start.store.scope = []) (h : encodeLines t lines start = .ok r) :
    Emitted t start.store.toSymbols start.count lines (emissions t lines) r := by
  induction lines using List.reverseRecOn generalizing r with
  | nil =>
    cases h
    refine ⟨?_, rfl, by simp [words, emissions, collect], by simp [listing, emissions, collect],
      fun k e h => ?_⟩
    · simp only [scopeAfter, List.foldl_nil, ← scope]
    · simp [emissions, collect] at h
  | append_singleton lines line ih =>
    obtain ⟨before, reached, encodes⟩ := encodeLines_concat_eq_ok_iff.1 h
    rw [emissions_concat]
    exact (ih reached).step encodes

end Mips64.Assembly
