import Mips64.Proofs.Directives
import Mips64.Proofs.Rewriting
import Mips64.Proofs.Scope
import Mips64.Proofs.WordRange

/-! Definitions are transparent. An operand that is a defined name means what the text of its
definition means in its place. Main statement: where a line of a source has such an operand, it may
as well hold the text, and the source assembles to the same words, labels and base. -/
namespace Mips64

/-- What a token means under definitions: whether anything is written, and the text that stands for
it. -/
def Operand.sense (definitions : List (Text × Text)) (token : Text) : Bool × Text :=
  (token.isEmpty, (definitions.lookup (Text.upper (Text.strip token))).getD token)

/-- What a line with a statement means under definitions. -/
def Line.sense (definitions : List (Text × Text)) (line : Text) : Text × List (Bool × Text) :=
  ((statement line).mnemonic, (statement line).operands.map (Operand.sense definitions))

section
variable {definitions : List (Text × Text)} {tokens tokens' : List Text}

lemma Operand.substitute_eq_of_sense {symbols : Symbols}
    (defined : symbols.definitions = definitions)
    (same : tokens'.map (sense definitions) = tokens.map (sense definitions)) :
    tokens'.map (substitute symbols) = tokens.map (substitute symbols) := by
  subst defined
  have second := congrArg (List.map Prod.snd) same
  rwa [List.map_map, List.map_map] at second

lemma Operand.eq_singleton_nil_iff_of_sense
    (same : tokens'.map (sense definitions) = tokens.map (sense definitions)) :
    tokens' = [[]] ↔ tokens = [[]] := by
  have single (texts : List Text) : texts = [[]] ↔ texts.map List.isEmpty = [true] := by
    simp [List.map_eq_singleton_iff]
  have first := congrArg (List.map Prod.fst) same
  rw [List.map_map, List.map_map] at first
  rw [single, single]
  exact iff_of_eq (congrArg (· = [true]) first)

end

namespace Instruction

/-- Operands are read from the texts that stand for them. -/
lemma readFrom_congr {symbols : Symbols} {here : Nat} {written written' : List Text}
    (same : written'.map (Operand.substitute symbols) = written.map (Operand.substitute symbols))
    {kinds : List OperandKind} (numeric : ∀ kind ∈ kinds, kind.isNumeric = true) (position : Nat) :
    readFrom symbols here written' kinds position =
      readFrom symbols here written kinds position := by
  induction kinds generalizing position with
  | nil => rfl
  | cons kind kinds ih =>
    have others := ih (fun k member => numeric k (List.mem_cons_of_mem kind member)) (position + 1)
    have tokens := congrArg (·[position]?) same
    simp only [List.getElem?_map] at tokens
    rw [readFrom, readFrom, others]
    cases found' : written'[position]? with
    | none =>
      rw [found', Option.map_none, eq_comm, Option.map_eq_none_iff] at tokens
      rw [tokens]
    | some token' =>
      rw [found', Option.map_some, eq_comm, Option.map_eq_some_iff] at tokens
      obtain ⟨token, found, means⟩ := tokens
      rw [found]
      have single := numeric kind List.mem_cons_self
      dsimp only
      rw [Operand.read_numeric single symbols here token',
        Operand.read_numeric single symbols here token, means]
      · rintro list ⟨⟩
        exact (List.getElem?_eq_some_iff.1 found).1
      · rintro list ⟨⟩
        exact (List.getElem?_eq_some_iff.1 found').1

lemma encode_congr {i : Instruction} (numeric : i.isNumeric = true) {symbols : Symbols} {here : Nat}
    {written written' : List Text}
    (same : written'.map (Operand.substitute symbols) = written.map (Operand.substitute symbols)) :
    i.encode symbols here written' = i.encode symbols here written := by
  have length : written'.length = written.length := by simpa using congrArg List.length same
  have kinds : ∀ kind ∈ i.kinds.filter (· != .base), kind.isNumeric = true := fun kind member =>
    List.all_eq_true.1 numeric kind (List.mem_of_mem_filter member)
  simp only [encode, readOperands, length, readFrom_congr same kinds]

end Instruction

section
variable {definitions : List (Text × Text)} {arguments arguments' : List Text}

/-- Where arguments mean the same, so do the operands that they are filled into. -/
lemma Template.sense_operandFor
    (same : arguments'.map (Operand.sense definitions) = arguments.map (Operand.sense definitions))
    {operand : Text} (slot : isSlot arguments.length operand = true) :
    Operand.sense definitions (operandFor arguments' operand) =
      Operand.sense definitions (operandFor arguments operand) := by
  obtain ⟨mark, index, argument, rfl, digit, given⟩ | ⟨-, fixed⟩ := operandFor_cases slot
  · have at_index := congrArg (·[index]?) same
    simp only [List.getElem?_map, given, Option.map_some] at at_index
    obtain ⟨argument', given', means⟩ := Option.map_eq_some_iff.1 at_index
    rw [operandFor_placeholder digit given, operandFor_placeholder digit given', means]
  · rw [fixed, fixed]

lemma Template.sense_filled {template : Text}
    (regular : isRegular arguments.length template = true)
    (plain : ∀ a ∈ arguments, (∀ c ∈ a, Text.isBlank c = false) ∧ ',' ∉ a)
    (plain' : ∀ a ∈ arguments', (∀ c ∈ a, Text.isBlank c = false) ∧ ',' ∉ a)
    (same : arguments'.map (Operand.sense definitions) =
      arguments.map (Operand.sense definitions)) :
    Line.sense definitions (Line.ofStatement (filled arguments' template)) =
      Line.sense definitions (Line.ofStatement (filled arguments template)) := by
  have length : arguments'.length = arguments.length := by simpa using congrArg List.length same
  have operands : (filled arguments' template).operands.map (Operand.sense definitions) =
      (filled arguments template).operands.map (Operand.sense definitions) := by
    simp only [filled, List.map_map]
    refine List.map_congr_left fun operand member => sense_operandFor same ?_
    exact (isRegular_iff.1 regular).2.2.2 operand member
  have single := Operand.eq_singleton_nil_iff_of_sense operands
  rw [Line.sense, Line.sense, statement_filled regular plain,
    statement_filled (length.symm ▸ regular) plain']
  by_cases lone : (filled arguments template).operands = [[]]
  · simp only [if_pos lone, if_pos (single.2 lone)]
    rfl
  · simp only [if_neg lone, if_neg (mt single.1 lone), operands]
    rfl

/-- Where arguments mean the same, so do the lines that a regular macro stands for. -/
lemma Macro.expand_congr {m : Macro} (regular : m.isRegular = true) {lines : List Text}
    (plain : ∀ a ∈ arguments, (∀ c ∈ a, Text.isBlank c = false) ∧ ',' ∉ a)
    (plain' : ∀ a ∈ arguments', (∀ c ∈ a, Text.isBlank c = false) ∧ ',' ∉ a)
    (same : arguments'.map (Operand.sense definitions) = arguments.map (Operand.sense definitions))
    (expanded : m.expand arguments = .ok lines) :
    ∃ lines', m.expand arguments' = .ok lines' ∧
      lines'.map (Line.sense definitions) = lines.map (Line.sense definitions) := by
  have length : arguments'.length = arguments.length := by simpa using congrArg List.length same
  have arity := arity_of_expand expanded
  have each : ∀ t ∈ m.templates, Template.isRegular arguments.length t = true := by
    simpa [isRegular, arity] using regular
  rw [expand_regular regular arity] at expanded
  cases expanded
  refine ⟨_, expand_regular regular (length.symm ▸ arity), ?_⟩
  simp only [List.map_map]
  exact List.map_congr_left fun t member =>
    Template.sense_filled (each t member) plain plain' same

end

namespace Tables

/-- A macro of the machine stands for its lines, since each of them is an instruction. -/
lemma instructionLines_builtin {line : Text} {m : Macro} {lines : List Text}
    (role : builtin.role (Line.statement line).mnemonic = .expansion m)
    (expanded : m.expand (Line.statement line).operands = .ok lines) (levels : Nat) :
    builtin.instructionLines (levels + 1) line = some lines := by
  have listed : m ∈ Macro.builtin := mem_of_expansion? (role_eq_expansion_iff.1 role).2
  have each : lines.mapM (builtin.instructionLines levels) = some (lines.map (fun e => [e])) := by
    refine mapM_eq_some_iff.2 ?_
    rw [List.forall₂_map_right_iff, List.forall₂_same]
    intro e member
    obtain ⟨i, instruction⟩ := Assembly.exists_instruction_of_expand listed expanded member
    exact instructionLines_instruction instruction
  rw [instructionLines_expansion role expanded, each, Option.map_some, ← List.flatMap_def,
    List.flatMap_singleton']

/-- Where two lines mean the same, so do the instruction lines that they stand for. -/
lemma exists_instructionLines_of_sense {definitions : List (Text × Text)} {line line' : Text}
    (same : Line.sense definitions line' = Line.sense definitions line) {levels : Nat}
    {texts : List Text} (stands : builtin.instructionLines (levels + 1) line = some texts) :
    ∃ texts', builtin.instructionLines (levels + 1) line' = some texts' ∧
      texts'.map (Line.sense definitions) = texts.map (Line.sense definitions) := by
  obtain ⟨mnemonic, operands⟩ := Prod.mk.inj same
  cases role : builtin.role (Line.statement line).mnemonic with
  | unknown => rw [instructionLines_unknown role] at stands; cases stands
  | instruction i =>
    rw [instructionLines_instruction role] at stands
    cases stands
    exact ⟨[line'], instructionLines_instruction (mnemonic ▸ role), congrArg (fun s => [s]) same⟩
  | expansion m =>
    have listed : m ∈ Macro.builtin := mem_of_expansion? (role_eq_expansion_iff.1 role).2
    cases expanded : m.expand (Line.statement line).operands with
    | error failure =>
      rw [instructionLines, role] at stands
      simp only [expanded] at stands
      cases stands
    | ok lines =>
      rw [instructionLines_builtin role expanded] at stands
      cases stands
      obtain ⟨lines', expanded', means⟩ := Macro.expand_congr (Macro.isRegular_builtin m listed)
        (fun _ => Line.visible_of_mem_operands) (fun _ => Line.visible_of_mem_operands) operands
        expanded
      exact ⟨lines', instructionLines_builtin (mnemonic ▸ role) expanded' levels, means⟩

end Tables

/-- Words are not empty and have no blanks. -/
lemma Text.of_mem_words {s word : Text} (member : word ∈ words s) :
    word ≠ [] ∧ ∀ c ∈ word, c ∈ s ∧ isBlank c = false := by
  obtain ⟨piece, nonempty⟩ := List.mem_filter.1 member
  exact ⟨by simpa using nonempty, fun c inside => of_mem_splitOnP piece inside⟩

/-- The arguments of a directive are not empty and have no blanks and no commas. -/
lemma Directive.plain_of_mem_parts {line word : Text} (member : word ∈ (parts line).2) :
    word ≠ [] ∧ (∀ c ∈ word, Text.isBlank c = false) ∧ ',' ∉ word := by
  simp only [parts] at member
  split at member
  · cases member
  · rename_i first arguments inner
    obtain ⟨nonempty, inside⟩ := Text.of_mem_words (inner ▸ List.mem_cons_of_mem first member)
    refine ⟨nonempty, fun c here => (inside c here).2, fun comma => ?_⟩
    obtain ⟨c, -, turned⟩ := List.mem_map.1 (inside ',' comma).1
    split at turned
    · cases turned
    · contradiction

/-- The words of a request as they are written. -/
def Directive.Request.words : Request → List Text
  | .base token => [token]
  | .define name tokens => name :: tokens

/-- The words of a request are not empty and have no blanks and no commas. -/
lemma Directive.plain_of_request {line : Text} {q : Request} (asks : request line = .ok q)
    {word : Text} (member : word ∈ q.words) :
    word ≠ [] ∧ (∀ c ∈ word, Text.isBlank c = false) ∧ ',' ∉ word := by
  suffices listed : (parts line).2 = q.words from plain_of_mem_parts (listed ▸ member)
  simp only [request] at asks
  split at asks
  · cases asks
  all_goals
    split at asks
    · rename_i arguments
      cases asks
      exact arguments
    · cases asks

namespace Assembly

/-- Two lines that declare the same label and differ at most in how the operands of a statement are
written, but not in what they mean. -/
structure Alike (definitions : List (Text × Text)) (line line' : Text) : Prop where
  label : labelOf line' = labelOf line
  content : (shape (Line.normalize line')).content = (shape (Line.normalize line)).content ∨
    ∃ s s', (shape (Line.normalize line)).content = .statement s ∧
      (shape (Line.normalize line')).content = .statement s' ∧
      Line.sense definitions s' = Line.sense definitions s

/-- Two runs of the second pass that differ at most in the lines that they have listed. -/
structure Beside (definitions : List (Text × Text)) (r r' : Run) : Prop where
  store : r'.store = r.store
  count : r'.count = r.count
  defined : r.store.definitions = definitions

section
variable {definitions : List (Text × Text)} {line line' : Text} {source source' : List Text}
  {r r' next : Run}

lemma Alike.refl (line : Text) : Alike definitions line line := ⟨rfl, .inl rfl⟩

lemma Alike.symm (h : Alike definitions line line') : Alike definitions line' line := by
  refine ⟨h.label.symm, ?_⟩
  obtain same | ⟨s, s', holds, holds', means⟩ := h.content
  · exact .inl same.symm
  · exact .inr ⟨s', s, holds', holds, means.symm⟩

/-- The first pass sees no difference between lines that are alike. -/
lemma Alike.tally (h : Alike definitions line line') {t : Tables}
    (tallied : tally t (Line.normalize line) r = .ok next) :
    Assembly.tally t (Line.normalize line') r = .ok next := by
  rw [tally_eq] at tallied ⊢
  obtain ⟨declared, declares, content⟩ := bind_eq_ok_iff.1 tallied
  have label : (shape (Line.normalize line')).label = (shape (Line.normalize line)).label := h.label
  rw [← label] at declares
  refine bind_eq_ok_iff.2 ⟨declared, declares, ?_⟩
  obtain same | ⟨s, s', holds, holds', means⟩ := h.content
  · rw [same]
    exact content
  · have mnemonic : (Line.statement s').mnemonic = (Line.statement s).mnemonic :=
      congrArg Prod.fst means
    rw [holds] at content
    have known := role_ne_unknown_of_tallyStatement content
    obtain ⟨n, weight, rfl⟩ := tallyStatement_cases content
    rw [holds', tallyContent, tallyStatement_eq (mnemonic ▸ known), mnemonic, weight]

lemma tallyLines_of_alike (alike : List.Forall₂ (Alike definitions) source source') {t : Tables}
    (tallied : tallyLines t source r = .ok next) : tallyLines t source' r = .ok next := by
  induction alike generalizing r with
  | nil => exact tallied
  | cons first _ ih =>
    rw [tallyLines_cons] at tallied ⊢
    obtain ⟨middle, step, others⟩ := bind_eq_ok_iff.1 tallied
    exact bind_eq_ok_iff.2 ⟨middle, first.tally step, ih others⟩

/-- Instruction lines that mean the same put out the same word. -/
lemma Beside.encodeText (h : Beside definitions r r') {text text' : Text}
    (same : Line.sense definitions text' = Line.sense definitions text)
    (step : encodeText Tables.builtin r text = .ok next) :
    ∃ next', Assembly.encodeText Tables.builtin r' text' = .ok next' ∧
      Beside definitions next next' := by
  obtain ⟨mnemonic, operands⟩ := Prod.mk.inj same
  obtain ⟨i, word, found, encodes, rfl⟩ := encodeText_cases step
  have numeric := Instruction.isNumeric_builtin i (Tables.mem_of_instruction? found)
  have encodes' : i.encode r'.store.toSymbols r'.store.size (Line.statement text').operands =
      .ok word := by
    rw [h.store, Instruction.encode_congr numeric
      (Operand.substitute_eq_of_sense h.defined operands), encodes]
  rw [← mnemonic] at found
  refine ⟨_, encodeText_of_encode found encodes', ?_, h.count, h.defined⟩
  simp only [h.store]

lemma Beside.encodeTexts (h : Beside definitions r r') {texts texts' : List Text}
    (same : texts'.map (Line.sense definitions) = texts.map (Line.sense definitions))
    (steps : texts.foldlM (Assembly.encodeText Tables.builtin) r = .ok next) :
    ∃ next', texts'.foldlM (Assembly.encodeText Tables.builtin) r' = .ok next' ∧
      Beside definitions next next' := by
  rw [← List.forall₂_eq_eq_eq, List.forall₂_map_left_iff, List.forall₂_map_right_iff] at same
  refine exists_foldlM_of_forall₂ ?_ same.flip h steps
  intro r r' next text text' related means step
  exact related.encodeText means step

lemma Beside.enterScope (h : Beside definitions r r') (label : Option Text) :
    Beside definitions (enterScope label r) (Assembly.enterScope label r') := by
  cases label with
  | none => exact h
  | some name =>
    simp only [Assembly.enterScope]
    split
    · exact h
    · exact ⟨by simp only [h.store], h.count, h.defined⟩

/-- A statement is encoded beside one that means the same. -/
lemma Beside.encodeNested (h : Beside definitions r r') {s s' : Text}
    (same : Line.sense definitions s' = Line.sense definitions s)
    (encodes : encodeNested Tables.builtin Macro.maxDepth s r = .ok next) :
    ∃ next', Assembly.encodeNested Tables.builtin Macro.maxDepth s' r' = .ok next' ∧
      Beside definitions next next' := by
  obtain ⟨texts, stands⟩ := exists_instructionLines encodes
  obtain ⟨texts', stands', means⟩ := Tables.exists_instructionLines_of_sense same stands
  rw [encodeNested_eq_foldlM stands] at encodes
  obtain ⟨next', steps', after⟩ := h.encodeTexts means encodes
  exact ⟨next', (encodeNested_eq_foldlM stands' r').trans steps', after⟩

lemma Beside.encodeLine (h : Beside definitions r r') (alike : Alike definitions line line')
    (encodes : encodeLine Tables.builtin (Line.normalize line) r = .ok next) :
    ∃ next', Assembly.encodeLine Tables.builtin (Line.normalize line') r' = .ok next' ∧
      Beside definitions next next' := by
  have label : (shape (Line.normalize line')).label = (shape (Line.normalize line)).label :=
    alike.label
  rw [encodeLine_eq] at encodes ⊢
  rw [label]
  have entered := h.enterScope (shape (Line.normalize line)).label
  obtain same | ⟨s, s', holds, holds', means⟩ := alike.content
  · rw [same]
    cases holds : (shape (Line.normalize line)).content with
    | statement s =>
      rw [holds] at encodes
      exact entered.encodeNested rfl encodes
    | nothing | directive d =>
      rw [holds] at encodes
      cases encodes
      exact ⟨_, rfl, entered⟩
  · rw [holds] at encodes
    rw [holds']
    exact entered.encodeNested means encodes

/-- The second pass goes on beside itself over lines that are alike. -/
theorem Beside.encodeLines (h : Beside definitions r r')
    (alike : List.Forall₂ (Alike definitions) source source')
    (encodes : encodeLines Tables.builtin source r = .ok next) :
    ∃ next', Assembly.encodeLines Tables.builtin source' r' = .ok next' ∧
      Beside definitions next next' := by
  refine exists_foldlM_of_forall₂ ?_ alike h encodes
  intro r r' next line line' related lines step
  exact related.encodeLine lines step

end

/-- Sources whose lines are alike assemble to programs that differ at most in their listings. -/
theorem exists_assemble_of_alike {source source' : List Text} {p : Program}
    (alike : List.Forall₂ (Alike (definitionsOf source)) source source')
    (assembled : (assemble Tables.builtin source).result = .ok p) :
    ∃ p', (assemble Tables.builtin source').result = .ok p' ∧ p'.words = p.words ∧
      p'.labels = p.labels ∧ p'.children = p.children ∧ p'.base = p.base := by
  obtain ⟨final, both, rfl⟩ := assemble_result_eq_ok_iff.1 assembled
  obtain ⟨counted, emitted, first, second, agree, rfl⟩ := passes_eq_ok_iff.1 both
  have start : Beside (definitionsOf source) counted.rewound counted.rewound :=
    ⟨rfl, rfl, (definitions_of_tallyLines first).1⟩
  obtain ⟨emitted', second', beside⟩ := start.encodeLines alike second
  have agree' : emitted'.store.size = emitted'.count * 4 := by
    rw [beside.store, beside.count, agree]
  refine ⟨_, assemble_result_eq_ok_iff.2 ⟨_, passes_eq_ok_iff.2
    ⟨counted, emitted', tallyLines_of_alike alike first, second', agree', rfl⟩, rfl⟩, ?_⟩
  simp only [Run.program, Run.note, beside.store, and_self]

/-- Known mnemonics do not start with a bracket. -/
lemma head?_ne_of_known {mnemonic : Text} (known : Tables.builtin.role mnemonic ≠ .unknown) :
    mnemonic.head? ≠ some '[' := by
  have symbols : (∀ i ∈ Instruction.builtin, i.symbol.head? ≠ some '[') ∧
      ∀ m ∈ Macro.builtin, m.symbol.head? ≠ some '[' := by decide +kernel
  intro bracket
  obtain ⟨rest, rfl⟩ : ∃ rest, mnemonic = '[' :: rest := List.head?_eq_some_iff.1 bracket
  have upper : (Text.upper ('[' :: rest)).head? = some '[' := rfl
  cases role : Tables.builtin.role ('[' :: rest) with
  | unknown => exact known role
  | instruction i =>
    have found := Tables.role_eq_instruction_iff.1 role
    have symbol := List.find?_some found
    rw [← beq_iff_eq.1 symbol] at upper
    exact symbols.1 i (Tables.mem_of_instruction? found) upper
  | expansion m =>
    have found := (Tables.role_eq_expansion_iff.1 role).2
    have symbol := List.find?_some found
    rw [← beq_iff_eq.1 symbol] at upper
    exact symbols.2 m (Tables.mem_of_expansion? found) upper

/-- A source that assembles defines no name twice. -/
lemma nodup_definedNames {t : Tables} {source : List Text} {p : Program}
    (assembled : (assemble t source).result = .ok p) : (definedNames source).Nodup := by
  obtain ⟨counted, -, first, -⟩ := exists_runs_of_assemble assembled
  exact (definitions_of_tallyLines first).2

lemma lookup_definitionsOf {source : List Text} {name : Text}
    (undefined : name ∉ definedNames source) : (definitionsOf source).lookup name = none := by
  refine List.lookup_eq_none_iff.2 fun entry member => ?_
  rw [bne_iff_ne]
  intro same
  exact undefined (same ▸ List.mem_map_of_mem member)

/-- A defined name means what its text means, unless the text is a defined name as well. -/
lemma sense_eq_of_define {source : List Text} {directive name token : Text}
    (nodup : (definedNames source).Nodup) (stands : directive ∈ source)
    (asks : requestOf directive = some (.define name [token]))
    (undefined : Text.upper token ∉ definedNames source) :
    Operand.sense (definitionsOf source) token = Operand.sense (definitionsOf source) name := by
  obtain ⟨d, -, request⟩ := exists_of_requestOf asks
  obtain ⟨named, -, -⟩ := Directive.plain_of_request request List.mem_cons_self
  obtain ⟨written, visible, -⟩ :=
    Directive.plain_of_request request (List.mem_cons_of_mem _ List.mem_cons_self)
  have stripped := Text.strip_of_visible visible
  have entry : (Text.upper (Text.strip name), token) ∈ definitionsOf source := by
    refine List.mem_filterMap.2 ⟨directive, stands, ?_⟩
    simp [asks, Directive.Request.entry?, Text.joinWith, stripped]
  simp only [Operand.sense, stripped, lookup_definitionsOf undefined,
    lookup_eq_some_of_mem nodup entry, List.isEmpty_eq_false_iff.2 named,
    List.isEmpty_eq_false_iff.2 written, Option.getD_none, Option.getD_some]

lemma sense_set {definitions : List (Text × Text)} {s s' name token : Text} {position : Nat}
    (operand : (Line.statement s).operands[position]? = some name)
    (means : Operand.sense definitions token = Operand.sense definitions name)
    (replaced : Line.statement s' =
      ⟨(Line.statement s).mnemonic, (Line.statement s).operands.set position token⟩) :
    Line.sense definitions s' = Line.sense definitions s := by
  obtain ⟨inside, rfl⟩ := List.getElem?_eq_some_iff.1 operand
  rw [Line.sense, Line.sense, replaced, List.map_set, means, ← List.map_set, List.set_getElem_self]

lemma forall₂_alike {definitions : List (Text × Text)} {line line' : Text}
    (h : Alike definitions line line') (before after : List Text) :
    List.Forall₂ (Alike definitions) (before ++ line :: after) (before ++ line' :: after) :=
  List.rel_append (List.forall₂_same.2 fun l _ => .refl l)
    (.cons h (List.forall₂_same.2 fun l _ => .refl l))

/-- A line that has a defined name for an operand may hold the text of the definition instead, in
any of the ways to write it: the source assembles as it did before. The exception is a line that
becomes a directive. -/
theorem assemble_withOperand {before after : List Text} {line directive name token s piece : Text}
    {position : Nat} (stands : directive ∈ before ++ line :: after)
    (asks : requestOf directive = some (.define name [token]))
    (undefined : Text.upper token ∉ definedNames (before ++ line :: after))
    (holds : (shape (Line.normalize line)).content = .statement s)
    (known : Tables.builtin.role (Line.statement s).mnemonic ≠ .unknown)
    (operand : (Line.statement s).operands[position]? = some name)
    (written : Text.compact piece = token) {line' : Text}
    (rewritten : line' = Line.withOperand (Line.normalize line) position piece)
    (unchanged : Line.normalize line' = line')
    (unbracketed : Directive.isBracketed line' = false) :
    ((∃ p, (assemble Tables.builtin (before ++ line :: after)).result = .ok p) ↔
      ∃ p', (assemble Tables.builtin (before ++ line' :: after)).result = .ok p') ∧
    ∀ p p', (assemble Tables.builtin (before ++ line :: after)).result = .ok p →
      (assemble Tables.builtin (before ++ line' :: after)).result = .ok p' →
      p'.words = p.words ∧ p'.labels = p.labels ∧ p'.children = p.children ∧ p'.base = p.base := by
  obtain ⟨d, -, request⟩ := exists_of_requestOf asks
  obtain ⟨nonempty, -, apart⟩ :=
    Directive.plain_of_request request (List.mem_cons_of_mem _ List.mem_cons_self)
  have inside := (List.getElem?_eq_some_iff.1 operand).1
  have comma : ',' ∉ piece := fun member =>
    apart (written ▸ List.mem_filter.2 ⟨member, by decide⟩)
  rw [rewritten] at unbracketed
  obtain ⟨s', shape_eq, replaced⟩ := shape_withOperand holds inside (written ▸ nonempty) comma
    (head?_ne_of_known known) unbracketed
  rw [← rewritten, ← unchanged] at shape_eq
  have definitions : definitionsOf (before ++ line' :: after) =
      definitionsOf (before ++ line :: after) := by
    simp [definitionsOf, requestOf, holds, shape_eq]
  -- No name is defined twice, which either of the two runs shows, so both directions are open.
  have alike (nodup : (definedNames (before ++ line :: after)).Nodup) :
      Alike (definitionsOf (before ++ line :: after)) line line' := by
    have means := sense_eq_of_define nodup stands asks undefined
    rw [written] at replaced
    exact ⟨by rw [labelOf, shape_eq]; rfl,
      .inr ⟨s, s', holds, by rw [shape_eq], sense_set operand means replaced⟩⟩
  have forth {p : Program}
      (assembled : (assemble Tables.builtin (before ++ line :: after)).result = .ok p) :=
    exists_assemble_of_alike (forall₂_alike (alike (nodup_definedNames assembled)) before after)
      assembled
  refine ⟨⟨?_, ?_⟩, ?_⟩
  · rintro ⟨p, assembled⟩
    obtain ⟨p', assembled', -⟩ := forth assembled
    exact ⟨p', assembled'⟩
  · rintro ⟨p', assembled'⟩
    have nodup := nodup_definedNames assembled'
    rw [definedNames, definitions] at nodup
    have back := forall₂_alike (alike nodup).symm before after
    rw [← definitions] at back
    obtain ⟨p, assembled, -⟩ := exists_assemble_of_alike back assembled'
    exact ⟨p, assembled⟩
  · intro p p' assembled assembled'
    obtain ⟨q, same, equal⟩ := forth assembled
    cases assembled'.symm.trans same
    exact equal

/-- A jump through a register that is defined further on, whose macro uses the register three
times. -/
def definedJump : List Text :=
  ["loop: goto reg , .end ; again".toList, ".end: nop".toList, "[define reg $t1]".toList]

/-- The jump with the register in place of the name. -/
def writtenJump : Text := "LOOP: GOTO $T1 , .END".toList

/-- The jump assembles to the same four words either way. -/
theorem assemble_withOperand_definedJump : ∃ p p' : Program,
    (assemble Tables.builtin definedJump).result = .ok p ∧
      (assemble Tables.builtin (writtenJump :: definedJump.tail)).result = .ok p' ∧
      p'.words = p.words ∧ p.words.size = 4 := by
  have evaluated : (program? Tables.builtin definedJump).map (fun p => p.words.size) = some 4 := by
    decide +kernel
  obtain ⟨p, made, size⟩ := Option.map_eq_some_iff.1 evaluated
  have assembled := assemble_result_of_program? made
  have same := @assemble_withOperand [] definedJump.tail "loop: goto reg , .end ; again".toList
    "[define reg $t1]".toList "REG".toList "$T1".toList "GOTO REG , .END".toList "$T1 ".toList 0
    (by decide +kernel) (by decide +kernel) (by decide +kernel) (by rfl) (by
      rw [Ne, Tables.role_eq_unknown_iff]; decide +kernel)
    (by decide +kernel) (by decide +kernel) writtenJump (by decide +kernel) (by decide +kernel)
    (by decide +kernel)
  obtain ⟨p', assembled'⟩ := same.1.1 ⟨p, assembled⟩
  exact ⟨p, p', assembled, assembled', (same.2 p p' assembled assembled').1, size⟩

/-- A branch behind a label that starts with a bracket, to a name for a label that ends with one. -/
def bracketedBranch : List Text :=
  ["[DEFINE N X]]".toList, "X]: NOP".toList, "[A: B N".toList]

/-- With the label in place of the name the branch becomes a directive, and an unknown one. -/
theorem assemble_withOperand_bracketed :
    requestOf "[DEFINE N X]]".toList = some (.define "N".toList ["X]".toList]) ∧
    Text.upper "X]".toList ∉ definedNames bracketedBranch ∧
    labelOf "[A: B N".toList = some "[A".toList ∧
    Line.statement (Line.declaration (Line.normalize "[A: B N".toList)).2 =
      ⟨"B".toList, ["N".toList]⟩ ∧
    (Tables.builtin.expansion? "B".toList).isSome = true ∧
    Line.withOperand (Line.normalize "[A: B N".toList) 0 "X]".toList = "[A: B X]".toList ∧
    Line.normalize "[A: B X]".toList = "[A: B X]".toList ∧
    (∃ p, (assemble Tables.builtin bracketedBranch).result = .ok p ∧
      p.words = #[0, 0x1000FFFF] ∧ p.labels = [("X]".toList, 0), ("[A".toList, 4)]) ∧
    ∀ p, (assemble Tables.builtin
      ["[DEFINE N X]]".toList, "X]: NOP".toList, "[A: B X]".toList]).result ≠ .ok p := by
  have evaluated : (program? Tables.builtin bracketedBranch).map (fun p => (p.words, p.labels)) =
      some (#[0, 0x1000FFFF], [("X]".toList, 0), ("[A".toList, 4)]) := by decide +kernel
  obtain ⟨p, made, words⟩ := Option.map_eq_some_iff.1 evaluated
  have refused : (tallyLines Tables.builtin
      ["[DEFINE N X]]".toList, "X]: NOP".toList, "[A: B X]".toList] Run.empty).isOk = false := by
    decide +kernel
  refine ⟨by decide +kernel, by decide +kernel, by decide +kernel, by decide +kernel,
    by decide +kernel, by decide +kernel, by decide +kernel,
    ⟨p, assemble_result_of_program? made, Prod.mk.inj words⟩, fun q assembled => ?_⟩
  obtain ⟨counted, -, first, -⟩ := exists_runs_of_assemble assembled
  rw [first] at refused
  cases refused

end Assembly
end Mips64
