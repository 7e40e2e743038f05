import Mips64.Proofs.Branch
import Mips64.Proofs.Machine
import Mips64.Proofs.OperandLists
import Mips64.Proofs.Substitution

/-! Jumps through a register. The macros that jump to a target of 16 bits put the base register into
the upper half of a register, add the target and go to where the register points. The target is
added as a signed number. Main statement: the three words of such a line lead to the target above
the base if the target is below half of its range, and to an address that is short of it by one
step of the base otherwise. -/
namespace Mips64

namespace Instruction

/-- An instruction of the machine with these operands and this effect. -/
structure Does (i : Instruction) (effect : Effect) (operands : List (OperandKind × Field)) :
    Prop where
  listed : i ∈ builtin
  busy : i.symbol ∉ ["NOP".toList, "SLL".toList]
  described : Effect.ofPseudocode? i.pseudocode = some effect
  operands_eq : i.operands = operands
  plain : ∀ kind ∈ i.kinds, kind ≠ .offset ∧ kind ≠ .base

instance (i : Instruction) (effect : Effect) (operands : List (OperandKind × Field)) :
    Decidable (i.Does effect operands) :=
  decidable_of_iff (i ∈ builtin ∧ i.symbol ∉ ["NOP".toList, "SLL".toList] ∧
      Effect.ofPseudocode? i.pseudocode = some effect ∧ i.operands = operands ∧
      ∀ kind ∈ i.kinds, kind ≠ .offset ∧ kind ≠ .base)
    ⟨fun ⟨a, b, c, d, e⟩ => ⟨a, b, c, d, e⟩, fun ⟨a, b, c, d, e⟩ => ⟨a, b, c, d, e⟩⟩

def jumpParts : List (Text × Effect × List (OperandKind × Field)) :=
  [("LUI".toList, .loadUpper, [(.general, .rt), (.number16, .imm)]),
    ("ADDIU".toList, .addSigned, withImmediate),
    ("JR".toList, .jump, [(.general, .rs)]),
    ("JALR".toList, .jumpAndLink, [(.general, .rs)])]

lemma does_of_mem_jumpParts {mnemonic : Text} {effect : Effect}
    {operands : List (OperandKind × Field)} (part : (mnemonic, effect, operands) ∈ jumpParts)
    {i : Instruction} (found : Tables.builtin.instruction? mnemonic = some i) :
    i.Does effect operands := by
  have all : ∀ part ∈ jumpParts, ∃ i ∈ builtin,
      Tables.builtin.instruction? part.1 = some i ∧ i.Does part.2.1 part.2.2 := by decide +kernel
  obtain ⟨j, -, found', does⟩ := all _ part
  cases found.symm.trans found'
  exact does

lemma exists_does_of_leap {mnemonic : Text} (leap : mnemonic ∈ ["JR".toList, "JALR".toList])
    {i : Instruction} (found : Tables.builtin.instruction? mnemonic = some i) :
    ∃ effect, (effect = .jump ∨ effect = .jumpAndLink) ∧ i.Does effect [(.general, .rs)] := by
  rcases List.mem_cons.1 leap with rfl | last
  · exact ⟨_, .inl rfl, does_of_mem_jumpParts (by decide +kernel) found⟩
  · cases List.mem_singleton.1 last
    exact ⟨_, .inr rfl, does_of_mem_jumpParts (by decide +kernel) found⟩

section
variable {i : Instruction} {effect : Effect} {operands : List (OperandKind × Field)}
  {symbols : Symbols} {here : Nat} {written : List Text} {word : Nat}

lemma Does.step (does : i.Does effect operands) (encodes : i.encode symbols here written = .ok word)
    (m : Machine) : m.step word = some (effect.apply m word) := by
  obtain ⟨values, rfl, -⟩ := exists_values_of_encode does.plain encodes
  exact Machine.step_pack does.listed does.busy does.described values m

/-- The field of an operand holds the number that its token is read as. -/
lemma Does.exists_extract (does : i.Does effect operands)
    (encodes : i.encode symbols here written = .ok word) {j : Nat} {kind : OperandKind}
    {field : Field} (at_j : operands[j]? = some (kind, field)) (numeric : kind.isNumeric = true) :
    ∃ token operand value, written[j]? = some token ∧
      Operand.readPlain symbols here kind (Operand.substitute symbols token) none 0 =
        .ok operand ∧
      operand.value? = some value ∧ field.extract word = (value % 2 ^ field.width).toNat := by
  have kind_at : i.kinds[j]? = some kind := by simp [kinds, does.operands_eq, at_j]
  have field_at : i.fields[j]? = some field := by simp [fields, does.operands_eq, at_j]
  obtain ⟨values, rfl, each⟩ := exists_values_of_encode does.plain encodes
  obtain ⟨token, operand, value, token_at, read, carried, value_at⟩ := each j kind kind_at
  refine ⟨token, operand, value, token_at, ?_, carried,
    (isClear_of_mem_builtin does.listed).extract_pack field_at value_at⟩
  rw [← read, Operand.read_numeric numeric]
  rintro list ⟨⟩
  exact (List.getElem?_eq_some_iff.1 token_at).1

/-- The field of a register operand holds the index of the register. -/
lemma Does.extract_general (does : i.Does effect operands)
    (encodes : i.encode symbols here written = .ok word) {j : Nat} {field : Field}
    (at_j : operands[j]? = some (.general, field)) (narrow : field.width = 5) {index : Nat}
    (reads : ∀ token, written[j]? = some token →
      Register.read .general (Operand.substitute symbols token) = .ok index) :
    field.extract word = index := by
  obtain ⟨token, operand, value, token_at, read, carried, extracted⟩ :=
    does.exists_extract encodes at_j rfl
  obtain ⟨read_index, same, made⟩ := bind_eq_ok_iff.1 read
  cases same.symm.trans (reads token token_at)
  cases made
  cases carried
  have small := Register.read_lt same
  rw [extracted, narrow]
  omega

/-- The field of a number of 16 bits holds its low bits. -/
lemma Does.extract_number16 (does : i.Does effect operands)
    (encodes : i.encode symbols here written = .ok word) {j : Nat}
    (at_j : operands[j]? = some (.number16, .imm)) {value : Int}
    (resolves : ∀ token, written[j]? = some token →
      Operand.value symbols (Operand.substitute symbols token) = .ok value) :
    Field.imm.extract word = (value % 2 ^ 16).toNat := by
  obtain ⟨token, operand, low, token_at, read, carried, extracted⟩ :=
    does.exists_extract encodes at_j rfl
  obtain ⟨read_value, same, made⟩ := bind_eq_ok_iff.1 read
  cases same.symm.trans (resolves token token_at)
  cases made
  cases carried
  rw [extracted]
  simp [Field.width]

end

end Instruction

namespace Machine

def loaded (base target : Nat) : BitVec 64 :=
  (BitVec.ofNat 16 base).zeroExtend 64 <<< 16 + (BitVec.ofNat 16 target).signExtend 64

/-- A target in the upper half of its range counts as negative, and takes one step off the base. -/
lemma toNat_loaded {base target : Nat} (base_lt : base < 2 ^ 16) (target_lt : target < 2 ^ 16) :
    ((loaded base target).toNat : Int) % 2 ^ 32 =
      (base * 2 ^ 16 + target - if target < 0x8000 then 0 else 0x10000) % 2 ^ 32 := by
  have sign : (BitVec.ofNat 16 target).msb = decide (0x8000 ≤ target) := by
    rw [BitVec.msb_eq_decide, BitVec.toNat_ofNat, Nat.mod_eq_of_lt target_lt]
  have upper : ((BitVec.ofNat 16 base).zeroExtend 64 <<< 16).toNat = base * 2 ^ 16 := by
    simp only [BitVec.toNat_shiftLeft, BitVec.toNat_setWidth, BitVec.toNat_ofNat, Nat.shiftLeft_eq]
    omega
  rw [loaded, BitVec.toNat_add, upper, BitVec.toNat_signExtend, sign]
  simp only [BitVec.toNat_setWidth, BitVec.toNat_ofNat, decide_eq_true_eq]
  split <;> split <;> omega

/-- Words that load the base, add the target and jump lead to the address that has been loaded. -/
lemma run_jump {load add jump index base target : Nat} {leap : Effect}
    (leaps : leap = .jump ∨ leap = .jumpAndLink) (nonzero : index ≠ 0)
    (steps : ∀ m : Machine, m.step load = some (Effect.loadUpper.apply m load) ∧
      m.step add = some (Effect.addSigned.apply m add) ∧ m.step jump = some (leap.apply m jump))
    (load_rt : Field.rt.extract load = index) (load_imm : Field.imm.extract load = base)
    (add_rt : Field.rt.extract add = index) (add_rs : Field.rs.extract add = index)
    (add_imm : Field.imm.extract add = target) (jump_rs : Field.rs.extract jump = index)
    (m : Machine) : ∃ last, m.run [load, add, jump] = some last ∧ last.pc = loaded base target := by
  have added : (Effect.addSigned.apply (Effect.loadUpper.apply m load) add).register index =
      loaded base target := by
    simp [Effect.apply, load_rt, load_imm, add_rt, add_rs, add_imm, nonzero, loaded]
  refine ⟨leap.apply (Effect.addSigned.apply (Effect.loadUpper.apply m load) add) jump, ?_, ?_⟩
  · simp [run, (steps _).1, (steps _).2.1, (steps _).2.2]
  · rcases leaps with rfl | rfl <;> simp only [Effect.apply, jump_rs] <;> exact added

end Machine

lemma Operand.upper_baseName : Text.upper (Text.strip baseName) = baseName := by decide +kernel

lemma Operand.value_baseName {symbols : Symbols} (unresolved : symbols.label? baseName = none) :
    value symbols baseName = .ok symbols.base := by
  simp only [value, address, number, literal, upper_baseName, unresolved, if_true]

/-- A filled template is read as its mnemonic with arguments for its slots. -/
lemma Template.statement_of_slots {arguments slots operands : List Text} {template mnemonic : Text}
    (regular : isRegular arguments.length template = true)
    (plain : ∀ argument ∈ arguments, (∀ c ∈ argument, Text.isBlank c = false) ∧ ',' ∉ argument)
    (reads : Line.statement template = ⟨mnemonic, slots⟩) (upper : Text.upper mnemonic = mnemonic)
    (fills : slots.map (operandFor arguments) = operands) :
    Line.statement (Line.ofStatement (filled arguments template)) =
      ⟨mnemonic, if operands = [[]] then [] else operands⟩ := by
  rw [statement_filled regular plain]
  simp only [filled, reads, upper, fills]

namespace Assembly

/-- A line of a source with a jump through a register, which has the register and the target as its
operands. -/
def IsJump (line register target : Text) : Prop :=
  ∃ s, (shape (Line.normalize line)).content = .statement s ∧
    (Line.statement s).mnemonic ∈ ["GOTO".toList, "CALL".toList] ∧
    (Line.statement s).operands = [register, target]

/-- The macros that jump through a register differ in the last instruction only. -/
lemma exists_jump_macro {mnemonic : Text} (jump : mnemonic ∈ ["GOTO".toList, "CALL".toList]) :
    ∃ m ∈ Macro.builtin, Tables.builtin.role mnemonic = .expansion m ∧ m.arity = 2 ∧
      ∃ leap ∈ ["JR".toList, "JALR".toList], m.templates =
        ["LUI \x7b0\x7d, BASE".toList, "ADDIU \x7b0\x7d, \x7b0\x7d, \x7b1\x7d".toList,
          leap ++ " \x7b0\x7d".toList] := by
  have all : ∀ mnemonic ∈ ["GOTO".toList, "CALL".toList], ∃ m ∈ Macro.builtin,
      (Tables.builtin.instruction? mnemonic = none ∧ Tables.builtin.expansion? mnemonic = some m) ∧
      m.arity = 2 ∧ ∃ leap ∈ ["JR".toList, "JALR".toList], m.templates =
        ["LUI \x7b0\x7d, BASE".toList, "ADDIU \x7b0\x7d, \x7b0\x7d, \x7b1\x7d".toList,
          leap ++ " \x7b0\x7d".toList] := by decide +kernel
  obtain ⟨m, listed, named, rest⟩ := all mnemonic jump
  exact ⟨m, listed, Tables.role_eq_expansion_iff.2 named, rest⟩

variable {line register target : Text}

/-- What a jump through a register stands for. -/
lemma IsJump.exists_lineTexts (h : IsJump line register target) :
    ∃ load add jump, lineTexts Tables.builtin line = [load, add, jump] ∧
      Line.statement load = ⟨"LUI".toList, [register, Operand.baseName]⟩ ∧
      Line.statement add = ⟨"ADDIU".toList, [register, register, target]⟩ ∧
      (Line.statement jump).mnemonic ∈ ["JR".toList, "JALR".toList] ∧
      ∀ token, (Line.statement jump).operands[0]? = some token → token = register := by
  obtain ⟨s, holds, mnemonic, operands⟩ := h
  obtain ⟨m, listed, role, arity, leap, leaps, templates⟩ := exists_jump_macro mnemonic
  have regular := Macro.isRegular_builtin m listed
  have plain : ∀ a ∈ [register, target], (∀ c ∈ a, Text.isBlank c = false) ∧ ',' ∉ a :=
    fun a member => Line.visible_of_mem_operands (operands ▸ member)
  have each : ∀ t ∈ m.templates, Template.isRegular [register, target].length t = true := by
    simpa [Macro.isRegular, arity] using regular
  have expanded : m.expand (Line.statement s).operands = .ok (m.templates.map
      (fun t => Line.ofStatement (Template.filled [register, target] t))) := by
    rw [operands]
    exact Macro.expand_regular regular arity
  have texts : lineTexts Tables.builtin line = m.templates.map
      (fun t => Line.ofStatement (Template.filled [register, target] t)) := by
    have stands := Tables.instructionLines_builtin role expanded (Macro.maxDepth - 1)
    simp only [lineTexts, holds]
    exact congrArg (fun texts => texts.getD []) stands
  rw [templates] at texts each
  have load : Line.statement "LUI \x7b0\x7d, BASE".toList =
      ⟨"LUI".toList, ["\x7b0\x7d".toList, "BASE".toList]⟩ := by decide +kernel
  have add : Line.statement "ADDIU \x7b0\x7d, \x7b0\x7d, \x7b1\x7d".toList =
      ⟨"ADDIU".toList, ["\x7b0\x7d".toList, "\x7b0\x7d".toList, "\x7b1\x7d".toList]⟩ := by
    decide +kernel
  have jump : Text.upper leap = leap ∧ Line.statement (leap ++ " \x7b0\x7d".toList) =
      ⟨leap, ["\x7b0\x7d".toList]⟩ := by
    clear templates each texts
    revert leap
    decide +kernel
  have load_filled : Line.statement _ =
      ⟨_, if [register, Operand.baseName] = [[]] then [] else _⟩ :=
    Template.statement_of_slots (each _ (by simp)) plain load (by decide +kernel) rfl
  have add_filled : Line.statement _ = ⟨_, if [register, register, target] = [[]] then [] else _⟩ :=
    Template.statement_of_slots (each _ (by simp)) plain add (by decide +kernel) rfl
  have jump_filled : Line.statement _ = ⟨_, if [register] = [[]] then [] else _⟩ :=
    Template.statement_of_slots (each _ (by simp)) plain jump.2 jump.1 rfl
  refine ⟨_, _, _, texts, ?_, ?_, ?_, ?_⟩
  · rw [load_filled, if_neg (by simp)]
  · rw [add_filled, if_neg (by simp)]
  · rw [jump_filled]
    exact leaps
  · rw [jump_filled]
    intro token token_at
    dsimp only at token_at
    split at token_at
    · cases token_at
    · cases token_at
      rfl

/-- The lines of a source are put out one behind another. -/
lemma getElem?_emissions {t : Tables} {before after : List Text} {j : Nat} {text : Text}
    (text_at : (lineTexts t line)[j]? = some text) :
    (emissions t (before ++ line :: after))[(emissions t before).length + j]? =
      some ⟨before ++ [line], text⟩ := by
  have bound : j < ((lineTexts t line).map (Emission.mk (before ++ [line]))).length := by
    simpa using (List.getElem?_eq_some_iff.1 text_at).1
  rw [emissions, collect_append, collect, List.nil_append, ← emissions,
    List.getElem?_append_right (Nat.le_add_right _ _), Nat.add_sub_cancel_left,
    List.getElem?_append_left bound, List.getElem?_map, text_at, Option.map_some]

/-- A name that no line declares is no label. -/
lemma Labelled.lookup_eq_none {t : Tables} {source : List Text} {r : Run}
    (h : Labelled t source r) {name : Text}
    (unlabelled : ∀ line ∈ source, labelOf line ≠ some name) :
    r.store.labels.lookup name = none := by
  cases found : r.store.labels.lookup name with
  | none => rfl
  | some address =>
    obtain ⟨d, member, same, -⟩ := exists_of_lookup h.labels found
    obtain ⟨line, rest, split, label⟩ := mem_declarations.1 (List.mem_of_mem_filter member)
    have stands : line ∈ source := by simp [split]
    rw [← same] at label
    exact absurd label (unlabelled line stands)

/-- The symbols that the operands of the last of these lines of a source are read against, where the
source assembles to a program. -/
def symbolsAt (p : Program) (source lines : List Text) : Symbols :=
  ⟨p.labels, p.children, definitionsOf source, scopeAfter lines, p.base⟩

/-- The words of a line of a source, each encoded from an instruction line that the line stands
for. -/
lemma exists_word_of_lineTexts {source before after : List Text} {p : Program}
    (assembled : (assemble Tables.builtin source).result = .ok p)
    (split : source = before ++ line :: after) {j : Nat} {text : Text}
    (text_at : (lineTexts Tables.builtin line)[j]? = some text) :
    ∃ (i : Instruction) (here word : Nat),
      Tables.builtin.instruction? (Line.statement text).mnemonic = some i ∧
      i.encode (symbolsAt p source (before ++ [line])) here (Line.statement text).operands =
        .ok word ∧
      p.words[(emissions Tables.builtin before).length + j]? = some (word : Int) := by
  obtain ⟨counted, emitted, first, second, -, rfl⟩ := exists_emitted_of_assemble assembled
  have done := emitted_of_rewound first second
  have emission : (emissions Tables.builtin source)[(emissions Tables.builtin before).length + j]? =
      some ⟨before ++ [line], text⟩ := split ▸ getElem?_emissions text_at
  obtain ⟨i, word, ⟨found, encodes⟩, word_at, -⟩ := done.encoded _ _ emission
  refine ⟨i, ((emissions Tables.builtin before).length + j) * 4, word, found, ?_, word_at⟩
  have symbols : symbolsAt emitted.program source (before ++ [line]) =
      { counted.rewound.store.toSymbols with scope := scopeAfter (before ++ [line]) } := by
    simp only [symbolsAt, Run.program, done.symbols_eq, ← (definitions_of_tallyLines first).1]
    rfl
  rw [symbols]
  exact encodes

/-- The words after lines of a source start where the words of the lines end. -/
lemma isOutputOffset_emissions {source lines more : List Text} {p : Program}
    (assembled : (assemble Tables.builtin source).result = .ok p) (split : source = lines ++ more) :
    IsOutputOffset Tables.builtin source lines
      ((emissions Tables.builtin lines).length * 4 : Int) := by
  obtain ⟨counted, emitted, first, second, -, -⟩ := exists_emitted_of_assemble assembled
  rw [split] at second
  obtain ⟨s, encodes⟩ := encodeLines_of_append second
  exact isOutputOffset_of_count first encodes rfl

/-- Where no label and no definition has its name, the base register is read by name. -/
lemma value_symbolsAt_baseName {source : List Text} (lines : List Text) {p : Program}
    (assembled : (assemble Tables.builtin source).result = .ok p)
    (unlabelled : ∀ line ∈ source, labelOf line ≠ some Operand.baseName)
    (undefined : Operand.baseName ∉ definedNames source) :
    Operand.value (symbolsAt p source lines)
      (Operand.substitute (symbolsAt p source lines) Operand.baseName) = .ok p.base := by
  obtain ⟨counted, -, first, -, labels, -⟩ := exists_runs_of_assemble assembled
  have unresolved : (symbolsAt p source lines).label? Operand.baseName = none := by
    rw [label?_of_global (by decide) (by decide), symbolsAt, labels]
    exact (labelled_of_tallyLines first).lookup_eq_none unlabelled
  have plain : Operand.substitute (symbolsAt p source lines) Operand.baseName =
      Operand.baseName := by
    rw [Operand.substitute, Operand.replacement?, Symbols.definition?, Operand.upper_baseName,
      symbolsAt, lookup_definitionsOf undefined, Option.getD_none]
  rw [plain, Operand.value_baseName unresolved]
  rfl

section
variable {source before after : List Text} {p : Program} {index : Nat} {address : Int}

/-- A line with a jump puts out three words that load an address and go there. -/
lemma IsJump.exists_words (jump : IsJump line register target)
    (assembled : (assemble Tables.builtin source).result = .ok p)
    (split : source = before ++ line :: after)
    (based : Operand.value (symbolsAt p source (before ++ [line]))
      (Operand.substitute (symbolsAt p source (before ++ [line])) Operand.baseName) = .ok p.base)
    (reads : Register.read .general
      (Operand.substitute (symbolsAt p source (before ++ [line])) register) = .ok index)
    (nonzero : index ≠ 0)
    (resolves : Operand.value (symbolsAt p source (before ++ [line]))
      (Operand.substitute (symbolsAt p source (before ++ [line])) target) = .ok address) :
    ∃ load add leap : Nat,
      p.words[(emissions Tables.builtin before).length]? = some (load : Int) ∧
      p.words[(emissions Tables.builtin before).length + 1]? = some (add : Int) ∧
      p.words[(emissions Tables.builtin before).length + 2]? = some (leap : Int) ∧
      ∀ m : Machine, ∃ last, m.run [load, add, leap] = some last ∧
        last.pc = Machine.loaded (p.base % 2 ^ 16).toNat (address % 2 ^ 16).toNat := by
  obtain ⟨loadText, addText, leapText, texts, loads, adds, leaps, leap_operand⟩ :=
    jump.exists_lineTexts
  have text_at : (lineTexts Tables.builtin line)[0]? = some loadText ∧
      (lineTexts Tables.builtin line)[1]? = some addText ∧
      (lineTexts Tables.builtin line)[2]? = some leapText := by simp [texts]
  obtain ⟨i, _, load, i_found, i_encodes, load_at⟩ :=
    exists_word_of_lineTexts assembled split text_at.1
  obtain ⟨j, _, add, j_found, j_encodes, add_at⟩ :=
    exists_word_of_lineTexts assembled split text_at.2.1
  obtain ⟨l, _, leap, l_found, l_encodes, leap_at⟩ :=
    exists_word_of_lineTexts assembled split text_at.2.2
  rw [loads] at i_found i_encodes
  rw [adds] at j_found j_encodes
  dsimp only at i_found j_found
  have i_does : i.Does .loadUpper [(.general, .rt), (.number16, .imm)] :=
    Instruction.does_of_mem_jumpParts (by decide +kernel) i_found
  have j_does : j.Does .addSigned Instruction.withImmediate :=
    Instruction.does_of_mem_jumpParts (by decide +kernel) j_found
  obtain ⟨effect, effects, l_does⟩ := Instruction.exists_does_of_leap leaps l_found
  refine ⟨load, add, leap, load_at, add_at, leap_at, ?_⟩
  apply Machine.run_jump effects nonzero
  · exact fun m => ⟨i_does.step i_encodes m, j_does.step j_encodes m, l_does.step l_encodes m⟩
  · apply i_does.extract_general i_encodes (j := 0) rfl rfl
    rintro _ ⟨⟩
    exact reads
  · apply i_does.extract_number16 i_encodes (j := 1) rfl
    rintro _ ⟨⟩
    exact based
  · apply j_does.extract_general j_encodes (j := 0) rfl rfl
    rintro _ ⟨⟩
    exact reads
  · apply j_does.extract_general j_encodes (j := 1) rfl rfl
    rintro _ ⟨⟩
    exact reads
  · apply j_does.extract_number16 j_encodes (j := 2) rfl
    rintro _ ⟨⟩
    exact resolves
  · apply l_does.extract_general l_encodes (j := 0) rfl rfl
    intro token token_at
    rw [leap_operand token token_at]
    exact reads

/-- The words of a jump through a register to an address of 16 bits lead to the address above the
base if it is below half of its range, and miss it by one step of the base otherwise, since it is
added as a signed number. -/
theorem jump_lands (assembled : (assemble Tables.builtin source).result = .ok p)
    (split : source = before ++ line :: after) (jump : IsJump line register target)
    (unlabelled : ∀ line ∈ source, labelOf line ≠ some Operand.baseName)
    (undefined : Operand.baseName ∉ definedNames source)
    (reads : Register.read .general
      (Operand.substitute (symbolsAt p source (before ++ [line])) register) = .ok index)
    (nonzero : index ≠ 0)
    (resolves : Operand.value (symbolsAt p source (before ++ [line]))
      (Operand.substitute (symbolsAt p source (before ++ [line])) target) = .ok address)
    (lower : 0 ≤ address) (upper : address ≤ 0xFFFF) :
    ∃ k load add leap : Nat,
      IsOutputOffset Tables.builtin source before (k * 4) ∧
      IsOutputOffset Tables.builtin source (before ++ [line]) ((k + 3) * 4) ∧
      p.words[k]? = some (load : Int) ∧ p.words[k + 1]? = some (add : Int) ∧
      p.words[k + 2]? = some (leap : Int) ∧
      ∀ m : Machine, ∃ last, m.run [load, add, leap] = some last ∧
        (last.pc.toNat : Int) % 2 ^ 32 =
          (p.base * 2 ^ 16 + address - if address < 0x8000 then 0 else 0x10000) % 2 ^ 32 := by
  have based := value_symbolsAt_baseName (before ++ [line]) assembled unlabelled undefined
  obtain ⟨load, add, leap, load_at, add_at, leap_at, lands⟩ :=
    jump.exists_words assembled split based reads nonzero resolves
  have starts := isOutputOffset_emissions assembled split
  have ends : IsOutputOffset Tables.builtin source (before ++ [line])
      ((emissions Tables.builtin (before ++ [line])).length * 4) :=
    isOutputOffset_emissions assembled (split.trans (List.append_cons before line after))
  obtain ⟨loadText, addText, leapText, texts, -⟩ := jump.exists_lineTexts
  rw [emissions_concat, texts] at ends
  refine ⟨_, load, add, leap, starts, by simpa using ends, load_at, add_at, leap_at, fun m => ?_⟩
  obtain ⟨last, ran, reaches⟩ := lands m
  refine ⟨last, ran, ?_⟩
  have base_lt : (p.base % 2 ^ 16).toNat < 2 ^ 16 := by omega
  have target_lt : (address % 2 ^ 16).toNat < 2 ^ 16 := by omega
  rw [reaches, Machine.toNat_loaded base_lt target_lt]
  split <;> split <;> omega

end

/-- A call of itself, through a register that a definition names. -/
def nearCall : List Text :=
  ["[base 0x1234]".toList, "[define way $t9]".toList, "nop".toList, "again: call way, again".toList]

/-- The call leads to the second word above the base. -/
theorem jump_lands_nearCall : ∃ (p : Program) (k load add leap : Nat),
    (assemble Tables.builtin nearCall).result = .ok p ∧
    IsOutputOffset Tables.builtin nearCall (nearCall.take 3) (k * 4) ∧
    p.words[k]? = some (load : Int) ∧ p.words[k + 1]? = some (add : Int) ∧
    p.words[k + 2]? = some (leap : Int) ∧
    ∀ m : Machine, ∃ last, m.run [load, add, leap] = some last ∧
      (last.pc.toNat : Int) % 2 ^ 32 = 0x12340004 := by
  have evaluated : (program? Tables.builtin nearCall).map
      (fun p => symbolsAt p nearCall nearCall) =
        some ⟨[("AGAIN".toList, 4)], [], [("WAY".toList, "$T9".toList)], "AGAIN".toList,
          0x1234⟩ := by decide +kernel
  obtain ⟨p, made, symbols⟩ := Option.map_eq_some_iff.1 evaluated
  have assembled := assemble_result_of_program? made
  have jump : IsJump "again: call way, again".toList "WAY".toList "AGAIN".toList :=
    ⟨"CALL WAY, AGAIN".toList, rfl, by decide +kernel, by decide +kernel⟩
  have reads : Register.read .general
      (Operand.substitute (symbolsAt p nearCall nearCall) "WAY".toList) = .ok 25 := by
    rw [symbols]
    decide +kernel
  have resolves : Operand.value (symbolsAt p nearCall nearCall)
      (Operand.substitute (symbolsAt p nearCall nearCall) "AGAIN".toList) = .ok 4 := by
    rw [symbols]
    decide +kernel
  have split : nearCall = nearCall.take 3 ++ ["again: call way, again".toList] := rfl
  obtain ⟨k, load, add, leap, starts, -, load_at, add_at, leap_at, lands⟩ :=
    jump_lands assembled split jump (by decide +kernel) (by decide +kernel) reads (by decide)
      resolves (by decide) (by decide)
  have base : p.base = 0x1234 := congrArg Symbols.base symbols
  rw [base] at lands
  exact ⟨p, k, load, add, leap, assembled, starts, load_at, add_at, leap_at, lands⟩

/-- A jump to an address in the upper half of its range. -/
def farJump : List Text := ["goto $t0, 0x8000".toList]

/-- The words of the jump do not lead to the address above the base. -/
theorem not_jump_lands_farJump : ∃ p,
    (assemble Tables.builtin farJump).result = .ok p ∧
    (p.base * 2 ^ 16 + 0x8000) % 2 ^ 32 = 0x8000 ∧
    p.words = #[0x3C080000, 0x25088000, 0x01000008] ∧
    ∀ m : Machine, ∃ last, m.run [0x3C080000, 0x25088000, 0x01000008] = some last ∧
      last.pc.toNat % 2 ^ 32 = 0xFFFF8000 := by
  have evaluated : (program? Tables.builtin farJump).map (fun p => (p.words, p.base)) =
      some (#[0x3C080000, 0x25088000, 0x01000008], 0) := by decide +kernel
  obtain ⟨p, made, parts⟩ := Option.map_eq_some_iff.1 evaluated
  obtain ⟨words, base⟩ := Prod.mk.inj parts
  refine ⟨p, assemble_result_of_program? made, by rw [base]; rfl, words, fun m => ?_⟩
  have effects : Effect.ofWord? 0x3C080000 = some .loadUpper ∧
      Effect.ofWord? 0x25088000 = some .addSigned ∧
      Effect.ofWord? 0x01000008 = some .jump := by decide +kernel
  obtain ⟨last, ran, lands⟩ := Machine.run_jump (.inl rfl) (show 8 ≠ 0 by decide)
    (fun m => ⟨by rw [Machine.step, effects.1]; rfl, by rw [Machine.step, effects.2.1]; rfl,
      by rw [Machine.step, effects.2.2]; rfl⟩)
    (by decide) (show _ = 0 by decide) (by decide) (by decide) (show _ = 0x8000 by decide)
    (by decide) m
  refine ⟨last, ran, ?_⟩
  rw [lands]
  decide

end Assembly
end Mips64
