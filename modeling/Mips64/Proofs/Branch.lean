import Mips64.Proofs.Decoding
import Mips64.Proofs.OperandLists
import Mips64.Proofs.PassAgreement

/-! Branches reach their labels. The low half of a branch word is the distance in words from the
branch to its label. Main statement: where that distance fits in the half-word, the branch leads to
the place in the output where the words after the label's declaration start. -/
namespace Mips64

/-- A branch target is read as the displacement of the text that stands for it. -/
lemma Operand.displacement_of_read {symbols : Symbols} {here : Nat} {token : Text}
    {operands : Option (List Text)} {position : Nat} {operand : Operand}
    (h : read symbols here .branch token operands position = .ok operand) :
    ∃ distance, displacement symbols here (substitute symbols token) = .ok distance ∧
      operand = .immediate distance 16 := by
  have plain {text : Text} {operands : Option (List Text)}
      (h : readPlain symbols here .branch text operands position = .ok operand) :
      ∃ distance, displacement symbols here text = .ok distance ∧
        operand = .immediate distance 16 := by
    obtain ⟨distance, displaced, same⟩ := bind_eq_ok_iff.1 h
    cases same
    exact ⟨distance, displaced, rfl⟩
  rw [substitute]
  unfold read at h
  split at h
  · rename_i undefined
    rw [undefined]
    exact plain h
  · rename_i written defined
    rw [defined]
    split at h
    · exact plain h
    · split at h
      · exact plain h
      · cases h

namespace Instruction

/-- Operands that make up a word are numbers. -/
lemma exists_values_of_placed {fields : List Field} {operands : List Operand} {n : Nat}
    (full : operands.length = fields.length) (h : placed fields operands = .ok n) :
    ∃ values : List Int, operands.map Operand.value? = values.map some := by
  induction fields generalizing operands n with
  | nil => exact ⟨[], by simpa using full⟩
  | cons field fields ih =>
    cases operands with
    | nil => cases full
    | cons operand operands =>
      rw [placed] at h
      split at h
      · cases h
      · rename_i value carried
        obtain ⟨rest, others, -⟩ := bind_eq_ok_iff.1 h
        obtain ⟨values, carry⟩ := ih (by simpa using full) others
        exact ⟨value :: values, by simp [carried, carry]⟩

/-- A branch has its target in the low half-word, and none of its operands is an offset token. -/
lemma branch_layout {i : Instruction} (listed : i ∈ builtin) {j : Nat}
    (branch : i.kinds[j]? = some .branch) :
    i.fields[j]? = some .imm ∧ ∀ kind ∈ i.kinds, kind ≠ .offset ∧ kind ≠ .base := by
  have all : ∀ i ∈ builtin, (∀ operand ∈ i.operands, operand.1 = .branch → operand.2 = .imm) ∧
      (.branch ∈ i.kinds → ∀ kind ∈ i.kinds, kind ≠ .offset ∧ kind ≠ .base) := by decide +kernel
  refine ⟨?_, (all i listed).2 (List.mem_of_getElem? branch)⟩
  rw [kinds, List.getElem?_map, Option.map_eq_some_iff] at branch
  obtain ⟨operand, at_j, kind⟩ := branch
  rw [fields, List.getElem?_map, at_j, Option.map_some,
    (all i listed).1 operand (List.mem_of_getElem? at_j) kind]

/-- Without offset tokens, a word is packed from the numbers that its tokens are read as. -/
theorem exists_values_of_encode {i : Instruction}
    (plain : ∀ kind ∈ i.kinds, kind ≠ .offset ∧ kind ≠ .base) {symbols : Symbols} {here : Nat}
    {written : List Text} {word : Nat} (encodes : i.encode symbols here written = .ok word) :
    ∃ values, word = i.pack values ∧ ∀ (j : Nat) (kind : OperandKind), i.kinds[j]? = some kind →
      ∃ token operand value, written[j]? = some token ∧
        Operand.read symbols here kind token (some written) j = .ok operand ∧
        operand.value? = some value ∧ values[j]? = some value := by
  obtain ⟨operands, -, read, packed⟩ := encode_eq_ok encodes
  have all : i.kinds.filter (· != .base) = i.kinds :=
    List.filter_eq_self.2 fun kind member => by simpa using (plain kind member).2
  have single := operandsBefore_of_single fun kind member => (plain kind member).1
  rw [all] at read
  obtain ⟨length, each⟩ := getElem?_of_readFrom read
  simp only [single] at length each
  obtain ⟨bits, placed, -⟩ := bind_eq_ok_iff.1 packed
  have full : operands.length = i.fields.length := by simp [length, kinds, fields]
  obtain ⟨values, carry⟩ := exists_values_of_placed full placed
  rw [word_eq_pack carry] at packed
  cases packed
  refine ⟨values, rfl, fun j kind kind_at => ?_⟩
  obtain ⟨token, operand, token_at, read_j, operand_at⟩ := each j kind kind_at
  rw [Nat.zero_add] at token_at read_j
  have both := congrArg (fun list => list[j]?) carry
  simp only [List.getElem?_map, operand_at, Option.map_some] at both
  obtain ⟨value, value_at, carried⟩ := Option.map_eq_some_iff.1 both.symm
  exact ⟨token, operand, value, token_at, read_j, carried.symm, value_at⟩

/-- The low half-word of an encoded branch is the displacement that its target token gives. -/
theorem emod_of_encode_branch {i : Instruction} (listed : i ∈ builtin) {symbols : Symbols}
    {here : Nat} {written : List Text} {word j : Nat}
    (encodes : i.encode symbols here written = .ok word) (branch : i.kinds[j]? = some .branch)
    {token : Text} (token_at : written[j]? = some token) :
    ∃ distance, Operand.displacement symbols here (Operand.substitute symbols token) =
      .ok distance ∧ (word : Int) % 2 ^ 16 = distance % 2 ^ 16 := by
  obtain ⟨low, plain⟩ := branch_layout listed branch
  obtain ⟨values, rfl, each⟩ := exists_values_of_encode plain encodes
  obtain ⟨token', operand, value, token_at', read, carried, value_at⟩ := each j .branch branch
  rw [token_at, Option.some.injEq] at token_at'
  subst token_at'
  obtain ⟨distance, displaced, rfl⟩ := Operand.displacement_of_read read
  obtain rfl : distance = value := Option.some.inj carried
  refine ⟨distance, displaced, ?_⟩
  have half := (isClear_of_mem_builtin listed).extract_pack low value_at
  simp only [Field.extract, Field.shift, Field.width, pow_zero, Nat.div_one] at half
  omega

end Instruction

lemma Operand.substitute_congr {symbols symbols' : Symbols}
    (same : symbols.definitions = symbols'.definitions) (token : Text) :
    substitute symbols token = substitute symbols' token := by
  simp only [substitute, replacement?, Symbols.definition?, same]

lemma Operand.displacement_of_label? {symbols : Symbols} {token : Text} {address : Int}
    (found : symbols.label? (Text.upper (Text.strip token)) = some address) (here : Nat) :
    displacement symbols here token = .ok ((address - here) / 4 % 0x10000) := by
  have written : (Text.strip token).isEmpty = false := by
    cases empty : Text.strip token with
    | nil => rw [empty] at found; cases found
    | cons => rfl
  have target : Operand.address symbols token = .ok address := by
    simp only [Operand.address, found]
  simp only [displacement, written, Bool.false_eq_true, if_false, target]

namespace Assembly

/-- An entry of a table that is in step with a list belongs to an item of the list. -/
lemma exists_of_lookup {α β γ : Type} [BEq β] [LawfulBEq β] {R : α → β × γ → Prop}
    {items : List α} {entries : List (β × γ)} (h : List.Forall₂ R items entries) {key : β}
    {value : γ} (found : entries.lookup key = some value) :
    ∃ item ∈ items, R item (key, value) := by
  obtain ⟨before, after, rfl, -⟩ := List.lookup_eq_some_iff.1 found
  exact exists_mem_of_forall₂ h (by simp)

lemma label?_of_global {symbols : Symbols} {name : Text} (nonempty : name ≠ [])
    (global : Line.isChild name = false) : symbols.label? name = symbols.labels.lookup name := by
  unfold Symbols.label?
  split
  · exact absurd rfl nonempty
  · cases global
  · rfl

lemma label?_of_child {symbols : Symbols} {name : Text} (owned : symbols.scope ≠ [])
    (child : Line.isChild name = true) :
    symbols.label? name = symbols.children.lookup (symbols.scope, name) := by
  unfold Symbols.label?
  split
  · cases child
  · rw [if_neg (by simpa using owned)]
  · rename_i other
    unfold Line.isChild at child
    split at child
    · exact absurd rfl (other _)
    · cases child

/-- A name that the tables hold is found in the scope of its line, and it is declared. -/
theorem Labelled.label?_eq {t : Tables} {lines : List Text} {r : Run} (h : Labelled t lines r)
    {scope name : Text} {address : Int}
    (names : r.store.labels.lookup name = some address ∨
      r.store.children.lookup (scope, name) = some address) :
    ({ r.store.toSymbols with scope := scope } : Symbols).label? name = some address ∧
      ∃ d ∈ declarations lines, d.name = name ∧
        (Line.isChild name = true → scopeAfter d.before = scope) ∧
        IsCounted t d.before address := by
  rcases names with found | found
  · obtain ⟨d, member, same, counted⟩ := exists_of_lookup h.labels found
    obtain ⟨declared, global⟩ := List.mem_filter.1 member
    obtain ⟨line, rest, -, label⟩ := mem_declarations.1 declared
    simp only at same
    subst same
    have global : Line.isChild d.name = false := by simpa using global
    refine ⟨?_, d, declared, rfl, fun child => ?_, counted⟩
    · rw [label?_of_global (labelOf_ne_nil label) global]
      exact found
    · rw [global] at child
      cases child
  · obtain ⟨d, member, same, counted⟩ := exists_of_lookup h.children found
    obtain ⟨declared, child⟩ := List.mem_filter.1 member
    simp only [Prod.mk.injEq] at same
    obtain ⟨rfl, rfl⟩ := same
    refine ⟨?_, d, declared, rfl, fun _ => rfl, counted⟩
    rw [label?_of_child (h.owned d member) child]
    exact found

/-- A half-word congruent to a number of 16 bits is that number, once its sign is extended. -/
lemma toInt_of_emod_eq {word distance : Int} (same : word % 2 ^ 16 = distance % 2 ^ 16)
    (lower : -32768 ≤ distance) (upper : distance ≤ 32767) :
    (BitVec.ofInt 16 (word % 2 ^ 16)).toInt = distance := by
  rw [same, BitVec.toInt_ofInt]
  exact (Int.emod_bmod distance (2 ^ 16)).trans (Int.bmod_eq_of_le (by omega) (by omega))

/-- Every word of a program comes from an instruction line, and if that is a branch to a declared
label, its low half is the distance to the label in words. A distance that fits leads to the place
in the output where the words after the label's declaration start. -/
theorem branch_reaches_label {source : List Text} {p : Program}
    (assembled : (assemble Tables.builtin source).result = .ok p) {k : Nat} {word : Int}
    (emitted : p.words[k]? = some word) :
    ∃ e i, (emissions Tables.builtin source)[k]? = some e ∧
      Tables.builtin.instruction? (Line.statement e.text).mnemonic = some i ∧
      p.listing[k]? = some ⟨k * 4, word, e.text, i.note⟩ ∧
      ∀ (j : Nat) (token name : Text) (address : Int), i.kinds[j]? = some .branch →
        (Line.statement e.text).operands[j]? = some token →
        name = Text.upper (Text.strip
          (Operand.substitute (assemble Tables.builtin source).run.store.toSymbols token)) →
        (p.labels.lookup name = some address ∨
          p.children.lookup (scopeAfter e.lines, name) = some address) →
        word % 2 ^ 16 = (address - 4 * k) / 4 % 2 ^ 16 ∧ 4 ∣ address - 4 * k ∧
        (-32768 ≤ (address - 4 * k) / 4 → (address - 4 * k) / 4 ≤ 32767 →
          4 * k + 4 * (BitVec.ofInt 16 (word % 2 ^ 16)).toInt = address) ∧
        ∃ d ∈ declarations source, d.name = name ∧
          (Line.isChild name = true → scopeAfter d.before = scopeAfter e.lines) ∧
          IsOutputOffset Tables.builtin source d.before address := by
  obtain ⟨counted, final, first, second, labels, children, words, listing, definitions⟩ :=
    exists_runs_of_assemble assembled
  have done := emitted_of_rewound first second
  have bound : k < (emissions Tables.builtin source).length := by
    rw [← done.words_size, ← words]
    exact (Array.getElem?_eq_some_iff.1 emitted).1
  have e_at := List.getElem?_eq_getElem bound
  generalize (emissions Tables.builtin source)[k] = e at e_at
  obtain ⟨i, n, ⟨found, encodes⟩, word_at, listed_at⟩ := done.encoded k e e_at
  rw [words, word_at, Option.some.injEq] at emitted
  subst emitted
  refine ⟨e, i, e_at, found, by rw [listing, listed_at], ?_⟩
  rintro j token name address branch token_at rfl names
  -- The first pass has declared the label, and the second pass finds it in the scope of its line.
  rw [labels, children] at names
  obtain ⟨resolved, d, declared, same, inScope, counts⟩ :=
    (labelled_of_tallyLines first).label?_eq names
  obtain ⟨distance, displaced, low⟩ :=
    i.emod_of_encode_branch (Tables.mem_of_instruction? found) encodes branch token_at
  rw [Operand.substitute_congr definitions] at resolved
  cases displaced.symm.trans (Operand.displacement_of_label? resolved (k * 4))
  obtain ⟨line, rest, split, -⟩ := mem_declarations.1 declared
  have offset : IsOutputOffset Tables.builtin source d.before address := by
    rw [split] at first second ⊢
    exact counts.isOutputOffset Tables.hasPlainMnemonics_builtin first second
  obtain ⟨r, -, rfl⟩ := counts
  have half : (n : Int) % 2 ^ 16 = (r.count * 4 - 4 * k) / 4 % 2 ^ 16 := by
    push_cast at low
    omega
  refine ⟨half, by omega, fun lower upper => ?_, d, declared, same, inScope, offset⟩
  rw [toInt_of_emod_eq half lower upper]
  omega

/-- A branch through a macro to a child label further on, which a definition names. -/
def forwardBranch : List Text :=
  ["[define goal .done]".toList, "main: beqz $t0, goal".toList, "ret".toList,
    ".done: b main".toList]

/-- The branch at the start leads to the third word. -/
theorem branch_reaches_label_forwardBranch : ∃ p word,
    (assemble Tables.builtin forwardBranch).result = .ok p ∧ p.words[0]? = some word ∧
      4 * 0 + 4 * (BitVec.ofInt 16 (word % 2 ^ 16)).toInt = 8 ∧
      ∃ d ∈ declarations forwardBranch, d.name = ".DONE".toList ∧
        IsOutputOffset Tables.builtin forwardBranch d.before 8 := by
  have evaluated : (program? Tables.builtin forwardBranch).map
      (fun p => (p.words[0]?, p.children)) =
        some (some 0x11000002, [(("MAIN".toList, ".DONE".toList), 8)]) := by decide +kernel
  obtain ⟨p, made, tables⟩ := Option.map_eq_some_iff.1 evaluated
  obtain ⟨word_at, children⟩ := Prod.mk.inj tables
  have assembled := assemble_result_of_program? made
  obtain ⟨e, i, e_at, found, -, reaches⟩ := branch_reaches_label assembled word_at
  have starts : (emissions Tables.builtin forwardBranch)[0]? =
      some ⟨forwardBranch.take 2, "BEQ $T0, $R0, GOAL".toList⟩ := by decide +kernel
  rw [starts, Option.some.injEq] at e_at
  subst e_at
  have third : (Tables.builtin.instruction?
      (Line.statement "BEQ $T0, $R0, GOAL".toList).mnemonic).map (fun i => i.kinds[2]?) =
        some (some .branch) := by decide +kernel
  rw [found] at third
  obtain ⟨counted, -, first, -, -, -, -, -, definitions⟩ := exists_runs_of_assemble assembled
  have goal : (tallyLines Tables.builtin forwardBranch Run.empty).toOption.map
      (fun r => r.store.definitions) = some [("GOAL".toList, ".DONE".toList)] := by decide +kernel
  rw [first] at goal
  have defined : counted.store.definitions = [("GOAL".toList, ".DONE".toList)] :=
    Option.some.inj goal
  have name : ".DONE".toList = Text.upper (Text.strip (Operand.substitute
      (assemble Tables.builtin forwardBranch).run.store.toSymbols "GOAL".toList)) := by
    rw [Operand.substitute, Operand.replacement?, Symbols.definition?, definitions, defined]
    decide +kernel
  have inScope : p.children.lookup (scopeAfter (forwardBranch.take 2), ".DONE".toList) =
      some 8 := by
    rw [children]
    decide +kernel
  obtain ⟨-, -, near, d, declared, same, -, offset⟩ :=
    reaches 2 "GOAL".toList ".DONE".toList 8 (Option.some.inj third) (by decide) name (.inr inScope)
  have lands := near (by decide) (by decide)
  exact ⟨p, _, assembled, word_at, lands, d, declared, same, offset⟩

end Assembly
end Mips64
