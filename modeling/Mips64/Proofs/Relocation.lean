import Mips64.Proofs.Branch
import Mips64.Proofs.Directives
import Mips64.Proofs.MacroUse
import Mips64.Proofs.WordRange

/-! Relocation. Instructions that do nothing can be put before a source: all labels move by their
size. Main statement: where branches lead to labels and no other operand names one, the words of the
source stay as they are. -/
namespace Mips64

lemma lookup_map_snd {α β : Type} [BEq α] (f : β → β) (entries : List (α × β)) (key : α) :
    (entries.map (fun e => (e.1, f e.2))).lookup key = (entries.lookup key).map f := by
  induction entries with
  | nil => rfl
  | cons entry entries ih =>
    obtain ⟨name, value⟩ := entry
    simp only [List.map_cons, List.lookup_cons, ih]
    cases key == name <;> rfl

/-- The symbols with all labels further on by a distance. -/
def Symbols.moved (s : Symbols) (distance : Int) : Symbols :=
  { s with
    labels := s.labels.map (fun e => (e.1, e.2 + distance))
    children := s.children.map (fun e => (e.1, e.2 + distance)) }

lemma Symbols.label?_moved (s : Symbols) (distance : Int) (name : Text) :
    (s.moved distance).label? name = (s.label? name).map (· + distance) := by
  unfold label?
  split
  · rfl
  · rename_i child
    simp only [moved, lookup_map_snd (· + distance)]
    split
    · rfl
    · rfl
  · exact lookup_map_snd (· + distance) _ _

namespace Operand

def namesLabel (symbols : Symbols) (token : Text) : Bool :=
  (symbols.label? (Text.upper (Text.strip token))).isSome

/-- Whether an operand, after replacement, stays the same where all labels move together with the
instruction: a branch target names a label, and no other number does. -/
def isRelocatable (symbols : Symbols) (kind : OperandKind) (text : Text) : Bool :=
  match kind with
  | .number16 | .number24 | .number5 => !namesLabel symbols text
  | .branch => namesLabel symbols text
  | .offset =>
    match offsetParts text with
    | .ok (imm, _) => !namesLabel symbols (substitute symbols imm)
    | .error _ => true
  | _ => true

section
variable {symbols : Symbols} {distance : Nat}

lemma value_moved {token : Text} (unnamed : namesLabel symbols token = false) :
    value (symbols.moved distance) token = value symbols token := by
  have missing : symbols.label? (Text.upper (Text.strip token)) = none := by
    simpa [namesLabel] using unnamed
  have same : address (symbols.moved distance) token = address symbols token := by
    simp only [address, Symbols.label?_moved, missing]
    rfl
  simp only [value, same]

/-- The distance to a label is the same where both ends move. -/
lemma displacement_moved {token : Text} (named : namesLabel symbols token = true) (here : Nat) :
    displacement (symbols.moved distance) (here + distance) token =
      displacement symbols here token := by
  obtain ⟨target, found⟩ := Option.isSome_iff_exists.1 named
  have further : (symbols.moved distance).label? (Text.upper (Text.strip token)) =
      some (target + distance) := by rw [Symbols.label?_moved, found]; rfl
  rw [displacement_of_label? found, displacement_of_label? further]
  have apart : target + distance - ((here + distance : Nat) : Int) = target - here := by omega
  rw [apart]

lemma readPlain_moved {kind : OperandKind} {text : Text}
    (fits : isRelocatable symbols kind text = true) (here : Nat) (operands : Option (List Text))
    (position : Nat) :
    readPlain (symbols.moved distance) (here + distance) kind text operands position =
      readPlain symbols here kind text operands position := by
  cases kind with
  | number16 | number24 | number5 =>
    simp only [isRelocatable, Bool.not_eq_true'] at fits
    simp only [readPlain, value_moved fits]
  | branch => simp only [readPlain, displacement_moved fits]
  | offset =>
    simp only [readPlain]
    cases parts : offsetParts text with
    | error failure => rfl
    | ok pair =>
      obtain ⟨imm, register⟩ := pair
      simp only [isRelocatable, parts, Bool.not_eq_true'] at fits
      have same : substitute (symbols.moved distance) imm = substitute symbols imm :=
        substitute_congr rfl imm
      change (do return lowBits 16 (← value (symbols.moved distance)
        (substitute (symbols.moved distance) imm))) = _
      rw [same, value_moved fits]
      rfl
  | general | control | base | word | string | rest => rfl

theorem read_moved {kind : OperandKind} {token : Text}
    (fits : isRelocatable symbols kind (substitute symbols token) = true) (here : Nat)
    (operands : Option (List Text)) (position : Nat) :
    read (symbols.moved distance) (here + distance) kind token operands position =
      read symbols here kind token operands position := by
  have same : replacement? (symbols.moved distance) token = replacement? symbols token := rfl
  rw [read, read, same]
  rw [substitute] at fits
  cases defined : replacement? symbols token with
  | none =>
    rw [defined] at fits
    exact readPlain_moved fits here operands position
  | some written =>
    rw [defined] at fits
    cases operands with
    | none => exact readPlain_moved fits here none position
    | some list => exact ite_congr rfl (fun _ => readPlain_moved fits here _ position) fun _ => rfl

end

end Operand

namespace Instruction

def writtenKinds (i : Instruction) : List OperandKind := i.kinds.filter (· != .base)

/-- Every operand of the instruction stays the same where all labels move with it. -/
def IsRelocatable (symbols : Symbols) (i : Instruction) (written : List Text) : Prop :=
  ∀ operand ∈ i.writtenKinds.zip written,
    Operand.isRelocatable symbols operand.1 (Operand.substitute symbols operand.2) = true

instance (symbols : Symbols) (i : Instruction) (written : List Text) :
    Decidable (i.IsRelocatable symbols written) := List.decidableBAll _ _

lemma readFrom_moved {symbols : Symbols} {distance here : Nat} {written : List Text}
    {kinds : List OperandKind} {position : Nat}
    (fits : ∀ operand ∈ kinds.zip (written.drop position),
      Operand.isRelocatable symbols operand.1 (Operand.substitute symbols operand.2) = true) :
    readFrom (symbols.moved distance) (here + distance) written kinds position =
      readFrom symbols here written kinds position := by
  induction kinds generalizing position with
  | nil => rfl
  | cons kind kinds ih =>
    rw [readFrom, readFrom]
    cases found : written[position]? with
    | none => rfl
    | some token =>
      have split : written.drop position = token :: written.drop (position + 1) :=
        List.drop_eq_getElem?_toList_append.trans (by rw [found]; rfl)
      rw [split, List.zip_cons_cons] at fits
      have first : Operand.read (symbols.moved distance) (here + distance) kind token
          (some written) position = Operand.read symbols here kind token (some written) position :=
        Operand.read_moved (fits _ List.mem_cons_self) here _ _
      have others := ih fun operand member => fits operand (List.mem_cons_of_mem _ member)
      have same : Operand.substitute (symbols.moved distance) token =
          Operand.substitute symbols token := Operand.substitute_congr rfl token
      have register (text : Text) :
          Operand.read (symbols.moved distance) (here + distance) .base text none 0 =
            Operand.read symbols here .base text none 0 := Operand.read_moved rfl here none 0
      simp only [first, others, same, register]

lemma encode_moved {symbols : Symbols} {i : Instruction} {written : List Text}
    (fits : i.IsRelocatable symbols written) (distance here : Nat) :
    i.encode (symbols.moved distance) (here + distance) written =
      i.encode symbols here written := by
  have same : i.readOperands (symbols.moved distance) (here + distance) written =
      i.readOperands symbols here written :=
    ite_congr rfl (fun _ => readFrom_moved (by rw [List.drop_zero]; exact fits)) fun _ => rfl
  simp only [encode, same]

end Instruction

namespace Directive

/-- A request that takes no label for its base does the same where all labels are moved. -/
lemma Request.apply_moved {q : Request} {store store' next : Store} {distance : Nat}
    (moved : store'.toSymbols = store.toSymbols.moved distance) (applied : q.apply store = .ok next)
    (unnamed : ∀ token, q = .base token →
      Operand.namesLabel store.toSymbols (Operand.substitute store.toSymbols token) = false) :
    ∃ next', q.apply store' = .ok next' ∧ next'.toSymbols = next.toSymbols.moved distance := by
  cases q with
  | base token =>
    obtain ⟨value, read, set⟩ := bind_eq_ok_iff.1 applied
    cases set
    have same : Operand.substitute store'.toSymbols token =
        Operand.substitute store.toSymbols token :=
      Operand.substitute_congr (by rw [moved]; rfl) token
    have read' : Operand.value store'.toSymbols (Operand.substitute store'.toSymbols token) =
        .ok value := by
      rw [same, moved, Operand.value_moved (unnamed token rfl)]
      exact read
    refine ⟨_, bind_eq_ok_iff.2 ⟨value, read', rfl⟩, ?_⟩
    simp only [Store.note, Store.withBase, moved]
    rfl
  | define name tokens =>
    have definitions : store'.definitions = store.definitions := by rw [moved]; rfl
    simp only [apply, applyDefine, Store.define, definitions] at applied ⊢
    split at applied
    · cases applied
    · rename_i fresh
      cases applied
      rw [if_neg fresh]
      refine ⟨_, rfl, ?_⟩
      simp only [Store.note, moved]
      rfl

end Directive

namespace Assembly

/-- Two runs, the second of which is some instructions ahead: its labels and its count are. -/
structure Ahead (k : Nat) (r r' : Run) : Prop where
  symbols : r'.store.toSymbols = r.store.toSymbols.moved (4 * k : Nat)
  count : r'.count = r.count + k

section
variable {t : Tables} {k : Nat} {r r' next : Run}

lemma declare_child {name : Text} (child : Line.isChild name = true) (owned : r.store.scope ≠ [])
    (fresh : r.store.children.lookup (r.store.scope, name) = none) :
    declare name r = .ok (r.withChild name) := by
  have inScope : r.store.scope.isEmpty = false := by simpa using owned
  simp only [declare, child, if_true, Store.declareChild, inScope, fresh, Bool.false_eq_true,
    if_false, Option.isSome_none]
  rfl

lemma declare_global {name : Text} (global : Line.isChild name = false)
    (fresh : r.store.labels.lookup name = none) : declare name r = .ok (r.withLabel name) := by
  simp only [declare, global, Store.declareLabel, fresh, Bool.false_eq_true, if_false,
    Option.isSome_none]
  rfl

lemma Ahead.declareLabel (ahead : Ahead k r r') {label : Option Text}
    (declares : declareLabel label r = .ok next) :
    ∃ next', declareLabel label r' = .ok next' ∧ Ahead k next next' := by
  obtain ⟨symbols, count⟩ := ahead
  have further : (r'.count * 4 : Int) = r.count * 4 + (4 * k : Nat) := by omega
  have scope : r'.store.scope = r.store.scope := by rw [symbols]; rfl
  have labels : r'.store.labels = _ := congrArg Symbols.labels symbols
  have children : r'.store.children = _ := congrArg Symbols.children symbols
  cases label with
  | none => cases declares; exact ⟨r', rfl, symbols, count⟩
  | some name =>
    obtain ⟨child, owned, fresh, rfl⟩ | ⟨global, fresh, rfl⟩ := declare_cases declares
    · refine ⟨r'.withChild name, declare_child child (scope ▸ owned) ?_, ?_, count⟩
      · rw [children, scope]
        exact (lookup_map_snd (· + _) _ _).trans (by rw [fresh]; rfl)
      · simp only [Run.withChild, Store.note, symbols, further]
        simp [Symbols.moved]
    · refine ⟨r'.withLabel name, declare_global global ?_, ?_, count⟩
      · rw [labels]
        exact (lookup_map_snd (· + _) _ _).trans (by rw [fresh]; rfl)
      · simp only [Run.withLabel, Store.note, symbols, further]
        simp [Symbols.moved]

/-- A line of the first pass keeps the runs apart, unless it sets the base by a label. -/
lemma Ahead.tally (ahead : Ahead k r r') {line : Text}
    (tallied : tally t (Line.normalize line) r = .ok next)
    (unnamed : ∀ token declared, requestOf line = some (.base token) →
      Assembly.declareLabel (labelOf line) r = .ok declared →
      Operand.namesLabel declared.store.toSymbols
        (Operand.substitute declared.store.toSymbols token) = false) :
    ∃ next', Assembly.tally t (Line.normalize line) r' = .ok next' ∧ Ahead k next next' := by
  rw [tally_eq] at tallied
  obtain ⟨declared, declares, content⟩ := bind_eq_ok_iff.1 tallied
  obtain ⟨declared', declares', ahead'⟩ := ahead.declareLabel declares
  suffices h : ∃ next', tallyContent t (shape (Line.normalize line)).content declared' =
      .ok next' ∧ Ahead k next next' by
    obtain ⟨next', content', after⟩ := h
    exact ⟨next', by rw [tally_eq]; exact bind_eq_ok_iff.2 ⟨declared', declares', content'⟩, after⟩
  obtain ⟨symbols, count⟩ := ahead'
  cases holds : (shape (Line.normalize line)).content with
  | nothing =>
    rw [holds] at content
    cases content
    exact ⟨declared', rfl, symbols, count⟩
  | statement text =>
    rw [holds] at content
    have known := role_ne_unknown_of_tallyStatement content
    obtain ⟨n, weight, rfl⟩ := tallyStatement_cases content
    refine ⟨{ declared' with count := declared'.count + n }, ?_, symbols, ?_⟩
    · rw [tallyContent, tallyStatement_eq known, weight]
    · simp only [count]
      omega
  | directive d =>
    rw [holds] at content
    simp only [tallyContent, Directive.run] at content ⊢
    cases asks : Directive.request d with
    | error failure => rw [asks] at content; cases content
    | ok q =>
      rw [asks] at content
      change declared.step (q.apply declared.store) = .ok next at content
      cases applied : q.apply declared.store with
      | error failure => rw [applied] at content; cases content
      | ok store =>
        rw [applied] at content
        cases content
        obtain ⟨store', applied', moved⟩ := q.apply_moved symbols applied fun token base =>
          unnamed token declared (by simp [requestOf, holds, asks, base, Except.toOption]) declares
        refine ⟨{ declared' with store := store' }, ?_, moved, count⟩
        change declared'.step (q.apply declared'.store) = _
        rw [applied']
        rfl

/-- No line sets the base by a label: the argument, after replacement, names none of the labels that
are declared where the line is accounted for. -/
def BasesUnnamed (t : Tables) (source : List Text) : Prop :=
  ∀ before line after token r declared, source = before ++ line :: after →
    requestOf line = some (.base token) → firstPass t 1 before Run.empty = .ok r →
    Assembly.declareLabel (labelOf line) r = .ok declared →
    Operand.namesLabel declared.store.toSymbols
      (Operand.substitute declared.store.toSymbols token) = false

lemma BasesUnnamed.of_append {lines more : List Text} (h : BasesUnnamed t (lines ++ more)) :
    BasesUnnamed t lines := by
  rintro before line after token r declared rfl
  exact h before line (after ++ more) token r declared (by simp)

/-- The first pass ends as far ahead as it starts. -/
theorem Ahead.tallyLines {lines : List Text} (unnamed : BasesUnnamed t lines)
    (tallied : tallyLines t lines Run.empty = .ok next) (ahead : Ahead k Run.empty r') :
    ∃ next', Assembly.tallyLines t lines r' = .ok next' ∧ Ahead k next next' := by
  induction lines using List.reverseRecOn generalizing next with
  | nil => cases tallied; exact ⟨r', rfl, ahead⟩
  | append_singleton lines line ih =>
    obtain ⟨r, reached, last⟩ := tallyLines_concat_eq_ok_iff.1 tallied
    obtain ⟨s, reached', between⟩ := ih unnamed.of_append reached
    obtain ⟨next', last', after⟩ := between.tally last fun token declared base =>
      unnamed lines line [] token r declared rfl base (firstPass_eq_ok_iff.2 reached)
    exact ⟨next', tallyLines_concat_eq_ok_iff.2 ⟨s, reached', last'⟩, after⟩

/-- Two runs of the second pass, the second of which has put out some words more before all
others. -/
structure Follows (padding : Array Int) (r r' : Run) : Prop extends Ahead padding.size r r' where
  words : r'.store.words = padding ++ r.store.words

variable {padding : Array Int}

lemma Follows.enterScope (h : Follows padding r r') (label : Option Text) :
    Follows padding (enterScope label r) (enterScope label r') := by
  cases label with
  | none => exact h
  | some name =>
    simp only [Assembly.enterScope]
    split
    · exact h
    · refine ⟨⟨?_, h.count⟩, h.words⟩
      simp only [Store.withScope, h.symbols]
      rfl

/-- An instruction line whose operands do not depend on where it lies gives the same word. -/
lemma Follows.encodeText (h : Follows padding r r') {text : Text}
    (fits : ∀ i, t.instruction? (Line.statement text).mnemonic = some i →
      i.IsRelocatable r.store.toSymbols (Line.statement text).operands)
    (step : encodeText t r text = .ok next) :
    ∃ next', Assembly.encodeText t r' text = .ok next' ∧ Follows padding next next' := by
  obtain ⟨i, word, found, encodes, rfl⟩ := encodeText_cases step
  have further : r'.store.size = r.store.size + 4 * padding.size := by
    simp only [Store.size, h.words, Array.size_append]
    omega
  have encodes' : i.encode r'.store.toSymbols r'.store.size (Line.statement text).operands =
      .ok word := by
    rw [h.symbols, further, Instruction.encode_moved (fits i found)]
    exact encodes
  refine ⟨_, encodeText_of_encode found encodes', ⟨h.symbols, h.count⟩, ?_⟩
  simp only [h.words, Array.push_append]

lemma Follows.encodeTexts {symbols : Symbols} {texts : List Text}
    (fits : ∀ text ∈ texts, ∀ i, t.instruction? (Line.statement text).mnemonic = some i →
      i.IsRelocatable symbols (Line.statement text).operands)
    (h : Follows padding r r') (same : r.store.toSymbols = symbols)
    (steps : texts.foldlM (Assembly.encodeText t) r = .ok next) :
    ∃ next', texts.foldlM (Assembly.encodeText t) r' = .ok next' ∧ Follows padding next next' := by
  induction texts generalizing r r' with
  | nil => cases steps; exact ⟨r', rfl, h⟩
  | cons text texts ih =>
    rw [List.foldlM_cons] at steps
    obtain ⟨middle, first, others⟩ := bind_eq_ok_iff.1 steps
    obtain ⟨middle', first', between⟩ :=
      h.encodeText (same ▸ fits text List.mem_cons_self) first
    have kept : middle.store.toSymbols = symbols := by
      obtain ⟨_, _, -, -, rfl⟩ := encodeText_cases first
      exact same
    obtain ⟨next', others', after⟩ :=
      ih (fun text' member => fits text' (List.mem_cons_of_mem _ member)) between kept others
    refine ⟨next', ?_, after⟩
    rw [List.foldlM_cons]
    exact bind_eq_ok_iff.2 ⟨middle', first', others'⟩

/-- Every operand that the second pass reads stays the same where all labels move with it. -/
def OperandsRelocatable (t : Tables) (symbols : Symbols) (source : List Text) : Prop :=
  ∀ e ∈ emissions t source, ∀ i, t.instruction? (Line.statement e.text).mnemonic = some i →
    i.IsRelocatable { symbols with scope := scopeAfter e.lines } (Line.statement e.text).operands

/-- The second pass ends as far ahead as it starts. -/
theorem Follows.encodeLines {lines : List Text} (h : Follows padding r r')
    (fits : OperandsRelocatable t r.store.toSymbols lines) (words : r.store.words = #[])
    (listing : r.listing = #[]) (scope : r.store.scope = [])
    (encodes : encodeLines t lines r = .ok next) :
    ∃ next', Assembly.encodeLines t lines r' = .ok next' ∧ Follows padding next next' := by
  induction lines using List.reverseRecOn generalizing next with
  | nil => cases encodes; exact ⟨r', rfl, h⟩
  | append_singleton lines line ih =>
    obtain ⟨middle, reached, last⟩ := encodeLines_concat_eq_ok_iff.1 encodes
    rw [OperandsRelocatable, emissions_concat] at fits
    obtain ⟨middle', reached', between⟩ :=
      ih (fun e member => fits e (List.mem_append_left _ member)) reached
    have entered := (emitted_of_encodeLines words listing scope reached).enterScope line
    have between' := between.enterScope (labelOf line)
    suffices h : ∃ next', encodeLine t (Line.normalize line) middle' = .ok next' ∧
        Follows padding next next' by
      obtain ⟨next', last', after⟩ := h
      exact ⟨next', encodeLines_concat_eq_ok_iff.2 ⟨middle', reached', last'⟩, after⟩
    cases holds : (shape (Line.normalize line)).content with
    | statement text =>
      have stands := exists_lineTexts last holds
      rw [encodeLine_eq, holds, encodeContent, encodeNested_eq_foldlM stands] at last ⊢
      refine between'.encodeTexts (fun text member i found => ?_) entered.symbols_eq last
      exact fits ⟨lines ++ [line], text⟩
        (List.mem_append_right _ (List.mem_map.2 ⟨text, member, rfl⟩)) i found
    | nothing =>
      rw [encodeLine_eq, holds] at last ⊢
      cases last
      exact ⟨_, rfl, between'⟩
    | directive d =>
      rw [encodeLine_eq, holds] at last ⊢
      cases last
      exact ⟨_, rfl, between'⟩

end

/-- The instruction that does nothing is a statement and has the word zero. -/
lemma encodeText_nop (r : Run) : shape "NOP".toList = ⟨none, .statement "NOP".toList⟩ ∧
    Tables.builtin.instructionLines Macro.maxDepth "NOP".toList = some ["NOP".toList] ∧
    ∃ s, encodeText Tables.builtin r "NOP".toList = .ok s ∧
      s.store.toSymbols = r.store.toSymbols ∧ s.count = r.count ∧
      s.store.words = r.store.words.push 0 := by
  have nop : (Tables.builtin.instruction? (Line.statement "NOP".toList).mnemonic).map
      (fun i => (i.base, i.operands)) = some (0, []) := by decide +kernel
  obtain ⟨i, found, parts⟩ := Option.map_eq_some_iff.1 nop
  obtain ⟨base, operands⟩ := Prod.mk.inj parts
  refine ⟨rfl, Tables.instructionLines_instruction (Tables.role_eq_instruction_iff.2 found), ?_⟩
  have encodes : i.encode r.store.toSymbols r.store.size (Line.statement "NOP".toList).operands =
      .ok 0 := by
    have bare : (Line.statement "NOP".toList).operands = [] := by decide
    rw [bare]
    simp [Instruction.encode, Instruction.readOperands, Instruction.tokenCount, Instruction.kinds,
      Instruction.usesOffset, Instruction.readFrom, Instruction.word, Instruction.fields,
      Instruction.placed, operands, base, bind, Except.bind, pure, Except.pure, Except.mapError]
  exact ⟨_, encodeText_of_encode found encodes, rfl, rfl, rfl⟩

/-- Lines that do nothing are counted one each. -/
lemma tallyLines_idle {idle : List Text} (nops : ∀ line ∈ idle, Line.normalize line = "NOP".toList)
    (r : Run) : tallyLines Tables.builtin idle r =
      .ok { r with count := r.count + idle.length } := by
  induction idle generalizing r with
  | nil => rfl
  | cons line idle ih =>
    obtain ⟨bare, stands, -⟩ := encodeText_nop r
    have tallied : tally Tables.builtin (Line.normalize line) r =
        .ok { r with count := r.count + 1 } := by
      rw [nops line List.mem_cons_self, tally_eq, bare]
      exact tallyStatement_of_stands Tables.hasPlainMnemonics_builtin (Nat.le_succ _) stands r
    rw [tallyLines_cons, tallied, List.length_cons, Nat.add_comm idle.length, ← Nat.add_assoc]
    exact ih (fun line' member => nops line' (List.mem_cons_of_mem _ member)) _

/-- Lines that do nothing put out a zero each. -/
lemma encodeLines_idle {idle : List Text} (nops : ∀ line ∈ idle, Line.normalize line = "NOP".toList)
    (r : Run) : ∃ s, encodeLines Tables.builtin idle r = .ok s ∧
      s.store.toSymbols = r.store.toSymbols ∧ s.count = r.count ∧
      s.store.words = r.store.words ++ Array.replicate idle.length 0 := by
  induction idle generalizing r with
  | nil => exact ⟨r, rfl, rfl, rfl, by simp⟩
  | cons line idle ih =>
    obtain ⟨bare, stands, next, step, symbols, count, words⟩ := encodeText_nop r
    have encodes : encodeLine Tables.builtin (Line.normalize line) r = .ok next := by
      rw [nops line List.mem_cons_self, encodeLine_eq, bare, encodeContent,
        encodeNested_eq_foldlM stands, List.foldlM_cons]
      exact bind_eq_ok_iff.2 ⟨next, step, rfl⟩
    obtain ⟨s, others, symbols', count', words'⟩ :=
      ih (fun line' member => nops line' (List.mem_cons_of_mem _ member)) next
    refine ⟨s, ?_, symbols'.trans symbols, count'.trans count, ?_⟩
    · rw [encodeLines_cons]
      exact bind_eq_ok_iff.2 ⟨next, encodes, others⟩
    · rw [words', words]
      apply Array.toList_inj.1
      simp [List.replicate_succ]

/-- A source assembles behind lines that do nothing as it does alone, with every label further on by
their size, if its branches lead to labels and no other operand and no base names one. -/
theorem assemble_relocated {source : List Text} {p : Program}
    (assembled : (assemble Tables.builtin source).result = .ok p)
    (bases : BasesUnnamed Tables.builtin source)
    (operands : ∀ counted, firstPass Tables.builtin 1 source Run.empty = .ok counted →
      OperandsRelocatable Tables.builtin counted.store.toSymbols source)
    (idle : List Text) (nops : ∀ line ∈ idle, Line.normalize line = "NOP".toList) :
    ∃ q, (assemble Tables.builtin (idle ++ source)).result = .ok q ∧
      q.words = Array.replicate idle.length 0 ++ p.words ∧ q.base = p.base ∧
      q.labels = p.labels.map (fun e => (e.1, (e.2 + 4 * idle.length : Int))) ∧
      q.children = p.children.map (fun e => (e.1, (e.2 + 4 * idle.length : Int))) := by
  obtain ⟨final, both, rfl⟩ := assemble_result_eq_ok_iff.1 assembled
  obtain ⟨counted, emitted, first, second, agree, rfl⟩ := passes_eq_ok_iff.1 both
  have start : Ahead idle.length Run.empty { Run.empty with count := 0 + idle.length } :=
    ⟨rfl, rfl⟩
  obtain ⟨counted', first', ahead⟩ := start.tallyLines bases first
  obtain ⟨s, idles, symbols, count, words⟩ := encodeLines_idle nops counted'.rewound
  obtain ⟨unwritten, unlisted⟩ := tallyLines_frame first
  have follows : Follows (Array.replicate idle.length 0) counted.rewound s := by
    refine ⟨⟨?_, ?_⟩, ?_⟩
    · rw [symbols, Array.size_replicate]
      simp only [Run.rewound, Run.note, Store.note, Store.withScope, ahead.symbols]
      rfl
    · rw [count, Array.size_replicate]
      exact ahead.count
    · have unwritten' : counted'.rewound.store.words = #[] := (tallyLines_frame first').1
      have wordless : counted.rewound.store.words = #[] := unwritten
      rw [words, unwritten', wordless, Array.empty_append, Array.append_empty]
  obtain ⟨emitted', second', after⟩ := follows.encodeLines
    (operands counted (firstPass_eq_ok_iff.2 first)) unwritten unlisted rfl second
  have tallied : tallyLines Tables.builtin (idle ++ source) Run.empty = .ok counted' := by
    rw [tallyLines_append]
    exact bind_eq_ok_iff.2 ⟨_, tallyLines_idle nops _, first'⟩
  have encoded : encodeLines Tables.builtin (idle ++ source) counted'.rewound = .ok emitted' := by
    rw [encodeLines_append]
    exact bind_eq_ok_iff.2 ⟨s, idles, second'⟩
  have agree' : emitted'.store.size = emitted'.count * 4 := by
    rw [Store.size] at agree
    rw [Store.size, after.words, after.count, Array.size_append, Nat.add_mul, Nat.add_mul, agree]
    exact Nat.add_comm _ _
  refine ⟨_, assemble_result_eq_ok_iff.2 ⟨_, passes_eq_ok_iff.2
    ⟨counted', emitted', tallied, encoded, agree', rfl⟩, rfl⟩, after.words, ?_⟩
  have moved := after.symbols
  rw [Array.size_replicate] at moved
  have base : emitted'.store.base = emitted.store.base := by rw [moved]; rfl
  refine ⟨base, ?_, ?_⟩
  · refine (congrArg Symbols.labels moved).trans ?_
    simp [Symbols.moved, Run.program, Run.note]
  · refine (congrArg Symbols.children moved).trans ?_
    simp [Symbols.moved, Run.program, Run.note]

/-- A loop with a base, whose way out leads to a child label through a definition and a macro. -/
def loopWithBase : List Text :=
  ["[base 0x80]".toList, "[define goal .done]".toList, "main: beqz $t0, goal".toList,
    "lw $t1, 4($sp)".toList, ".done: b main".toList]

/-- Behind two lines that do nothing the loop has the same words, and its labels lie at 8 and 16. -/
theorem assemble_relocated_loopWithBase : ∃ p q : Program,
    (assemble Tables.builtin loopWithBase).result = .ok p ∧
    (assemble Tables.builtin (["nop".toList, "NOP ; wait".toList] ++ loopWithBase)).result = .ok q ∧
    q.words = #[0, 0] ++ p.words ∧ q.base = 0x80 ∧ q.labels = [("MAIN".toList, 8)] ∧
    q.children = [(("MAIN".toList, ".DONE".toList), 16)] := by
  have evaluated : (program? Tables.builtin loopWithBase).map (fun p => decide (p.base = 0x80 ∧
      p.labels = [("MAIN".toList, 0)] ∧ p.children = [(("MAIN".toList, ".DONE".toList), 8)])) =
        some true := by decide +kernel
  obtain ⟨p, made, parts⟩ := Option.map_eq_some_iff.1 evaluated
  obtain ⟨base, labels, children⟩ := of_decide_eq_true parts
  have assembled := assemble_result_of_program? made
  have bases : BasesUnnamed Tables.builtin loopWithBase := by
    intro before line after token r declared split asks tallied declares
    cases before with
    | nil =>
      cases split
      have written : requestOf "[base 0x80]".toList = some (.base "0X80".toList) := by
        decide +kernel
      cases written.symm.trans asks
      cases tallied
      cases declares
      decide +kernel
    | cons _ before =>
      have others : ∀ line ∈ loopWithBase.tail, ∀ token, requestOf line ≠ some (.base token) := by
        have defines : loopWithBase.tail.all (fun line => (requestOf line).all (fun q =>
          q.entry?.isSome)) = true := by decide +kernel
        intro line member token base
        have clear := List.all_eq_true.1 defines line member
        rw [base] at clear
        cases clear
      have rest : loopWithBase.tail = before ++ line :: after := by rw [split]; rfl
      exact absurd asks (others line (by simp [rest]) token)
  have fits : (tallyLines Tables.builtin loopWithBase Run.empty).toOption.map (fun counted =>
      decide (∀ e ∈ emissions Tables.builtin loopWithBase,
        ∀ i ∈ Tables.builtin.instruction? (Line.statement e.text).mnemonic,
          i.IsRelocatable { counted.store.toSymbols with scope := scopeAfter e.lines }
            (Line.statement e.text).operands)) = some true := by decide +kernel
  obtain ⟨q, assembled', words', base', labels', children'⟩ :=
    assemble_relocated assembled bases (fun counted tallied => by
      rw [firstPass_eq_ok_iff.1 tallied] at fits
      have all := of_decide_eq_true (Option.some.inj fits)
      exact all) ["nop".toList, "NOP ; wait".toList] (by decide +kernel)
  refine ⟨p, q, assembled, assembled', words', base'.trans base, ?_, ?_⟩
  · rw [labels', labels]
    rfl
  · rw [children', children]
    rfl

end Assembly
end Mips64
