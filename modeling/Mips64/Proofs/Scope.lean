import Mathlib.Logic.Relation
import Mips64.Proofs.Branch
import Mips64.Proofs.Directives

/-! The scope of child labels. The first pass makes a global label the scope where it declares it,
and the second pass enters that scope again where it comes to the line. Main statement: both passes
take a line in the scope of the last global label up to it, so an operand that names a child label
is read as the child of that label, wherever the source declares it, and of no other. -/
namespace Mips64

/-- An entry of a table that holds each name once is the one that its name leads to. -/
lemma lookup_eq_some_of_mem {α β : Type} [BEq α] [LawfulBEq α] {entries : List (α × β)} {key : α}
    {value : β} (nodup : (entries.map Prod.fst).Nodup) (member : (key, value) ∈ entries) :
    entries.lookup key = some value := by
  obtain ⟨first, rest, rfl⟩ := List.append_of_mem member
  refine List.lookup_eq_some_iff.2 ⟨first, rest, rfl, fun entry before => ?_⟩
  rw [List.map_append, List.map_cons] at nodup
  have apart := List.disjoint_of_nodup_append nodup (List.mem_map_of_mem before)
  simp only [bne_iff_ne]
  rintro rfl
  exact apart List.mem_cons_self

namespace Operand

/-- The text that the number of an operand is taken from: the one that stands for its token or, in
an offset, the one that stands for the immediate before the register. -/
def numeral? (symbols : Symbols) (kind : OperandKind) (token : Text) : Option Text :=
  match kind with
  | .number16 | .number24 | .number5 | .branch => some (substitute symbols token)
  | .offset => (offsetParts (substitute symbols token)).toOption.map fun parts =>
      substitute symbols parts.1
  | .general | .control | .base | .string | .word | .rest => none

/-- An address as an operand of a kind: its low bits, or the distance in words to it. -/
def ofAddress (here : Nat) (address : Int) : OperandKind → Operand
  | .number24 => .immediate (address % 2 ^ 24) 24
  | .number5 => .immediate (address % 2 ^ 5) 5
  | .branch => .immediate ((address - here) / 4 % 2 ^ 16) 16
  | _ => .immediate (address % 2 ^ 16) 16

/-- Nothing but a label has a name that starts with a dot. -/
lemma literal_of_isChild (symbols : Symbols) {name : Text} (child : Line.isChild name = true) :
    literal symbols name = .error (.cause (.invalidNumber (.decimal name))) := by
  unfold Line.isChild at child
  split at child
  · rfl
  · cases child

lemma isChild_upper_strip {name : Text} (child : Line.isChild name = true) :
    Line.isChild (Text.upper (Text.strip name)) = true := by
  unfold Line.isChild at child
  split at child
  · rename_i rest
    obtain ⟨kept, stripped⟩ := List.head?_eq_some_iff.1
      (Text.head?_strip_of_visible (c := '.') (by decide) rest)
    rw [stripped]
    rfl
  · cases child

lemma address_of_label? {symbols : Symbols} {token : Text} {address : Int}
    (found : symbols.label? (Text.upper (Text.strip token)) = some address) :
    Operand.address symbols token = .ok address := by
  simp only [Operand.address, found]

/-- A token of a child's shape that no label has is no number either. -/
lemma address_of_label?_eq_none {symbols : Symbols} {token : Text}
    (child : Line.isChild (Text.upper (Text.strip token)) = true)
    (missing : symbols.label? (Text.upper (Text.strip token)) = none) :
    ∃ flaw, Operand.address symbols token = .error (.cause (.invalidNumber flaw)) := by
  simp only [Operand.address, missing, number, literal_of_isChild _ (isChild_upper_strip child)]
  exact ⟨_, rfl⟩

lemma value_of_label?_eq_none {symbols : Symbols} {token : Text}
    (child : Line.isChild (Text.upper (Text.strip token)) = true)
    (missing : symbols.label? (Text.upper (Text.strip token)) = none) :
    ∃ cause, value symbols token = .error (.cause cause) := by
  obtain ⟨flaw, fails⟩ := address_of_label?_eq_none child missing
  rw [value, fails]
  dsimp only
  split
  · exact ⟨_, rfl⟩
  · exact ⟨_, rfl⟩

lemma displacement_of_label?_eq_none {symbols : Symbols} {token : Text} (here : Nat)
    (child : Line.isChild (Text.upper (Text.strip token)) = true)
    (missing : symbols.label? (Text.upper (Text.strip token)) = none) :
    ∃ cause, displacement symbols here token = .error (.cause cause) := by
  obtain ⟨flaw, fails⟩ := address_of_label?_eq_none child missing
  rw [displacement, fails]
  split
  · exact ⟨_, rfl⟩
  · exact ⟨_, rfl⟩

section
variable {symbols : Symbols} {kind : OperandKind} {token numeral : Text} {written : List Text}
  {position : Nat}

lemma isNumeric_of_numeral? (stands : numeral? symbols kind token = some numeral) :
    kind.isNumeric = true := by
  cases kind with
  | string | word | rest => cases stands
  | _ => rfl

/-- A number in an operand is the value of the text it is taken from, or the distance to it. -/
lemma read_of_numeral? (stands : numeral? symbols kind token = some numeral)
    (inside : position < written.length) (here : Nat) :
    read symbols here kind token (some written) position =
      if kind = .branch then (displacement symbols here numeral).map (.immediate · 16)
      else (value symbols numeral).map (ofAddress here · kind) := by
  rw [read_numeric (isNumeric_of_numeral? stands) symbols here token
    (by rintro list ⟨⟩; exact inside)]
  cases kind with
  | general | control | base | string | word | rest => cases stands
  | number16 | number24 | number5 =>
    cases stands
    cases value : value symbols (substitute symbols token) <;> simp only [readPlain, value] <;> rfl
  | branch =>
    cases stands
    cases distance : displacement symbols here (substitute symbols token) <;>
      simp only [readPlain, distance] <;> rfl
  | offset =>
    simp only [numeral?, readPlain] at stands ⊢
    cases cut : offsetParts (substitute symbols token) with
    | error failure => rw [cut] at stands; cases stands
    | ok parts =>
      rw [cut] at stands
      cases stands
      cases value : value symbols (substitute symbols parts.1) <;>
        simp only [bind, Except.bind, value] <;> rfl

/-- An operand is read as the address of the label that its number is taken from. -/
lemma read_of_label? (stands : numeral? symbols kind token = some numeral)
    (inside : position < written.length) (here : Nat) {address : Int}
    (found : symbols.label? (Text.upper (Text.strip numeral)) = some address) :
    read symbols here kind token (some written) position =
      .ok (ofAddress here address kind) := by
  rw [read_of_numeral? stands inside]
  split
  · rename_i branch
    rw [displacement_of_label? found, branch]
    rfl
  · simp only [value, address_of_label? found]
    rfl

/-- An operand whose number is taken from a child's name that no label has is not read. -/
lemma read_of_label?_eq_none (stands : numeral? symbols kind token = some numeral)
    (inside : position < written.length) (here : Nat)
    (child : Line.isChild (Text.upper (Text.strip numeral)) = true)
    (missing : symbols.label? (Text.upper (Text.strip numeral)) = none) :
    ∃ cause, read symbols here kind token (some written) position = .error (.cause cause) := by
  rw [read_of_numeral? stands inside]
  split
  · obtain ⟨cause, fails⟩ := displacement_of_label?_eq_none here child missing
    exact ⟨cause, by rw [fails]; rfl⟩
  · obtain ⟨cause, fails⟩ := value_of_label?_eq_none child missing
    exact ⟨cause, by rw [fails]; rfl⟩

end
end Operand

namespace Instruction

/-- A token among those written for an instruction gives an operand of a kind, and the number of the
operand is taken from a text. -/
structure TakesFrom (symbols : Symbols) (i : Instruction) (written : List Text) (position : Nat)
    (kind : OperandKind) (token numeral : Text) : Prop where
  kind_at : (i.kinds.filter (· != .base))[position]? = some kind
  token_at : written[position]? = some token
  stands : Operand.numeral? symbols kind token = some numeral

/-- A token is read as an operand, and that operand is the one packed into the word. -/
structure ReadsAs (symbols : Symbols) (here : Nat) (i : Instruction) (written : List Text)
    (position : Nat) (kind : OperandKind) (token : Text) (operand : Operand) : Prop where
  read : Operand.read symbols here kind token (some written) position = .ok operand
  encoded : ∀ word, i.encode symbols here written = .ok word →
    ∃ operands, i.readOperands symbols here written = .ok operands ∧ i.word operands = .ok word ∧
      operands[operandsBefore (i.kinds.filter (· != .base)) position]? = some operand

section
variable {symbols : Symbols} {here : Nat} {i : Instruction} {written : List Text} {position : Nat}
  {kind : OperandKind} {token numeral : Text}

/-- A word is made only where every one of its tokens is read. -/
lemma exists_read_of_encode {word : Nat} (h : i.encode symbols here written = .ok word)
    (kind_at : (i.kinds.filter (· != .base))[position]? = some kind)
    (token_at : written[position]? = some token) :
    ∃ operand operands,
      Operand.read symbols here kind token (some written) position = .ok operand ∧
      i.readOperands symbols here written = .ok operands ∧ i.word operands = .ok word ∧
      operands[operandsBefore (i.kinds.filter (· != .base)) position]? = some operand := by
  obtain ⟨operands, reads, from_first, made⟩ := encode_eq_ok h
  obtain ⟨other, operand, other_at, read, operand_at⟩ :=
    (getElem?_of_readFrom from_first).2 position kind kind_at
  rw [Nat.zero_add] at other_at read
  cases token_at.symm.trans other_at
  exact ⟨operand, operands, read, reads, made, operand_at⟩

lemma TakesFrom.readsAs (h : i.TakesFrom symbols written position kind token numeral) (here : Nat)
    {address : Int} (found : symbols.label? (Text.upper (Text.strip numeral)) = some address) :
    i.ReadsAs symbols here written position kind token (Operand.ofAddress here address kind) := by
  have inside : position < written.length := (List.getElem?_eq_some_iff.1 h.token_at).1
  have read := Operand.read_of_label? h.stands inside here found
  refine ⟨read, fun word encodes => ?_⟩
  obtain ⟨operand, operands, again, reads, made, operand_at⟩ :=
    exists_read_of_encode encodes h.kind_at h.token_at
  cases read.symm.trans again
  exact ⟨operands, reads, made, operand_at⟩

lemma TakesFrom.not_read (h : i.TakesFrom symbols written position kind token numeral) (here : Nat)
    (child : Line.isChild (Text.upper (Text.strip numeral)) = true)
    (missing : symbols.label? (Text.upper (Text.strip numeral)) = none) :
    (∃ cause, Operand.read symbols here kind token (some written) position =
      .error (.cause cause)) ∧ ∃ failure, i.encode symbols here written = .error failure := by
  have inside : position < written.length := (List.getElem?_eq_some_iff.1 h.token_at).1
  obtain ⟨cause, fails⟩ := Operand.read_of_label?_eq_none h.stands inside here child missing
  refine ⟨⟨cause, fails⟩, ?_⟩
  cases encodes : i.encode symbols here written with
  | error failure => exact ⟨failure, rfl⟩
  | ok word =>
    obtain ⟨operand, operands, read, -⟩ := exists_read_of_encode encodes h.kind_at h.token_at
    cases fails.symm.trans read

end
end Instruction

namespace Assembly

/-- The last global label that lines declare, or nothing. -/
def lastGlobal (lines : List Text) : Text :=
  ((globalLabels lines).getLast?.map Declaration.name).getD []

lemma scopeAfter_eq_lastGlobal (lines : List Text) : scopeAfter lines = lastGlobal lines := by
  induction lines using List.reverseRecOn with
  | nil => rfl
  | append_singleton lines line ih =>
    rw [scopeAfter_concat, ih, lastGlobal, lastGlobal, globalLabels, globalLabels,
      declarations_concat, List.filter_append]
    cases labelOf line with
    | none => simp [scopeFrom]
    | some name => cases child : Line.isChild name <;> simp [scopeFrom, child]

/-- One step in working off an agenda: its first line is an instruction and is encoded, or a macro
whose lines take its place, one level deeper. -/
inductive AgendaStep (t : Tables) : List (Text × Nat) × Run → List (Text × Nat) × Run → Prop
  | instruction {line : Text} {depth : Nat} {rest : List (Text × Nat)} {r next : Run}
      {i : Instruction} (role : t.role (Line.statement line).mnemonic = .instruction i)
      (encodes : encodeInstruction i line (Line.statement line).operands r = .ok next) :
      AgendaStep t ((line, depth) :: rest, r) (rest, next)
  | expansion {line : Text} {depth : Nat} {rest : List (Text × Nat)} {r : Run} {m : Macro}
      {lines : List Text} (role : t.role (Line.statement line).mnemonic = .expansion m)
      (shallow : depth < Macro.maxDepth)
      (expanded : m.expand (Line.statement line).operands = .ok lines) :
      AgendaStep t ((line, depth) :: rest, r) (lines.map (fun l => (l, depth + 1)) ++ rest, r)

/-- An instruction at the front of an agenda is encoded first. -/
lemma encodeAgenda_instruction {t : Tables} {line : Text} {depth : Nat} {i : Instruction}
    (role : t.role (Line.statement line).mnemonic = .instruction i) (rest : List (Text × Nat))
    (r : Run) : encodeAgenda t ((line, depth) :: rest) r =
      encodeInstruction i line (Line.statement line).operands r >>= encodeAgenda t rest := by
  rw [encodeAgenda_eq_foldlM, List.foldlM_cons, encodeNested_instruction role]
  refine bind_congr fun next => ?_
  rw [encodeAgenda_eq_foldlM]

/-- A step leaves the outcome of the agenda as it is. -/
theorem AgendaStep.encodeAgenda_eq {t : Tables} {a b : List (Text × Nat) × Run}
    (h : AgendaStep t a b) : encodeAgenda t a.1 a.2 = encodeAgenda t b.1 b.2 := by
  cases h with
  | instruction role encodes =>
    rw [encodeAgenda_instruction role, encodes]
    rfl
  | @expansion line depth rest r m lines role shallow expanded =>
    have deeper : Macro.maxDepth - depth = (Macro.maxDepth - (depth + 1)) + 1 := by omega
    rw [encodeAgenda_eq_foldlM, encodeAgenda_eq_foldlM, List.foldlM_cons, List.foldlM_append,
      List.foldlM_map]
    simp only [deeper, encodeNested_expansion role expanded]

lemma AgendaStep.symbols_eq {t : Tables} {a b : List (Text × Nat) × Run} (h : AgendaStep t a b) :
    b.2.store.toSymbols = a.2.store.toSymbols := by
  cases h with
  | @instruction line depth rest r next i role encodes =>
    have single : encodeText t r line = .ok next := by
      rw [encodeText, Tables.role_eq_instruction_iff.1 role]
      exact encodes
    obtain ⟨_, _, -, -, rfl⟩ := encodeText_cases single
    rfl
  | expansion => rfl

/-- While the second pass encodes a line, which it comes to in one run, a line that this one stands
for comes to be encoded in another run. -/
def ComesTo (t : Tables) (line : Text) (r : Run) (text : Text) (s : Run) : Prop :=
  ∃ statement depth rest, (shape (Line.normalize line)).content = .statement statement ∧
    Relation.ReflTransGen (AgendaStep t) ([(statement, 0)], enterScope (labelOf line) r)
      ((text, depth) :: rest, s)

lemma ComesTo.symbols_eq {t : Tables} {line text : Text} {r s : Run}
    (h : ComesTo t line r text s) :
    s.store.toSymbols = (enterScope (labelOf line) r).store.toSymbols := by
  obtain ⟨statement, depth, rest, -, steps⟩ := h
  -- The agenda changes from step to step, the symbols do not.
  have kept (b : List (Text × Nat) × Run) (steps : Relation.ReflTransGen (AgendaStep t)
      ([(statement, 0)], enterScope (labelOf line) r) b) :
      b.2.store.toSymbols = (enterScope (labelOf line) r).store.toSymbols := by
    induction steps with
    | refl => rfl
    | tail _ step ih => exact step.symbols_eq.trans ih
  exact kept _ steps

/-- From where a line comes to be encoded, the second pass goes on to the end of the first one. -/
lemma ComesTo.encodeLine_eq {t : Tables} {line text : Text} {r s : Run}
    (h : ComesTo t line r text s) : ∃ depth rest,
      encodeLine t (Line.normalize line) r = encodeAgenda t ((text, depth) :: rest) s := by
  obtain ⟨statement, depth, rest, holds, steps⟩ := h
  have same (b : List (Text × Nat) × Run) (steps : Relation.ReflTransGen (AgendaStep t)
      ([(statement, 0)], enterScope (labelOf line) r) b) :
      encodeAgenda t [(statement, 0)] (enterScope (labelOf line) r) = encodeAgenda t b.1 b.2 := by
    induction steps with
    | refl => rfl
    | tail _ step ih => exact ih.trans step.encodeAgenda_eq
  refine ⟨depth, rest, ?_⟩
  rw [Assembly.encodeLine_eq, holds, encodeContent, ← encodeAgenda_singleton]
  exact same _ steps

section
variable {t : Tables} {source : List Text} {counted : Run}

/-- Among the children of an owner, a name is found at the address of its declaration. -/
lemma Labelled.exists_child (h : Labelled t source counted) {d : Declaration}
    (declared : d ∈ childLabels source) : ∃ address, IsCounted t d.before address ∧
      counted.store.children.lookup (scopeAfter d.before, d.name) = some address := by
  obtain ⟨⟨key, address⟩, member, same, counts⟩ := exists_mem_of_forall₂ h.children.flip declared
  simp only at same counts
  subst same
  exact ⟨address, counts, lookup_eq_some_of_mem h.children_nodup member⟩

/-- A child label is looked up among the children of the scope and nowhere else. -/
lemma Labelled.label?_child (h : Labelled t source counted) (scope : Text) {name : Text}
    (child : Line.isChild name = true) :
    (∀ d ∈ childLabels source, d.name = name → scopeAfter d.before = scope → ∃ address,
      IsCounted t d.before address ∧
      ({ counted.store.toSymbols with scope := scope } : Symbols).label? name = some address) ∧
    ((∀ d ∈ childLabels source, d.name = name → scopeAfter d.before ≠ scope) →
      ({ counted.store.toSymbols with scope := scope } : Symbols).label? name = none) := by
  constructor
  · rintro d declared rfl rfl
    obtain ⟨address, counts, found⟩ := h.exists_child declared
    exact ⟨address, counts, by rw [label?_of_child (h.owned d declared) child]; exact found⟩
  · intro others
    by_cases owned : scope = []
    · subst owned
      unfold Line.isChild at child
      split at child
      · rfl
      · cases child
    · rw [label?_of_child owned child, Option.eq_none_iff_forall_ne_some]
      intro address found
      obtain ⟨d, declared, same, -⟩ := exists_of_lookup h.children found
      simp only [Prod.mk.injEq] at same
      exact others d declared same.2.symm same.1.symm

lemma scope_of_declareLabel {before : List Text} {line : Text} {r declared : Run}
    (reached : tallyLines t before Run.empty = .ok r)
    (declares : declareLabel (labelOf line) r = .ok declared) :
    declared.store.scope = scopeAfter (before ++ [line]) := by
  rw [scopeAfter_concat, ← (labelled_of_tallyLines reached).scope]
  cases label : labelOf line with
  | none =>
    rw [label] at declares
    cases declares
    rfl
  | some name =>
    rw [label] at declares
    obtain ⟨child, -, -, rfl⟩ | ⟨global, -, rfl⟩ := declare_cases declares
    · simp [Run.withChild, scopeFrom, child]
    · simp [Run.withLabel, scopeFrom, global, Store.note]

end

/-- Both passes take a line in the scope of the last global label up to it. Where an operand of an
instruction that the line stands for takes its number from a child's name, it is read, and encoded,
as the address of the child that the label owns, declared before the line or after it. Where the
label owns no such child, or there is no label, it is not read and the second pass stops. -/
theorem scope_agrees {t : Tables} {source before after : List Text} {line : Text} {counted : Run}
    (accepted : firstPass t 1 source Run.empty = .ok counted)
    (split : source = before ++ line :: after) :
    (∃ r declared, firstPass t 1 before Run.empty = .ok r ∧
      declareLabel (labelOf line) r = .ok declared ∧
      (∃ next, tallyContent t (shape (Line.normalize line)).content declared = .ok next) ∧
      declared.store.scope = lastGlobal (before ++ [line])) ∧
    ∀ r, secondPass t 1 before counted.rewound = .ok r →
      (enterScope (labelOf line) r).store.scope = lastGlobal (before ++ [line]) ∧
      ∀ text s, ComesTo t line r text s →
        (∃ depth rest, encodeLine t (Line.normalize line) r =
          encodeAgenda t ((text, depth) :: rest) s) ∧
        s.store.scope = lastGlobal (before ++ [line]) ∧
        ∀ i, t.role (Line.statement text).mnemonic = .instruction i →
          (∃ rest, encodeLine t (Line.normalize line) r =
            encodeInstruction i text (Line.statement text).operands s >>= encodeAgenda t rest) ∧
          ∀ position kind token numeral,
            i.TakesFrom s.store.toSymbols (Line.statement text).operands position kind token
              numeral →
            Line.isChild (Text.upper (Text.strip numeral)) = true →
            (∀ d ∈ childLabels source, d.name = Text.upper (Text.strip numeral) →
              lastGlobal d.before = lastGlobal (before ++ [line]) → ∃ address,
              IsCounted t d.before address ∧
                i.ReadsAs s.store.toSymbols s.store.size (Line.statement text).operands position
                  kind token (Operand.ofAddress s.store.size address kind)) ∧
            ((∀ d ∈ childLabels source, d.name = Text.upper (Text.strip numeral) →
                lastGlobal d.before ≠ lastGlobal (before ++ [line])) ∨
                lastGlobal (before ++ [line]) = [] →
              s.store.label? (Text.upper (Text.strip numeral)) = none ∧
              (∃ cause, Operand.read s.store.toSymbols s.store.size kind token
                (some (Line.statement text).operands) position = .error (.cause cause)) ∧
              ∃ failure, encodeLine t (Line.normalize line) r = .error (s.halt failure)) := by
  subst split
  simp only [firstPass_eq_ok_iff, secondPass_eq_ok_iff, ← scopeAfter_eq_lastGlobal] at accepted ⊢
  have labelled := labelled_of_tallyLines accepted
  constructor
  · have first := accepted
    rw [tallyLines_append] at first
    obtain ⟨r, reached, rest⟩ := bind_eq_ok_iff.1 first
    rw [tallyLines_cons, tally_eq] at rest
    obtain ⟨next, tallied, -⟩ := bind_eq_ok_iff.1 rest
    obtain ⟨declared, declares, content⟩ := bind_eq_ok_iff.1 tallied
    exact ⟨r, declared, reached, declares, ⟨next, content⟩, scope_of_declareLabel reached declares⟩
  · intro r encodes
    have entered := ((emitted_of_rewound accepted encodes).enterScope line).symbols_eq
    refine ⟨congrArg Symbols.scope entered, fun text s comes => ?_⟩
    have symbols := comes.symbols_eq.trans entered
    refine ⟨comes.encodeLine_eq, congrArg Symbols.scope symbols, ?_⟩
    intro i role
    obtain ⟨depth, rest, goes⟩ := comes.encodeLine_eq
    rw [encodeAgenda_instruction role] at goes
    refine ⟨⟨rest, goes⟩, fun position kind token numeral takes child => ?_⟩
    obtain ⟨own, others⟩ := labelled.label?_child (scopeAfter (before ++ [line])) child
    refine ⟨fun d declared same owner => ?_, fun foreign => ?_⟩
    · obtain ⟨address, counts, found⟩ := own d declared same owner
      refine ⟨address, counts, takes.readsAs s.store.size ?_⟩
      rw [symbols]
      exact found
    · -- Every child has an owner, so with no label in scope all children are those of others.
      have absent : s.store.label? (Text.upper (Text.strip numeral)) = none := by
        rw [symbols]
        refine others (foreign.elim id fun unowned d declared _ => ?_)
        exact unowned ▸ labelled.owned d declared
      obtain ⟨unread, failure, fails⟩ := takes.not_read s.store.size child absent
      refine ⟨absent, unread, failure, ?_⟩
      rw [goes, encodeInstruction, fails]
      rfl

/-- Two global labels with a child of one name each, both of which are used before they are declared
and through a definition. -/
def twoScopes : List Text :=
  ["[define goal .x]".toList, "first: beqz $t0, goal".toList, "nop".toList, ".x: nop".toList,
    "second: li $t0, goal".toList, ".x: nop".toList]

/-- The number that is loaded behind the second label is the address of its child. -/
theorem scope_agrees_twoScopes : ∃ counted r s i,
    firstPass Tables.builtin 1 twoScopes Run.empty = .ok counted ∧
    secondPass Tables.builtin 1 (twoScopes.take 4) counted.rewound = .ok r ∧
    ComesTo Tables.builtin "second: li $t0, goal".toList r "ORI $T0, $R0, GOAL".toList s ∧
    s.store.scope = "SECOND".toList ∧
    Tables.builtin.role "ORI".toList = .instruction i ∧
    i.TakesFrom s.store.toSymbols ["$T0".toList, "$R0".toList, "GOAL".toList] 2 .number16
      "GOAL".toList ".X".toList ∧
    i.ReadsAs s.store.toSymbols s.store.size ["$T0".toList, "$R0".toList, "GOAL".toList] 2
      .number16 "GOAL".toList (.immediate 16 16) := by
  have split : twoScopes = twoScopes.take 4 ++ "second: li $t0, goal".toList :: twoScopes.drop 5 :=
    rfl
  obtain ⟨p, made⟩ : ∃ p, program? Tables.builtin twoScopes = some p :=
    Option.isSome_iff_exists.1 (by decide +kernel)
  obtain ⟨counted, emitted, first, second, -⟩ :=
    exists_runs_of_assemble (assemble_result_of_program? made)
  have accepted : firstPass Tables.builtin 1 twoScopes Run.empty = .ok counted :=
    firstPass_eq_ok_iff.2 first
  rw [split] at second
  obtain ⟨r, encodes⟩ := encodeLines_of_append second
  have reached : secondPass Tables.builtin 1 (twoScopes.take 4) counted.rewound = .ok r :=
    secondPass_eq_ok_iff.2 encodes
  have expands : macroLines? Tables.builtin "second: li $t0, goal".toList =
      some ["ORI $T0, $R0, GOAL".toList] := by decide +kernel
  obtain ⟨statement, m, holds, role, expanded⟩ := macroLines?_eq_some expands
  have comes : ComesTo Tables.builtin "second: li $t0, goal".toList r "ORI $T0, $R0, GOAL".toList
      (enterScope (labelOf "second: li $t0, goal".toList) r) :=
    ⟨statement, 1, [], holds, .single (.expansion role (by decide) expanded)⟩
  obtain ⟨i, found, kinds⟩ : ∃ i, Tables.builtin.role "ORI".toList = .instruction i ∧
      i.kinds = [.general, .general, .number16] := ⟨_, rfl, rfl⟩
  -- What the token is replaced by is known from the source, and with it the text that is read.
  have definitions : (enterScope (labelOf "second: li $t0, goal".toList) r).store.definitions =
      [("GOAL".toList, ".X".toList)] := by
    have kept := comes.symbols_eq.trans
      ((emitted_of_rewound first encodes).enterScope "second: li $t0, goal".toList).symbols_eq
    rw [congrArg Symbols.definitions kept]
    exact (definitions_of_tallyLines first).1.trans (by decide +kernel)
  have takes : i.TakesFrom (enterScope (labelOf "second: li $t0, goal".toList) r).store.toSymbols
      ["$T0".toList, "$R0".toList, "GOAL".toList] 2 .number16 "GOAL".toList ".X".toList := by
    refine ⟨by rw [kinds]; rfl, rfl, ?_⟩
    rw [Operand.numeral?, Operand.substitute, Operand.replacement?, Symbols.definition?,
      definitions]
    rfl
  obtain ⟨-, scope, resolves⟩ := ((scope_agrees accepted split).2 r reached).2 _ _ comes
  have declared : (⟨twoScopes.take 5, ".X".toList⟩ : Declaration) ∈ childLabels twoScopes := by
    decide +kernel
  have cut : Line.statement "ORI $T0, $R0, GOAL".toList =
      ⟨"ORI".toList, ["$T0".toList, "$R0".toList, "GOAL".toList]⟩ := by decide +kernel
  rw [cut] at resolves
  obtain ⟨address, ⟨last, tallied, rfl⟩, reads⟩ :=
    ((resolves i found).2 2 .number16 "GOAL".toList ".X".toList takes rfl).1 _ declared rfl
      (by decide +kernel)
  have fourth : (tallyLines Tables.builtin (twoScopes.take 5) Run.empty).toOption.map Run.count =
      some 4 := by decide +kernel
  rw [tallied] at fourth
  rw [show last.count = 4 from Option.some.inj fourth] at reads
  exact ⟨counted, r, _, i, accepted, reached, comes, scope.trans (by decide +kernel), found, takes,
    reads⟩

end Assembly
end Mips64
