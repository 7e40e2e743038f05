import Mips64.Proofs.MacroUse

/-! The operands of a line as they are written, and those of the lines that the machine's macros
stand for. Main statement: each operand of such a line is one of the arguments of the macro, or is
fixed by the template. -/
namespace Mips64

/-- The pieces between separators make up the text without the separators. -/
lemma flatten_splitOnP {α : Type} (p : α → Bool) (s : List α) :
    (s.splitOnP p).flatten = s.filter (fun c => !p c) := by
  induction s with
  | nil => simp
  | cons c s ih =>
    rw [List.splitOnP_cons_eq_if_modifyHead]
    split
    · rename_i cut
      simp [ih, cut]
    · rename_i kept
      obtain ⟨first, rest, pieces⟩ := List.exists_cons_of_ne_nil (List.splitOnP_ne_nil p s)
      rw [pieces] at ih ⊢
      simpa [kept] using ih

/-- Pieces hold no separator. -/
lemma of_mem_splitOnP {α : Type} {p : α → Bool} {s piece : List α} (member : piece ∈ s.splitOnP p)
    {c : α} (inside : c ∈ piece) : c ∈ s ∧ p c = false := by
  have kept : c ∈ s.filter (fun c => !p c) := by
    rw [← flatten_splitOnP]
    exact (List.sublist_flatten_of_mem member).subset inside
  simpa using List.mem_filter.1 kept

lemma filter_intercalate {α : Type} (p : α → Bool) (separator : List α) (lists : List (List α)) :
    (separator.intercalate lists).filter p =
      (separator.filter p).intercalate (lists.map (List.filter p)) := by
  match lists with
  | [] => rfl
  | [xs] => simp
  | xs :: ys :: rest =>
    have others := filter_intercalate p separator (ys :: rest)
    simp only [List.map_cons, List.intercalate_cons_cons, List.filter_append] at others ⊢
    rw [others]

lemma nil_intercalate {α : Type} (lists : List (List α)) :
    ([] : List α).intercalate lists = lists.flatten := by
  match lists with
  | [] => rfl
  | [xs] => simp
  | xs :: ys :: rest =>
    rw [List.intercalate_cons_cons, nil_intercalate (ys :: rest), List.append_nil]
    rfl

namespace Text

def compact (s : Text) : Text := s.filter (fun c => !isBlank c)

@[simp] lemma compact_append (s t : Text) : compact (s ++ t) = compact s ++ compact t :=
  List.filter_append ..

lemma compact_cons_visible {c : Char} (visible : isBlank c = false) (s : Text) :
    compact (c :: s) = c :: compact s :=
  List.filter_cons_of_pos (by simp [visible])

lemma compact_cons_blank {c : Char} (blank : isBlank c = true) (s : Text) :
    compact (c :: s) = compact s :=
  List.filter_cons_of_neg (by simp [blank])

lemma compact_of_blank {s : Text} (blank : ∀ c ∈ s, isBlank c = true) : compact s = [] := by
  simpa [compact] using blank

lemma compact_of_visible {s : Text} (visible : ∀ c ∈ s, isBlank c = false) : compact s = s := by
  simpa [compact] using visible

lemma visible_of_mem_compact {s : Text} {c : Char} (member : c ∈ compact s) :
    isBlank c = false := by
  simpa using (List.mem_filter.1 member).2

lemma flatten_words (s : Text) : (words s).flatten = compact s := by
  rw [words, List.flatten_filter_not_isEmpty, flatten_splitOnP]
  rfl

@[simp] lemma compact_stripLeft (s : Text) : compact (stripLeft s) = compact s := by
  conv_rhs => rw [← List.takeWhile_append_dropWhile (p := isBlank) (l := s)]
  rw [compact_append, compact_of_blank fun c member => List.mem_takeWhile_imp member]
  rfl

@[simp] lemma compact_strip (s : Text) : compact (strip s) = compact s := by
  obtain ⟨blanks, allBlank, split⟩ := stripRight_append_blanks (stripLeft s)
  rw [← compact_stripLeft s, split, compact_append, compact_of_blank allBlank, List.append_nil]
  rfl

/-- A text without its blanks is its first word, and then the rest without blanks. -/
lemma compact_eq_splitWord (s : Text) :
    compact s = (splitWord s).1 ++ compact (splitWord s).2 := by
  simp only [splitWord, compact_stripLeft]
  rw [← compact_stripLeft s]
  conv_lhs => rw [← List.takeWhile_append_dropWhile (p := fun c => !isBlank c) (l := stripLeft s)]
  rw [compact_append, compact_of_visible]
  intro c member
  simpa using List.mem_takeWhile_imp member

lemma compact_intercalate (separator : Text) (texts : List Text) :
    compact (separator.intercalate texts) = (compact separator).intercalate (texts.map compact) :=
  filter_intercalate _ separator texts

end Text

namespace Line

/-- What a line has behind its first word, without blanks. -/
def written (line : Text) : Text := Text.compact (Text.splitWord (Text.strip line)).2

def cutOperands (s : Text) : List Text := if s.isEmpty then [] else s.splitOn ','

lemma operands_eq (line : Text) : (statement line).operands = cutOperands (written line) := rfl

lemma compact_eq_written (line : Text) :
    Text.compact line = (Text.splitWord line).1 ++ written line := by
  rw [← Text.splitWord_strip_fst, written, ← Text.compact_eq_splitWord, Text.compact_strip]

lemma statement_eq (line : Text) :
    statement line = ⟨Text.upper (Text.splitWord line).1, cutOperands (written line)⟩ := by
  rw [← mnemonic_eq, ← operands_eq]

/-- An operand has no blanks and no commas. -/
lemma visible_of_mem_operands {line operand : Text} (member : operand ∈ (statement line).operands) :
    (∀ c ∈ operand, Text.isBlank c = false) ∧ ',' ∉ operand := by
  rw [operands_eq, cutOperands] at member
  split at member
  · cases member
  · constructor
    · intro c inside
      exact Text.visible_of_mem_compact (of_mem_splitOnP member inside).1
    · intro inside
      simpa using (of_mem_splitOnP member inside).2

/-- Texts without commas are read back from between commas, except for a single empty one. -/
lemma cutOperands_intercalate {texts : List Text} (apart : ∀ s ∈ texts, ',' ∉ s) :
    cutOperands ([','].intercalate texts) = if texts = [[]] then [] else texts := by
  match texts with
  | [] => rfl
  | [s] =>
    cases s with
    | nil => rfl
    | cons c s =>
      rw [cutOperands, if_neg (by simp), List.splitOn_intercalate ',' apart (by simp)]
      simp
  | s :: s' :: rest =>
    rw [cutOperands, if_neg (by simp), List.splitOn_intercalate ',' apart (by simp)]
    simp

def ofStatement (s : Statement) : Text := s.mnemonic ++ ' ' :: [',', ' '].intercalate s.operands

/-- A statement is read back from its text. Of its operands only a single empty one is lost. -/
theorem statement_ofStatement {s : Statement} (nonempty : s.mnemonic ≠ [])
    (visible : ∀ c ∈ s.mnemonic, Text.isBlank c = false)
    (plain : ∀ operand ∈ s.operands, (∀ c ∈ operand, Text.isBlank c = false) ∧ ',' ∉ operand) :
    statement (ofStatement s) =
      ⟨Text.upper s.mnemonic, if s.operands = [[]] then [] else s.operands⟩ := by
  have cut : Text.Cut [] s.mnemonic (' ' :: [',', ' '].intercalate s.operands) := by
    refine ⟨by simp, visible, ?_, fun empty => absurd empty nonempty⟩
    intro c head
    cases head
    decide
  have word : (Text.splitWord (ofStatement s)).1 = s.mnemonic := cut.splitWord_fst
  have same : s.operands.map Text.compact = s.operands :=
    (List.map_congr_left fun operand member =>
      Text.compact_of_visible (plain operand member).1).trans (List.map_id _)
  have behind : written (ofStatement s) = [','].intercalate s.operands := by
    have whole : Text.compact (ofStatement s) = s.mnemonic ++ [','].intercalate s.operands := by
      have joined := Text.compact_intercalate [',', ' '] s.operands
      rw [same] at joined
      rw [ofStatement, Text.compact_append, Text.compact_of_visible visible]
      exact congrArg (s.mnemonic ++ ·) joined
    rw [compact_eq_written, word] at whole
    exact List.append_cancel_left whole
  rw [statement_eq, word, behind, cutOperands_intercalate fun o member => (plain o member).2]

end Line

lemma Text.ne_of_decimalValue? {c d : Char} (digit : ∃ n, decimalValue? c = some n)
    (other : decimalValue? d = none) : c ≠ d := by
  rintro rfl
  obtain ⟨n, value⟩ := digit
  rw [other] at value
  cases value

namespace Template

/-- The number that decimal digits denote, the most significant first. -/
def ofDecimals (digits : List Nat) : Nat := digits.foldl (fun n d => n * 10 + d) 0

/-- The index that a name of decimal digits denotes. A template can hold none beyond the largest
number. -/
def indexOf? (name : Text) : Option Nat :=
  match name.mapM Text.decimalValue? with
  | some (digit :: digits) =>
    if ofDecimals (digit :: digits) ≤ maxNumber then some (ofDecimals (digit :: digits)) else none
  | _ => none

lemma le_foldl_decimals (n : Nat) (digits : List Nat) :
    n ≤ digits.foldl (fun n d => n * 10 + d) n := by
  induction digits generalizing n with
  | nil => exact le_rfl
  | cons d digits ih =>
    have larger := ih (n * 10 + d)
    rw [List.foldl_cons]
    omega

lemma numberFrom?_of_mapM {name : Text} {digits : List Nat}
    (read : name.mapM Text.decimalValue? = some digits) (n : Nat)
    (bound : digits.foldl (fun n d => n * 10 + d) n ≤ maxNumber) :
    numberFrom? n name = some (digits.foldl (fun n d => n * 10 + d) n, []) := by
  rw [mapM_eq_some_iff] at read
  induction read generalizing n with
  | nil => rfl
  | @cons c d name digits digit _ ih =>
    have larger := le_foldl_decimals (n * 10 + d) digits
    rw [List.foldl_cons] at bound ⊢
    rw [numberFrom?, digit]
    simp only
    rw [if_neg (by omega)]
    exact ih _ bound

/-- A name that denotes an index is made of decimal digits, and is read as that index. -/
lemma of_indexOf? {name : Text} {index : Nat} (h : indexOf? name = some index) :
    name ≠ [] ∧ (∀ c ∈ name, ∃ d, Text.decimalValue? c = some d) ∧
      index? name = .ok (some index) := by
  unfold indexOf? at h
  split at h
  · rename_i digit digits read
    split at h
    · rename_i bound
      cases h
      have each := mapM_eq_some_iff.1 read
      have nonempty : name ≠ [] := by
        rintro rfl
        cases each
      have number := numberFrom?_of_mapM read 0 bound
      refine ⟨nonempty, fun c member => ?_, ?_⟩
      · obtain ⟨d, -, value⟩ := exists_mem_of_forall₂ each.flip member
        exact ⟨d, value⟩
      · rw [index?, number]
        simp [nonempty, ofDecimals]
    · cases h
  · cases h

/-- A numbering in which placeholders may have indices. -/
def Numbering.AllowsIndex : Numbering → Prop
  | .byTurn _ => False
  | _ => True

/-- A template gives a text wherever its placeholders may have indices. -/
def Fills (arguments : List Text) (template text : Text) : Prop :=
  ∀ numbering : Numbering, numbering.AllowsIndex → ∃ last : Numbering, last.AllowsIndex ∧
    fillWithin arguments maxLevels numbering template = .ok (last, text)

section
variable {arguments : List Text} {template text : Text}

lemma Fills.fill_eq (h : Fills arguments template text) : fill template arguments = .ok text := by
  obtain ⟨last, -, filled⟩ := h .undecided trivial
  rw [fill, filled]
  rfl

lemma Fills.nil : Fills arguments [] [] := fun numbering allowed => ⟨numbering, allowed, rfl⟩

lemma Fills.cons (h : Fills arguments template text) {c : Char} (plain : isPlain c = true) :
    Fills arguments (c :: template) (c :: text) := by
  intro numbering allowed
  obtain ⟨last, allowed', filled⟩ := h numbering allowed
  refine ⟨last, allowed', ?_⟩
  rw [maxLevels, fillWithin] at filled ⊢
  rw [pieces_cons plain, fillPieces, filled]
  rfl

lemma Fills.append (h : Fills arguments template text) {s : Text}
    (plain : ∀ c ∈ s, isPlain c = true) : Fills arguments (s ++ template) (s ++ text) := by
  induction s with
  | nil => exact h
  | cons c s ih =>
    exact (ih fun d member => plain d (List.mem_cons_of_mem c member)).cons
      (plain c List.mem_cons_self)

lemma lay_nil (s : Text) : lay [] s = .ok s := by
  have plain : Layout.ofText? [] = some ⟨' ', .left, 0, none⟩ := rfl
  simp [lay, plain, Layout.apply]

lemma piecesFrom_field {name : Text}
    (digits : ∀ c ∈ name, ∃ d, Text.decimalValue? c = some d) (field rest : Text) :
    piecesFrom (.field field false) (name ++ '\x7d' :: rest) =
      .placeholder ⟨field ++ name, none, []⟩ :: piecesFrom .outside rest := by
  induction name generalizing field with
  | nil => simp [piecesFrom]
  | cons c name ih =>
    have digit := digits c List.mem_cons_self
    have openBrace : c ≠ '\x7b' := Text.ne_of_decimalValue? digit (by decide)
    have closeBrace : c ≠ '\x7d' := Text.ne_of_decimalValue? digit (by decide)
    have bang : c ≠ '!' := Text.ne_of_decimalValue? digit (by decide)
    have colon : c ≠ ':' := Text.ne_of_decimalValue? digit (by decide)
    have bracket : (c == '[') = false := by
      simpa using Text.ne_of_decimalValue? digit (d := '[') (by decide)
    rw [List.cons_append, piecesFrom, if_neg openBrace, if_neg closeBrace, if_neg bang,
      if_neg colon, bracket, ih fun d member => digits d (List.mem_cons_of_mem c member)]
    simp

/-- An index between braces gives the argument of that index. -/
lemma Fills.numbered (h : Fills arguments template text) {name : Text} {index : Nat}
    (numbered : indexOf? name = some index) {argument : Text}
    (given : arguments[index]? = some argument) :
    Fills arguments ('\x7b' :: (name ++ '\x7d' :: template)) (argument ++ text) := by
  obtain ⟨nonempty, digits, indexed⟩ := of_indexOf? numbered
  have read : pieces ('\x7b' :: (name ++ '\x7d' :: template)) =
      .placeholder ⟨name, none, []⟩ :: pieces template := by
    obtain ⟨c, name, rfl⟩ := List.exists_cons_of_ne_nil nonempty
    have openBrace : c ≠ '\x7b' :=
      Text.ne_of_decimalValue? (digits c List.mem_cons_self) (by decide)
    have field := piecesFrom_field digits [] template
    rw [List.cons_append] at field
    rw [pieces, List.cons_append, piecesFrom.eq_def]
    simp [openBrace, field, pieces]
  have whole : name.takeWhile (fun c => !startsAccess c) = name := by
    refine List.takeWhile_eq_self_iff.2 fun c member => ?_
    have dot := Text.ne_of_decimalValue? (digits c member) (d := '.') (by decide)
    have bracket := Text.ne_of_decimalValue? (digits c member) (d := '[') (by decide)
    simp [startsAccess, dot, bracket]
  intro numbering allowed
  obtain ⟨last, allowed', filled⟩ := h .byIndex trivial
  refine ⟨last, allowed', ?_⟩
  have chosen : choose arguments numbering name = .ok (.byIndex, argument) := by
    cases numbering with
    | byTurn next => exact allowed.elim
    | undecided | byIndex =>
      simp [choose, indexed, Template.argument, given, bind, Except.bind, pure, Except.pure]
  have placed (nested : Numbering → Text → Except Fault (Numbering × Text)) :
      fillPlaceholder nested arguments numbering ⟨name, none, []⟩ = .ok (.byIndex, argument) := by
    simp [fillPlaceholder, whole, chosen, access, convert, lay_nil, bind, Except.bind, pure,
      Except.pure]
  rw [maxLevels, fillWithin] at filled ⊢
  rw [read, fillPieces]
  exact bind_eq_ok_iff.2 ⟨_, placed _, bind_eq_ok_iff.2 ⟨_, filled, rfl⟩⟩

/-- A digit between braces gives the argument of that index. -/
lemma Fills.placeholder (h : Fills arguments template text) {mark : Char} {index : Nat}
    (digit : Text.decimalValue? mark = some index) {argument : Text}
    (given : arguments[index]? = some argument) :
    Fills arguments ('\x7b' :: mark :: '\x7d' :: template) (argument ++ text) := by
  have small : index ≤ maxNumber := by
    have below := Text.decimalValue?_lt digit
    simp only [maxNumber]
    omega
  have numbered : indexOf? [mark] = some index := by simp [indexOf?, digit, ofDecimals, small]
  exact h.numbered numbered given

end

/-- What an operand of a template gives: a digit between braces gives the argument of that index,
and any other text stands for itself. -/
def operandFor (arguments : List Text) (operand : Text) : Text :=
  match operand with
  | ['\x7b', mark, '\x7d'] =>
    ((Text.decimalValue? mark).bind (fun index => arguments[index]?)).getD operand
  | _ => operand

/-- Whether an operand of a template is the index of an argument between braces, or is written
out. -/
def isSlot (arity : Nat) (operand : Text) : Bool :=
  match operand with
  | ['\x7b', mark, '\x7d'] =>
    match Text.decimalValue? mark with
    | some index => index < arity
    | none => false
  | _ => operand.all (fun c => isPlain c && !Text.isBlank c && c != ',')

/-- An operand gives an argument, or itself. -/
lemma operandFor_cases {arguments : List Text} {operand : Text}
    (slot : isSlot arguments.length operand = true) :
    (∃ mark index argument, operand = ['\x7b', mark, '\x7d'] ∧
      Text.decimalValue? mark = some index ∧ arguments[index]? = some argument) ∨
    (∀ c ∈ operand, isPlain c = true ∧ Text.isBlank c = false ∧ c ≠ ',') ∧
      ∀ others, operandFor others operand = operand := by
  unfold isSlot at slot
  split at slot
  · rename_i mark
    split at slot
    · rename_i index digit
      left
      have bound : index < arguments.length := by simpa using slot
      exact ⟨mark, index, _, rfl, digit, List.getElem?_eq_getElem bound⟩
    · cases slot
  · rename_i other
    right
    constructor
    · simpa [and_assoc] using slot
    · intro others
      unfold operandFor
      split
      · rename_i mark
        exact absurd rfl (other mark)
      · rfl

lemma operandFor_placeholder {arguments : List Text} {mark : Char} {index : Nat} {argument : Text}
    (digit : Text.decimalValue? mark = some index) (given : arguments[index]? = some argument) :
    operandFor arguments ['\x7b', mark, '\x7d'] = argument := by
  simp [operandFor, digit, given]

lemma Fills.slot {arguments : List Text} {template text operand : Text}
    (h : Fills arguments template text) (slot : isSlot arguments.length operand = true) :
    Fills arguments (operand ++ template) (operandFor arguments operand ++ text) := by
  obtain ⟨mark, index, argument, rfl, digit, given⟩ | ⟨plain, same⟩ := operandFor_cases slot
  · rw [operandFor_placeholder digit given]
    exact h.placeholder digit given
  · rw [same]
    exact h.append fun c member => (plain c member).1

lemma Fills.slots {arguments operands : List Text}
    (slots : ∀ operand ∈ operands, isSlot arguments.length operand = true) :
    Fills arguments ([',', ' '].intercalate operands)
      ([',', ' '].intercalate (operands.map (operandFor arguments))) := by
  match operands with
  | [] => exact Fills.nil
  | [operand] => simpa using Fills.nil.slot (slots operand List.mem_cons_self)
  | operand :: second :: rest =>
    have others := Fills.slots fun o member => slots o (List.mem_cons_of_mem operand member)
    have parted := others.append (s := [',', ' ']) (by decide)
    simpa using parted.slot (slots operand List.mem_cons_self)

/-- A template in the form of a statement: a mnemonic that is written out, and operands that are
indices of arguments or written out. -/
def isRegular (arity : Nat) (template : Text) : Bool :=
  let s := Line.statement template
  template == Line.ofStatement s && !s.mnemonic.isEmpty &&
    s.mnemonic.all (fun c => isPlain c && !Text.isBlank c) && s.operands.all (isSlot arity)

/-- The statement of a template, with arguments for the placeholders. -/
def filled (arguments : List Text) (template : Text) : Line.Statement :=
  ⟨(Line.statement template).mnemonic,
    (Line.statement template).operands.map (operandFor arguments)⟩

lemma isRegular_iff {arity : Nat} {template : Text} : isRegular arity template = true ↔
    template = Line.ofStatement (Line.statement template) ∧
    (Line.statement template).mnemonic ≠ [] ∧
    (∀ c ∈ (Line.statement template).mnemonic, isPlain c = true ∧ Text.isBlank c = false) ∧
    ∀ operand ∈ (Line.statement template).operands, isSlot arity operand = true := by
  simp [isRegular, and_assoc]

section
variable {arguments : List Text} {template : Text}

/-- A regular template is filled operand by operand. -/
theorem fill_regular (regular : isRegular arguments.length template = true) :
    fill template arguments = .ok (Line.ofStatement (filled arguments template)) := by
  obtain ⟨form, -, mnemonic, slots⟩ := isRegular_iff.1 regular
  conv_lhs => rw [form]
  have behind := (Fills.slots slots).cons (c := ' ') (by decide)
  exact (behind.append fun c member => (mnemonic c member).1).fill_eq

/-- The operands of a filled template are what its own operands give. -/
theorem statement_filled (regular : isRegular arguments.length template = true)
    (plain : ∀ argument ∈ arguments,
      (∀ c ∈ argument, Text.isBlank c = false) ∧ ',' ∉ argument) :
    Line.statement (Line.ofStatement (filled arguments template)) =
      ⟨Text.upper (filled arguments template).mnemonic,
        if (filled arguments template).operands = [[]] then []
        else (filled arguments template).operands⟩ := by
  obtain ⟨-, nonempty, mnemonic, slots⟩ := isRegular_iff.1 regular
  refine Line.statement_ofStatement nonempty (fun c member => (mnemonic c member).2) ?_
  intro operand member
  obtain ⟨slot, inside, rfl⟩ := List.mem_map.1 member
  obtain ⟨mark, index, argument, rfl, digit, given⟩ | ⟨written, same⟩ :=
    operandFor_cases (slots slot inside)
  · rw [operandFor_placeholder digit given]
    exact plain argument (List.mem_of_getElem? given)
  · rw [same]
    exact ⟨fun c here => (written c here).2.1, fun comma => (written ',' comma).2.2 rfl⟩

end

end Template

namespace Macro

/-- A macro whose templates are regular for its number of arguments. -/
def isRegular (m : Macro) : Bool :=
  0 ≤ m.arity && m.templates.all (Template.isRegular m.arity.toNat)

lemma isRegular_builtin : ∀ m ∈ builtin, m.isRegular = true := by decide +kernel

lemma arity_of_expand {m : Macro} {arguments lines : List Text}
    (expanded : m.expand arguments = .ok lines) : m.arity = arguments.length := by
  by_contra other
  rw [expand, if_neg other] at expanded
  cases expanded

/-- A macro stands for what its templates give, where each of them gives something. -/
lemma expand_eq_map {m : Macro} {arguments : List Text} (arity : m.arity = arguments.length)
    {f : Text → Text} (each : ∀ t ∈ m.templates, Template.fill t arguments = .ok (f t)) :
    m.expand arguments = .ok (m.templates.map f) := by
  rw [expand, if_pos arity]
  generalize m.templates = templates at each
  induction templates with
  | nil => rfl
  | cons t templates ih =>
    have others := ih fun t' member => each t' (List.mem_cons_of_mem t member)
    rw [List.mapM_cons, each t List.mem_cons_self]
    cases filled : templates.mapM (fun t => Template.fill t arguments) with
    | error fault => rw [filled] at others; cases others
    | ok lines =>
      rw [filled] at others
      cases others
      rfl

/-- A regular macro stands for its templates, each filled operand by operand. -/
theorem expand_regular {m : Macro} (regular : m.isRegular = true) {arguments : List Text}
    (arity : m.arity = arguments.length) :
    m.expand arguments =
      .ok (m.templates.map (fun t => Line.ofStatement (Template.filled arguments t))) := by
  have each : ∀ t ∈ m.templates, Template.isRegular arguments.length t = true := by
    simpa [isRegular, arity] using regular
  exact expand_eq_map arity fun t member => Template.fill_regular (each t member)

end Macro

/-- A kind of operand that is a number and is read from a single token. -/
def OperandKind.isNumeric : OperandKind → Bool
  | .word | .string | .rest => false
  | _ => true

/-- A numeric operand is read from the text that stands for its token, whatever is written beside
it. -/
lemma Operand.read_numeric {kind : OperandKind} (numeric : kind.isNumeric = true)
    (symbols : Symbols) (here : Nat) (token : Text) {operands : Option (List Text)} {position : Nat}
    (inside : ∀ list, operands = some list → position < list.length) :
    read symbols here kind token operands position =
      readPlain symbols here kind (substitute symbols token) none 0 := by
  have single (text : Text) (operands : Option (List Text)) (position : Nat) :
      readPlain symbols here kind text operands position =
        readPlain symbols here kind text none 0 := by
    cases kind with
    | word | string | rest => cases numeric
    | _ => rfl
  rw [read, substitute]
  cases replacement? symbols token with
  | none => exact single _ _ _
  | some written =>
    cases operands with
    | none => exact single _ _ _
    | some list =>
      dsimp only
      rw [if_pos (inside list rfl)]
      exact single _ _ _

namespace Instruction

def isNumeric (i : Instruction) : Bool := i.kinds.all OperandKind.isNumeric

lemma isNumeric_builtin : ∀ i ∈ builtin, i.isNumeric = true := by decide +kernel

end Instruction
end Mips64
