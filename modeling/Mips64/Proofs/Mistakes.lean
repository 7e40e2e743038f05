import Mips64.Proofs.Comments
import Mips64.Proofs.Directives
import Mips64.Proofs.Operands
import Mips64.Proofs.WordRange

/-! What can stop an assembly with the machine's own tables. Main statement: if the numerals of a
source can be converted, then it assembles to a program that can be written as bytes, or one of its
lines has a mistake, and the report holds that line and its number. -/
namespace Mips64

/-- A computation ends in a result of one kind, or in a failure of another. -/
def Ends {ε α : Type} (good : α → Prop) (bad : ε → Prop) : Except ε α → Prop
  | .ok a => good a
  | .error e => bad e

section
variable {ε α β : Type} {good : α → Prop} {better : β → Prop} {bad : ε → Prop}

lemma FailsWithin.ends {x : Except ε α} (fails : FailsWithin bad x) :
    Ends (fun _ => True) bad x := by
  cases x with
  | ok a => trivial
  | error e => exact fails e rfl

lemma Ends.imp {other : α → Prop} {x : Except ε α} (h : Ends good bad x)
    (result : ∀ a, x = .ok a → good a → other a) : Ends other bad x := by
  cases x with
  | ok a => exact result a rfl h
  | error e => exact h

lemma Ends.bind {x : Except ε α} {f : α → Except ε β} (first : Ends good bad x)
    (next : ∀ a, x = .ok a → good a → Ends better bad (f a)) : Ends better bad (x >>= f) := by
  cases x with
  | ok a => exact next a rfl first
  | error e => exact first

/-- A loop ends well if every turn keeps what it starts with. -/
lemma Ends.foldlM {f : β → α → Except ε β} {xs : List α}
    (turn : ∀ x ∈ xs, ∀ b, better b → Ends better bad (f b x)) {b : β} (start : better b) :
    Ends better bad (xs.foldlM f b) := by
  induction xs generalizing b with
  | nil => exact start
  | cons x xs ih =>
    rw [List.foldlM_cons]
    refine (turn x List.mem_cons_self b start).bind fun next _ kept => ih ?_ kept
    exact fun x' member => turn x' (List.mem_cons_of_mem x member)

end

open Failure (IsMistake)
open Text (IsConvertible)

/-- Symbols in which the text of every definition is convertible. -/
def Symbols.IsConvertible (symbols : Symbols) : Prop :=
  ∀ entry ∈ symbols.definitions, Text.IsConvertible entry.2

namespace Operand

/-- The parts of an offset token are cut from it. -/
lemma sublist_of_offsetParts {token imm register : Text}
    (h : offsetParts token = .ok (imm, register)) :
    imm.Sublist token ∧ register.Sublist token := by
  unfold offsetParts at h
  dsimp only at h
  split at h
  · rename_i inner opened
    split at h
    · split at h
      · cases h
      · cases h
        have stripped := Text.strip_sublist token
        have behind : inner.Sublist (Text.strip token) := by
          refine (List.sublist_cons_self '(' inner).trans ?_
          rw [← opened]
          exact List.dropWhile_sublist _
        constructor
        · exact (Text.strip_sublist _).trans ((List.takeWhile_sublist _).trans stripped)
        · exact (Text.strip_sublist _).trans
            ((List.takeWhile_sublist _).trans (behind.trans stripped))
    · cases h
  · cases h

def IsNumber (operand : Operand) : Prop := ∃ value, operand.value? = some value

section
variable {symbols : Symbols} (defined : symbols.IsConvertible) {token : Text}
  (convertible : IsConvertible token)
include defined convertible

lemma isConvertible_substitute : IsConvertible (substitute symbols token) := by
  rw [substitute, replacement?, Symbols.definition?]
  cases found : symbols.definitions.lookup (Text.upper (Text.strip token)) with
  | none => exact convertible
  | some text =>
    obtain ⟨before, after, split, -⟩ := List.lookup_eq_some_iff.1 found
    exact defined (_, text) (split ▸ List.mem_append_right _ List.mem_cons_self)

/-- A numeric operand is read as a number, or it has a mistake. -/
lemma ends_readPlain {kind : OperandKind} (numeric : kind.isNumeric = true) (here : Nat) :
    Ends IsNumber IsMistake (readPlain symbols here kind token none 0) := by
  have number {text : Text} {α : Type} {x : Except Failure α} {f : α → Operand}
      (fails : FailsWithin (Failure.IsOfText text) x) (part : IsConvertible text)
      (value : ∀ a, IsNumber (f a)) : Ends IsNumber IsMistake (do return f (← x)) :=
    (fails.imp fun _ h => h.2 part).ends.bind fun a _ _ => value a
  cases kind with
  | general | base | control =>
    exact number (Register.failsWithin_read _ token) convertible fun _ => ⟨_, rfl⟩
  | number16 | number24 | number5 =>
    exact number (failsWithin_value symbols token) convertible fun _ => ⟨_, rfl⟩
  | branch =>
    exact number (failsWithin_displacement symbols here token) convertible fun _ => ⟨_, rfl⟩
  | offset =>
    have cut := ((failsWithin_offsetParts token).imp fun _ => And.right).ends
    refine cut.bind fun parts split _ => ?_
    have part := convertible.of_sublist (sublist_of_offsetParts split).1
    exact number (failsWithin_value symbols _) (isConvertible_substitute defined part)
      fun _ => ⟨_, rfl⟩
  | word | string | rest => cases numeric

end

end Operand

namespace Instruction

/-- Numbers can always be packed into a word. -/
lemma exists_word {operands : List Operand} (numbers : ∀ operand ∈ operands, operand.IsNumber)
    (i : Instruction) : ∃ n, i.word operands = .ok n := by
  have carry : operands.map Operand.value? =
      (operands.map (fun operand => operand.value?.getD 0)).map some := by
    rw [List.map_map]
    refine List.map_congr_left fun operand member => ?_
    obtain ⟨value, carried⟩ := numbers operand member
    simp [carried]
  exact ⟨_, word_eq_pack carry i⟩

section
variable {symbols : Symbols} (defined : symbols.IsConvertible) {written : List Text}
  (convertible : ∀ token ∈ written, IsConvertible token)
include defined convertible

lemma ends_readFrom (here : Nat) {kinds : List OperandKind}
    (numeric : ∀ kind ∈ kinds, kind.isNumeric = true) {position : Nat}
    (enough : position + kinds.length ≤ written.length) :
    Ends (fun operands => ∀ operand ∈ operands, operand.IsNumber) IsMistake
      (readFrom symbols here written kinds position) := by
  induction kinds generalizing position with
  | nil => exact fun operand member => absurd member List.not_mem_nil
  | cons kind kinds ih =>
    rw [List.length_cons] at enough
    have inside : position < written.length := by omega
    have found := List.getElem?_eq_getElem inside
    generalize written[position] = token at found
    have plain := Operand.isConvertible_substitute defined
      (convertible token (List.mem_of_getElem? found))
    have single := numeric kind List.mem_cons_self
    rw [readFrom, found]
    dsimp only
    rw [Operand.read_numeric single symbols here token (by rintro list ⟨⟩; exact inside)]
    refine (Operand.ends_readPlain defined plain single here).bind fun first _ isNumber => ?_
    have others (second : List Operand) (numbers : ∀ operand ∈ second, operand.IsNumber) :
        Ends (fun operands => ∀ operand ∈ operands, operand.IsNumber) IsMistake
          (readFrom symbols here written kinds (position + 1) >>= fun others =>
            pure (first :: second ++ others)) := by
      refine (ih (fun k member => numeric k (List.mem_cons_of_mem kind member))
        (by omega)).bind fun rest _ all => ?_
      intro operand member
      simp only [List.cons_append, List.mem_cons, List.mem_append] at member
      rcases member with rfl | member | member
      · exact isNumber
      · exact numbers operand member
      · exact all operand member
    split
    · -- The token of an offset is cut a second time, for the base register in it.
      refine ((Operand.failsWithin_offsetParts _).imp fun _ => And.right).ends.bind
        fun parts split _ => ?_
      have part := plain.of_sublist (Operand.sublist_of_offsetParts split).2
      rw [Operand.read_numeric rfl symbols here parts.2 (by rintro list ⟨⟩)]
      refine (Operand.ends_readPlain defined (Operand.isConvertible_substitute defined part) rfl
        here).bind fun base _ isBase => others [base] ?_
      simpa using isBase
    · exact others [] nofun

/-- An instruction of the machine has a word, or it has a mistake. -/
theorem ends_encode {i : Instruction} (listed : i ∈ builtin) (here : Nat) :
    Ends (· < 2 ^ 32) IsMistake (i.encode symbols here written) := by
  have counts : ∀ i ∈ builtin, (i.kinds.filter (· != .base)).length = i.tokenCount := by
    decide +kernel
  have numeric : ∀ kind ∈ i.kinds.filter (· != .base), kind.isNumeric = true := fun kind member =>
    List.all_eq_true.1 (isNumeric_builtin i listed) kind (List.mem_of_mem_filter member)
  unfold encode readOperands
  split
  · rename_i length
    have enough : 0 + (i.kinds.filter (· != .base)).length ≤ written.length := by
      rw [counts i listed, length, Nat.zero_add]
    refine (ends_readFrom defined convertible here numeric enough).bind fun operands _ numbers => ?_
    obtain ⟨n, made⟩ := exists_word numbers i
    rw [made]
    exact word_lt made
  · trivial

end

end Instruction

namespace Line

lemma isConvertible_normalize {line : Text} (h : IsConvertible line) :
    IsConvertible (normalize line) := by
  obtain ⟨k, kept, -⟩ := exists_end_withoutComment line
  rw [normalize, kept]
  exact (h.of_sublist (List.take_sublist k line)).strip.upper

lemma declaration_sublist (text : Text) : (declaration text).2.Sublist text := by
  have behind : (Text.splitWord text).2.Sublist text :=
    (List.dropWhile_sublist _).trans ((List.dropWhile_sublist _).trans (List.dropWhile_sublist _))
  unfold declaration
  dsimp only
  split
  · exact (Text.strip_sublist _).trans behind
  · exact List.Sublist.refl _

/-- An operand is cut from its line. -/
lemma sublist_of_mem_operands {line operand : Text}
    (member : operand ∈ (statement line).operands) : operand.Sublist line := by
  have part : operand.Sublist (written line) := by
    rw [operands_eq, cutOperands] at member
    split at member
    · cases member
    · refine (List.sublist_flatten_of_mem member).trans ?_
      rw [List.splitOn, flatten_splitOnP]
      exact List.filter_sublist
  have behind : (written line).Sublist (Text.compact line) := by
    rw [compact_eq_written]
    exact List.sublist_append_right _ _
  exact part.trans (behind.trans List.filter_sublist)

end Line

namespace Directive

/-- The arguments of a directive have no digits that its line has not. -/
lemma digits_parts_sublist (line : Text) :
    (Text.digits (parts line).2.flatten).Sublist (Text.digits line) := by
  have turned (s : Text) : (Text.digits (s.map fun c => if c = ',' then ' ' else c)).Sublist
      (Text.digits s) := by
    induction s with
    | nil => exact .slnil
    | cons c s ih =>
      by_cases comma : c = ','
      · subst comma
        exact ih
      · simp only [Text.digits, List.map_cons, if_neg comma, List.filter_cons]
        split
        · exact ih.cons_cons c
        · exact ih
  have inner : ((Text.strip line).tail.dropLast).Sublist line :=
    (List.dropLast_sublist _).trans ((List.tail_sublist _).trans (Text.strip_sublist line))
  simp only [parts]
  split
  · exact List.nil_sublist _
  · rename_i name arguments words
    have cut : arguments.flatten.Sublist ((Text.strip line).tail.dropLast.map
        fun c => if c = ',' then ' ' else c) := by
      have all : arguments.flatten.Sublist (name :: arguments).flatten :=
        List.sublist_append_right name _
      rw [← words, Text.flatten_words] at all
      exact all.trans List.filter_sublist
    exact (cut.filter _).trans ((turned _).trans (inner.filter _))

lemma digits_joinWith (tokens : List Text) :
    Text.digits (Text.joinWith ' ' tokens) = Text.digits tokens.flatten := by
  rw [Text.digits, Text.joinWith, filter_intercalate, Text.digits, List.filter_flatten]
  exact nil_intercalate _

/-- What a directive asks for is convertible where its line is. -/
lemma isConvertible_of_request {line : Text} (convertible : IsConvertible line) {q : Request}
    (asks : request line = .ok q) : (∀ token, q = .base token → IsConvertible token) ∧
      ∀ entry, q.entry? = some entry → IsConvertible entry.2 := by
  have all := digits_parts_sublist line
  simp only [request] at asks
  split at asks
  · cases asks
  · split at asks
    · rename_i token arguments
      cases asks
      rw [arguments, List.flatten_singleton] at all
      constructor
      · rintro _ ⟨⟩
        exact convertible.of_digits all
      · rintro _ ⟨⟩
    · cases asks
  · split at asks
    · rename_i name token more arguments
      cases asks
      refine ⟨by rintro _ ⟨⟩, ?_⟩
      rintro _ ⟨⟩
      have tokens : (Text.digits (token :: more).flatten).Sublist (Text.digits line) := by
        refine List.Sublist.trans ?_ all
        rw [arguments]
        exact (List.sublist_append_right name _).filter _
      rw [← digits_joinWith] at tokens
      exact (convertible.of_digits tokens).strip
    · cases asks

/-- A directive has its effect, or it has a mistake. -/
lemma failsWithin_run_isMistake {store : Store} (defined : store.toSymbols.IsConvertible)
    {line : Text} (convertible : IsConvertible line) : FailsWithin IsMistake (run store line) := by
  rw [run]
  refine ((failsWithin_request line).imp fun _ => And.left).bind fun q asks => ?_
  cases q with
  | base token =>
    have argument := (isConvertible_of_request convertible asks).1 token rfl
    refine FailsWithin.bind ?_ fun _ _ => .ok _
    exact (Operand.failsWithin_value _ _).imp fun _ h =>
      h.2 (Operand.isConvertible_substitute defined argument)
  | define name tokens => exact (failsWithin_applyDefine store name tokens).imp fun _ => And.left

end Directive

namespace Macro

/-- The operands of the lines that a macro of the machine stands for are convertible where its
arguments are. -/
lemma isConvertible_of_expand {m : Macro} (listed : m ∈ builtin) {arguments lines : List Text}
    (plain : ∀ a ∈ arguments, (∀ c ∈ a, Text.isBlank c = false) ∧ ',' ∉ a)
    (convertible : ∀ a ∈ arguments, IsConvertible a) (expanded : m.expand arguments = .ok lines)
    {e : Text} (member : e ∈ lines) :
    ∀ operand ∈ (Line.statement e).operands, IsConvertible operand := by
  have written : ∀ m ∈ builtin, ∀ t ∈ m.templates, ∀ operand ∈ (Line.statement t).operands,
      IsConvertible operand := by decide +kernel
  have regular := isRegular_builtin m listed
  have arity := arity_of_expand expanded
  rw [expand_regular regular arity] at expanded
  cases expanded
  obtain ⟨t, inside, rfl⟩ := List.mem_map.1 member
  have each : Template.isRegular arguments.length t = true := by
    simp only [isRegular, arity, Int.toNat_natCast, Bool.and_eq_true, List.all_eq_true] at regular
    exact regular.2 t inside
  rw [Template.statement_filled each plain]
  intro operand given
  dsimp only at given
  split at given
  · cases given
  · obtain ⟨slot, at_slot, rfl⟩ := List.mem_map.1 given
    obtain ⟨mark, index, argument, rfl, digit, found⟩ | ⟨-, same⟩ :=
      Template.operandFor_cases ((Template.isRegular_iff.1 each).2.2.2 slot at_slot)
    · rw [Template.operandFor_placeholder digit found]
      exact convertible argument (List.mem_of_getElem? found)
    · rw [same]
      exact written m listed t inside slot at_slot

/-- A macro of the machine fails only by the number of its arguments. -/
lemma failsWithin_expand_isMistake {m : Macro} (listed : m ∈ builtin) (arguments : List Text) :
    FailsWithin IsMistake (m.expand arguments) := by
  by_cases arity : m.arity = arguments.length
  · rw [expand_regular (isRegular_builtin m listed) arity]
    exact .ok _
  · rw [expand, if_neg arity]
    exact .error trivial

end Macro

namespace Assembly

/-- What a line holds beside its label is cut from it. -/
lemma sublist_of_shape {text body : Text} (holds : (shape text).content = .statement body ∨
    (shape text).content = .directive body) : body.Sublist text := by
  have content {whole : Text} (h : contentOf whole = .statement body ∨
      contentOf whole = .directive body) : body = whole := by
    unfold contentOf at h
    split at h
    · rcases h with h | h <;> cases h
    · split at h
      · rcases h with h | h <;> cases h
        rfl
      · rcases h with h | h <;> cases h
        rfl
  unfold shape at holds
  split at holds
  · rcases holds with h | h <;> cases h
    exact List.Sublist.refl _
  · rw [content holds]
    exact Line.declaration_sublist text

def Run.IsConvertible (r : Run) : Prop := r.store.toSymbols.IsConvertible

/-- A line is accounted for, or it has a mistake. -/
lemma ends_tally {line : Text} (convertible : IsConvertible line) (t : Tables) {r : Run}
    (defined : r.IsConvertible) :
    Ends Run.IsConvertible (Halt.StopsWithin IsMistake) (tally t (Line.normalize line) r) := by
  have normal := Line.isConvertible_normalize convertible
  have fails : FailsWithin (Halt.StopsWithin IsMistake) (tally t (Line.normalize line) r) := by
    rw [tally_eq]
    refine FailsWithin.bind ((failsWithin_declareLabel _ r).imp fun _ stops =>
      stops.imp fun _ => And.left) fun declared declares => ?_
    have still : declared.IsConvertible := by
      rw [Run.IsConvertible, Symbols.IsConvertible, declareLabel_definitions declares]
      exact defined
    cases holds : (shape (Line.normalize line)).content with
    | nothing => exact .ok _
    | statement s => exact failsWithin_tallyStatement t s declared
    | directive d =>
      have body := normal.of_sublist (sublist_of_shape (.inr holds))
      exact Run.failsWithin_step (Directive.failsWithin_run_isMistake still body) declared
  -- A definition that is there after the line was there before, or is asked for by the line.
  refine fails.ends.imp fun next tallied _ => ?_
  intro entry member
  rw [(tally_definitions tallied).1, List.mem_append, Option.mem_toList] at member
  rcases member with old | new
  · exact defined entry old
  · obtain ⟨q, asks, added⟩ := Option.bind_eq_some_iff.1 new
    obtain ⟨d, holds, request⟩ := exists_of_requestOf asks
    have body := normal.of_sublist (sublist_of_shape (.inr holds))
    exact (Directive.isConvertible_of_request body request).2 entry added

/-- An instruction of the machine is put out, or it has a mistake. -/
lemma ends_encodeInstruction {i : Instruction} (listed : i ∈ Instruction.builtin) (line : Text)
    {operands : List Text} (convertible : ∀ operand ∈ operands, IsConvertible operand) {r : Run}
    (defined : r.IsConvertible) :
    Ends Run.IsConvertible (Halt.StopsWithin IsMistake) (encodeInstruction i line operands r) := by
  have ends := Instruction.ends_encode defined convertible listed r.store.size
  unfold encodeInstruction
  cases encoded : i.encode r.store.toSymbols r.store.size operands with
  | error failure =>
    rw [encoded] at ends
    exact ⟨failure, rfl, ends⟩
  | ok word =>
    rw [encoded] at ends
    dsimp only
    rw [putWord_of_lt ends]
    exact defined

/-- A statement is encoded with the tables of the machine, or it has a mistake. -/
lemma ends_encodeNested {line : Text}
    (convertible : ∀ operand ∈ (Line.statement line).operands, IsConvertible operand) {r : Run}
    (defined : r.IsConvertible) (levels : Nat) :
    Ends Run.IsConvertible (Halt.StopsWithin IsMistake)
      (encodeNested Tables.builtin (levels + 1) line r) := by
  cases role : Tables.builtin.role (Line.statement line).mnemonic with
  | unknown =>
    rw [encodeNested, role]
    exact ⟨_, rfl, trivial⟩
  | instruction i =>
    have listed := Tables.mem_of_instruction? (Tables.role_eq_instruction_iff.1 role)
    rw [encodeNested_instruction role]
    exact ends_encodeInstruction listed line convertible defined
  | expansion m =>
    have listed := Tables.mem_of_expansion? (Tables.role_eq_expansion_iff.1 role).2
    cases expanded : m.expand (Line.statement line).operands with
    | error failure =>
      rw [encodeNested_expansion_error role expanded]
      exact ⟨failure, rfl, Macro.failsWithin_expand_isMistake listed _ failure expanded⟩
    | ok lines =>
      rw [encodeNested_expansion role expanded]
      refine Ends.foldlM (fun e member r defined => ?_) defined
      obtain ⟨i, instruction⟩ := exists_instruction_of_expand listed expanded member
      rw [encodeNested_instruction instruction]
      refine ends_encodeInstruction
        (Tables.mem_of_instruction? (Tables.role_eq_instruction_iff.1 instruction)) e ?_ defined
      exact Macro.isConvertible_of_expand listed (fun _ => Line.visible_of_mem_operands) convertible
        expanded member

/-- A line is encoded, or it has a mistake. -/
lemma ends_encodeLine {line : Text} (convertible : IsConvertible line) {r : Run}
    (defined : r.IsConvertible) :
    Ends Run.IsConvertible (Halt.StopsWithin IsMistake)
      (encodeLine Tables.builtin (Line.normalize line) r) := by
  have entered (label : Option Text) : (enterScope label r).IsConvertible := by
    unfold enterScope
    split
    · exact defined
    · split <;> exact defined
  rw [encodeLine_eq]
  cases holds : (shape (Line.normalize line)).content with
  | nothing | directive d => exact entered _
  | statement s =>
    refine ends_encodeNested (fun operand member => ?_) (entered _) _
    have body := (Line.isConvertible_normalize convertible).of_sublist
      (sublist_of_shape (.inl holds))
    exact body.of_sublist (Line.sublist_of_mem_operands member)

/-- A step for each line of a source, numbered from a number on. -/
def overLines (step : Text → Run → Except Halt Run) :
    (number : Nat) → List Text → Run → Except Halt Run
  | _, [], r => .ok r
  | number, line :: rest, r =>
    match step line r with
    | .ok next => overLines step (number + 1) rest next
    | .error h => .error (h.attach ⟨number, line⟩)

lemma firstPass_eq_overLines (t : Tables) (number : Nat) (source : List Text) (r : Run) :
    firstPass t number source r =
      overLines (fun line => tally t (Line.normalize line)) number source r := by
  induction source generalizing number r with
  | nil => rfl
  | cons line source ih =>
    rw [firstPass, overLines]
    cases tally t (Line.normalize line) r with
    | ok next => exact ih (number + 1) next
    | error h => rfl

lemma secondPass_eq_overLines (t : Tables) (number : Nat) (source : List Text) (r : Run) :
    secondPass t number source r =
      overLines (fun line => encodeLine t (Line.normalize line)) number source r := by
  induction source generalizing number r with
  | nil => rfl
  | cons line source ih =>
    rw [secondPass, overLines]
    cases encodeLine t (Line.normalize line) r with
    | ok next => exact ih (number + 1) next
    | error h => rfl

/-- A run that stopped at a mistake, with a line of the source and its number in the report. -/
def Halt.IsPlaced (number : Nat) (source : List Text) (h : Halt) : Prop :=
  ∃ (c : Cause) (k : Nat) (line : Text), c.IsOfLine ∧ source[k]? = some line ∧
    h.report = ⟨.cause c, some ⟨((number + k : Nat) : Int), line⟩⟩

/-- Where each line ends well or has a mistake, so do all together, and the report of a mistake
holds the line that has it. -/
theorem ends_overLines {step : Text → Run → Except Halt Run} {source : List Text}
    {good : Run → Prop} (each : ∀ line ∈ source, ∀ r, good r →
      Ends good (Halt.StopsWithin IsMistake) (step line r)) (number : Nat) {r : Run}
    (start : good r) :
    Ends good (Halt.IsPlaced number source) (overLines step number source r) := by
  induction source generalizing number r with
  | nil => exact start
  | cons line source ih =>
    have first := each line List.mem_cons_self r start
    rw [overLines]
    cases stepped : step line r with
    | ok next =>
      rw [stepped] at first
      have others := ih (fun l member => each l (List.mem_cons_of_mem line member)) (number + 1)
        first
      dsimp only
      cases rest : overLines step (number + 1) source next with
      | ok final =>
        rw [rest] at others
        exact others
      | error h =>
        rw [rest] at others
        obtain ⟨c, k, line', ofLine, found, report⟩ := others
        have further : number + 1 + k = number + (k + 1) := by omega
        exact ⟨c, k + 1, line', ofLine, found, by rw [report, further]⟩
    | error h =>
      rw [stepped] at first
      obtain ⟨failure, report, mistake⟩ := first
      cases failure with
      | fault f => exact mistake.elim
      | cause c =>
        refine ⟨c, 0, line, mistake, rfl, ?_⟩
        simp only [Halt.attach, report]
        rfl

/-- Both passes go through, or a line has a mistake. -/
lemma ends_passes {source : List Text} (convertible : ∀ line ∈ source, IsConvertible line) :
    Ends (fun _ => True) (Halt.IsPlaced 1 source) (passes Tables.builtin source) := by
  have first : Ends Run.IsConvertible (Halt.IsPlaced 1 source)
      (firstPass Tables.builtin 1 source Run.empty) := by
    rw [firstPass_eq_overLines]
    exact ends_overLines (fun line member r => ends_tally (convertible line member) _) 1 nofun
  have second {r : Run} (defined : r.IsConvertible) : Ends Run.IsConvertible
      (Halt.IsPlaced 1 source) (secondPass Tables.builtin 1 source r) := by
    rw [secondPass_eq_overLines]
    exact ends_overLines (fun line member r => ends_encodeLine (convertible line member)) 1 defined
  -- Passes that both go through agree on the count, so the check between them succeeds.
  refine first.bind fun counted tallied defined => ?_
  refine (second (r := counted.rewound) defined).bind fun emitted encoded _ => ?_
  rw [if_pos (size_eq_count Tables.hasPlainMnemonics_builtin (firstPass_eq_ok_iff.1 tallied)
    (secondPass_eq_ok_iff.1 encoded))]
  trivial

/-- With the tables of the machine, and numerals that can be converted, a source assembles to a
program that can be written as bytes, or the assembly ends in a report of a mistake with its line.
The report is never about the range of a word or about passes that disagree. -/
theorem assemble_ends {source : List Text}
    (short : ∀ line ∈ source, line.countP Text.isDigit ≤ Text.maxDecimalDigits)
    (decimal : ∀ line ∈ source, ∀ c ∈ line, Text.isDigit c = true →
      (Text.decimalValue? c).isSome = true) :
    (∃ p bytes, (assemble Tables.builtin source).result = .ok p ∧ p.bytes? = some bytes ∧
      bytes.length = p.size) ∨
    ∃ (c : Cause) (k : Nat) (line : Text),
      (assemble Tables.builtin source).result =
        .error ⟨.cause c, some ⟨((k + 1 : Nat) : Int), line⟩⟩ ∧
      source[k]? = some line ∧ .severe ∈ c.kind.lineage ∧ (∀ word, c ≠ .wordOutOfRange word) ∧
      ∀ emitted counted, c ≠ .passesDisagree emitted counted := by
  have convertible : ∀ line ∈ source, IsConvertible line := by
    intro line member
    refine ⟨?_, fun c digit => ?_⟩
    · rw [Text.digits, ← List.countP_eq_length_filter]
      exact short line member
    · obtain ⟨inside, isDigit⟩ := List.mem_filter.1 digit
      exact decimal line member c inside isDigit
  have ends := ends_passes convertible
  cases both : passes Tables.builtin source with
  | ok final =>
    have assembled : (assemble Tables.builtin source).result = .ok final.program :=
      assemble_result_eq_ok_iff.2 ⟨final, both, rfl⟩
    obtain ⟨bytes, made, length⟩ := exists_bytes? assembled
    exact .inl ⟨final.program, bytes, assembled, made, length⟩
  | error h =>
    rw [both] at ends
    obtain ⟨c, k, line, ofLine, found, report⟩ := ends
    refine .inr ⟨c, k, line, ?_, found, ?_, ?_, ?_⟩
    · rw [assemble, both]
      dsimp only
      rw [report, Nat.add_comm 1 k]
    · cases c.kind <;> decide
    · rintro word rfl
      exact ofLine
    · rintro emitted counted rfl
      exact ofLine

/-- A loop with a register whose number is written in Arabic digits. -/
def arabicLoop : List Text := ["loop: addu $\u0661\u0660, $t0, $9".toList, "b loop".toList]

/-- The loop has eight bytes; twice the loop is a mistake, since it declares its label twice. -/
theorem assemble_ends_arabicLoop :
    (∃ p bytes, (assemble Tables.builtin arabicLoop).result = .ok p ∧ p.bytes? = some bytes ∧
      bytes.length = 8) ∧
    ∃ (c : Cause) (k : Nat) (line : Text),
      (assemble Tables.builtin (arabicLoop ++ arabicLoop)).result =
        .error ⟨.cause c, some ⟨((k + 1 : Nat) : Int), line⟩⟩ ∧
      (arabicLoop ++ arabicLoop)[k]? = some line := by
  have once := @assemble_ends arabicLoop (by decide +kernel) (by decide +kernel)
  have twice := @assemble_ends (arabicLoop ++ arabicLoop) (by decide +kernel) (by decide +kernel)
  have evaluated : (program? Tables.builtin arabicLoop).map Program.size = some 8 := by
    decide +kernel
  have refused : (tallyLines Tables.builtin (arabicLoop ++ arabicLoop) Run.empty).isOk = false := by
    decide +kernel
  obtain ⟨p, made, size⟩ := Option.map_eq_some_iff.1 evaluated
  have assembled := assemble_result_of_program? made
  constructor
  · obtain ⟨q, bytes, same, written, length⟩ | ⟨c, k, line, failed, -⟩ := once
    · cases assembled.symm.trans same
      exact ⟨p, bytes, assembled, written, length.trans size⟩
    · cases assembled.symm.trans failed
  · obtain ⟨q, -, same, -⟩ | ⟨c, k, line, failed, found, -⟩ := twice
    · obtain ⟨counted, -, first, -⟩ := exists_runs_of_assemble same
      rw [first] at refused
      cases refused
    · exact ⟨c, k, line, failed, found⟩

end Assembly
end Mips64
