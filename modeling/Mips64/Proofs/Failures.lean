import Mips64.Proofs.Numerals
import Mips64.Proofs.Passes

/-! The failures that steps can end in. An operand fails in a way that is about the operand,
whatever it is read as and wherever it stands; and a pass fails in a way that is about one of its
lines, so only the comparison of the passes reports that they disagree. -/
namespace Mips64

/-- Where a computation fails, it fails in one of these ways. -/
def FailsWithin {ε α : Type} (ways : ε → Prop) (x : Except ε α) : Prop :=
  ∀ e, x = .error e → ways e

namespace FailsWithin

variable {ε α β : Type} {ways : ε → Prop}

lemma ok (a : α) : FailsWithin ways (.ok a) := by
  intro e h
  cases h

lemma error {e : ε} (h : ways e) : FailsWithin ways (.error e : Except ε α) := by
  intro e' same
  cases same
  exact h

lemma bind {x : Except ε α} {f : α → Except ε β} (first : FailsWithin ways x)
    (next : ∀ a, x = .ok a → FailsWithin ways (f a)) : FailsWithin ways (x >>= f) := by
  cases x with
  | error e => exact error (first e rfl)
  | ok a => exact next a rfl

lemma mapError {δ : Type} {x : Except δ α} {g : δ → ε} (h : FailsWithin (fun e => ways (g e)) x) :
    FailsWithin ways (x.mapError g) := by
  cases x with
  | error e => exact error (h e rfl)
  | ok a => exact ok a

lemma map {x : Except ε α} (h : FailsWithin ways x) (f : α → β) : FailsWithin ways (x.map f) := by
  cases x with
  | error e => exact error (h e rfl)
  | ok a => exact ok (f a)

lemma foldlM {f : β → α → Except ε β} (h : ∀ b a, FailsWithin ways (f b a)) (xs : List α) (b : β) :
    FailsWithin ways (xs.foldlM f b) := by
  induction xs generalizing b with
  | nil => exact ok b
  | cons x xs ih =>
    rw [List.foldlM_cons]
    exact (h b x).bind fun next _ => ih next

lemma imp {more : ε → Prop} {x : Except ε α} (h : FailsWithin ways x)
    (wider : ∀ e, ways e → more e) : FailsWithin more x :=
  fun e failed => wider e (h e failed)

end FailsWithin

def Failure.IsOfOperand : Failure → Prop
  | .fault _ => True
  | .cause c =>
    match c with
    | .unknownRegister _ _ | .invalidNumber _ | .unresolvedLabel _ | .emptyBranchTarget
    | .malformedOffset _ | .expectedString _ | .unterminatedString _ | .noOperandList => True
    | _ => False

def Cause.IsOfLine : Cause → Prop
  | .passesDisagree _ _ | .wordOutOfRange _ => False
  | _ => True

/-- A failure that is a mistake in a line of the source. -/
def Failure.IsMistake : Failure → Prop
  | .cause c => c.IsOfLine
  | .fault _ => False

def Failure.IsRecursion : Failure → Prop
  | .cause c => c.kind = .macroRecursion
  | .fault _ => False

/-- A mistake in a line that is not about the macros that the line uses. -/
def Failure.IsFlatMistake (failure : Failure) : Prop := failure.IsMistake ∧ ¬ failure.IsRecursion

/-- A failure that is about an operand in a text, and is a mistake if its numerals can be
converted. -/
def Failure.IsOfText (text : Text) (failure : Failure) : Prop :=
  failure.IsOfOperand ∧ (text.IsConvertible → failure.IsMistake)

open Failure (IsOfOperand IsOfText IsMistake IsFlatMistake)

lemma Register.failsWithin_read (bank : Bank) (token : Text) :
    FailsWithin (IsOfText token) (read bank token) := by
  have unknown : FailsWithin (IsOfText token)
      (.error (.cause (.unknownRegister bank (Text.upper (Text.strip token)))) :
        Except Failure Nat) := .error ⟨trivial, fun _ => trivial⟩
  unfold read
  dsimp only
  split
  · rename_i name written
    split
    · exact .ok _
    · split
      · rename_i digits
        simp only [Bool.and_eq_true, List.all_eq_true] at digits
        split
        · rename_i fault failed
          refine .error ⟨trivial, fun convertible => ?_⟩
          have part : name.Sublist (Text.upper (Text.strip token)) :=
            written ▸ List.sublist_cons_self _ _
          obtain ⟨n, number⟩ :=
            exists_decimalNumber (convertible.strip.upper.of_sublist part) digits.2
          cases failed.symm.trans number
        · split
          · exact .ok _
          · exact written ▸ unknown
      · exact written ▸ unknown
  · exact unknown

namespace Operand

lemma failsWithin_literal (symbols : Symbols) (token : Text) :
    FailsWithin (IsOfText token) (literal symbols token) := by
  have mistake (flaw : NumberFlaw) : FailsWithin (IsOfText token)
      (.error (.cause (.invalidNumber flaw)) : Except Failure Int) :=
    .error ⟨trivial, fun _ => trivial⟩
  unfold literal
  split
  · exact .ok _
  · split
    · exact mistake _
    · split
      · exact .ok _
      · exact mistake _
    · split
      · exact .ok _
      · exact mistake _
    · split
      · exact mistake _
      · rename_i decimal
        split
        · rename_i long
          refine .error ⟨trivial, fun convertible => ?_⟩
          have short := convertible.length_unsigned_le (by simpa using decimal)
          omega
        · exact .ok _

lemma failsWithin_address (symbols : Symbols) (token : Text) :
    FailsWithin (IsOfText token) (address symbols token) := by
  unfold address
  dsimp only
  split
  · exact .ok _
  · exact (failsWithin_literal symbols _).imp fun _ h =>
      ⟨h.1, fun convertible => h.2 convertible.strip.upper.strip.upper⟩

lemma failsWithin_value (symbols : Symbols) (token : Text) :
    FailsWithin (IsOfText token) (value symbols token) := by
  unfold value
  split
  · split <;> exact .error ⟨trivial, fun _ => trivial⟩
  · exact failsWithin_address symbols token

lemma failsWithin_displacement (symbols : Symbols) (here : Nat) (token : Text) :
    FailsWithin (IsOfText token) (displacement symbols here token) := by
  unfold displacement
  split
  · exact .error ⟨trivial, fun _ => trivial⟩
  · split
    · exact .ok _
    · exact .error ⟨trivial, fun _ => trivial⟩
    · rename_i failure _ failed
      exact .error (failsWithin_address symbols token failure failed)

lemma failsWithin_offsetParts (token : Text) :
    FailsWithin (fun failure => failure.IsOfOperand ∧ failure.IsMistake) (offsetParts token) := by
  unfold offsetParts
  dsimp only
  split
  · split
    · split
      · exact .error ⟨trivial, trivial⟩
      · exact .ok _
    · exact .error ⟨trivial, trivial⟩
  · exact .error ⟨trivial, trivial⟩

lemma failsWithin_stringAt (operands : Option (List Text)) (position : Nat) :
    FailsWithin IsOfOperand (stringAt operands position) := by
  cases operands with
  | none => exact .error trivial
  | some list =>
    unfold stringAt leadingString
    dsimp only
    split
    · exact .error trivial
    · split
      · exact .ok _
      · exact .error trivial
    · exact .error trivial

lemma failsWithin_restAt (operands : Option (List Text)) (position : Nat) :
    FailsWithin IsOfOperand (restAt operands position) := by
  cases operands with
  | none => exact .error trivial
  | some list => exact .ok _

lemma failsWithin_readPlain (symbols : Symbols) (here : Nat) (kind : OperandKind) (token : Text)
    (operands : Option (List Text)) (position : Nat) :
    FailsWithin IsOfOperand (readPlain symbols here kind token operands position) := by
  cases kind with
  | general | base | control =>
    exact ((Register.failsWithin_read _ _).imp fun _ => And.left).bind fun _ _ => .ok _
  | number16 | number24 | number5 =>
    exact ((failsWithin_value _ _).imp fun _ => And.left).bind fun _ _ => .ok _
  | branch => exact ((failsWithin_displacement _ _ _).imp fun _ => And.left).bind fun _ _ => .ok _
  | offset =>
    refine ((failsWithin_offsetParts _).imp fun _ => And.left).bind fun _ _ => ?_
    exact ((failsWithin_value _ _).imp fun _ => And.left).bind fun _ _ => .ok _
  | word => exact .ok _
  | string => exact (failsWithin_stringAt _ _).bind fun _ _ => .ok _
  | rest => exact (failsWithin_restAt _ _).bind fun _ _ => .ok _

/-- Reading an operand fails only in a way that is about the operand. -/
theorem failsWithin_read (symbols : Symbols) (here : Nat) (kind : OperandKind) (token : Text)
    (operands : Option (List Text)) (position : Nat) :
    FailsWithin IsOfOperand (read symbols here kind token operands position) := by
  unfold read
  split
  · exact failsWithin_readPlain _ _ _ _ _ _
  · split
    · exact failsWithin_readPlain _ _ _ _ _ _
    · split
      · exact failsWithin_readPlain _ _ _ _ _ _
      · exact .error trivial

end Operand

namespace Instruction

lemma failsWithin_readFrom (symbols : Symbols) (here : Nat) (written : List Text)
    (kinds : List OperandKind) (position : Nat) :
    FailsWithin IsOfOperand (readFrom symbols here written kinds position) := by
  induction kinds generalizing position with
  | nil => exact .ok _
  | cons kind kinds ih =>
    unfold readFrom
    split
    · exact .error trivial
    · refine (Operand.failsWithin_read _ _ _ _ _ _).bind fun first _ => ?_
      have others (second : List Operand) : FailsWithin IsOfOperand
          (readFrom symbols here written kinds (position + 1) >>= fun others =>
            pure (first :: second ++ others)) := (ih _).bind fun _ _ => .ok _
      split
      · refine ((Operand.failsWithin_offsetParts _).imp fun _ => And.left).bind fun _ _ => ?_
        exact (Operand.failsWithin_read _ _ _ _ _ _).bind fun _ _ => others _
      · exact others _

/-- Encoding fails in a way that is about one operand or about their number. -/
theorem failsWithin_encode (symbols : Symbols) (here : Nat) (i : Instruction)
    (written : List Text) :
    FailsWithin (fun failure => failure.IsOfOperand ∨
        failure = .cause (.instructionArity i.symbol i.tokenCount written.length))
      (i.encode symbols here written) := by
  refine FailsWithin.bind ?_ fun _ _ => .mapError fun _ _ => .inl trivial
  unfold readOperands
  split
  · exact (failsWithin_readFrom _ _ _ _ _).imp fun _ => .inl
  · exact .error (.inr rfl)

end Instruction

/-- A failure that is about a line of the source, and not about the passes as a whole. -/
def Failure.IsOfLine : Failure → Prop
  | .cause (.passesDisagree _ _) => False
  | _ => True

lemma Failure.IsOfOperand.isOfLine {failure : Failure} (h : failure.IsOfOperand) :
    failure.IsOfLine := by
  cases failure with
  | fault f => trivial
  | cause c => cases c <;> trivial

lemma Failure.IsOfOperand.not_isRecursion {failure : Failure} (h : failure.IsOfOperand) :
    ¬ failure.IsRecursion := by
  intro recursion
  cases failure with
  | fault f => exact recursion
  | cause c =>
    cases c with
    | macroDepth | stated => exact h
    | _ => cases recursion

lemma Failure.IsMistake.isOfLine {failure : Failure} (h : failure.IsMistake) :
    failure.IsOfLine := by
  cases failure with
  | fault f => trivial
  | cause c =>
    cases c with
    | passesDisagree emitted counted => exact h
    | _ => trivial

open Failure (IsOfLine)

lemma Directive.failsWithin_request (line : Text) : FailsWithin IsFlatMistake (request line) := by
  unfold request
  rcases parts line with ⟨word, arguments⟩
  dsimp only
  split
  · exact .error ⟨trivial, by rintro ⟨⟩⟩
  · split
    · exact .ok _
    · exact .error ⟨trivial, by rintro ⟨⟩⟩
  · split
    · exact .ok _
    · exact .error ⟨trivial, by rintro ⟨⟩⟩

lemma Directive.failsWithin_applyDefine (store : Store) (name : Text) (tokens : List Text) :
    FailsWithin IsFlatMistake (applyDefine store name tokens) := by
  unfold applyDefine Store.define
  split
  · exact .error ⟨trivial, by rintro ⟨⟩⟩
  · exact .ok _

lemma Directive.failsWithin_run (store : Store) (line : Text) :
    FailsWithin (fun failure => failure.IsOfLine ∧ ¬ failure.IsRecursion) (run store line) := by
  have flat {α : Type} {x : Except Failure α} (h : FailsWithin IsFlatMistake x) :
      FailsWithin (fun failure => failure.IsOfLine ∧ ¬ failure.IsRecursion) x :=
    h.imp fun _ mistake => ⟨mistake.1.isOfLine, mistake.2⟩
  refine (flat (failsWithin_request line)).bind fun q _ => ?_
  cases q with
  | base token =>
    refine FailsWithin.bind ?_ fun _ _ => .ok _
    exact (Operand.failsWithin_value _ _).imp fun _ h => ⟨h.1.isOfLine, h.1.not_isRecursion⟩
  | define name tokens => exact flat (failsWithin_applyDefine store name tokens)

lemma Macro.failsWithin_expand (m : Macro) (arguments : List Text) :
    FailsWithin IsOfLine (m.expand arguments) := by
  unfold expand
  split
  · exact .mapError fun _ _ => trivial
  · exact .error trivial

lemma Tables.failsWithin_countWithin (t : Tables) (levels : Nat) (mnemonic : Text) :
    FailsWithin Cause.IsOfLine (t.countWithin levels mnemonic) := by
  induction levels generalizing mnemonic with
  | zero => exact .error trivial
  | succ levels ih =>
    rw [countWithin]
    refine FailsWithin.bind ?_ fun m _ => FailsWithin.foldlM (fun total template => ?_) _ _
    · unfold expansion
      split
      · exact .ok _
      · exact .error trivial
    · dsimp only
      split
      · exact (ih _).bind fun _ _ => .ok _
      · exact .ok _

namespace Assembly

def Halt.IsOfLine (h : Halt) : Prop := h.report.failure.IsOfLine

/-- A run that stopped in one of these ways, with no line attached to its report yet. -/
def Halt.StopsWithin (ways : Failure → Prop) (h : Halt) : Prop :=
  ∃ failure, h.report = .unplaced failure ∧ ways failure

lemma Halt.StopsWithin.isOfLine {ways : Failure → Prop} {h : Halt} (stops : h.StopsWithin ways)
    (ofLine : ∀ failure, ways failure → failure.IsOfLine) : h.IsOfLine := by
  obtain ⟨failure, report, way⟩ := stops
  rw [IsOfLine, report]
  exact ofLine failure way

lemma Halt.StopsWithin.imp {ways more : Failure → Prop} {h : Halt} (stops : h.StopsWithin ways)
    (wider : ∀ failure, ways failure → more failure) : h.StopsWithin more := by
  obtain ⟨failure, report, way⟩ := stops
  exact ⟨failure, report, wider failure way⟩

lemma Run.failsWithin_step {ways : Failure → Prop} {x : Except Failure Store}
    (h : FailsWithin ways x) (r : Run) : FailsWithin (Halt.StopsWithin ways) (r.step x) := by
  cases x with
  | error failure => exact .error ⟨failure, rfl, h failure rfl⟩
  | ok store => exact .ok _

lemma failsWithin_declare (name : Text) (r : Run) :
    FailsWithin (Halt.StopsWithin IsFlatMistake) (declare name r) := by
  unfold declare
  refine Run.failsWithin_step (.mapError ?_) r
  split
  · unfold Store.declareChild
    split
    · exact .error ⟨trivial, by rintro ⟨⟩⟩
    · split
      · exact .error ⟨trivial, by rintro ⟨⟩⟩
      · exact .ok _
  · unfold Store.declareLabel
    split
    · exact .error ⟨trivial, by rintro ⟨⟩⟩
    · exact .ok _

lemma failsWithin_declareLabel (label : Option Text) (r : Run) :
    FailsWithin (Halt.StopsWithin IsFlatMistake) (declareLabel label r) := by
  cases label with
  | none => exact .ok _
  | some name => exact failsWithin_declare name r

lemma failsWithin_tallyStatement (t : Tables) (text : Text) (r : Run) :
    FailsWithin (Halt.StopsWithin IsMistake) (tallyStatement t text r) := by
  unfold tallyStatement
  dsimp only
  split
  · exact .ok _
  · split
    · split
      · exact .ok _
      · rename_i cause failed
        exact .error ⟨_, rfl, t.failsWithin_countWithin _ _ cause failed⟩
    · exact .error ⟨_, rfl, trivial⟩

lemma failsWithin_tally (t : Tables) (text : Text) (r : Run) :
    FailsWithin Halt.IsOfLine (tally t text r) := by
  rw [tally_eq]
  refine FailsWithin.bind ?_ fun declared _ => ?_
  · exact (failsWithin_declareLabel _ r).imp fun _ stops =>
      stops.isOfLine fun _ mistake => mistake.1.isOfLine
  cases (shape text).content with
  | nothing => exact .ok _
  | directive line =>
    exact (Run.failsWithin_step (Directive.failsWithin_run _ _) _).imp fun _ stops =>
      stops.isOfLine fun _ => And.left
  | statement line =>
    exact (failsWithin_tallyStatement t line _).imp fun _ stops =>
      stops.isOfLine fun _ => IsMistake.isOfLine

lemma failsWithin_encodeInstruction (i : Instruction) (line : Text) (operands : List Text)
    (r : Run) : FailsWithin Halt.IsOfLine (encodeInstruction i line operands r) := by
  unfold encodeInstruction
  split
  · unfold putWord
    dsimp only
    split
    · exact .ok _
    · exact .error trivial
  · rename_i failure failed
    refine .error ?_
    rcases i.failsWithin_encode _ _ _ failure failed with ofOperand | rfl
    · exact ofOperand.isOfLine
    · trivial

lemma failsWithin_encodeNested (t : Tables) (levels : Nat) (line : Text) (r : Run) :
    FailsWithin Halt.IsOfLine (encodeNested t levels line r) := by
  induction levels generalizing line r with
  | zero =>
    unfold encodeNested
    split
    · exact failsWithin_encodeInstruction _ _ _ _
    · exact .error trivial
    · exact .error trivial
  | succ levels ih =>
    unfold encodeNested
    split
    · exact failsWithin_encodeInstruction _ _ _ _
    · exact .error trivial
    · rename_i m _
      dsimp only
      split
      · exact .foldlM (fun r l => ih l r) _ _
      · rename_i failure failed
        exact .error (m.failsWithin_expand _ failure failed)

lemma failsWithin_encodeLine (t : Tables) (text : Text) (r : Run) :
    FailsWithin Halt.IsOfLine (encodeLine t text r) := by
  rw [encodeLine_eq]
  cases (shape text).content with
  | nothing => exact .ok _
  | directive line => exact .ok _
  | statement line => exact failsWithin_encodeNested t _ line _

/-- A line that is attached to a report does not change what is reported. -/
lemma Halt.IsOfLine.attach {h : Halt} (ofLine : h.IsOfLine) (place : Place) :
    (h.attach place).IsOfLine := by
  simpa [Halt.IsOfLine, Halt.attach] using ofLine

theorem failsWithin_firstPass (t : Tables) (number : Nat) (source : List Text) (r : Run) :
    FailsWithin Halt.IsOfLine (firstPass t number source r) := by
  induction source generalizing number r with
  | nil => exact .ok _
  | cons line source ih =>
    rw [firstPass]
    split
    · exact ih _ _
    · rename_i h failed
      exact .error ((failsWithin_tally t _ r h failed).attach _)

theorem failsWithin_secondPass (t : Tables) (number : Nat) (source : List Text) (r : Run) :
    FailsWithin Halt.IsOfLine (secondPass t number source r) := by
  induction source generalizing number r with
  | nil => exact .ok _
  | cons line source ih =>
    rw [secondPass]
    split
    · exact ih _ _
    · rename_i h failed
      exact .error ((failsWithin_encodeLine t _ r h failed).attach _)

end Assembly
end Mips64
