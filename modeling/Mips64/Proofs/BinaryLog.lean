import Mips64.Proofs.Mistakes
import Mips64.Proofs.Readback
import Mips64.Proofs.Rendering

/-! Words in the log, as binary digits. A number is cut to a width by way of its sign, its digits, the
zeros before them and the end of the text. Main statement: this is its two's complement. So the
digits that an encoding notes down denote the word that it puts out, and at the end of an assembly,
successful or not, the log shows the words of the output one after another. -/
namespace Mips64

namespace Text

/-- A text of binary digits, as many as its width, and the number that they denote. -/
structure IsBinary (width : Nat) (s : Text) (n : Int) : Prop where
  length : s.length = width
  digits : ∀ c ∈ s, c = '0' ∨ c = '1'
  value : (ofDigits 2 s : Int) = n

/-- Binary digits denote a number below the power of their count. -/
lemma ofDigits_two_lt {s : Text} (digits : ∀ c ∈ s, c = '0' ∨ c = '1') :
    ofDigits 2 s < 2 ^ s.length := by
  induction s using List.reverseRecOn with
  | nil => decide
  | append_singleton s c ih =>
    have before := ih fun d member => digits d (List.mem_append_left _ member)
    have last : (hexValue? c).getD 0 < 2 := by
      rcases digits c (by simp) with rfl | rfl <;> decide
    rw [ofDigits_concat, List.length_append, List.length_singleton, pow_succ]
    omega

/-- The binary digits of a number, after zeros up to a width. -/
lemma mem_zeroPad_toDigits {width n : Nat} {c : Char}
    (member : c ∈ zeroPad width (Nat.toDigits 2 n)) : c = '0' ∨ c = '1' := by
  have binary : isBinDigits (Nat.toDigits 2 n) = true :=
    isBinDigits_iff.2 ⟨n, spells_toDigits le_rfl (by decide) n⟩
  simp only [isBinDigits, Bool.and_eq_true, List.all_eq_true, Bool.or_eq_true, beq_iff_eq] at binary
  rcases List.mem_append.1 member with padding | digit
  · exact .inl (List.eq_of_mem_replicate padding)
  · exact binary.2 c digit

/-- The last characters of a text that is long enough are as many as are asked for, behind a
front. -/
lemma exists_append_lastChars {count : Nat} (positive : 0 < count) {s : Text}
    (long : count ≤ s.length) :
    ∃ front, s = front ++ lastChars count s ∧ (lastChars count s).length = count := by
  rw [lastChars, if_neg positive.ne']
  refine ⟨s.take (s.length - count), (List.take_append_drop _ s).symm, ?_⟩
  rw [List.length_drop]
  omega

/-- The last digits of a text denote what is left modulo the power of their count. -/
lemma isBinary_lastChars {count : Nat} (positive : 0 < count) {s : Text} (long : count ≤ s.length)
    (digits : ∀ c ∈ s, c = '0' ∨ c = '1') :
    IsBinary count (lastChars count s) (ofDigits 2 s % 2 ^ count : Nat) := by
  obtain ⟨front, split, length⟩ := exists_append_lastChars positive long
  have kept : ∀ c ∈ lastChars count s, c = '0' ∨ c = '1' := by
    intro c member
    refine digits c ?_
    rw [split]
    exact List.mem_append_right _ member
  have small := ofDigits_two_lt kept
  have whole := ofDigits_append 2 front (lastChars count s)
  rw [← split, length] at whole
  rw [length] at small
  refine ⟨length, kept, ?_⟩
  rw [whole, Nat.mul_add_mod_self_right, Nat.mod_eq_of_lt small]

/-- The binary digits of a number, with zeros before them and cut to a width. -/
lemma isBinary_toDigits {width : Nat} (positive : 0 < width) (n : Nat) :
    IsBinary width (lastChars width (zeroPad width (Nat.toDigits 2 n))) (n % 2 ^ width : Nat) := by
  have long : width ≤ (zeroPad width (Nat.toDigits 2 n)).length := by
    rw [zeroPad, List.length_append, List.length_replicate]
    omega
  have value : n = ofDigits 2 (Nat.toDigits 2 n) :=
    ((spells_iff (by decide)).1 (spells_toDigits le_rfl (by decide) n)).2.2
  have cut := isBinary_lastChars positive long fun c => mem_zeroPad_toDigits
  rwa [ofDigits_zeroPad, ← value] at cut

/-- The bits of a number are its two's complement, down to the lowest number that the power of the
width makes nonnegative. -/
theorem isBinary_bits {width : Nat} (positive : 1 ≤ width) {value : Int}
    (lower : -2 ^ width ≤ value) : IsBinary width (bits width value) (value % 2 ^ width) := by
  -- The number whose digits are taken is nonnegative, and the same modulo the power.
  have power : ((Nat.pow 2 width : Nat) : Int) = 2 ^ width := Nat.cast_pow 2 width
  obtain ⟨n, lifted, same⟩ : ∃ n : Nat,
      (if value < 0 then (Nat.pow 2 width : Int) + value else value) = n ∧
        (n : Int) % 2 ^ width = value % 2 ^ width := by
    split
    · refine ⟨((Nat.pow 2 width : Int) + value).toNat, ?_, ?_⟩
      · omega
      · rw [Int.toNat_of_nonneg (by omega), power, Int.add_emod_left]
    · exact ⟨value.toNat, by omega, by rw [Int.toNat_of_nonneg (by omega)]⟩
  have cut := isBinary_toDigits positive n
  rw [Int.natCast_emod, Nat.cast_pow, Nat.cast_ofNat, same] at cut
  have unsigned : ¬ (n : Int) < 0 := by omega
  simpa only [bits, lifted, unsigned, if_false, Int.natAbs_natCast] using cut

end Text

def Log.Record.bits? : Log.Record → Option Text
  | .encoded _ bits => some bits
  | _ => none

namespace Store

/-- One store follows another by a word: the word is put out, and the log notes down its address and
32 binary digits that denote it. -/
structure PutsOut (s : Store) (word : Int) (next : Store) : Prop where
  words : next.words = s.words.push word
  log : ∃ bits, next.log = s.log.push (.encoded s.size bits) ∧ Text.IsBinary 32 bits word

/-- The log of a store shows its words one after another, each in 32 binary digits. -/
def IsLogged (s : Store) : Prop :=
  List.Forall₂ (Text.IsBinary 32) (s.log.toList.filterMap Log.Record.bits?) s.words.toList

variable {s next : Store}

lemma isLogged_empty : empty.IsLogged := .nil

lemma IsLogged.note (logged : s.IsLogged) {r : Log.Record} (silent : r.bits? = none) :
    (s.note r).IsLogged := by
  simpa [IsLogged, Store.note, silent] using logged

lemma PutsOut.isLogged {word : Int} (puts : s.PutsOut word next) (logged : s.IsLogged) :
    next.IsLogged := by
  obtain ⟨bits, log, binary⟩ := puts.log
  rw [IsLogged, puts.words, log, Array.toList_push, Array.toList_push, List.filterMap_append]
  exact List.rel_append logged (.cons binary .nil)

/-- A word of 32 bits is its own two's complement. -/
lemma putsOut_noteWord {word : Nat} (small : word < 2 ^ 32) (s : Store) :
    s.PutsOut word { s.noteWord word with words := s.words.push word } := by
  have binary := Text.isBinary_bits (show 1 ≤ 32 by decide) (show -2 ^ 32 ≤ (word : Int) by omega)
  rw [Int.emod_eq_of_lt (by omega) (by omega)] at binary
  exact ⟨rfl, _, rfl, binary⟩

end Store

namespace Session

/-- An encoding that succeeds has found its instruction and read its operands. -/
lemma exists_encode_of_step {t : Tables} {s next : Store} {mnemonic : Text} {written : List Text}
    {reply : Reply} (done : step t s (.encode mnemonic written) = (next, .ok reply)) :
    ∃ (i : Instruction) (word : Nat), t.instruction? mnemonic = some i ∧
      i.encode s.toSymbols s.size written = .ok word := by
  rw [step, Work.perform, EStateM.run_bind, Work.encode] at done
  cases known : t.instruction? mnemonic with
  | none =>
    have unknown : (t.instruction mnemonic).mapError Failure.cause =
        .error (.cause (.unknownInstruction mnemonic)) := by
      rw [Tables.instruction, known]
      rfl
    rw [run_look_bind_error unknown] at done
    cases done
  | some i =>
    rw [run_look_bind (mapError_instruction known)] at done
    cases encodes : i.encode s.toSymbols s.size written with
    | ok word => exact ⟨i, word, rfl, encodes⟩
    | error failure =>
      rw [run_look_bind_error encodes] at done
      cases done

/-- An encoding that succeeds puts out its word and notes it down. -/
lemma putsOut_of_step {t : Tables} {s next : Store} {mnemonic : Text} {written : List Text}
    {reply : Reply} (done : step t s (.encode mnemonic written) = (next, .ok reply)) :
    ∃ word, reply = .word word ∧ s.PutsOut word next := by
  obtain ⟨i, word, known, encodes⟩ := exists_encode_of_step done
  rw [step_encode known encodes] at done
  cases done
  exact ⟨word, rfl, s.putsOut_noteWord (Instruction.encode_lt encodes)⟩

end Session

namespace Assembly

/-- A computation on runs ends, well or not, in a store whose log shows its words. -/
def EndsLogged (x : Except Halt Run) : Prop :=
  Ends (fun r => r.store.IsLogged) (fun h => h.run.store.IsLogged) x

section
variable {r : Run} (logged : r.store.IsLogged)
include logged

lemma endsLogged_step {x : Except Failure Store} (kept : ∀ next, x = .ok next → next.IsLogged) :
    EndsLogged (r.step x) := by
  cases x with
  | ok next => exact kept next rfl
  | error failure => exact logged

lemma endsLogged_declare (name : Text) : EndsLogged (declare name r) := by
  refine endsLogged_step logged fun next declares => ?_
  have declared : declare name r = .ok { r with store := next } := by
    rw [declare, declares]
    rfl
  rcases declare_cases declared with ⟨-, -, -, same⟩ | ⟨-, -, same⟩
  · rw [show next = _ from congrArg Run.store same]
    exact logged.note rfl
  · rw [show next = _ from congrArg Run.store same]
    exact logged.note rfl

lemma endsLogged_directive (line : Text) : EndsLogged (r.step (Directive.run r.store line)) := by
  refine endsLogged_step logged fun next ran => ?_
  obtain ⟨definitions, base, record, rfl, ⟨value, rfl⟩ | ⟨name, text, rfl⟩⟩ := directive_cases ran
  · exact logged.note rfl
  · exact logged.note rfl

lemma endsLogged_tallyStatement (t : Tables) (text : Text) :
    EndsLogged (tallyStatement t text r) := by
  unfold tallyStatement
  dsimp only
  split
  · exact logged
  · split
    · split <;> exact logged
    · exact logged

lemma endsLogged_tally (t : Tables) (text : Text) : EndsLogged (tally t text r) := by
  have declares : EndsLogged (declareLabel (shape text).label r) := by
    cases (shape text).label with
    | none => exact logged
    | some name => exact endsLogged_declare logged name
  rw [tally_eq]
  refine declares.bind fun declared _ still => ?_
  cases (shape text).content with
  | nothing => exact still
  | directive line => exact endsLogged_directive still line
  | statement line => exact endsLogged_tallyStatement still t line

lemma endsLogged_encodeInstruction (i : Instruction) (line : Text) (operands : List Text) :
    EndsLogged (encodeInstruction i line operands r) := by
  unfold encodeInstruction
  split
  · rename_i word encodes
    have small := Instruction.encode_lt encodes
    rw [putWord_of_lt small]
    exact (r.store.putsOut_noteWord small).isLogged logged
  · exact logged

lemma endsLogged_encodeNested (t : Tables) (levels : Nat) (line : Text) :
    EndsLogged (encodeNested t levels line r) := by
  induction levels generalizing line r with
  | zero =>
    unfold encodeNested
    split
    · exact endsLogged_encodeInstruction logged _ _ _
    · exact logged
    · exact logged
  | succ levels ih =>
    unfold encodeNested
    split
    · exact endsLogged_encodeInstruction logged _ _ _
    · exact logged
    · -- Each line of a macro starts from a store whose log is still in step with its words.
      dsimp only
      split
      · exact Ends.foldlM (fun l _ r still => ih still l) logged
      · exact logged

lemma endsLogged_encodeLine (t : Tables) (text : Text) : EndsLogged (encodeLine t text r) := by
  have entered : (enterScope (shape text).label r).store.IsLogged := by
    cases (shape text).label with
    | none => exact logged
    | some name =>
      rw [enterScope]
      split <;> exact logged
  rw [encodeLine_eq]
  cases (shape text).content with
  | nothing => exact entered
  | directive line => exact entered
  | statement line => exact endsLogged_encodeNested entered t _ line

/-- Lines keep the log in step with the words if each line does. -/
lemma endsLogged_overLines {step : Text → Run → Except Halt Run}
    (each : ∀ line r, r.store.IsLogged → EndsLogged (step line r)) (number : Nat)
    (source : List Text) : EndsLogged (overLines step number source r) := by
  induction source generalizing number r with
  | nil => exact logged
  | cons line source ih =>
    have first := each line r logged
    rw [overLines]
    cases stepped : step line r with
    | ok next =>
      rw [stepped] at first
      exact ih first (number + 1)
    | error h =>
      rw [stepped] at first
      exact first

end

lemma endsLogged_passes (t : Tables) (source : List Text) : EndsLogged (passes t source) := by
  have first : EndsLogged (firstPass t 1 source Run.empty) := by
    rw [firstPass_eq_overLines]
    exact endsLogged_overLines Store.isLogged_empty
      (fun line r logged => endsLogged_tally logged t _) 1 source
  refine first.bind fun counted _ logged => ?_
  have second : EndsLogged (secondPass t 1 source counted.rewound) := by
    rw [secondPass_eq_overLines]
    exact endsLogged_overLines (logged.note rfl)
      (fun line r logged => endsLogged_encodeLine logged t _) 1 source
  refine second.bind fun emitted _ still => ?_
  split
  · exact still.note rfl
  · exact still

/-- At the end of an assembly, successful or not, the log shows the words of the output. -/
lemma isLogged_assemble (t : Tables) (source : List Text) :
    (assemble t source).run.store.IsLogged := by
  have ends := endsLogged_passes t source
  unfold assemble
  cases both : passes t source with
  | ok run => rw [both] at ends; exact ends
  | error h => rw [both] at ends; exact ends

/-- The bits of a number are the binary digits of its two's complement, for every width and for
every number that the power of the width does not leave negative. With any tables, an encoding that
succeeds therefore notes down 32 digits that denote the word that it puts out, and whatever source
is assembled, the log shows the words of the output in their order. -/
theorem bits_denote_words (t : Tables) :
    (∀ (width : Nat) (value : Int), 1 ≤ width → -2 ^ width ≤ value →
      Text.IsBinary width (Text.bits width value) (value % 2 ^ width)) ∧
    (∀ (s next : Store) (mnemonic : Text) (written : List Text) (reply : Session.Reply),
      Session.step t s (.encode mnemonic written) = (next, .ok reply) →
        ∃ word, reply = .word word ∧ s.PutsOut word next) ∧
    ∀ source, (assemble t source).run.store.IsLogged := by
  refine ⟨fun width value positive lower => Text.isBinary_bits positive lower, ?_,
    isLogged_assemble t⟩
  intro s next mnemonic written reply done
  exact Session.putsOut_of_step done

/-- The lowest number of a width, a number that is too wide for it, and the word of an instruction
with a negative operand. -/
theorem bits_denote_words_decrement :
    Text.bits 3 (-8) = "000".toList ∧ Text.IsBinary 3 (Text.bits 3 (-8)) 0 ∧
    Text.bits 3 13 = "101".toList ∧ Text.IsBinary 3 (Text.bits 3 13) 5 ∧
    ∃ next, Session.step Tables.builtin .empty
        (.encode "addiu".toList ["$t0".toList, "$t0".toList, "-1".toList]) =
          (next, .ok (.word 0x2508FFFF)) ∧
      next.log = #[.encoded 0 "00100101000010001111111111111111".toList] ∧
      Text.IsBinary 32 "00100101000010001111111111111111".toList 0x2508FFFF := by
  obtain ⟨denote, encode, -⟩ := bits_denote_words Tables.builtin
  have stepped : Session.step Tables.builtin .empty
      (.encode "addiu".toList ["$t0".toList, "$t0".toList, "-1".toList]) =
        ({ Store.empty.noteWord 0x2508FFFF with words := #[0x2508FFFF] },
          .ok (.word 0x2508FFFF)) := by rfl
  have shown : (Store.empty.noteWord 0x2508FFFF).log =
      #[.encoded 0 "00100101000010001111111111111111".toList] := by decide +kernel
  obtain ⟨word, same, puts⟩ := encode _ _ _ _ _ stepped
  cases same
  obtain ⟨bits, log, binary⟩ := puts.log
  have noted : ["00100101000010001111111111111111".toList] = [bits] :=
    congrArg (fun log => log.toList.filterMap Log.Record.bits?) (shown.symm.trans log)
  rw [← List.singleton_inj.1 noted] at binary
  exact ⟨by decide, denote 3 (-8) (by decide) (by decide), by decide,
    denote 3 13 (by decide) (by decide), _, stepped, shown, binary⟩

end Assembly

end Mips64
