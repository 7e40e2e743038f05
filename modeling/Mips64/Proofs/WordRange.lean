import Mips64.Proofs.Decoding
import Mips64.Proofs.PassAgreement
import Mips64.Program.Printing

/-! The range of words. Fields end below bit 32, so whatever an instruction is given, its word has
32 bits: a word is never refused when it is put out, and a program can always be written as
bytes. -/
namespace Mips64

lemma Field.embed_lt (f : Field) (value : Int) : f.embed value < 2 ^ 32 := by
  have low := f.toNat_emod_lt value
  rw [embed_eq]
  calc (value % 2 ^ f.width).toNat * 2 ^ f.shift
    _ < 2 ^ f.width * 2 ^ f.shift := Nat.mul_lt_mul_of_pos_right low (Nat.two_pow_pos _)
    _ = 2 ^ (f.width + f.shift) := (Nat.pow_add 2 _ _).symm
    _ ≤ 2 ^ 32 := Nat.pow_le_pow_right (by decide) (by cases f <;> decide)

namespace Instruction

lemma placed_lt {fields : List Field} {operands : List Operand} {n : Nat}
    (h : placed fields operands = .ok n) : n < 2 ^ 32 := by
  induction fields generalizing operands n with
  | nil =>
    rw [placed] at h
    · cases h; decide
    · rintro _ _ _ _ ⟨⟩
  | cons field fields ih =>
    cases operands with
    | nil =>
      cases h
      decide
    | cons operand operands =>
      rw [placed] at h
      split at h
      · cases h
      · obtain ⟨bits, others, same⟩ := bind_eq_ok_iff.1 h
        cases same
        exact Nat.or_lt_two_pow (field.embed_lt _) (ih others)

lemma word_lt {i : Instruction} {operands : List Operand} {n : Nat}
    (h : i.word operands = .ok n) : n < 2 ^ 32 := by
  obtain ⟨bits, placed, same⟩ := bind_eq_ok_iff.1 h
  cases same
  refine Nat.or_lt_two_pow ?_ (placed_lt placed)
  have pattern := Int.emod_lt_of_pos i.base (show (0 : Int) < 0x100000000 by decide)
  omega

/-- Whatever an instruction is given, its word has 32 bits. -/
theorem encode_lt {i : Instruction} {symbols : Symbols} {here word : Nat} {written : List Text}
    (h : i.encode symbols here written = .ok word) : word < 2 ^ 32 := by
  obtain ⟨operands, -, made⟩ := bind_eq_ok_iff.1 h
  cases packed : i.word operands with
  | error fault => rw [packed] at made; cases made
  | ok n =>
    rw [packed] at made
    cases made
    exact word_lt packed

end Instruction

lemma Store.isWord_of_lt {word : Nat} (small : word < 2 ^ 32) : isWord (word : Int) = true := by
  simp only [isWord, Bool.and_eq_true, decide_eq_true_eq]
  omega

namespace Assembly

lemma putWord_of_lt {word : Nat} (small : word < 2 ^ 32) (i : Instruction) (line : Text)
    (r : Run) : putWord i line word r = .ok { r with
      store := { r.store.noteWord word with words := r.store.words.push word }
      listing := r.listing.push ⟨r.store.size, word, line, i.note⟩ } := by
  simp only [putWord, Store.isWord_of_lt small, if_true]
  rfl

/-- An instruction is put out wherever its operands can be read. -/
lemma encodeText_of_encode {t : Tables} {line : Text} {r : Run} {i : Instruction} {word : Nat}
    (found : t.instruction? (Line.statement line).mnemonic = some i)
    (encodes : i.encode r.store.toSymbols r.store.size (Line.statement line).operands = .ok word) :
    encodeText t r line = .ok { r with
      store := { r.store.noteWord word with words := r.store.words.push word }
      listing := r.listing.push ⟨r.store.size, word, line, i.note⟩ } := by
  simp only [encodeText, found, encodeInstruction, encodes]
  exact putWord_of_lt (Instruction.encode_lt encodes) i line r

end Assembly

/-- Words of 32 bits can be written as bytes, four for each. -/
lemma Program.exists_bytesOf {words : List Int} (fit : ∀ w ∈ words, 0 ≤ w ∧ w < 0x100000000) :
    ∃ bytes, bytesOf words = some bytes ∧ bytes.length = 4 * words.length := by
  induction words with
  | nil => exact ⟨[], rfl, rfl⟩
  | cons word words ih =>
    obtain ⟨bytes, rest, length⟩ := ih fun w member => fit w (List.mem_cons_of_mem _ member)
    refine ⟨wordBytes word.toNat ++ bytes, ?_, ?_⟩
    · rw [bytesOf, if_pos (fit word List.mem_cons_self), rest]
      rfl
    · rw [List.length_append, length, wordBytes]
      simp only [List.length_cons, List.length_nil]
      omega

/-- The words of a program that has been assembled have 32 bits. -/
lemma Assembly.words_fit {t : Tables} {source : List Text} {p : Program}
    (assembled : (assemble t source).result = .ok p) :
    ∀ w ∈ p.words.toList, 0 ≤ w ∧ w < 0x100000000 := by
  obtain ⟨counted, emitted, first, second, -, -, words, -, -⟩ := exists_runs_of_assemble assembled
  have done := emitted_of_rewound first second
  intro w member
  rw [words, Array.mem_toList_iff] at member
  obtain ⟨k, bound, rfl⟩ := Array.mem_iff_getElem.1 member
  have e_at := List.getElem?_eq_getElem (done.words_size ▸ bound)
  obtain ⟨i, word, ⟨-, encodes⟩, word_at, -⟩ := done.encoded k _ e_at
  rw [Array.getElem?_eq_getElem bound, Option.some.injEq] at word_at
  have small := Instruction.encode_lt encodes
  omega

/-- A program that has been assembled can be written as bytes. -/
theorem Assembly.exists_bytes? {t : Tables} {source : List Text} {p : Program}
    (assembled : (assemble t source).result = .ok p) :
    ∃ bytes, p.bytes? = some bytes ∧ bytes.length = p.size := by
  obtain ⟨bytes, made, length⟩ := Program.exists_bytesOf (words_fit assembled)
  refine ⟨bytes, made, ?_⟩
  rw [length, Array.length_toList, Program.size, Nat.mul_comm]

end Mips64
