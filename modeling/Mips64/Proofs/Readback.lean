import Mips64.Proofs.Literals
import Mips64.Proofs.MacroUse
import Mips64.Proofs.Scope
import Mips64.Proofs.WordRange

/-! Reading back what a program is written to. Readers are given for the three formats of the words.
Main statement: for a program that has been assembled, each of them gives back its words, and each
entry of the listing can be encoded again to its word. -/
namespace Mips64

namespace Text

def isLowerHex (c : Char) : Bool := ('0' ≤ c && c ≤ '9') || ('a' ≤ c && c ≤ 'f')

def readHex? (s : Text) : Option Int := if isHexDigits s then some (ofDigits 16 s) else none

lemma isLowerHex_digitChar {d : Nat} (small : d < 16) : isLowerHex d.digitChar = true := by
  have all : ∀ d < 16, isLowerHex (Nat.digitChar d) = true := by decide
  exact all d small

lemma isSome_hexValue?_of_isLowerHex {c : Char} (h : isLowerHex c = true) :
    (hexValue? c).isSome = true := by
  simp only [isLowerHex, Bool.or_eq_true] at h
  unfold hexValue?
  rcases h with digit | letter
  · rw [if_pos digit]
    rfl
  · split <;> rfl

lemma isBlank_of_isLowerHex {c : Char} (h : isLowerHex c = true) : isBlank c = false := by
  simp only [isLowerHex, Bool.or_eq_true, Bool.and_eq_true, decide_eq_true_eq] at h
  have code : 48 ≤ c.toNat ∧ c.toNat ≤ 57 ∨ 97 ≤ c.toNat ∧ c.toNat ≤ 102 := h
  rw [← Bool.not_eq_true]
  simp only [isBlank, Bool.or_eq_true, Bool.and_eq_true, decide_eq_true_eq, beq_iff_eq]
  omega

lemma isLowerHex_of_mem_toDigits {n : Nat} {c : Char} (member : c ∈ Nat.toDigits 16 n) :
    isLowerHex c = true := by
  induction n using Nat.strong_induction_on with
  | _ n ih =>
    rw [Nat.toDigits_eq_if (by decide)] at member
    split at member
    · rename_i small
      rw [List.mem_singleton.1 member]
      exact isLowerHex_digitChar small
    · rcases List.mem_append.1 member with higher | last
      · exact ih (n / 16) (by omega) higher
      · rw [List.mem_singleton.1 last]
        exact isLowerHex_digitChar (Nat.mod_lt n (by decide))

/-- Leading zeros do not change what digits denote. -/
lemma ofDigits_zeroPad (base width : Nat) (s : Text) :
    ofDigits base (zeroPad width s) = ofDigits base s := by
  have zeros (k : Nat) : ofDigits base (List.replicate k '0') = 0 := by
    induction k with
    | zero => rfl
    | succ k ih =>
      rw [List.replicate_succ', ofDigits_concat, ih]
      simp [show hexValue? '0' = some 0 by decide]
  rw [zeroPad, ofDigits_append, zeros, Nat.zero_mul, Nat.zero_add]

section
variable {word : Int} (fits : 0 ≤ word ∧ word < 0x100000000)
include fits

lemma hex_eq : hex 8 word = zeroPad 8 (Nat.toDigits 16 word.toNat) := by
  rw [hex, if_neg (by omega)]

/-- A word is written in eight characters. -/
lemma length_hex : (hex 8 word).length = 8 := by
  have digits : (Nat.toDigits 16 word.toNat).length ≤ 8 :=
    (Nat.length_toDigits_le_iff (by decide) (by decide)).2 (by omega)
  rw [hex_eq fits, zeroPad, List.length_append, List.length_replicate]
  omega

lemma isLowerHex_of_mem_hex {c : Char} (member : c ∈ hex 8 word) : isLowerHex c = true := by
  rw [hex_eq fits, zeroPad] at member
  rcases List.mem_append.1 member with padding | digit
  · rw [List.eq_of_mem_replicate padding]
    rfl
  · exact isLowerHex_of_mem_toDigits digit

lemma visible_of_mem_hex : ∀ c ∈ hex 8 word, isBlank c = false :=
  fun _ member => isBlank_of_isLowerHex (isLowerHex_of_mem_hex fits member)

/-- A word is read back from its digits. -/
theorem readHex?_hex : readHex? (hex 8 word) = some word := by
  have digits : isHexDigits (hex 8 word) = true := by
    simp only [isHexDigits, Bool.and_eq_true, Bool.not_eq_true', List.isEmpty_eq_false_iff,
      List.all_eq_true]
    constructor
    · exact List.ne_nil_of_length_eq_add_one (length_hex fits)
    · exact fun c member => isSome_hexValue?_of_isLowerHex (isLowerHex_of_mem_hex fits member)
  have value := ((spells_iff (by decide)).1
    (spells_toDigits (show 2 ≤ 16 by decide) (by decide) word.toNat)).2.2
  rw [readHex?, if_pos digits, hex_eq fits, ofDigits_zeroPad, ← value,
    Int.toNat_of_nonneg fits.1]

end

/-- A line feed ends the line before it. -/
lemma lines_append_newline {line : Text} (unbroken : ∀ c ∈ line, isLineBreak c = false)
    (rest : Text) : lines (line ++ '\n' :: rest) = line :: lines rest := by
  induction line with
  | nil => rfl
  | cons c line ih =>
    have single : isLineBreak c = false := unbroken c List.mem_cons_self
    rw [List.cons_append, lines, if_neg (by rw [single]; decide),
      ih fun d member => unbroken d (List.mem_cons_of_mem c member)]
    rintro _ rfl _
    exact absurd single (by decide)

end Text

namespace Program

/-- Lines that are written each with a line feed behind it are read back. -/
lemma lines_unlines {lines : List Text}
    (unbroken : ∀ line ∈ lines, ∀ c ∈ line, Text.isLineBreak c = false) :
    Text.lines (unlines lines) = lines := by
  induction lines with
  | nil => rfl
  | cons line lines ih =>
    rw [unlines, List.flatMap_cons, List.append_assoc, List.singleton_append,
      Text.lines_append_newline (unbroken line List.mem_cons_self)]
    exact congrArg _ (ih fun l member => unbroken l (List.mem_cons_of_mem line member))

/-- Cuts bytes into words of four bytes each, the most significant first. -/
def readBytes? : List UInt8 → Option (List Int)
  | [] => some []
  | a :: b :: c :: d :: rest =>
    (readBytes? rest).map
      ((((a.toNat * 256 + b.toNat) * 256 + c.toNat) * 256 + d.toNat : Nat) :: ·)
  | _ => none

def readLines? (text : Text) : Option (List Int) := (Text.lines text).mapM Text.readHex?

/-- Reads a memory initialisation text: a radix, which has to be sixteen, and a vector of words with
commas between them. Each ends with a semicolon, and blanks are of no account. -/
def readCoe? (text : Text) : Option (List Int) :=
  match text.splitOn ';' with
  | [first, second, []] =>
    match first.splitOn '=', second.splitOn '=' with
    | [radixKey, radix], [vectorKey, vector] =>
      if Text.strip radixKey = "memory_initialization_radix".toList ∧
          Text.strip radix = "16".toList ∧
          Text.strip vectorKey = "memory_initialization_vector".toList then
        (vector.splitOn ',').mapM (fun word => Text.readHex? (Text.strip word))
      else none
    | _, _ => none
  | _ => none

def Format.read? (f : Format) (file : ByteArray) : Option (List Int) :=
  match f with
  | .raw => readBytes? file.data.toList
  | .hex => (String.fromUTF8? file).bind fun text => readLines? text.toList
  | .coe => (String.fromUTF8? file).bind fun text => readCoe? text.toList

lemma fromUTF8?_toUTF8 (text : String) : String.fromUTF8? text.toUTF8 = some text :=
  dif_pos text.isValidUTF8

lemma readBytes?_wordBytes {word : Int} (fits : 0 ≤ word ∧ word < 0x100000000)
    (rest : List UInt8) :
    readBytes? (wordBytes word.toNat ++ rest) = (readBytes? rest).map (word :: ·) := by
  have value : (((word.toNat / 0x1000000).toUInt8.toNat * 256 +
      (word.toNat / 0x10000).toUInt8.toNat) * 256 + (word.toNat / 0x100).toUInt8.toNat) * 256 +
      word.toNat.toUInt8.toNat = word.toNat := by
    simp only [Nat.toUInt8, UInt8.toNat_ofNat']
    omega
  rw [wordBytes]
  simp only [List.cons_append, List.nil_append, readBytes?]
  rw [value, Int.toNat_of_nonneg fits.1]

/-- Words are read back from their bytes. -/
theorem readBytes?_of_bytesOf {words : List Int} {bytes : List UInt8}
    (written : bytesOf words = some bytes) : readBytes? bytes = some words := by
  induction words generalizing bytes with
  | nil => cases written; rfl
  | cons word words ih =>
    rw [bytesOf] at written
    split at written
    · rename_i fits
      obtain ⟨rest, others, rfl⟩ := Option.map_eq_some_iff.1 written
      rw [readBytes?_wordBytes fits, ih others]
      rfl
    · cases written

section
variable {words : List Int} (fit : ∀ w ∈ words, 0 ≤ w ∧ w < 0x100000000)
include fit

lemma mapM_map_hex {read : Text → Option Int} {write : Int → Text}
    (inverse : ∀ w, 0 ≤ w ∧ w < 0x100000000 → read (write w) = some w) :
    (words.map write).mapM read = some words := by
  rw [mapM_eq_some_iff, List.forall₂_map_left_iff, List.forall₂_same]
  exact fun w member => inverse w (fit w member)

lemma lines_unlines_hex :
    Text.lines (unlines (words.map (Text.hex 8))) = words.map (Text.hex 8) := by
  refine lines_unlines fun line member c inside => ?_
  obtain ⟨w, listed, rfl⟩ := List.mem_map.1 member
  have visible := Text.visible_of_mem_hex (fit w listed) c inside
  rw [← Bool.not_eq_true] at visible ⊢
  exact fun breaks => visible (Text.isBlank_of_isLineBreak breaks)

/-- Words are read back from the lines of their digits. -/
theorem readLines?_unlines : readLines? (unlines (words.map (Text.hex 8))) = some words := by
  rw [readLines?, lines_unlines_hex fit]
  exact mapM_map_hex fit fun w fits => Text.readHex?_hex fits

end

/-- A separator of two characters leaves its second one at the front of each piece but the first. -/
lemma cons_intercalate_pair {α : Type} (a b : α) {pieces : List (List α)} (some : pieces ≠ []) :
    b :: [a, b].intercalate pieces = [a].intercalate (pieces.map (b :: ·)) := by
  induction pieces with
  | nil => exact absurd rfl some
  | cons piece pieces ih =>
    cases pieces with
    | nil => simp
    | cons next pieces =>
      have behind := ih (List.cons_ne_nil next pieces)
      rw [List.intercalate_cons_cons, List.map_cons, List.map_cons, List.intercalate_cons_cons,
        ← List.map_cons, ← behind]
      simp

lemma not_mem_intercalate {α : Type} {a c : α} (other : c ≠ a) {pieces : List (List α)}
    (apart : ∀ piece ∈ pieces, c ∉ piece) : c ∉ [a].intercalate pieces := by
  induction pieces with
  | nil => simp
  | cons piece pieces ih =>
    have behind := ih fun l member => apart l (List.mem_cons_of_mem piece member)
    have first := apart piece List.mem_cons_self
    cases pieces with
    | nil => simpa using first
    | cons next pieces =>
      rw [List.intercalate_cons_cons]
      simp only [List.mem_append, List.mem_singleton, not_or]
      exact ⟨⟨first, other⟩, behind⟩

/-- The words of the vector of a memory initialisation text. -/
def vector (p : Program) : List Int := if p.words.isEmpty then [0] else p.words.toList

lemma vector_ne_nil (p : Program) : p.vector ≠ [] := by
  unfold vector
  split
  · exact List.cons_ne_nil 0 []
  · rename_i nonempty
    simpa using nonempty

lemma vector_fit {p : Program} (fit : ∀ w ∈ p.words.toList, 0 ≤ w ∧ w < 0x100000000) :
    ∀ w ∈ p.vector, 0 ≤ w ∧ w < 0x100000000 := by
  intro w member
  unfold vector at member
  split at member
  · rw [List.mem_singleton.1 member]
    decide
  · exact fit w member

/-- The vector of a memory initialisation text, each word behind a line feed. -/
def vectorText (p : Program) : Text :=
  [','].intercalate (p.vector.map fun w => '\n' :: Text.hex 8 w)

/-- A memory initialisation text as its reader cuts it. -/
lemma coe_eq (p : Program) : p.coe = [';'].intercalate ["memory_initialization_radix=16".toList,
    ['='].intercalate ["\nmemory_initialization_vector".toList, p.vectorText], []] := by
  have values : (if p.words.isEmpty then [Text.hex 8 0] else p.hexWords) =
      p.vector.map (Text.hex 8) := by
    unfold vector
    split <;> rfl
  have pieces : p.vector.map (Text.hex 8) ≠ [] := by simpa using p.vector_ne_nil
  have moved : '\n' :: [',', '\n'].intercalate (p.vector.map (Text.hex 8)) = p.vectorText := by
    rw [cons_intercalate_pair ',' '\n' pieces, List.map_map]
    rfl
  have header : "memory_initialization_radix=16;\nmemory_initialization_vector=\n".toList =
      "memory_initialization_radix=16".toList ++
        ';' :: ("\nmemory_initialization_vector".toList ++ ['=', '\n']) := by decide +kernel
  have cut (radix key body : Text) : radix ++ ';' :: (key ++ ['=', '\n']) ++ body ++ [';'] =
      [';'].intercalate [radix, ['='].intercalate [key, '\n' :: body], []] := by simp
  unfold coe
  simp only [values]
  refine (congrArg (· ++ [',', '\n'].intercalate (p.vector.map (Text.hex 8)) ++ [';'])
    header).trans ?_
  rw [cut, moved]

/-- The words of the vector are read back. -/
theorem readCoe?_coe {p : Program} (fit : ∀ w ∈ p.words.toList, 0 ≤ w ∧ w < 0x100000000) :
    readCoe? p.coe = some p.vector := by
  have fit' := vector_fit fit
  have outside {c : Char} (foreign : Text.isLowerHex c = false) (feed : c ≠ '\n') :
      ∀ piece ∈ p.vector.map (fun w => '\n' :: Text.hex 8 w), c ∉ piece := by
    intro piece member inside
    obtain ⟨w, listed, rfl⟩ := List.mem_map.1 member
    rcases List.mem_cons.1 inside with same | digit
    · exact feed same
    · rw [Text.isLowerHex_of_mem_hex (fit' w listed) digit] at foreign
      cases foreign
  have absent {c : Char} (comma : c ≠ ',') (foreign : Text.isLowerHex c = false)
      (feed : c ≠ '\n') : c ∉ p.vectorText := not_mem_intercalate comma (outside foreign feed)
  -- None of the three separators stands in what it separates.
  have commas : p.vectorText.splitOn ',' = p.vector.map fun w => '\n' :: Text.hex 8 w :=
    List.splitOn_intercalate ',' (outside (by decide) (by decide)) (by simpa using p.vector_ne_nil)
  have equals : (['='].intercalate ["\nmemory_initialization_vector".toList,
      p.vectorText]).splitOn '=' = ["\nmemory_initialization_vector".toList, p.vectorText] := by
    refine List.splitOn_intercalate '=' ?_ (List.cons_ne_nil _ _)
    exact List.forall_mem_cons.2 ⟨by decide, List.forall_mem_singleton.2 (absent (by decide)
      (by decide) (by decide))⟩
  have semicolons : p.coe.splitOn ';' = ["memory_initialization_radix=16".toList,
      ['='].intercalate ["\nmemory_initialization_vector".toList, p.vectorText], []] := by
    have second : ∀ piece ∈ ["\nmemory_initialization_vector".toList, p.vectorText],
        ';' ∉ piece := List.forall_mem_cons.2 ⟨by decide, List.forall_mem_singleton.2
          (absent (by decide) (by decide) (by decide))⟩
    rw [coe_eq]
    refine List.splitOn_intercalate ';' ?_ (List.cons_ne_nil _ _)
    exact List.forall_mem_cons.2 ⟨by decide, List.forall_mem_cons.2
      ⟨not_mem_intercalate (by decide) second, List.forall_mem_singleton.2 List.not_mem_nil⟩⟩
  have radix : "memory_initialization_radix=16".toList.splitOn '=' =
      ["memory_initialization_radix".toList, "16".toList] := by decide +kernel
  have keys : Text.strip "memory_initialization_radix".toList =
        "memory_initialization_radix".toList ∧ Text.strip "16".toList = "16".toList ∧
      Text.strip "\nmemory_initialization_vector".toList =
        "memory_initialization_vector".toList := by decide +kernel
  rw [readCoe?, semicolons]
  dsimp only
  rw [radix, equals]
  dsimp only
  rw [if_pos keys, commas]
  refine mapM_map_hex fit' fun w fits => ?_
  have stripped : Text.strip ('\n' :: Text.hex 8 w) = Text.hex 8 w :=
    Text.strip_of_visible (Text.visible_of_mem_hex fits)
  rw [stripped, Text.readHex?_hex fits]

/-- The words that a file holds: those of the program, but a memory initialisation file is never
without one. -/
def wordsIn (p : Program) : Format → List Int
  | .coe => p.vector
  | _ => p.words.toList

/-- The words are read back from the file of each format. -/
theorem exists_file {p : Program} (fit : ∀ w ∈ p.words.toList, 0 ≤ w ∧ w < 0x100000000)
    (f : Format) :
    ∃ file, p.contents? (.words f) = some file ∧ f.read? file = some (p.wordsIn f) := by
  cases f with
  | coe =>
    refine ⟨_, rfl, ?_⟩
    rw [Format.read?, fromUTF8?_toUTF8, Option.bind_some, String.toList_ofList]
    exact readCoe?_coe fit
  | hex =>
    refine ⟨_, rfl, ?_⟩
    rw [Format.read?, fromUTF8?_toUTF8, Option.bind_some, String.toList_ofList]
    exact readLines?_unlines fit
  | raw =>
    obtain ⟨bytes, written, -⟩ := exists_bytesOf fit
    refine ⟨⟨bytes.toArray⟩, ?_, readBytes?_of_bytesOf written⟩
    rw [contents?, bytes?, written]
    rfl

end Program

namespace Assembly

variable {t : Tables} {source : List Text} {p : Program}

/-- The second pass puts out the word at a position while it encodes a line, behind other lines. -/
def PutsOut (t : Tables) (source before : List Text) (line : Text) (position : Nat) : Prop :=
  ∃ counted reached next, firstPass t 1 source Run.empty = .ok counted ∧
    secondPass t 1 before counted.rewound = .ok reached ∧
    secondPass t 1 (before ++ [line]) counted.rewound = .ok next ∧
    reached.store.words.size ≤ position ∧ position < next.store.words.size

/-- An entry of the listing of a source says what the word at a position is: it has the address of
the word, and its text is an instruction that is encoded to the word, at that address and in the
scope of the line that the word is put out for. -/
def Relists (t : Tables) (source : List Text) (symbols : Symbols) (position : Nat)
    (entry : ListingEntry) : Prop :=
  ∃ (before : List Text) (line : Text) (after : List Text) (i : Instruction) (word : Nat),
    source = before ++ line :: after ∧ PutsOut t source before line position ∧
    entry.address = 4 * position ∧ entry.word = word ∧
    t.instruction? (Line.statement entry.text).mnemonic = some i ∧
    i.encode { symbols with scope := lastGlobal (before ++ [line]) } (4 * position)
      (Line.statement entry.text).operands = .ok word

/-- An instruction line comes from a line of the source, and its position is among those of that
line. -/
lemma exists_line_of_emissions {k : Nat} {e : Emission} (h : (emissions t source)[k]? = some e) :
    ∃ before line after, source = before ++ line :: after ∧ e.lines = before ++ [line] ∧
      (emissions t before).length ≤ k ∧ k < (emissions t (before ++ [line])).length := by
  induction source using List.reverseRecOn with
  | nil => simp [emissions, collect] at h
  | append_singleton lines line ih =>
    have bound := (List.getElem?_eq_some_iff.1 h).1
    rw [emissions_concat] at h
    by_cases earlier : k < (emissions t lines).length
    · rw [List.getElem?_append_left earlier] at h
      obtain ⟨before, l, after, rfl, ends, low, high⟩ := ih h
      exact ⟨before, l, after ++ [line], by simp, ends, low, high⟩
    · rw [List.getElem?_append_right (by omega), List.getElem?_map] at h
      obtain ⟨text, -, rfl⟩ := Option.map_eq_some_iff.1 h
      exact ⟨lines, line, [], rfl, rfl, by omega, bound⟩

/-- Each word is listed, and each entry of the listing can be encoded again. -/
theorem listing_relists (assembled : (assemble t source).result = .ok p) :
    p.listing.size = p.words.size ∧ ∀ (k : Nat) (entry : ListingEntry),
      p.listing[k]? = some entry → p.words[k]? = some entry.word ∧
        Relists t source (assemble t source).run.store.toSymbols k entry := by
  obtain ⟨counted, emitted, first, second, symbols, rfl⟩ := exists_emitted_of_assemble assembled
  have done := emitted_of_rewound first second
  rw [symbols, done.symbols_eq, Run.program]
  refine ⟨done.listing_size.trans done.words_size.symm, fun k entry listed => ?_⟩
  obtain ⟨bound, -⟩ := Array.getElem?_eq_some_iff.1 listed
  rw [done.listing_size] at bound
  have at_k := List.getElem?_eq_getElem bound
  generalize (emissions t source)[k] = e at at_k
  obtain ⟨i, word, ⟨found, encodes⟩, word_at, entry_at⟩ := done.encoded k e at_k
  obtain rfl : ListingEntry.mk (k * 4) word e.text i.note = entry :=
    Option.some.inj (entry_at.symm.trans listed)
  obtain ⟨before, line, after, split, ends, low, high⟩ := exists_line_of_emissions at_k
  refine ⟨word_at, before, line, after, i, word, split, ?_, Int.mul_comm _ _, rfl, found, ?_⟩
  · have through : source = (before ++ [line]) ++ after := by simpa using split
    obtain ⟨next, upto⟩ := encodeLines_of_append (through ▸ second)
    obtain ⟨reached, ahead⟩ := encodeLines_of_append upto
    refine ⟨counted, reached, next, firstPass_eq_ok_iff.2 first, secondPass_eq_ok_iff.2 ahead,
      secondPass_eq_ok_iff.2 upto, ?_, ?_⟩
    · rw [(emitted_of_rewound first ahead).words_size]
      exact low
    · rw [(emitted_of_rewound first upto).words_size]
      exact high
  · rw [ends, scopeAfter_eq_lastGlobal, Nat.mul_comm] at encodes
    exact encodes

/-- The ways in which an assembled program is written agree. Its bytes are cut into its words, its
hexadecimal text has one line of eight lowercase digits for each word and is read back to the words,
and so is the vector of its memory initialisation text, but for the zero of a program without words.
The files hold the same. The listing has an entry for each word, whose text is encoded again to the
word. -/
theorem written_reads_back (assembled : (assemble t source).result = .ok p) :
    (∃ bytes, p.bytes? = some bytes ∧ bytes.length = p.size ∧
      Program.readBytes? bytes = some p.words.toList) ∧
    (∃ lines, p.hexText = Program.unlines lines ∧ Text.lines p.hexText = lines ∧
      lines.length = p.words.size ∧
      (∀ line ∈ lines, line.length = 8 ∧ ∀ c ∈ line, Text.isLowerHex c = true) ∧
      lines.mapM Text.readHex? = some p.words.toList) ∧
    Program.readCoe? p.coe = some (if p.words.isEmpty then [0] else p.words.toList) ∧
    (∀ f : Program.Format, ∃ file, p.contents? (.words f) = some file ∧
      f.read? file = some (p.wordsIn f)) ∧
    p.listing.size = p.words.size ∧ ∀ (k : Nat) (entry : ListingEntry),
      p.listing[k]? = some entry → p.words[k]? = some entry.word ∧
        Relists t source (assemble t source).run.store.toSymbols k entry := by
  have fit := words_fit assembled
  refine ⟨?_, ⟨p.hexWords, rfl, Program.lines_unlines_hex fit, ?_, ?_, ?_⟩,
    Program.readCoe?_coe fit, Program.exists_file fit, listing_relists assembled⟩
  · obtain ⟨bytes, written, length⟩ := exists_bytes? assembled
    exact ⟨bytes, written, length, Program.readBytes?_of_bytesOf written⟩
  · rw [Program.hexWords, List.length_map, Array.length_toList]
  · intro line member
    obtain ⟨w, listed, rfl⟩ := List.mem_map.1 member
    exact ⟨Text.length_hex (fit w listed), fun c => Text.isLowerHex_of_mem_hex (fit w listed)⟩
  · exact Program.mapM_map_hex fit fun w fits => Text.readHex?_hex fits

/-- A jump within the scope of a label, a load with the top bit of its word set, and a word that is
zero. -/
def loading : List Text :=
  ["main: nop".toList, ".loop: lw $t0, 4($sp)".toList, "b .loop".toList]

/-- The words of the three lines, the first with leading zeros only, are read back from each form,
and the branch is encoded again in the scope of the label before it. -/
theorem written_reads_back_loading : ∃ (p : Program) (bytes : List UInt8),
    (assemble Tables.builtin loading).result = .ok p ∧ p.bytes? = some bytes ∧
    bytes.length = 12 ∧ Program.readBytes? bytes = some [0, 0x8fa80004, 0x1000ffff] ∧
    (Text.lines p.hexText).mapM Text.readHex? = some [0, 0x8fa80004, 0x1000ffff] ∧
    Program.readCoe? p.coe = some [0, 0x8fa80004, 0x1000ffff] ∧
    ∃ entry, p.listing[2]? = some entry ∧
      Relists Tables.builtin loading (assemble Tables.builtin loading).run.store.toSymbols 2
        entry := by
  have evaluated : (program? Tables.builtin loading).map Program.words =
      some #[0, 0x8fa80004, 0x1000ffff] := by decide +kernel
  obtain ⟨p, made, words⟩ := Option.map_eq_some_iff.1 evaluated
  have assembled := assemble_result_of_program? made
  obtain ⟨⟨bytes, written, length, read⟩, ⟨lines, -, rfl, -, -, digits⟩, vector, -, size,
    entries⟩ := written_reads_back assembled
  rw [Program.size, words] at length
  rw [words] at read digits vector size
  have third : 2 < p.listing.size := by rw [size]; decide
  have listed := Array.getElem?_eq_getElem third
  exact ⟨p, bytes, assembled, written, length, read, digits, vector, _, listed,
    (entries 2 _ listed).2⟩

end Assembly
end Mips64
