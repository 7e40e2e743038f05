import Mips64.Proofs.OperandLists

/-! Replaced tokens. The text of a definition is not looked up again, but the immediate and the
register inside an offset are tokens of their own. Main statement: the definitions of other names
have no part in the operands of a replaced token, except for those two names inside an offset, and
there they do have a part. -/
namespace Mips64

namespace Symbols

/-- Two stores that differ in the definitions of other names at most. -/
structure Alike (name : Text) (symbols symbols' : Symbols) : Prop where
  labels : symbols'.labels = symbols.labels
  children : symbols'.children = symbols.children
  scope : symbols'.scope = symbols.scope
  base : symbols'.base = symbols.base
  definition : symbols'.definition? name = symbols.definition? name

/-- A result that is the same whatever the other names are defined as. -/
def FixedBy {α : Type} (symbols : Symbols) (name : Text) (result : Symbols → α) : Prop :=
  ∀ symbols', symbols.Alike name symbols' → result symbols' = result symbols

/-- A definition put before all others, which it wins over. -/
def redefine (symbols : Symbols) (name text : Text) : Symbols :=
  { symbols with definitions := (name, text) :: symbols.definitions }

variable {α : Type} {symbols : Symbols} {name : Text}

lemma Alike.refl : symbols.Alike name symbols := ⟨rfl, rfl, rfl, rfl, rfl⟩

lemma alike_redefine {other : Text} (ne : name ≠ other) (text : Text) :
    symbols.Alike name (symbols.redefine other text) := by
  refine ⟨rfl, rfl, rfl, rfl, ?_⟩
  rw [definition?, redefine, List.lookup_cons, beq_false_of_ne ne]
  rfl

lemma definition?_redefine_self (text : Text) :
    (symbols.redefine name text).definition? name = some text := by
  rw [definition?, redefine, List.lookup_cons, beq_self_eq_true]

lemma FixedBy.eq_of_ne {result : Symbols → α} (fixed : symbols.FixedBy name result) {other : Text}
    (ne : name ≠ other) (text text' : Text) :
    result (symbols.redefine other text) = result (symbols.redefine other text') :=
  (fixed _ (alike_redefine ne text)).trans (fixed _ (alike_redefine ne text')).symm

lemma fixedBy_congr {result result' : Symbols → α}
    (same : ∀ symbols', symbols.Alike name symbols' → result symbols' = result' symbols') :
    symbols.FixedBy name result ↔ symbols.FixedBy name result' := by
  refine forall₂_congr fun symbols' alike => ?_
  rw [same symbols' alike, same symbols .refl]

end Symbols

namespace Operand

/-- The name that a token is looked up by. -/
def name (token : Text) : Text := Text.upper (Text.strip token)

section
variable {symbols symbols' : Symbols} {key : Text} {here : Nat} {kind : OperandKind}

/-- Without replacement, definitions matter inside offsets only. -/
lemma readPlain_of_alike (single : kind ≠ .offset) (alike : symbols.Alike key symbols')
    (token : Text) (operands : Option (List Text)) (position : Nat) :
    readPlain symbols' here kind token operands position =
      readPlain symbols here kind token operands position := by
  obtain ⟨labels, children, definitions, scope, base⟩ := symbols
  obtain ⟨labels', children', definitions', scope', base'⟩ := symbols'
  obtain ⟨rfl, rfl, rfl, rfl, -⟩ := alike
  cases kind with
  | offset => exact absurd rfl single
  | _ => rfl

/-- A token that is no offset token is read by its own definition alone. -/
lemma fixedBy_read (single : kind ≠ .offset) (token : Text) (operands : Option (List Text))
    (position : Nat) :
    symbols.FixedBy (name token) fun s => read s here kind token operands position := by
  intro symbols' alike
  have replaced : replacement? symbols' token = replacement? symbols token := alike.definition
  simp only [read, replaced, readPlain_of_alike single alike]

lemma read_redefine_self (single : kind ≠ .offset) (token text : Text) :
    read (symbols.redefine (name token) text) here kind token none 0 =
      readPlain symbols here kind text none 0 := by
  have replaced : replacement? (symbols.redefine (name token) text) token = some text :=
    Symbols.definition?_redefine_self text
  rw [read, replaced]
  cases kind with
  | offset => exact absurd rfl single
  | _ => rfl

/-- Where two texts can be told apart, a token is read by its own definition and by no other. -/
lemma fixedBy_read_iff (single : kind ≠ .offset) {text text' : Text}
    (apart : readPlain symbols here kind text none 0 ≠ readPlain symbols here kind text' none 0)
    {token : Text} :
    symbols.FixedBy key (fun s => read s here kind token none 0) ↔ name token = key := by
  constructor
  · intro fixed
    by_contra ne
    have same := fixed.eq_of_ne (Ne.symm ne) text text'
    rw [read_redefine_self single, read_redefine_self single] at same
    exact apart same
  · rintro rfl
    exact fixedBy_read single token none 0

end

/-- Zero is a number, also where it is a label. -/
lemma exists_value_zero (symbols : Symbols) : ∃ n, value symbols ['0'] = .ok n := by
  have found : ∃ n, address symbols ['0'] = .ok n := by
    unfold address
    dsimp only
    split
    · exact ⟨_, rfl⟩
    · exact ⟨0, rfl⟩
  obtain ⟨n, found⟩ := found
  exact ⟨n, by rw [value, found]⟩

/-- The empty text and zero are told apart as numbers. -/
lemma number_apart (symbols : Symbols) (here : Nat) :
    readPlain symbols here .number16 [] none 0 ≠ readPlain symbols here .number16 ['0'] none 0 := by
  obtain ⟨n, zero⟩ := exists_value_zero symbols
  rw [readPlain, readPlain, zero]
  rintro ⟨⟩

section
variable {symbols : Symbols} {here : Nat} {token replaced : Text}
  (named : replacement? symbols token = some replaced)
include named

lemma substitute_of_alike {symbols' : Symbols} (alike : symbols.Alike (name token) symbols') :
    substitute symbols' token = replaced := by
  have kept : replacement? symbols' token = some replaced := alike.definition.trans named
  rw [substitute, kept, Option.getD_some]

variable {operands : Option (List Text)} {position : Nat}
  (inside : ∀ list, operands = some list → position < list.length)
include inside

lemma read_offset_of_alike {symbols' : Symbols} (alike : symbols.Alike (name token) symbols') :
    read symbols' here .offset token operands position =
      (offsetParts replaced >>= fun parts => read symbols' here .number16 parts.1 none 0) := by
  rw [read_offset _ here token inside, substitute_of_alike named alike]

/-- The immediate inside an offset is looked up again. -/
lemma fixedBy_read_offset_iff :
    symbols.FixedBy (name token) (fun s => read s here .offset token operands position) ↔
      ∀ imm register, offsetParts replaced = .ok (imm, register) → name imm = name token := by
  rw [Symbols.fixedBy_congr fun symbols' alike => read_offset_of_alike named inside alike]
  cases cut : offsetParts replaced with
  | error failure =>
    refine iff_of_true (fun _ _ => rfl) ?_
    rintro _ _ ⟨⟩
  | ok parts =>
    refine (fixedBy_read_iff (by decide) (number_apart symbols here)).trans ⟨?_, ?_⟩
    · rintro same _ _ ⟨⟩
      exact same
    · intro same
      exact same parts.1 parts.2 rfl

end

end Operand

/-- A register is not refused as a number. -/
lemma Register.read_ne_invalidNumber (bank : Bank) (token : Text) (flaw : NumberFlaw) :
    read bank token ≠ .error (.cause (.invalidNumber flaw)) := by
  unfold read
  dsimp only
  split
  · split
    · simp
    · split
      · split
        · simp
        · split <;> simp
      · simp
  · simp

lemma bind_congr_of_ok {ε α β : Type} {x : Except ε α} {f g : α → Except ε β}
    (same : ∀ a, x = .ok a → f a = g a) : (x >>= f) = (x >>= g) := by
  cases x with
  | error e => rfl
  | ok a => exact same a rfl

lemma map_injective {ε α β : Type} {f : α → β} (injective : Function.Injective f) :
    Function.Injective (Except.map f : Except ε α → Except ε β) := by
  rintro (e | a) (e' | a') same
  · cases same
    rfl
  · cases same
  · cases same
  · rw [injective (Except.ok.inj same)]

namespace Instruction

variable {symbols : Symbols} {here : Nat} {imm register key : Text}

lemma readParts_of_ok {first : Operand}
    (half : Operand.read symbols here .number16 imm none 0 = .ok first) :
    readParts here imm register symbols =
      (Operand.read symbols here .base register none 0).map fun base => [first, base] := by
  rw [readParts, half]
  cases Operand.read symbols here .base register none 0 <;> rfl

lemma readParts_of_error {failure : Failure}
    (half : Operand.read symbols here .number16 imm none 0 = .error failure) :
    readParts here imm register symbols = .error failure := by
  rw [readParts, half]
  rfl

lemma readParts_ne_invalidNumber {first : Operand}
    (half : Operand.read symbols here .number16 imm none 0 = .ok first) (flaw : NumberFlaw) :
    readParts here imm register symbols ≠ .error (.cause (.invalidNumber flaw)) := by
  have base : Operand.read symbols here .base register none 0 =
      (Register.read .general (Operand.substitute symbols register)).map Operand.register :=
    Operand.read_numeric rfl symbols here register (by rintro list ⟨⟩)
  have valid := Register.read_ne_invalidNumber .general (Operand.substitute symbols register) flaw
  rw [readParts_of_ok half, base]
  cases found : Register.read .general (Operand.substitute symbols register) with
  | ok index => simp [Except.map]
  | error failure => simpa [Except.map, found] using valid

lemma readParts_of_alike {symbols' : Symbols} (first : symbols.Alike (Operand.name imm) symbols')
    (base : symbols.Alike (Operand.name register) symbols') :
    readParts here imm register symbols' = readParts here imm register symbols := by
  have half : Operand.read symbols' here .number16 imm none 0 =
      Operand.read symbols here .number16 imm none 0 :=
    Operand.fixedBy_read (by decide) imm none 0 symbols' first
  have other : Operand.read symbols' here .base register none 0 =
      Operand.read symbols here .base register none 0 :=
    Operand.fixedBy_read (by decide) register none 0 symbols' base
  simp only [readParts, half, other]

/-- The immediate of an offset is looked up again, whatever its register is. -/
lemma name_eq_of_fixedBy_readParts (fixed : symbols.FixedBy key (readParts here imm register)) :
    Operand.name imm = key := by
  by_contra ne
  -- The empty text is never a label, and zero is a number if it is none.
  have same := fixed.eq_of_ne (Ne.symm ne) [] ['0']
  obtain ⟨n, zero⟩ := Operand.exists_value_zero symbols
  have number : Operand.read (symbols.redefine (Operand.name imm) ['0']) here .number16 imm none 0 =
      .ok (Operand.lowBits 16 n) := by
    rw [Operand.read_redefine_self (by decide), Operand.readPlain, zero]
    rfl
  have invalid : Operand.read (symbols.redefine (Operand.name imm) []) here .number16 imm none 0 =
      .error (.cause (.invalidNumber .empty)) :=
    Operand.read_redefine_self (by decide) imm []
  rw [readParts_of_error invalid] at same
  exact readParts_ne_invalidNumber number .empty same.symm

/-- The register of an offset is looked up again where its immediate can be read. -/
lemma fixedBy_readParts_of_ok {first : Operand}
    (half : Operand.read symbols here .number16 imm none 0 = .ok first) :
    symbols.FixedBy (Operand.name imm) (readParts here imm register) ↔
      Operand.name register = Operand.name imm := by
  have reading (symbols' : Symbols) (alike : symbols.Alike (Operand.name imm) symbols') :
      readParts here imm register symbols' =
        (Operand.read symbols' here .base register none 0).map fun base => [first, base] := by
    refine readParts_of_ok ?_
    rw [← half]
    exact Operand.fixedBy_read (by decide) imm none 0 symbols' alike
  have apart : Operand.readPlain symbols here .base [] none 0 ≠
      Operand.readPlain symbols here .base ['$', '0'] none 0 := by
    rintro ⟨⟩
  rw [Symbols.fixedBy_congr reading, ← Operand.fixedBy_read_iff (by decide) apart]
  have injective : Function.Injective fun base => [first, base] := by
    rintro base base' ⟨⟩
    rfl
  exact forall₂_congr fun symbols' _ => (map_injective injective).eq_iff

/-- Both parts of an offset are looked up again. -/
lemma fixedBy_readParts_iff :
    symbols.FixedBy key (readParts here imm register) ↔ Operand.name imm = key ∧
      ((∃ first, Operand.read symbols here .number16 imm none 0 = .ok first) →
        Operand.name register = key) := by
  constructor
  · intro fixed
    obtain rfl := name_eq_of_fixedBy_readParts fixed
    refine ⟨rfl, ?_⟩
    rintro ⟨first, half⟩
    exact (fixedBy_readParts_of_ok half).1 fixed
  · rintro ⟨rfl, same⟩
    cases half : Operand.read symbols here .number16 imm none 0 with
    | ok first => exact (fixedBy_readParts_of_ok half).2 (same ⟨first, half⟩)
    | error failure =>
      intro symbols' alike
      have half' : Operand.read symbols' here .number16 imm none 0 = .error failure :=
        (Operand.fixedBy_read (by decide) imm none 0 symbols' alike).trans half
      rw [readParts_of_error half, readParts_of_error half']

section
variable {token replaced : Text} {written : List Text} {position : Nat}

lemma fixedBy_readToken {kind : OperandKind} (single : kind ≠ .offset) (token : Text) :
    symbols.FixedBy (Operand.name token) fun s =>
      readToken s here written kind token position := by
  intro symbols' alike
  have same : Operand.read symbols' here kind token (some written) position =
      Operand.read symbols here kind token (some written) position :=
    Operand.fixedBy_read single token (some written) position symbols' alike
  simp only [readToken_single single, same]

variable (named : Operand.replacement? symbols token = some replaced)
  (inside : position < written.length)
include named inside

lemma readToken_of_alike {symbols' : Symbols}
    (alike : symbols.Alike (Operand.name token) symbols') :
    readToken symbols' here written .offset token position =
      (Operand.offsetParts replaced >>= fun parts => readParts here parts.1 parts.2 symbols') := by
  rw [readToken_offset inside, Operand.substitute_of_alike named alike]

lemma fixedBy_readToken_offset_iff :
    symbols.FixedBy (Operand.name token)
        (fun s => readToken s here written .offset token position) ↔
      ∀ imm register, Operand.offsetParts replaced = .ok (imm, register) →
        Operand.name imm = Operand.name token ∧
          ((∃ n, Operand.value symbols replaced = .ok n) →
            Operand.name register = Operand.name token) := by
  rw [Symbols.fixedBy_congr fun symbols' alike => readToken_of_alike named inside alike]
  cases cut : Operand.offsetParts replaced with
  | error failure =>
    refine iff_of_true (fun _ _ => rfl) ?_
    rintro _ _ ⟨⟩
  | ok parts =>
    have readable (same : Operand.name parts.1 = Operand.name token) :
        (∃ first, Operand.read symbols here .number16 parts.1 none 0 = .ok first) ↔
          ∃ n, Operand.value symbols replaced = .ok n := by
      have again : Operand.replacement? symbols parts.1 = some replaced := by
        rw [← named]
        exact congrArg symbols.definition? same
      rw [Operand.read, again]
      dsimp only [Operand.readPlain]
      cases Operand.value symbols replaced with
      | error failure => simp
      | ok n => simp
    refine fixedBy_readParts_iff.trans ⟨?_, ?_⟩
    · rintro ⟨same, base⟩ _ _ ⟨⟩
      exact ⟨same, fun number => base ((readable same).2 number)⟩
    · intro both
      obtain ⟨same, base⟩ := both parts.1 parts.2 rfl
      exact ⟨same, fun half => base ((readable same).1 half)⟩

end

/-- The definitions of other names have no part in the operands of a replaced token. For an offset
this fails by the two tokens inside it, and by nothing else: its immediate, and its register where
the immediate can be read. -/
theorem replaced_singleLevel {symbols : Symbols} {token replaced : Text}
    (named : Operand.replacement? symbols token = some replaced) (here : Nat) :
    (∀ kind, kind ≠ .offset →
      (∀ operands position, symbols.FixedBy (Operand.name token) fun s =>
        Operand.read s here kind token operands position) ∧
      ∀ written position, symbols.FixedBy (Operand.name token) fun s =>
        readToken s here written kind token position) ∧
    (∀ operands position, (∀ list, operands = some list → position < list.length) →
      (symbols.FixedBy (Operand.name token)
          (fun s => Operand.read s here .offset token operands position) ↔
        ∀ imm register, Operand.offsetParts replaced = .ok (imm, register) →
          Operand.name imm = Operand.name token) ∧
      ∀ symbols', symbols.Alike (Operand.name token) symbols' →
        (∀ imm register, Operand.offsetParts replaced = .ok (imm, register) →
          symbols.Alike (Operand.name imm) symbols') →
        Operand.read symbols' here .offset token operands position =
          Operand.read symbols here .offset token operands position) ∧
    ∀ written position, position < written.length →
      (symbols.FixedBy (Operand.name token)
          (fun s => readToken s here written .offset token position) ↔
        ∀ imm register, Operand.offsetParts replaced = .ok (imm, register) →
          Operand.name imm = Operand.name token ∧
            ((∃ n, Operand.value symbols replaced = .ok n) →
              Operand.name register = Operand.name token)) ∧
      ∀ symbols', symbols.Alike (Operand.name token) symbols' →
        (∀ imm register, Operand.offsetParts replaced = .ok (imm, register) →
          symbols.Alike (Operand.name imm) symbols' ∧
            symbols.Alike (Operand.name register) symbols') →
        readToken symbols' here written .offset token position =
          readToken symbols here written .offset token position := by
  refine ⟨fun kind single => ⟨?_, ?_⟩, fun operands position inside => ⟨?_, ?_⟩,
    fun written position inside => ⟨?_, ?_⟩⟩
  · exact Operand.fixedBy_read single token
  · exact fun written position => fixedBy_readToken single token
  · exact Operand.fixedBy_read_offset_iff named inside
  · intro symbols' alike inner
    rw [Operand.read_offset_of_alike named inside alike,
      Operand.read_offset_of_alike named inside .refl]
    refine bind_congr_of_ok fun parts cut => ?_
    exact Operand.fixedBy_read (by decide) parts.1 none 0 symbols' (inner parts.1 parts.2 cut)
  · exact fixedBy_readToken_offset_iff named inside
  · intro symbols' alike inner
    rw [readToken_of_alike named inside alike, readToken_of_alike named inside .refl]
    refine bind_congr_of_ok fun parts cut => ?_
    obtain ⟨imm, register⟩ := inner parts.1 parts.2 cut
    exact readParts_of_alike imm register

/-- A slot on the stack whose offset has a name: the slot stays the same operand whatever is defined
beside the two names. -/
theorem replaced_singleLevel_slot :
    let symbols : Symbols := ⟨[], [], [("SLOT".toList, "N($SP)".toList), ("N".toList, "8".toList)],
      [], 0⟩
    Operand.replacement? symbols " slot ".toList = some "N($SP)".toList ∧
      (symbols.FixedBy "SLOT".toList fun s => Operand.read s 0 .number16 " slot ".toList none 0) ∧
      Operand.read (symbols.redefine "$SP".toList "$T0".toList) 0 .offset " slot ".toList none 0 =
        Operand.read symbols 0 .offset " slot ".toList none 0 := by
  intro symbols
  have named : Operand.replacement? symbols " slot ".toList = some "N($SP)".toList := by decide
  obtain ⟨others, offset, -⟩ := replaced_singleLevel named 0
  refine ⟨named, (others .number16 (by decide)).1 none 0, ?_⟩
  refine (offset none 0 (by rintro list ⟨⟩)).2 _ (Symbols.alike_redefine (by decide) _) ?_
  rintro imm register ⟨⟩
  exact Symbols.alike_redefine (by decide) _

/-- The same slot before and after the name inside it is defined. -/
theorem not_replaced_singleLevel_offset :
    let symbols : Symbols := ⟨[], [], [("SLOT".toList, "N($SP)".toList)], [], 0⟩
    let symbols' : Symbols := symbols.redefine "N".toList "8".toList
    symbols.Alike "SLOT".toList symbols' ∧
      Operand.read symbols 0 .offset "SLOT".toList none 0 =
        .error (.cause (.unresolvedLabel (.decimal "N".toList))) ∧
      Operand.read symbols' 0 .offset "SLOT".toList none 0 = .ok (.immediate 8 16) := by
  exact ⟨Symbols.alike_redefine (by decide) _, by decide, by decide⟩

end Instruction

end Mips64
