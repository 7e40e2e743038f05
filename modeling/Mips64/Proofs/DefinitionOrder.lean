import Mips64.Proofs.Substitution

/-! The order of definitions. The first pass looks at definitions only to see that a name is new and
where a base is read, and the second pass finds them all in place. Main statement: lines that do
nothing but define a name may stand anywhere and in any order, if no base is read from a defined
name, and the source assembles to the same program. -/
namespace Mips64

section
variable {α β : Type} [BEq α] [LawfulBEq α] {entries entries' : List (α × β)}

lemma lookup_eq_some_iff_mem (nodup : (entries.map Prod.fst).Nodup) {key : α} {value : β} :
    entries.lookup key = some value ↔ (key, value) ∈ entries := by
  refine ⟨fun found => ?_, lookup_eq_some_of_mem nodup⟩
  obtain ⟨before, after, rfl, -⟩ := List.lookup_eq_some_iff.1 found
  simp

/-- In a table that holds each name once, a name leads to its entry in whatever order. -/
lemma lookup_eq_of_perm (perm : entries'.Perm entries) (nodup : (entries.map Prod.fst).Nodup)
    (key : α) : entries'.lookup key = entries.lookup key := by
  have nodup' := ((perm.map Prod.fst).nodup_iff).2 nodup
  ext value
  rw [lookup_eq_some_iff_mem nodup, lookup_eq_some_iff_mem nodup', perm.mem_iff]

end

section
variable {symbols : Symbols} {definitions : List (Text × Text)}
  (same : ∀ name, definitions.lookup name = symbols.definitions.lookup name)
include same

namespace Operand

lemma substitute_of_lookup (token : Text) :
    substitute { symbols with definitions := definitions } token = substitute symbols token := by
  simp only [substitute, replacement?, Symbols.definition?, same]

/-- Definitions are looked at only by looking up a name. -/
lemma read_of_lookup (here : Nat) (kind : OperandKind) (token : Text)
    (operands : Option (List Text)) (position : Nat) :
    read { symbols with definitions := definitions } here kind token operands position =
      read symbols here kind token operands position := by
  have plain (text : Text) (operands : Option (List Text)) :
      readPlain { symbols with definitions := definitions } here kind text operands position =
        readPlain symbols here kind text operands position := by
    cases kind with
    | offset =>
      simp only [readPlain, substitute_of_lookup same]
      rfl
    | _ => rfl
  simp only [read, replacement?, Symbols.definition?, same, plain]

end Operand

namespace Instruction

lemma readFrom_of_lookup (here : Nat) (written : List Text) (kinds : List OperandKind)
    (position : Nat) :
    readFrom { symbols with definitions := definitions } here written kinds position =
      readFrom symbols here written kinds position := by
  induction kinds generalizing position with
  | nil => rfl
  | cons kind kinds ih =>
    simp only [readFrom, ih, Operand.read_of_lookup same, Operand.substitute_of_lookup same]

lemma encode_of_lookup (i : Instruction) (here : Nat) (written : List Text) :
    i.encode { symbols with definitions := definitions } here written =
      i.encode symbols here written := by
  simp only [encode, readOperands, readFrom_of_lookup same]

end Instruction

end

/-- The token that a request reads a base from. -/
def Directive.Request.base? : Request → Option Text
  | .base token => some token
  | .define _ _ => none

/-- The name that a request looks up among the definitions. -/
def Directive.Request.key : Request → Text
  | .base token => Text.upper (Text.strip token)
  | .define name _ => Text.upper (Text.strip name)

namespace Assembly

variable {t : Tables} {source source' : List Text} {r r' next : Run}

/-- A line that does nothing but define a name, or fails to. -/
def isDefine (line : Text) : Bool :=
  Directive.isBracketed (Line.normalize line) &&
    Directive.Name.ofText? (Directive.parts (Line.normalize line)).1 == some .define

lemma shape_of_isDefine {line : Text} (define : isDefine line = true) :
    shape (Line.normalize line) = ⟨none, .directive (Line.normalize line)⟩ := by
  rw [shape, if_pos (Bool.and_eq_true_iff.1 define).1]

/-- Sources that differ at most in where the lines stand that do nothing but define a name, and in
their order. -/
structure DefinesMoved (source source' : List Text) : Prop where
  others : source'.filter (fun line => !isDefine line) =
    source.filter (fun line => !isDefine line)
  defines : (source'.filter isDefine).Perm (source.filter isDefine)

lemma DefinesMoved.symm (h : DefinesMoved source source') : DefinesMoved source' source :=
  ⟨h.others.symm, h.defines.symm⟩

lemma DefinesMoved.perm (h : DefinesMoved source source') : source'.Perm source :=
  (List.filter_append_perm isDefine source').symm.trans
    ((h.defines.append (.of_eq h.others)).trans (List.filter_append_perm isDefine source))

lemma DefinesMoved.definitionsOf_perm (h : DefinesMoved source source') :
    (definitionsOf source').Perm (definitionsOf source) :=
  h.perm.filterMap _

lemma DefinesMoved.mem_definedNames_iff (h : DefinesMoved source source') {name : Text} :
    name ∈ definedNames source' ↔ name ∈ definedNames source :=
  (h.definitionsOf_perm.map Prod.fst).mem_iff

def basesOf (source : List Text) : List Text :=
  source.filterMap (fun line => (requestOf line).bind Directive.Request.base?)

/-- No base is read from a name that the source defines. -/
def BasesUndefined (source : List Text) : Prop :=
  ∀ token ∈ basesOf source, Text.upper token ∉ definedNames source

instance (source : List Text) : Decidable (BasesUndefined source) :=
  inferInstanceAs (Decidable (∀ token ∈ basesOf source, Text.upper token ∉ definedNames source))

lemma BasesUndefined.moved (undefined : BasesUndefined source) (h : DefinesMoved source source') :
    BasesUndefined source' := by
  intro token member defined
  have read : token ∈ basesOf source := (h.perm.filterMap _).mem_iff.1 member
  exact undefined token read (h.mem_definedNames_iff.1 defined)

/-- The run without what it has defined and noted. -/
def Run.bare (r : Run) : Run :=
  { r with store := { r.store with definitions := [], log := #[] } }

lemma Run.bare_bare (r : Run) : r.bare.bare = r.bare := rfl

lemma eq_of_bare_eq (same : r'.bare = r.bare) :
    r' = { r with
      store := { r.store with definitions := r'.store.definitions, log := r'.store.log } } :=
  congrArg (fun b : Run =>
    { b with store := { b.store with definitions := r'.store.definitions, log := r'.store.log } })
    same

/-- What the first pass makes of a line, definitions and notes aside. -/
def tallyBare (t : Tables) (r : Run) (line : Text) : Option Run :=
  (tally t (Line.normalize line) r).toOption.map Run.bare

lemma declareLabel_bare (same : r'.bare = r.bare) (label : Option Text) :
    (declareLabel label r').toOption.map Run.bare =
      (declareLabel label r).toOption.map Run.bare := by
  rw [eq_of_bare_eq same]
  cases label with
  | none => rfl
  | some name =>
    rw [declareLabel, declareLabel, declare, declare]
    cases child : Line.isChild name with
    | true =>
      by_cases unscoped : r.store.scope.isEmpty = true
      · simp [Store.declareChild, unscoped, Except.mapError, Run.step, Except.toOption]
      · by_cases taken : (r.store.children.lookup (r.store.scope, name)).isSome = true <;>
          simp [Store.declareChild, unscoped, taken, Except.mapError, Run.step, Except.toOption,
            Run.bare, Store.note]
    | false =>
      by_cases taken : (r.store.labels.lookup name).isSome = true <;>
        simp [Store.declareLabel, taken, Except.mapError, Run.step, Except.toOption, Run.bare,
          Store.note]

lemma tallyStatement_bare (same : r'.bare = r.bare) (text : Text) :
    (tallyStatement t text r').toOption.map Run.bare =
      (tallyStatement t text r).toOption.map Run.bare := by
  rw [eq_of_bare_eq same, tallyStatement, tallyStatement]
  by_cases instruction : (t.instruction? (Line.statement text).mnemonic).isSome = true
  · simp only [if_pos instruction]
    rfl
  · simp only [if_neg instruction]
    by_cases expansion : (t.expansion? (Line.statement text).mnemonic).isSome = true
    · simp only [if_pos expansion]
      cases t.count (Line.statement text).mnemonic 0 <;> rfl
    · simp only [if_neg expansion]
      rfl

/-- A request for a name that is in neither table of definitions does the same to both runs. -/
lemma apply_bare (same : r'.bare = r.bare) (q : Directive.Request)
    (unknown : r.store.definitions.lookup q.key = none)
    (unknown' : r'.store.definitions.lookup q.key = none) :
    (r'.step (q.apply r'.store)).toOption.map Run.bare =
      (r.step (q.apply r.store)).toOption.map Run.bare := by
  generalize definitions : r'.store.definitions = others at unknown'
  rw [eq_of_bare_eq same, definitions]
  cases q with
  | base token =>
    simp only [Directive.Request.key] at unknown unknown'
    simp only [Directive.Request.apply, Directive.applyBase, Operand.substitute,
      Operand.replacement?, Symbols.definition?, unknown, unknown', Option.getD_none]
    change Option.map _ (Run.step _ (Operand.value r.store.toSymbols token >>= _)).toOption = _
    cases Operand.value r.store.toSymbols token <;> rfl
  | define name tokens =>
    simp only [Directive.Request.key] at unknown unknown'
    simp [Directive.Request.apply, Directive.applyDefine, Store.define, unknown, unknown',
      Except.mapError, Run.step, Except.toOption, Run.bare, Store.note]

/-- Runs that are the same without definitions and notes stay so over a line, if the name that the
line asks for is unknown to both. -/
lemma tallyBare_congr (same : r'.bare = r.bare) {line : Text}
    (unknown : ∀ q, requestOf line = some q → r.store.definitions.lookup q.key = none ∧
      r'.store.definitions.lookup q.key = none) :
    tallyBare t r' line = tallyBare t r line := by
  rw [tallyBare, tallyBare, tally_eq, tally_eq]
  have label := declareLabel_bare same (shape (Line.normalize line)).label
  cases declared : declareLabel (shape (Line.normalize line)).label r with
  | error h =>
    cases declared' : declareLabel (shape (Line.normalize line)).label r' with
    | error h' => rfl
    | ok s' => rw [declared, declared'] at label; cases label
  | ok s =>
    cases declared' : declareLabel (shape (Line.normalize line)).label r' with
    | error h' => rw [declared, declared'] at label; cases label
    | ok s' =>
      rw [declared, declared'] at label
      have beside : s'.bare = s.bare := Option.some.inj label
      change Option.map _ (tallyContent t _ s').toOption =
        Option.map _ (tallyContent t _ s).toOption
      cases holds : (shape (Line.normalize line)).content with
      | nothing => exact label
      | statement text => exact tallyStatement_bare beside text
      | directive d =>
        simp only [tallyContent, Directive.run]
        cases asks : Directive.request d with
        | error failure => rfl
        | ok q =>
          obtain ⟨absent, absent'⟩ := unknown q (by simp [requestOf, holds, asks, Except.toOption])
          rw [← declareLabel_definitions declared] at absent
          rw [← declareLabel_definitions declared'] at absent'
          exact apply_bare beside q absent absent'

/-- The name that a line asks for is unknown after the lines before it. -/
lemma lookup_key {lines : List Text} {line : Text} (nodup : (definedNames (lines ++ [line])).Nodup)
    (undefined : BasesUndefined (lines ++ [line])) {q : Directive.Request}
    (asks : requestOf line = some q) : (definitionsOf lines).lookup q.key = none := by
  have names : definedNames (lines ++ [line]) = definedNames lines ++ definedNames [line] := by
    simp only [definedNames, definitionsOf, List.filterMap_append, List.map_append]
  refine lookup_definitionsOf fun defined => ?_
  cases q with
  | base token =>
    obtain ⟨d, -, request⟩ := exists_of_requestOf asks
    obtain ⟨-, visible, -⟩ := Directive.plain_of_request request List.mem_cons_self
    rw [Directive.Request.key, Text.strip_of_visible visible] at defined
    have read : token ∈ basesOf (lines ++ [line]) := by
      simp [basesOf, asks, Directive.Request.base?]
    exact undefined token read (names ▸ List.mem_append_left _ defined)
  | define name tokens =>
    rw [names] at nodup
    have own : Directive.Request.key (.define name tokens) ∈ definedNames [line] := by
      simp [definedNames, definitionsOf, asks, Directive.Request.entry?, Directive.Request.key]
    exact (List.nodup_append.1 nodup).2.2 _ defined _ own rfl

/-- Where no name is defined twice and no base is read from a defined name, the first pass does not
need the definitions that it makes. -/
theorem foldlM_tallyBare (nodup : (definedNames source).Nodup)
    (undefined : BasesUndefined source) :
    source.foldlM (tallyBare t) Run.empty =
      (tallyLines t source Run.empty).toOption.map Run.bare := by
  induction source using List.reverseRecOn with
  | nil => rfl
  | append_singleton lines line ih =>
    have front := List.sublist_append_left lines [line]
    have before : (definedNames lines).Nodup := nodup.sublist ((front.filterMap _).map _)
    have undefined' : BasesUndefined lines := by
      intro token read defined
      exact undefined token ((front.filterMap _).mem read) (((front.filterMap _).map _).mem defined)
    have last : tallyLines t (lines ++ [line]) Run.empty =
        tallyLines t lines Run.empty >>= tally t (Line.normalize line) := by
      simp only [tallyLines, List.foldlM_append, List.foldlM_cons, List.foldlM_nil, bind_pure]
    rw [last, List.foldlM_append, ih before undefined']
    simp only [List.foldlM_cons, List.foldlM_nil, bind_pure]
    cases reached : tallyLines t lines Run.empty with
    | error h => rfl
    | ok r =>
      have defined := (definitions_of_tallyLines reached).1
      have step : tallyBare t r.bare line = tallyBare t r line := by
        refine tallyBare_congr r.bare_bare fun q asks => ⟨?_, rfl⟩
        rw [defined, lookup_key nodup undefined asks]
      exact step

lemma tally_of_isDefine {line : Text} (define : isDefine line = true) (r : Run) :
    tally t (Line.normalize line) r = r.step (Directive.run r.store (Line.normalize line)) := by
  rw [tally_eq, shape_of_isDefine define]
  exact pure_bind r (tallyContent t (.directive (Line.normalize line)))

/-- What a line that defines a name asks for. -/
lemma requestOf_of_isDefine {line : Text} (define : isDefine line = true) :
    requestOf line = none ∨ ∃ name tokens, requestOf line = some (.define name tokens) := by
  have word := eq_of_beq (Bool.and_eq_true_iff.1 define).2
  simp only [requestOf, shape_of_isDefine define, Directive.request, word]
  rcases (Directive.parts (Line.normalize line)).2 with _ | ⟨name, _ | ⟨token, more⟩⟩
  · exact .inl rfl
  · exact .inl rfl
  · exact .inr ⟨name, token :: more, rfl⟩

/-- A line that defines a name does nothing else in the first pass. -/
lemma tallyBare_of_isDefine {line : Text} (define : isDefine line = true) (r : Run) :
    tallyBare t r.bare line = (requestOf line).map (fun _ => r.bare) := by
  rw [tallyBare, tally_of_isDefine define, Directive.run]
  have asks : requestOf line = (Directive.request (Line.normalize line)).toOption := by
    rw [requestOf, shape_of_isDefine define]
  obtain malformed | ⟨name, tokens, formed⟩ := requestOf_of_isDefine define
  · rw [malformed]
    cases request : Directive.request (Line.normalize line) with
    | error failure => rfl
    | ok q => rw [malformed, request] at asks; cases asks
  · rw [formed]
    cases request : Directive.request (Line.normalize line) with
    | error failure => rw [formed, request] at asks; cases asks
    | ok q =>
      rw [formed, request] at asks
      cases asks
      rfl

/-- The first pass over a source whose lines that define names are in order goes as it would without
them. -/
theorem foldlM_tallyBare_eq_some_iff {final : Run} :
    source.foldlM (tallyBare t) r.bare = some final ↔
      (∀ line ∈ source, isDefine line = true → (requestOf line).isSome = true) ∧
      (source.filter (fun line => !isDefine line)).foldlM (tallyBare t) r.bare = some final := by
  induction source generalizing r with
  | nil => simp
  | cons line source ih =>
    rw [List.foldlM_cons, List.forall_mem_cons]
    cases define : isDefine line with
    | true =>
      rw [tallyBare_of_isDefine define, List.filter_cons_of_neg (by simp [define])]
      cases requestOf line with
      | none => simp
      | some q => simpa using ih
    | false =>
      rw [List.filter_cons_of_pos (by simp [define]), List.foldlM_cons]
      cases step : tallyBare t r.bare line with
      | none => simp
      | some next =>
        obtain ⟨reached, -, rfl⟩ := Option.map_eq_some_iff.1 step
        simpa using ih

/-- Two runs that are the same apart from notes and the order of definitions. -/
structure Reordered (r r' : Run) : Prop where
  bare : r'.bare = r.bare
  lookup : ∀ name, r'.store.definitions.lookup name = r.store.definitions.lookup name

/-- The first pass of a source with its definitions moved ends in a run with them reordered. -/
theorem exists_tallyLines_of_moved (moved : DefinesMoved source source')
    (undefined : BasesUndefined source) (first : tallyLines t source Run.empty = .ok r) :
    ∃ r', tallyLines t source' Run.empty = .ok r' ∧ Reordered r r' := by
  obtain ⟨defined, nodup⟩ := definitions_of_tallyLines first
  have nodup' : (definedNames source').Nodup :=
    (moved.definitionsOf_perm.map Prod.fst).nodup_iff.2 nodup
  have bare : source.foldlM (tallyBare t) Run.empty.bare = some r.bare := by
    refine (foldlM_tallyBare nodup undefined).trans ?_
    rw [first]
    rfl
  obtain ⟨formed, others⟩ := foldlM_tallyBare_eq_some_iff.1 bare
  have bare' : source'.foldlM (tallyBare t) Run.empty.bare = some r.bare := by
    refine foldlM_tallyBare_eq_some_iff.2 ⟨fun line member => ?_, moved.others ▸ others⟩
    exact formed line (moved.perm.mem_iff.1 member)
  have ends := (foldlM_tallyBare nodup' (undefined.moved moved)).symm.trans bare'
  cases first' : tallyLines t source' Run.empty with
  | error h => rw [first'] at ends; cases ends
  | ok r' =>
    rw [first'] at ends
    refine ⟨r', rfl, Option.some.inj ends, fun name => ?_⟩
    rw [defined, (definitions_of_tallyLines first').1,
      lookup_eq_of_perm moved.definitionsOf_perm nodup]

section
variable {text : Text}

/-- Where definitions are in another order, an instruction line puts out the same word. -/
lemma Reordered.encodeText (h : Reordered r r') (step : encodeText t r text = .ok next) :
    ∃ next', Assembly.encodeText t r' text = .ok next' ∧ Reordered next next' := by
  obtain ⟨i, word, found, encodes, rfl⟩ := encodeText_cases step
  have stores := eq_of_bare_eq h.bare
  have encodes' : i.encode r'.store.toSymbols r'.store.size (Line.statement text).operands =
      .ok word := by
    rw [stores, ← encodes]
    exact Instruction.encode_of_lookup h.lookup i _ _
  refine ⟨_, encodeText_of_encode found encodes', ?_, h.lookup⟩
  rw [stores]
  rfl

lemma Reordered.encodeTexts {texts : List Text} (h : Reordered r r')
    (steps : texts.foldlM (Assembly.encodeText t) r = .ok next) :
    ∃ next', texts.foldlM (Assembly.encodeText t) r' = .ok next' ∧ Reordered next next' := by
  refine exists_foldlM_of_forall₂ ?_ (List.forall₂_same.2 fun _ _ => rfl) h steps
  rintro r r' next text _ related rfl step
  exact related.encodeText step

lemma Reordered.enterScope (h : Reordered r r') (label : Option Text) :
    Reordered (enterScope label r) (Assembly.enterScope label r') := by
  cases label with
  | none => exact h
  | some name =>
    simp only [Assembly.enterScope]
    split
    · exact h
    · refine ⟨?_, h.lookup⟩
      rw [eq_of_bare_eq h.bare]
      rfl

lemma Reordered.encodeLine (h : Reordered r r') (encodes : encodeLine t text r = .ok next) :
    ∃ next', Assembly.encodeLine t text r' = .ok next' ∧ Reordered next next' := by
  rw [encodeLine_eq] at encodes ⊢
  have entered := h.enterScope (shape text).label
  cases holds : (shape text).content with
  | statement s =>
    rw [holds] at encodes
    obtain ⟨texts, stands⟩ := exists_instructionLines encodes
    rw [encodeContent, encodeNested_eq_foldlM stands] at encodes ⊢
    exact entered.encodeTexts encodes
  | nothing | directive d =>
    rw [holds] at encodes
    cases encodes
    exact ⟨_, rfl, entered⟩

/-- The second pass goes the same way where definitions are in another order. -/
theorem Reordered.encodeLines (h : Reordered r r') (encodes : encodeLines t source r = .ok next) :
    ∃ next', Assembly.encodeLines t source r' = .ok next' ∧ Reordered next next' := by
  refine exists_foldlM_of_forall₂ ?_ (List.forall₂_same.2 fun _ _ => rfl) h encodes
  rintro r r' next line _ related rfl step
  exact related.encodeLine step

end

/-- The second pass passes over lines that define names. -/
lemma encodeLines_filter (r : Run) :
    encodeLines t (source.filter (fun line => !isDefine line)) r = encodeLines t source r := by
  rw [encodeLines, encodeLines, List.foldlM_filter]
  refine congrArg (fun step => source.foldlM step r) (funext fun r => funext fun line => ?_)
  cases define : isDefine line with
  | false => rfl
  | true =>
    rw [encodeLine_eq, shape_of_isDefine define]
    rfl

/-- A source that assembles does so with its definitions moved, to the same program. -/
lemma assemble_of_moved (moved : DefinesMoved source source') (undefined : BasesUndefined source)
    {p : Program} (assembled : (assemble t source).result = .ok p) :
    (assemble t source').result = .ok p := by
  obtain ⟨final, both, rfl⟩ := assemble_result_eq_ok_iff.1 assembled
  obtain ⟨counted, emitted, first, second, agree, rfl⟩ := passes_eq_ok_iff.1 both
  obtain ⟨counted', first', reordered⟩ := exists_tallyLines_of_moved moved undefined first
  have rewound : Reordered counted.rewound counted'.rewound := by
    refine ⟨?_, reordered.lookup⟩
    rw [eq_of_bare_eq reordered.bare]
    rfl
  rw [← encodeLines_filter, ← moved.others] at second
  obtain ⟨emitted', second', after⟩ := rewound.encodeLines second
  rw [encodeLines_filter] at second'
  have same := eq_of_bare_eq after.bare
  have agree' : emitted'.store.size = emitted'.count * 4 := by
    rw [same]
    exact agree
  refine assemble_result_eq_ok_iff.2
    ⟨_, passes_eq_ok_iff.2 ⟨counted', emitted', first', second', agree', rfl⟩, ?_⟩
  rw [same]
  rfl

/-- Lines that do nothing but define a name may stand anywhere and in any order, if no base is read
from a defined name: with the same other lines and the same definitions, one source assembles where
the other does, and the programs are the same. -/
theorem assemble_definesMoved (moved : DefinesMoved source source')
    (undefined : BasesUndefined source) (p : Program) :
    (assemble t source).result = .ok p ↔ (assemble t source').result = .ok p :=
  ⟨assemble_of_moved moved undefined, assemble_of_moved moved.symm (undefined.moved moved)⟩

/-- A source that defines names before their uses, and one behind a label. -/
def definesFirst : List Text :=
  ["[DEFINE STEP 4]".toList, "[DEFINE COUNTER $T1]".toList, "[BASE 0x12]".toList,
    "LOOP: ADDIU COUNTER, COUNTER, STEP".toList, "HERE: [DEFINE NEXT LOOP]".toList,
    "J NEXT".toList]

/-- The same source with names defined between and after their uses. -/
def definesLast : List Text :=
  ["[BASE 0x12]".toList, "LOOP: ADDIU COUNTER, COUNTER, STEP".toList,
    "[DEFINE COUNTER $T1]".toList, "HERE: [DEFINE NEXT LOOP]".toList, "J NEXT".toList,
    "[DEFINE STEP 4]".toList]

theorem assemble_definesMoved_definesLast :
    DefinesMoved definesFirst definesLast ∧ BasesUndefined definesFirst ∧
    ∃ p, (assemble Tables.builtin definesFirst).result = .ok p ∧
      (assemble Tables.builtin definesLast).result = .ok p ∧ p.words = #[0x25290004, 0x08000000] ∧
      p.base = 0x12 := by
  have moved : DefinesMoved definesFirst definesLast :=
    ⟨by decide +kernel, by decide +kernel⟩
  have undefined : BasesUndefined definesFirst := by decide +kernel
  have evaluated : (program? Tables.builtin definesFirst).map (fun p => (p.words, p.base)) =
      some (#[0x25290004, 0x08000000], 0x12) := by decide +kernel
  obtain ⟨p, made, parts⟩ := Option.map_eq_some_iff.1 evaluated
  obtain ⟨words, base⟩ := Prod.mk.inj parts
  have assembled := assemble_result_of_program? made
  exact ⟨moved, undefined, p, assembled,
    (assemble_definesMoved moved undefined p).1 assembled, words, base⟩

end Assembly
end Mips64
