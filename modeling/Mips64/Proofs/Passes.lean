import Mips64.Assembly
import Mips64.Proofs.Expansion

/-! The steps of the two passes. Both passes see a line as a label and what it holds beside it, so
the shape of a line is read once here; and each step says all that it does to the run. -/
namespace Mips64.Assembly

/-- What a line in normal form holds beside a label. -/
inductive Content
  | nothing
  | directive (line : Text)
  | statement (line : Text)

/-- A line in normal form: the label that it declares, and what it holds beside it. -/
structure Shape where
  label : Option Text
  content : Content

def contentOf (text : Text) : Content :=
  if text.isEmpty then .nothing
  else if Directive.isBracketed text then .directive text
  else .statement text

/-- The shape of a line in normal form. Between brackets there is no label. -/
def shape (text : Text) : Shape :=
  if Directive.isBracketed text then ⟨none, .directive text⟩
  else ⟨(Line.declaration text).1, contentOf (Line.declaration text).2⟩

lemma declaration_none {text body : Text} (h : Line.declaration text = (none, body)) :
    body = text := by
  simp only [Line.declaration] at h
  split at h
  · cases h
  · cases h; rfl

def declareLabel : Option Text → Run → Except Halt Run
  | none, r => .ok r
  | some name, r => declare name r

def tallyContent (t : Tables) : Content → Run → Except Halt Run
  | .nothing, r => .ok r
  | .directive line, r => r.step (Directive.run r.store line)
  | .statement line, r => tallyStatement t line r

/-- Enters the scope of the label of a line, if it is a global one. -/
def enterScope : Option Text → Run → Run
  | none, r => r
  | some name, r => if Line.isChild name then r else { r with store := r.store.withScope name }

def encodeContent (t : Tables) : Content → Run → Except Halt Run
  | .statement line, r => encodeNested t Macro.maxDepth line r
  | _, r => .ok r

/-- The first pass declares the label of a line and then accounts for the rest. -/
theorem tally_eq (t : Tables) (text : Text) (r : Run) :
    tally t text r = declareLabel (shape text).label r >>= tallyContent t (shape text).content := by
  by_cases bracketed : Directive.isBracketed text = true
  · have nonempty : text.isEmpty = false := by
      cases text with
      | nil => exact absurd bracketed (by decide)
      | cons => rfl
    simp only [tally, shape, nonempty, bracketed, if_true, Bool.false_eq_true, if_false]
    rfl
  · simp only [tally, shape, bracketed, Bool.false_eq_true, if_false]
    cases text with
    | nil => rfl
    | cons c rest =>
      simp only [List.isEmpty_cons, Bool.false_eq_true, if_false]
      rcases parts : Line.declaration (c :: rest) with ⟨label, body⟩
      cases label with
      | none =>
        cases declaration_none parts
        simp [declareLabel, contentOf, bracketed, tallyContent, bind, Except.bind]
      | some name =>
        simp only [declareLabel, contentOf]
        refine congrArg _ (funext fun declared => ?_)
        by_cases empty : body.isEmpty = true
        · simp [empty, tallyContent, pure, Except.pure]
        · by_cases inner : Directive.isBracketed body = true <;>
            simp [empty, inner, tallyContent, tallyBody]

/-- The second pass enters the scope of a line and then encodes its statement. -/
theorem encodeLine_eq (t : Tables) (text : Text) (r : Run) :
    encodeLine t text r =
      encodeContent t (shape text).content (enterScope (shape text).label r) := by
  by_cases bracketed : Directive.isBracketed text = true
  · simp only [encodeLine, shape, bracketed, Bool.or_true, if_true]
    rfl
  · simp only [encodeLine, shape, bracketed, Bool.or_false, Bool.false_eq_true, if_false]
    cases text with
    | nil => rfl
    | cons c rest =>
      simp only [List.isEmpty_cons, Bool.false_eq_true, if_false]
      rcases parts : Line.declaration (c :: rest) with ⟨label, body⟩
      cases label with
      | none =>
        cases declaration_none parts
        simp [enterScope, contentOf, bracketed, encodeContent, encodeAgenda_singleton]
      | some name =>
        simp only [enterScope, contentOf]
        by_cases empty : body.isEmpty = true
        · simp [empty, encodeContent]
        · by_cases inner : Directive.isBracketed body = true <;>
            simp [empty, inner, encodeContent, encodeAgenda_singleton]

/-- The first pass over lines whose numbers do not matter. -/
def tallyLines (t : Tables) (lines : List Text) (r : Run) : Except Halt Run :=
  lines.foldlM (fun r line => tally t (Line.normalize line) r) r

/-- The second pass over lines whose numbers do not matter. -/
def encodeLines (t : Tables) (lines : List Text) (r : Run) : Except Halt Run :=
  lines.foldlM (fun r line => encodeLine t (Line.normalize line) r) r

lemma tallyLines_append (t : Tables) (lines more : List Text) (r : Run) :
    tallyLines t (lines ++ more) r = tallyLines t lines r >>= tallyLines t more :=
  List.foldlM_append

lemma encodeLines_append (t : Tables) (lines more : List Text) (r : Run) :
    encodeLines t (lines ++ more) r = encodeLines t lines r >>= encodeLines t more :=
  List.foldlM_append

lemma tallyLines_cons (t : Tables) (line : Text) (lines : List Text) (r : Run) :
    tallyLines t (line :: lines) r = tally t (Line.normalize line) r >>= tallyLines t lines :=
  List.foldlM_cons

lemma encodeLines_cons (t : Tables) (line : Text) (lines : List Text) (r : Run) :
    encodeLines t (line :: lines) r =
      encodeLine t (Line.normalize line) r >>= encodeLines t lines :=
  List.foldlM_cons

/-- A pass over lines and one more line is the pass over the lines, and then a step. -/
lemma tallyLines_concat_eq_ok_iff {t : Tables} {lines : List Text} {line : Text} {r final : Run} :
    tallyLines t (lines ++ [line]) r = .ok final ↔ ∃ next,
      tallyLines t lines r = .ok next ∧ tally t (Line.normalize line) next = .ok final := by
  rw [tallyLines_append, bind_eq_ok_iff]
  refine exists_congr fun next => and_congr_right fun _ => ?_
  rw [tallyLines_cons]
  exact iff_of_eq (congrArg (· = Except.ok final) (bind_pure _))

lemma encodeLines_concat_eq_ok_iff {t : Tables} {lines : List Text} {line : Text}
    {r final : Run} :
    encodeLines t (lines ++ [line]) r = .ok final ↔ ∃ next,
      encodeLines t lines r = .ok next ∧ encodeLine t (Line.normalize line) next = .ok final := by
  rw [encodeLines_append, bind_eq_ok_iff]
  refine exists_congr fun next => and_congr_right fun _ => ?_
  rw [encodeLines_cons]
  exact iff_of_eq (congrArg (· = Except.ok final) (bind_pure _))

/-- The numbers of lines matter only to reports. -/
lemma firstPass_eq_ok_iff {t : Tables} {number : Nat} {source : List Text} {r final : Run} :
    firstPass t number source r = .ok final ↔ tallyLines t source r = .ok final := by
  induction source generalizing number r with
  | nil => rfl
  | cons line source ih =>
    rw [tallyLines_cons, firstPass]
    cases tally t (Line.normalize line) r with
    | error h => constructor <;> intro h <;> cases h
    | ok next => exact ih

lemma secondPass_eq_ok_iff {t : Tables} {number : Nat} {source : List Text} {r final : Run} :
    secondPass t number source r = .ok final ↔ encodeLines t source r = .ok final := by
  induction source generalizing number r with
  | nil => rfl
  | cons line source ih =>
    rw [encodeLines_cons, secondPass]
    cases encodeLine t (Line.normalize line) r with
    | error h => constructor <;> intro h <;> cases h
    | ok next => exact ih

/-- Both passes succeed where each does and they agree on the number of words. -/
lemma passes_eq_ok_iff {t : Tables} {source : List Text} {final : Run} :
    passes t source = .ok final ↔ ∃ counted emitted,
      tallyLines t source Run.empty = .ok counted ∧
      encodeLines t source counted.rewound = .ok emitted ∧
      emitted.store.size = emitted.count * 4 ∧
      final = emitted.note (.secondPass emitted.store.words.size) := by
  simp only [passes, bind_eq_ok_iff, firstPass_eq_ok_iff]
  constructor
  · rintro ⟨counted, first, emitted, second, checked⟩
    refine ⟨counted, emitted, first, secondPass_eq_ok_iff.1 second, ?_⟩
    split at checked
    · rename_i agree
      cases checked
      exact ⟨agree, rfl⟩
    · cases checked
  · rintro ⟨counted, emitted, first, second, agree, rfl⟩
    refine ⟨counted, first, emitted, secondPass_eq_ok_iff.2 second, ?_⟩
    rw [if_pos agree]
    rfl

lemma assemble_result_eq_ok_iff {t : Tables} {source : List Text} {p : Program} :
    (assemble t source).result = .ok p ↔
      ∃ final, passes t source = .ok final ∧ p = final.program := by
  rw [assemble]
  cases passes t source with
  | error h =>
    constructor
    · intro h; cases h
    · rintro ⟨final, same, -⟩; cases same
  | ok run =>
    constructor
    · intro h; cases h; exact ⟨run, rfl, rfl⟩
    · rintro ⟨final, same, rfl⟩; cases same; rfl

/-- The program of a source, with macros expanded recursively, so that it can be evaluated. -/
def program? (t : Tables) (source : List Text) : Option Program :=
  match tallyLines t source Run.empty with
  | .error _ => none
  | .ok counted =>
    match source.foldlM (fun r line =>
        encodeContent t (shape (Line.normalize line)).content
          (enterScope (shape (Line.normalize line)).label r)) counted.rewound with
    | .error _ => none
    | .ok emitted => if emitted.store.size = emitted.count * 4 then some emitted.program else none

lemma assemble_result_of_program? {t : Tables} {source : List Text} {p : Program}
    (h : program? t source = some p) : (assemble t source).result = .ok p := by
  unfold program? at h
  split at h
  · cases h
  · rename_i counted first
    split at h
    · cases h
    · rename_i emitted second
      split at h
      · rename_i agree
        cases h
        simp only [← encodeLine_eq] at second
        exact assemble_result_eq_ok_iff.2
          ⟨_, passes_eq_ok_iff.2 ⟨counted, emitted, first, second, agree, rfl⟩, rfl⟩
      · cases h

lemma assemble_run_of_passes {t : Tables} {source : List Text} {final : Run}
    (h : passes t source = .ok final) : (assemble t source).run = final := by
  rw [assemble, h]

/-- The run with a child of the label in scope at the address counted so far. -/
def Run.withChild (r : Run) (name : Text) : Run :=
  let extended := { r.store with
    children := r.store.children ++ [((r.store.scope, name), (r.count * 4 : Int))] }
  { r with store := extended.note (.label (r.store.scope ++ name) (r.count * 4)) }

/-- The run with a global label at the address counted so far, which becomes the scope. -/
def Run.withLabel (r : Run) (name : Text) : Run :=
  let extended := { r.store with
    labels := r.store.labels ++ [(name, (r.count * 4 : Int))], scope := name }
  { r with store := extended.note (.label name (r.count * 4)) }

/-- A child joins the label in scope, a global label becomes the scope, and either name is new. -/
lemma declare_cases {name : Text} {r next : Run} (h : declare name r = .ok next) :
    (Line.isChild name = true ∧ r.store.scope ≠ [] ∧
      r.store.children.lookup (r.store.scope, name) = none ∧ next = r.withChild name) ∨
    (Line.isChild name = false ∧ r.store.labels.lookup name = none ∧ next = r.withLabel name) := by
  simp only [declare] at h
  cases child : Line.isChild name with
  | true =>
    left
    simp only [child, if_true, Store.declareChild] at h
    split at h
    · cases h
    · rename_i owned
      split at h
      · cases h
      · rename_i fresh
        cases h
        exact ⟨rfl, by simpa using owned, Option.not_isSome_iff_eq_none.1 fresh, rfl⟩
  | false =>
    right
    simp only [child, Bool.false_eq_true, if_false, Store.declareLabel] at h
    split at h
    · cases h
    · rename_i fresh
      cases h
      exact ⟨rfl, Option.not_isSome_iff_eq_none.1 fresh, rfl⟩

/-- A directive changes definitions or base and notes that down; no labels or words change. -/
lemma directive_cases {store next : Store} {line : Text}
    (h : Directive.run store line = .ok next) :
    ∃ definitions base record,
      next = Store.note { store with definitions := definitions, base := base } record ∧
      ((∃ value, record = .base value) ∨ ∃ name text, record = .definition name text) := by
  obtain ⟨q, -, applied⟩ := bind_eq_ok_iff.1 h
  cases q with
  | base token =>
    obtain ⟨value, -, set⟩ := bind_eq_ok_iff.1 applied
    cases set
    exact ⟨_, _, _, rfl, .inl ⟨_, rfl⟩⟩
  | define name tokens =>
    simp only [Directive.Request.apply, Directive.applyDefine, Store.define] at applied
    split at applied
    · cases applied
    · cases applied
      exact ⟨_, _, _, rfl, .inr ⟨_, _, rfl⟩⟩

/-- A statement of a known mnemonic adds its weight to the count. -/
lemma tallyStatement_eq {t : Tables} {line : Text}
    (known : t.role (Line.statement line).mnemonic ≠ .unknown) (r : Run) :
    tallyStatement t line r =
      match t.weight (Macro.maxDepth + 1) (Line.statement line).mnemonic with
      | .ok n => .ok { r with count := r.count + n }
      | .error cause => .error (r.halt (.cause cause)) := by
  simp only [tallyStatement, Tables.weight]
  cases role : t.role (Line.statement line).mnemonic with
  | instruction i =>
    rw [Tables.role_eq_instruction_iff.1 role]
    rfl
  | unknown => exact absurd role known
  | expansion m =>
    obtain ⟨unlisted, named⟩ := Tables.role_eq_expansion_iff.1 role
    rw [unlisted, named]
    rfl

lemma role_ne_unknown_of_tallyStatement {t : Tables} {line : Text} {r next : Run}
    (h : tallyStatement t line r = .ok next) :
    t.role (Line.statement line).mnemonic ≠ .unknown := by
  intro role
  obtain ⟨unlisted, unnamed⟩ := Tables.role_eq_unknown_iff.1 role
  simp only [tallyStatement] at h
  rw [unlisted, unnamed] at h
  cases h

lemma tallyStatement_cases {t : Tables} {line : Text} {r next : Run}
    (h : tallyStatement t line r = .ok next) :
    ∃ n, t.weight (Macro.maxDepth + 1) (Line.statement line).mnemonic = .ok n ∧
      next = { r with count := r.count + n } := by
  rw [tallyStatement_eq (role_ne_unknown_of_tallyStatement h)] at h
  split at h
  · rename_i n weight
    cases h
    exact ⟨n, weight, rfl⟩
  · cases h

/-- An instruction line puts out one word, read against the symbols as they stand, and lists it. -/
lemma encodeText_cases {t : Tables} {line : Text} {r next : Run}
    (h : encodeText t r line = .ok next) :
    ∃ (i : Instruction) (word : Nat),
      t.instruction? (Line.statement line).mnemonic = some i ∧
      i.encode r.store.toSymbols r.store.size (Line.statement line).operands = .ok word ∧
      next = { r with
        store := { r.store.noteWord word with words := r.store.words.push word }
        listing := r.listing.push ⟨r.store.size, word, line, i.note⟩ } := by
  simp only [encodeText] at h
  split at h
  · rename_i i found
    simp only [encodeInstruction] at h
    split at h
    · rename_i word encoded
      simp only [putWord] at h
      split at h
      · cases h
        exact ⟨i, word, found, encoded, rfl⟩
      · cases h
    · cases h
  · cases h

end Mips64.Assembly
