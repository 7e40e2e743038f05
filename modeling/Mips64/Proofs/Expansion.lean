import Mathlib.Data.List.Forall2
import Mips64.Assembly.SecondPass
import Mips64.Proofs.FirstWord

/-! What a line stands for. The agenda of the second pass is recursive expansion: a macro is encoded
by encoding the lines of its templates, one after another and one level deeper. Where everything is
known and nothing nests too deeply, a line stands for a list of instruction lines, and its number is
the one that the first pass counts. -/
namespace Mips64

/-- A computation in two steps succeeds where both do. -/
lemma bind_eq_ok_iff {ε α β : Type} {x : Except ε α} {f : α → Except ε β} {b : β} :
    (x >>= f) = .ok b ↔ ∃ a, x = .ok a ∧ f a = .ok b := by
  cases x with
  | error e =>
    constructor
    · intro h; cases h
    · rintro ⟨a, h, -⟩; cases h
  | ok a =>
    constructor
    · intro h; exact ⟨a, rfl, h⟩
    · rintro ⟨b, same, h⟩; cases same; exact h

/-- Where each step keeps states related, work that gets through a list gets through one that is in
step with it, from and to related states. -/
lemma exists_foldlM_of_forall₂ {ε α α' β β' : Type} {f : β → α → Except ε β}
    {f' : β' → α' → Except ε β'} {R : β → β' → Prop} {S : α → α' → Prop}
    (step : ∀ {b b' c x x'}, R b b' → S x x' → f b x = .ok c → ∃ c', f' b' x' = .ok c' ∧ R c c')
    {xs : List α} {xs' : List α'} (items : List.Forall₂ S xs xs') {b c : β} {b' : β'}
    (start : R b b') (steps : xs.foldlM f b = .ok c) :
    ∃ c', xs'.foldlM f' b' = .ok c' ∧ R c c' := by
  induction items generalizing b b' with
  | nil =>
    cases steps
    exact ⟨b', rfl, start⟩
  | cons first _ ih =>
    rw [List.foldlM_cons] at steps
    obtain ⟨next, one, others⟩ := bind_eq_ok_iff.1 steps
    obtain ⟨next', one', between⟩ := step start first one
    obtain ⟨c', others', after⟩ := ih between others
    refine ⟨c', ?_, after⟩
    rw [List.foldlM_cons]
    exact bind_eq_ok_iff.2 ⟨next', one', others'⟩

/-- An item of a list that is in step with another belongs to an item of the other. -/
lemma exists_mem_of_forall₂ {α β : Type} {R : α → β → Prop} {xs : List α} {ys : List β}
    (h : List.Forall₂ R xs ys) {y : β} (member : y ∈ ys) : ∃ x ∈ xs, R x y := by
  induction h with
  | nil => cases member
  | @cons x _ _ _ first _ ih =>
    rcases List.mem_cons.1 member with rfl | later
    · exact ⟨x, List.mem_cons_self, first⟩
    · obtain ⟨x', inside, related⟩ := ih later
      exact ⟨x', List.mem_cons_of_mem x inside, related⟩

/-- A macro stands for its templates, each filled with the arguments. -/
lemma Macro.forall₂_of_expand {m : Macro} {arguments lines : List Text}
    (h : m.expand arguments = .ok lines) :
    List.Forall₂ (fun template line => Template.fill template arguments = .ok line)
      m.templates lines := by
  unfold expand at h
  split at h
  · generalize m.templates = templates at h ⊢
    induction templates generalizing lines with
    | nil => cases h; exact .nil
    | cons template templates ih =>
      rw [List.mapM_cons] at h
      cases first : Template.fill template arguments with
      | error e => rw [first] at h; cases h
      | ok line =>
        cases others : templates.mapM (fun t => Template.fill t arguments) with
        | error e => rw [first, others] at h; cases h
        | ok rest =>
          rw [first, others] at h
          cases h
          rw [others] at ih
          exact .cons first (ih rfl)
  · cases h

/-- A partial function succeeds on a whole list where it does on every item. -/
lemma mapM_eq_some_iff {α β : Type} {f : α → Option β} {xs : List α} {ys : List β} :
    xs.mapM f = some ys ↔ List.Forall₂ (fun x y => f x = some y) xs ys := by
  induction xs generalizing ys with
  | nil => simp [eq_comm]
  | cons x xs ih =>
    rw [List.mapM_cons]
    constructor
    · intro h
      obtain ⟨y, first, h⟩ := Option.bind_eq_some_iff.1 h
      obtain ⟨rest, others, h⟩ := Option.bind_eq_some_iff.1 h
      cases h
      exact .cons first (ih.1 others)
    · rintro (_ | ⟨first, others⟩)
      rw [first, ih.2 others]
      rfl

namespace Tables

/-- What a mnemonic is to the tables. An instruction takes precedence over a macro. -/
inductive Role
  | instruction (i : Instruction)
  | expansion (m : Macro)
  | unknown

def role (t : Tables) (mnemonic : Text) : Role :=
  match t.instruction? mnemonic with
  | some i => .instruction i
  | none =>
    match t.expansion? mnemonic with
    | some m => .expansion m
    | none => .unknown

lemma role_eq_instruction_iff {t : Tables} {mnemonic : Text} {i : Instruction} :
    t.role mnemonic = .instruction i ↔ t.instruction? mnemonic = some i := by
  unfold role
  cases t.instruction? mnemonic with
  | some j => simp
  | none => cases t.expansion? mnemonic <;> simp

lemma role_eq_expansion_iff {t : Tables} {mnemonic : Text} {m : Macro} :
    t.role mnemonic = .expansion m ↔
      t.instruction? mnemonic = none ∧ t.expansion? mnemonic = some m := by
  unfold role
  cases t.instruction? mnemonic with
  | some j => simp
  | none => cases t.expansion? mnemonic <;> simp

lemma role_eq_unknown_iff {t : Tables} {mnemonic : Text} :
    t.role mnemonic = .unknown ↔
      t.instruction? mnemonic = none ∧ t.expansion? mnemonic = none := by
  unfold role
  cases t.instruction? mnemonic with
  | some j => simp
  | none => cases t.expansion? mnemonic <;> simp

/-- The instruction lines that a line stands for, where macros nest to at most this many levels. -/
def instructionLines (t : Tables) : (levels : Nat) → (line : Text) → Option (List Text)
  | levels, line =>
    match t.role (Line.statement line).mnemonic with
    | .instruction _ => some [line]
    | .unknown => none
    | .expansion m =>
      match levels with
      | 0 => none
      | levels + 1 =>
        match m.expand (Line.statement line).operands with
        | .ok lines => (lines.mapM (t.instructionLines levels)).map List.flatten
        | .error _ => none

end Tables

namespace Assembly

/-- Encodes a line, where macros nest to at most this many levels. -/
def encodeNested (t : Tables) : (levels : Nat) → (line : Text) → Run → Except Halt Run
  | levels, line, r =>
    match t.role (Line.statement line).mnemonic with
    | .instruction i => encodeInstruction i line (Line.statement line).operands r
    | .unknown =>
      .error (r.halt (.cause (.unknownStatement line (Line.statement line).mnemonic)))
    | .expansion m =>
      match levels with
      | 0 => .error (r.halt (.cause (.macroDepth (Line.statement line).mnemonic Macro.maxDepth)))
      | levels + 1 =>
        match m.expand (Line.statement line).operands with
        | .ok lines => lines.foldlM (fun r l => encodeNested t levels l r) r
        | .error failure => .error (r.halt failure)

section
variable {t : Tables} {line : Text} {m : Macro} {lines : List Text}

lemma encodeNested_instruction {i : Instruction}
    (h : t.role (Line.statement line).mnemonic = .instruction i) (levels : Nat) (r : Run) :
    encodeNested t levels line r = encodeInstruction i line (Line.statement line).operands r := by
  rw [encodeNested, h]

lemma encodeNested_expansion (h : t.role (Line.statement line).mnemonic = .expansion m)
    (expanded : m.expand (Line.statement line).operands = .ok lines) (levels : Nat) (r : Run) :
    encodeNested t (levels + 1) line r =
      lines.foldlM (fun r l => encodeNested t levels l r) r := by
  rw [encodeNested, h]
  simp only [expanded]

lemma encodeNested_expansion_error {failure : Failure}
    (h : t.role (Line.statement line).mnemonic = .expansion m)
    (expanded : m.expand (Line.statement line).operands = .error failure) (levels : Nat) (r : Run) :
    encodeNested t (levels + 1) line r = .error (r.halt failure) := by
  rw [encodeNested, h]
  simp only [expanded]

end

/-- The agenda is worked off as if every line were encoded recursively in its turn. -/
theorem encodeAgenda_eq_foldlM (t : Tables) (agenda : List (Text × Nat)) (r : Run) :
    encodeAgenda t agenda r =
      agenda.foldlM (fun r item => encodeNested t (Macro.maxDepth - item.2) item.1 r) r := by
  fun_induction encodeAgenda t agenda r with
  | case1 r => rfl
  | case2 r line depth rest s i found ih =>
    rw [List.foldlM_cons, encodeNested_instruction (Tables.role_eq_instruction_iff.2 found)]
    exact congrArg _ (funext ih)
  | case3 r line depth rest s unlisted found =>
    rw [List.foldlM_cons, encodeNested, Tables.role_eq_unknown_iff.2 ⟨unlisted, found⟩]
    rfl
  | case4 r line depth rest s unlisted m found shallow lines expanded ih =>
    have deeper : Macro.maxDepth - depth = (Macro.maxDepth - (depth + 1)) + 1 := by omega
    have role := Tables.role_eq_expansion_iff.2 ⟨unlisted, found⟩
    rw [ih, List.foldlM_append, List.foldlM_map, List.foldlM_cons, deeper,
      encodeNested_expansion role expanded]
  | case5 r line depth rest s unlisted m found shallow failure expanded =>
    have deeper : Macro.maxDepth - depth = (Macro.maxDepth - (depth + 1)) + 1 := by omega
    have role := Tables.role_eq_expansion_iff.2 ⟨unlisted, found⟩
    rw [List.foldlM_cons, deeper, encodeNested_expansion_error role expanded]
    rfl
  | case6 r line depth rest s unlisted m found deep =>
    have bottom : Macro.maxDepth - depth = 0 := by omega
    rw [List.foldlM_cons, bottom, encodeNested,
      Tables.role_eq_expansion_iff.2 ⟨unlisted, found⟩]
    rfl

/-- A line is encoded as its recursive expansion. -/
lemma encodeAgenda_singleton (t : Tables) (line : Text) (r : Run) :
    encodeAgenda t [(line, 0)] r = encodeNested t Macro.maxDepth line r := by
  rw [encodeAgenda_eq_foldlM, List.foldlM_cons]
  exact bind_pure _

end Assembly

namespace Tables

section
variable {t : Tables} {levels : Nat} {line : Text} {m : Macro}

lemma instructionLines_instruction {i : Instruction}
    (h : t.role (Line.statement line).mnemonic = .instruction i) :
    t.instructionLines levels line = some [line] := by
  rw [instructionLines, h]

lemma instructionLines_unknown (h : t.role (Line.statement line).mnemonic = .unknown) :
    t.instructionLines levels line = none := by
  rw [instructionLines, h]

lemma instructionLines_expansion {lines : List Text}
    (h : t.role (Line.statement line).mnemonic = .expansion m)
    (expanded : m.expand (Line.statement line).operands = .ok lines) :
    t.instructionLines (levels + 1) line =
      (lines.mapM (t.instructionLines levels)).map List.flatten := by
  rw [instructionLines, h]
  simp only [expanded]

end

/-- Induction over what lines stand for: a line stands for itself, or its macro for the lines of its
templates a level deeper. -/
theorem instructionLines_induction {t : Tables} {motive : Nat → Text → List Text → Prop}
    (instruction : ∀ levels line i, t.role (Line.statement line).mnemonic = .instruction i →
      motive levels line [line])
    (expansion : ∀ levels line m lines lists,
      t.role (Line.statement line).mnemonic = .expansion m →
      m.expand (Line.statement line).operands = .ok lines →
      List.Forall₂ (motive levels) lines lists → motive (levels + 1) line lists.flatten)
    {levels : Nat} {line : Text} {texts : List Text}
    (stands : t.instructionLines levels line = some texts) : motive levels line texts := by
  induction levels generalizing line texts with
  | zero =>
    cases role : t.role (Line.statement line).mnemonic with
    | instruction i =>
      rw [instructionLines_instruction role] at stands
      cases stands
      exact instruction 0 line i role
    | unknown => rw [instructionLines_unknown role] at stands; cases stands
    | expansion m => rw [instructionLines, role] at stands; cases stands
  | succ levels ih =>
    cases role : t.role (Line.statement line).mnemonic with
    | instruction i =>
      rw [instructionLines_instruction role] at stands
      cases stands
      exact instruction (levels + 1) line i role
    | unknown => rw [instructionLines_unknown role] at stands; cases stands
    | expansion m =>
      cases expanded : m.expand (Line.statement line).operands with
      | error failure =>
        rw [instructionLines, role] at stands
        simp only [expanded] at stands
        cases stands
      | ok lines =>
        rw [instructionLines_expansion role expanded] at stands
        obtain ⟨lists, each, rfl⟩ := Option.map_eq_some_iff.1 stands
        exact expansion levels line m lines lists role expanded
          ((mapM_eq_some_iff.1 each).imp (fun _ _ h => ih h))

/-- More levels do not change what a line stands for. -/
lemma instructionLines_mono {t : Tables} {levels more : Nat} (deeper : levels ≤ more)
    {line : Text} {texts : List Text} (stands : t.instructionLines levels line = some texts) :
    t.instructionLines more line = some texts := by
  refine instructionLines_induction
    (motive := fun levels line texts => ∀ more, levels ≤ more →
      t.instructionLines more line = some texts) ?_ ?_ stands more deeper
  · intro levels line i role more _
    exact instructionLines_instruction role
  · intro levels line m lines lists role expanded each more deeper
    obtain ⟨inner, rfl⟩ : ∃ inner, more = inner + 1 := ⟨more - 1, by omega⟩
    have still := each.imp (fun _ _ h => h inner (by omega))
    rw [instructionLines_expansion role expanded, mapM_eq_some_iff.2 still]
    rfl

end Tables

namespace Assembly

variable {t : Tables}

/-- Encodes a line that stands for itself. -/
def encodeText (t : Tables) (r : Run) (line : Text) : Except Halt Run :=
  match t.instruction? (Line.statement line).mnemonic with
  | some i => encodeInstruction i line (Line.statement line).operands r
  | none => .error (r.halt (.cause (.unknownStatement line (Line.statement line).mnemonic)))

/-- Encoding a line is encoding the instruction lines that it stands for, one after another. -/
theorem encodeNested_eq_foldlM {levels : Nat} {line : Text} {texts : List Text}
    (stands : t.instructionLines levels line = some texts) (r : Run) :
    encodeNested t levels line r = texts.foldlM (encodeText t) r := by
  refine Tables.instructionLines_induction
    (motive := fun levels line texts => ∀ r,
      encodeNested t levels line r = texts.foldlM (encodeText t) r) ?_ ?_ stands r
  · intro levels line i role r
    have single : encodeText t r line =
        encodeInstruction i line (Line.statement line).operands r := by
      rw [encodeText, Tables.role_eq_instruction_iff.1 role]
    rw [encodeNested_instruction role, List.foldlM_cons, single]
    exact (bind_pure _).symm
  · intro levels line m lines lists role expanded each r
    rw [encodeNested_expansion role expanded]
    clear expanded
    induction each generalizing r with
    | nil => rfl
    | cons first _ ih =>
      rw [List.foldlM_cons, List.flatten_cons, List.foldlM_append, first r]
      exact congrArg _ (funext ih)

/-- A line that can be encoded stands for instruction lines. -/
lemma exists_instructionLines {levels : Nat} {line : Text} {r final : Run}
    (encoded : encodeNested t levels line r = .ok final) :
    ∃ texts, t.instructionLines levels line = some texts := by
  induction levels generalizing line r final with
  | zero =>
    cases role : t.role (Line.statement line).mnemonic with
    | instruction i => exact ⟨[line], Tables.instructionLines_instruction role⟩
    | unknown => rw [encodeNested, role] at encoded; cases encoded
    | expansion m => rw [encodeNested, role] at encoded; cases encoded
  | succ levels ih =>
    cases role : t.role (Line.statement line).mnemonic with
    | instruction i => exact ⟨[line], Tables.instructionLines_instruction role⟩
    | unknown => rw [encodeNested, role] at encoded; cases encoded
    | expansion m =>
      cases expanded : m.expand (Line.statement line).operands with
      | error failure =>
        rw [encodeNested_expansion_error role expanded] at encoded
        cases encoded
      | ok lines =>
        rw [encodeNested_expansion role expanded] at encoded
        rw [Tables.instructionLines_expansion role expanded]
        suffices h : ∃ lists, lines.mapM (t.instructionLines levels) = some lists by
          obtain ⟨lists, each⟩ := h
          exact ⟨lists.flatten, by rw [each]; rfl⟩
        clear expanded
        induction lines generalizing r with
        | nil => exact ⟨[], rfl⟩
        | cons l lines inner =>
          rw [List.foldlM_cons] at encoded
          obtain ⟨next, first, others⟩ := bind_eq_ok_iff.1 encoded
          obtain ⟨texts, head⟩ := ih first
          obtain ⟨lists, tail⟩ := inner others
          exact ⟨texts :: lists, by rw [List.mapM_cons, head, tail]; rfl⟩

end Assembly

/-- A macro whose templates start with words without braces stands for lines of the templates'
mnemonics. -/
lemma Macro.forall₂_mnemonic {m : Macro} {arguments lines : List Text}
    (plain : ∀ template ∈ m.templates, ∀ c ∈ (Text.splitWord template).1,
      Template.isPlain c = true)
    (expanded : m.expand arguments = .ok lines) :
    List.Forall₂ (fun template line =>
      (Line.statement line).mnemonic = (Line.statement template).mnemonic) m.templates lines :=
  ((List.forall₂_and_left _ _).2 ⟨plain, forall₂_of_expand expanded⟩).imp
    (fun _ _ h => Line.mnemonic_fill h.1 h.2)

namespace Tables

/-- Every template of every macro starts with a word that has no brace. -/
def HasPlainMnemonics (t : Tables) : Prop :=
  ∀ m ∈ t.macros, ∀ template ∈ m.templates, ∀ c ∈ (Text.splitWord template).1,
    Template.isPlain c = true

instance (t : Tables) : Decidable t.HasPlainMnemonics :=
  decidable_of_iff (t.macros.all (fun m => m.templates.all (fun template =>
      (Text.splitWord template).1.all Template.isPlain)) = true)
    (by simp only [HasPlainMnemonics, List.all_eq_true])

lemma hasPlainMnemonics_builtin : builtin.HasPlainMnemonics := by decide +kernel

/-- What a template line of a mnemonic adds to the count of its macro. -/
def weight (t : Tables) (levels : Nat) (mnemonic : Text) : Except Cause Nat :=
  match t.role mnemonic with
  | .expansion _ => t.countWithin levels mnemonic
  | _ => .ok 1

lemma countWithin_succ {t : Tables} {mnemonic : Text} {m : Macro}
    (found : t.expansion? mnemonic = some m) (levels : Nat) :
    t.countWithin (levels + 1) mnemonic =
      m.templates.foldlM (fun total template =>
        (t.weight levels (Line.statement template).mnemonic).map (total + ·)) 0 := by
  have known : t.expansion mnemonic = .ok m := by rw [expansion, found]
  rw [countWithin, known]
  refine congrArg (fun f => m.templates.foldlM f 0) (funext fun total => funext fun template => ?_)
  cases role : t.role (Line.statement template).mnemonic with
  | instruction i =>
    have listed := role_eq_instruction_iff.1 role
    simp [weight, role, listed, Except.map, pure, Except.pure]
  | unknown =>
    obtain ⟨unlisted, unnamed⟩ := role_eq_unknown_iff.1 role
    simp [weight, role, unlisted, unnamed, Except.map, pure, Except.pure]
  | expansion n =>
    obtain ⟨unlisted, named⟩ := role_eq_expansion_iff.1 role
    simp only [weight, role, unlisted, named]
    cases t.countWithin levels (Line.statement template).mnemonic <;> rfl

lemma foldlM_weight {t : Tables} {levels : Nat} {templates : List Text} {lists : List (List Text)}
    (each : List.Forall₂ (fun template texts =>
      t.weight levels (Line.statement template).mnemonic = .ok texts.length) templates lists)
    (total : Nat) :
    templates.foldlM (fun total template =>
        (t.weight levels (Line.statement template).mnemonic).map (total + ·)) total =
      .ok (total + lists.flatten.length) := by
  induction each generalizing total with
  | nil => rfl
  | cons first _ ih =>
    rw [List.foldlM_cons, first, List.flatten_cons, List.length_append, ← Nat.add_assoc]
    exact ih _

/-- The first pass counts a line for as many instructions as the line stands for. -/
theorem weight_eq_length {t : Tables} (plain : t.HasPlainMnemonics) {levels more : Nat}
    {line : Text} {texts : List Text} (stands : t.instructionLines levels line = some texts)
    (deeper : levels ≤ more) :
    t.weight more (Line.statement line).mnemonic = .ok texts.length := by
  refine instructionLines_induction
    (motive := fun levels line texts => ∀ more, levels ≤ more →
      t.weight more (Line.statement line).mnemonic = .ok texts.length) ?_ ?_ stands more deeper
  · intro levels line i role more _
    rw [weight, role]
    rfl
  · intro levels line m lines lists role expanded each more deeper
    obtain ⟨inner, rfl⟩ : ∃ inner, more = inner + 1 := ⟨more - 1, by omega⟩
    have found := (role_eq_expansion_iff.1 role).2
    have same := Macro.forall₂_mnemonic (plain m (mem_of_expansion? found)) expanded
    have weights : List.Forall₂ (fun template texts =>
        t.weight inner (Line.statement template).mnemonic = .ok texts.length)
        m.templates lists := by
      clear expanded
      generalize m.templates = templates at same ⊢
      induction same generalizing lists with
      | nil => cases each; exact .nil
      | cons kept _ ih =>
        obtain _ | ⟨first, others⟩ := each
        exact .cons (kept ▸ first inner (by omega)) (ih _ others)
    rw [weight, role]
    simp only [countWithin_succ found, foldlM_weight weights, Nat.zero_add]

end Tables
end Mips64
