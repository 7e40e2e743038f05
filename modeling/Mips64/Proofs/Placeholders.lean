import Mips64.Proofs.Operands
import Mips64.Proofs.Scope

/-! Placeholders within operands. Arguments come from between the commas of a line, without blanks,
and are put into a template as they are. Main statement: the line that a template gives has the
operands of the template, each with its placeholders replaced, whatever the arguments look like; and
so have the lines that nested macros stand for, at every level. -/
namespace Mips64

namespace Template

def argumentOf (arguments : List Text) (name : Text) : Text :=
  ((indexOf? name).bind (fun index => arguments[index]?)).getD []

/-- The text with each placeholder replaced by its argument, where `name` is what has been read of
the name in a placeholder. What is put in is not looked at again. -/
def replaceFrom (arguments : List Text) : (name : Option Text) → Text → Text
  | _, [] => []
  | none, c :: rest =>
    if c = '\x7b' then replaceFrom arguments (some []) rest
    else c :: replaceFrom arguments none rest
  | some name, c :: rest =>
    if c = '\x7d' then argumentOf arguments name ++ replaceFrom arguments none rest
    else replaceFrom arguments (some (name ++ [c])) rest

/-- The text with each placeholder replaced by its argument. -/
def replace (arguments : List Text) (s : Text) : Text := replaceFrom arguments none s

/-- Whether braces stand only around indices below the number of arguments, where `name` is what has
been read of the name in a placeholder. -/
def isSlottedFrom (arity : Nat) : (name : Option Text) → Text → Bool
  | none, [] => true
  | some _, [] => false
  | none, c :: rest =>
    if c = '\x7b' then isSlottedFrom arity (some []) rest
    else c != '\x7d' && isSlottedFrom arity none rest
  | some name, c :: rest =>
    if c = '\x7d' then
      (indexOf? name).any (fun index => index < arity) && isSlottedFrom arity none rest
    else isSlottedFrom arity (some (name ++ [c])) rest

/-- Whether braces stand only around indices below the number of arguments. -/
def isSlotted (arity : Nat) (s : Text) : Bool := isSlottedFrom arity none s

example : replace ["\x7b1\x7d".toList, "b".toList] "4(\x7b0\x7d), \x7b01\x7d".toList =
    "4(\x7b1\x7d), b".toList := by decide
example : isSlotted 2 "4(\x7b0\x7d), \x7b01\x7d".toList = true := by decide
example : isSlotted 2 "\x7b2\x7d".toList = false := by decide
example : isSlotted 2 "\x7b\x7b0\x7d\x7d".toList = false := by decide

lemma exists_of_isSlottedFrom {arity : Nat} {name s : Text}
    (h : isSlottedFrom arity (some name) s = true) : ∃ more rest index,
      s = more ++ '\x7d' :: rest ∧ indexOf? (name ++ more) = some index ∧ index < arity ∧
      isSlotted arity rest = true := by
  induction s generalizing name with
  | nil => cases h
  | cons c s ih =>
    rw [isSlottedFrom] at h
    split at h
    · rename_i close
      subst close
      simp only [Bool.and_eq_true, Option.any_eq_true, decide_eq_true_eq] at h
      obtain ⟨⟨index, named, bound⟩, others⟩ := h
      exact ⟨[], s, index, rfl, by simpa using named, bound, others⟩
    · obtain ⟨more, rest, index, rfl, named, bound, others⟩ := ih h
      exact ⟨c :: more, rest, index, rfl, by simpa using named, bound, others⟩

/-- Induction over a text with placeholders: it starts with a character that stands for itself, or
with an index between braces. -/
theorem isSlotted_induction {arity : Nat} {motive : Text → Prop} (nil : motive [])
    (plain : ∀ c s, isPlain c = true → motive s → motive (c :: s))
    (slot : ∀ name index s, indexOf? name = some index → index < arity → motive s →
      motive ('\x7b' :: (name ++ '\x7d' :: s))) {s : Text} (h : isSlotted arity s = true) :
    motive s := by
  induction length : s.length using Nat.strong_induction_on generalizing s with
  | _ n ih =>
    cases s with
    | nil => exact nil
    | cons c s =>
      rw [isSlotted, isSlottedFrom] at h
      split at h
      · rename_i openBrace
        subst openBrace
        obtain ⟨name, rest, index, rfl, named, bound, others⟩ := exists_of_isSlottedFrom h
        refine slot name index rest named bound (ih rest.length ?_ others rfl)
        simp only [← length, List.length_cons, List.length_append]
        omega
      · rename_i openBrace
        simp only [Bool.and_eq_true, bne_iff_ne] at h
        refine plain c s (by simp [isPlain, openBrace, h.1]) (ih s.length ?_ h.2 rfl)
        simp [← length]

section
variable {arguments : List Text}

@[simp] lemma replace_nil : replace arguments [] = [] := rfl

lemma replace_cons {c : Char} (plain : isPlain c = true) (s : Text) :
    replace arguments (c :: s) = c :: replace arguments s := by
  simp only [isPlain, Bool.and_eq_true, bne_iff_ne] at plain
  rw [replace, replaceFrom, if_neg plain.1]
  rfl

lemma replaceFrom_name {more : Text} (digits : ∀ c ∈ more, ∃ d, Text.decimalValue? c = some d)
    (name s : Text) : replaceFrom arguments (some name) (more ++ '\x7d' :: s) =
      argumentOf arguments (name ++ more) ++ replace arguments s := by
  induction more generalizing name with
  | nil => simp [replaceFrom, replace]
  | cons c more ih =>
    have close : c ≠ '\x7d' :=
      Text.ne_of_decimalValue? (digits c List.mem_cons_self) (by decide)
    rw [List.cons_append, replaceFrom, if_neg close,
      ih fun d member => digits d (List.mem_cons_of_mem c member)]
    simp

lemma replace_slot {name : Text} {index : Nat} (numbered : indexOf? name = some index)
    (s : Text) : replace arguments ('\x7b' :: (name ++ '\x7d' :: s)) =
      argumentOf arguments name ++ replace arguments s := by
  rw [replace, replaceFrom, if_pos rfl, replaceFrom_name (of_indexOf? numbered).2.1,
    List.nil_append]

lemma argumentOf_eq {name : Text} {index : Nat} (numbered : indexOf? name = some index)
    (bound : index < arguments.length) :
    arguments[index]? = some (argumentOf arguments name) := by
  simp [argumentOf, numbered, bound]

/-- A text whose braces stand around indices is filled by replacing its placeholders. -/
lemma fills_replace {s : Text} (slotted : isSlotted arguments.length s = true) :
    Fills arguments s (replace arguments s) := by
  refine isSlotted_induction (motive := fun s => Fills arguments s (replace arguments s)) Fills.nil
    ?_ ?_ slotted
  · intro c s plain ih
    rw [replace_cons plain]
    exact ih.cons plain
  · intro name index s numbered bound ih
    rw [replace_slot numbered]
    exact ih.numbered numbered (argumentOf_eq numbered bound)

end
end Template

lemma Text.visible_of_decimalValue? {c : Char} (digit : ∃ d, decimalValue? c = some d) :
    isBlank c = false := by
  obtain ⟨d, value⟩ := digit
  obtain ⟨z, found, -⟩ := Option.map_eq_some_iff.1 value
  have table : ∀ z ∈ zeros, ∀ k < 10, isBlank (Char.ofNat (z + k)) = false := by decide +kernel
  have near := List.find?_some found
  simp only [Bool.and_eq_true, decide_eq_true_eq] at near
  have visible := table z (List.mem_of_find?_eq_some found) (c.toNat - z) (by omega)
  rwa [Nat.add_sub_cancel' near.1, Char.ofNat_toNat] at visible

/-- A text without the separator goes to the front of the first piece. -/
lemma splitOn_append {x : Char} {w s first : Text} {rest : List Text} (apart : x ∉ w)
    (cut : s.splitOn x = first :: rest) : (w ++ s).splitOn x = (w ++ first) :: rest := by
  induction w with
  | nil => exact cut
  | cons c w ih =>
    have other : c ≠ x := fun same => apart (same ▸ List.mem_cons_self)
    have others := ih fun member => apart (List.mem_cons_of_mem c member)
    rw [List.splitOn] at others
    rw [List.cons_append, List.splitOn, List.splitOnP_cons_eq_if_modifyHead, others]
    simp [other]

namespace Template

section
variable {arguments : List Text}

/-- Arguments as a statement has them: they have no blanks and no commas. -/
def ArePlain (arguments : List Text) : Prop :=
  ∀ argument ∈ arguments, (∀ c ∈ argument, Text.isBlank c = false) ∧ ',' ∉ argument

lemma ArePlain.argumentOf (plain : ArePlain arguments) (name : Text) :
    (∀ c ∈ argumentOf arguments name, Text.isBlank c = false) ∧
      ',' ∉ argumentOf arguments name := by
  unfold Template.argumentOf
  cases found : (indexOf? name).bind (fun index => arguments[index]?) with
  | none => simp
  | some argument =>
    obtain ⟨index, -, given⟩ := Option.bind_eq_some_iff.1 found
    exact plain argument (List.mem_of_getElem? given)

lemma compact_slot {name : Text} {index : Nat} (numbered : indexOf? name = some index) (s : Text) :
    Text.compact ('\x7b' :: (name ++ '\x7d' :: s)) =
      '\x7b' :: (name ++ '\x7d' :: Text.compact s) := by
  have digits : Text.compact name = name := Text.compact_of_visible fun c member =>
    Text.visible_of_decimalValue? ((of_indexOf? numbered).2.1 c member)
  rw [Text.compact_cons_visible (by decide), Text.compact_append, digits,
    Text.compact_cons_visible (by decide)]

/-- It does not matter whether blanks are dropped before or after placeholders are replaced. -/
lemma compact_replace (plain : ArePlain arguments) {arity : Nat} {s : Text}
    (slotted : isSlotted arity s = true) :
    Text.compact (replace arguments s) = replace arguments (Text.compact s) := by
  refine isSlotted_induction (motive := fun s =>
    Text.compact (replace arguments s) = replace arguments (Text.compact s)) rfl ?_ ?_ slotted
  · intro c s written ih
    rw [replace_cons written]
    cases blank : Text.isBlank c with
    | true => rw [Text.compact_cons_blank blank, Text.compact_cons_blank blank, ih]
    | false =>
      rw [Text.compact_cons_visible blank, Text.compact_cons_visible blank, replace_cons written,
        ih]
  · intro name index s numbered _ ih
    rw [replace_slot numbered, Text.compact_append,
      Text.compact_of_visible (plain.argumentOf name).1, ih, compact_slot numbered,
      replace_slot numbered]

/-- It does not matter whether a text is cut at commas before or after placeholders are replaced. -/
lemma splitOn_replace (plain : ArePlain arguments) {arity : Nat} {s : Text}
    (slotted : isSlotted arity s = true) :
    (replace arguments s).splitOn ',' = (s.splitOn ',').map (replace arguments) := by
  refine isSlotted_induction (motive := fun s =>
    (replace arguments s).splitOn ',' = (s.splitOn ',').map (replace arguments)) rfl ?_ ?_ slotted
  · intro c s written ih
    rw [replace_cons written]
    obtain ⟨first, rest, pieces⟩ := List.exists_cons_of_ne_nil (List.splitOn_ne_nil ',' s)
    rw [pieces] at ih
    by_cases comma : c = ','
    · subst comma
      rw [List.splitOn] at ih pieces
      simp [List.splitOn, List.splitOnP_cons_eq_if_modifyHead, ih, pieces]
    · have apart : ',' ∉ [c] := by simpa using Ne.symm comma
      have cut : (c :: s).splitOn ',' = (c :: first) :: rest := splitOn_append apart pieces
      have cut' : (c :: replace arguments s).splitOn ',' =
        (c :: replace arguments first) :: rest.map (replace arguments) := splitOn_append apart ih
      rw [cut, cut', List.map_cons, replace_cons written]
  · intro name index s numbered _ ih
    have apart : ',' ∉ '\x7b' :: (name ++ ['\x7d']) := by
      intro member
      have digits : ',' ∉ name := fun inside =>
        Text.ne_of_decimalValue? ((of_indexOf? numbered).2.1 ',' inside) (by decide) rfl
      simp [digits] at member
    obtain ⟨first, rest, pieces⟩ := List.exists_cons_of_ne_nil (List.splitOn_ne_nil ',' s)
    rw [pieces] at ih
    have whole (t : Text) :
        '\x7b' :: (name ++ '\x7d' :: t) = ('\x7b' :: (name ++ ['\x7d'])) ++ t := by simp
    rw [replace_slot numbered, splitOn_append (plain.argumentOf name).2 ih, whole,
      splitOn_append apart pieces, List.map_cons, ← whole, replace_slot numbered]

lemma isSlotted_cons {arity : Nat} {c : Char} (plain : isPlain c = true) (s : Text) :
    isSlotted arity (c :: s) = isSlotted arity s := by
  simp only [isPlain, Bool.and_eq_true, bne_iff_ne] at plain
  rw [isSlotted, isSlottedFrom, if_neg plain.1, bne_iff_ne.2 plain.2, Bool.true_and]
  rfl

lemma isSlottedFrom_name {arity : Nat} {more : Text}
    (digits : ∀ c ∈ more, ∃ d, Text.decimalValue? c = some d) (name s : Text) :
    isSlottedFrom arity (some name) (more ++ '\x7d' :: s) =
      ((indexOf? (name ++ more)).any (fun index => index < arity) && isSlotted arity s) := by
  induction more generalizing name with
  | nil => simp [isSlottedFrom, isSlotted]
  | cons c more ih =>
    have close : c ≠ '\x7d' :=
      Text.ne_of_decimalValue? (digits c List.mem_cons_self) (by decide)
    rw [List.cons_append, isSlottedFrom, if_neg close,
      ih fun d member => digits d (List.mem_cons_of_mem c member)]
    simp

lemma isSlotted_slot {arity : Nat} {name : Text} {index : Nat}
    (numbered : indexOf? name = some index) (bound : index < arity) (s : Text) :
    isSlotted arity ('\x7b' :: (name ++ '\x7d' :: s)) = isSlotted arity s := by
  rw [isSlotted, isSlottedFrom, if_pos rfl, isSlottedFrom_name (of_indexOf? numbered).2.1]
  simp [numbered, bound]

lemma isSlotted_compact {arity : Nat} {s : Text} (slotted : isSlotted arity s = true) :
    isSlotted arity (Text.compact s) = true := by
  refine isSlotted_induction (motive := fun s => isSlotted arity (Text.compact s) = true) rfl ?_ ?_
    slotted
  · intro c s written ih
    cases blank : Text.isBlank c with
    | true => rwa [Text.compact_cons_blank blank]
    | false => rwa [Text.compact_cons_visible blank, isSlotted_cons written]
  · intro name index s numbered bound ih
    rwa [compact_slot numbered, isSlotted_slot numbered bound]

lemma isSlotted_append {arity : Nat} {w : Text} (plain : ∀ c ∈ w, isPlain c = true) (s : Text) :
    isSlotted arity (w ++ s) = isSlotted arity s := by
  induction w with
  | nil => rfl
  | cons c w ih =>
    rw [List.cons_append, isSlotted_cons (plain c List.mem_cons_self)]
    exact ih fun d member => plain d (List.mem_cons_of_mem c member)

lemma replace_append {w : Text} (plain : ∀ c ∈ w, isPlain c = true) (s : Text) :
    replace arguments (w ++ s) = w ++ replace arguments s := by
  induction w with
  | nil => rfl
  | cons c w ih =>
    rw [List.cons_append, replace_cons (plain c List.mem_cons_self),
      ih fun d member => plain d (List.mem_cons_of_mem c member)]
    rfl

/-- Operands are cut from a text with replaced placeholders as they are cut from the text itself. A
single operand that comes out empty is lost. -/
lemma cutOperands_replace (plain : ArePlain arguments) {arity : Nat} {s : Text}
    (slotted : isSlotted arity s = true) : Line.cutOperands (replace arguments s) =
      if (Line.cutOperands s).map (replace arguments) = [[]] then []
      else (Line.cutOperands s).map (replace arguments) := by
  cases s with
  | nil => rfl
  | cons c s =>
    have cut : (Line.cutOperands (c :: s)).map (replace arguments) =
        (replace arguments (c :: s)).splitOn ',' := by
      rw [splitOn_replace plain slotted]
      rfl
    rw [cut]
    by_cases empty : replace arguments (c :: s) = []
    · rw [empty]
      rfl
    · have several : (replace arguments (c :: s)).splitOn ',' ≠ [[]] := by
        intro single
        have joined : [','].intercalate ((replace arguments (c :: s)).splitOn ',') =
          replace arguments (c :: s) := List.intercalate_splitOn ','
        rw [single] at joined
        exact empty joined.symm
      rw [if_neg several, Line.cutOperands, if_neg (by simpa using empty)]

end

/-- A template with placeholders: its first word has no braces, and behind it braces stand only
around indices below the number of arguments. -/
def HasSlots (arity : Nat) (template : Text) : Prop :=
  (∀ c ∈ (Text.splitWord template).1, isPlain c = true) ∧
    isSlotted arity (Text.splitWord template).2 = true

instance (arity : Nat) (template : Text) : Decidable (HasSlots arity template) :=
  inferInstanceAs (Decidable ((∀ c ∈ (Text.splitWord template).1, isPlain c = true) ∧
    isSlotted arity (Text.splitWord template).2 = true))

lemma HasSlots.isSlotted {arity : Nat} {template : Text} (h : HasSlots arity template) :
    isSlotted arity template = true := by
  obtain ⟨blanks, rest, template_eq, cut⟩ := Text.exists_cut template
  have behind : (Text.splitWord template).2 = Text.stripLeft rest := by
    conv_lhs => rw [template_eq, cut.splitWord_eq]
  have blank (s : Text) (blanks : ∀ c ∈ s, Text.isBlank c = true) :
      ∀ c ∈ s, isPlain c = true := fun c member => isPlain_of_isBlank (blanks c member)
  have slotted := h.2
  rw [behind, ← isSlotted_append (blank _ fun c member => List.mem_takeWhile_imp member),
    Text.stripLeft, List.takeWhile_append_dropWhile] at slotted
  rwa [template_eq, isSlotted_append (blank _ cut.leading), isSlotted_append h.1]

end Template

/-- The statement of a template with arguments in place of its placeholders. A single operand that
comes out empty is lost. -/
def Line.Statement.replaced (arguments : List Text) (s : Statement) : Statement :=
  let operands := s.operands.map (Template.replace arguments)
  ⟨s.mnemonic, if operands = [[]] then [] else operands⟩

namespace Template

variable {arguments : List Text} {template : Text}

lemma HasSlots.fill_eq (h : HasSlots arguments.length template) :
    fill template arguments = .ok (replace arguments template) :=
  (fills_replace h.isSlotted).fill_eq

/-- The operands of a filled template are those of the template, each with its placeholders
replaced. -/
theorem HasSlots.statement_replace (h : HasSlots arguments.length template)
    (plain : ArePlain arguments) :
    Line.statement (replace arguments template) =
      (Line.statement template).replaced arguments := by
  have word : (Text.splitWord (replace arguments template)).1 = (Text.splitWord template).1 :=
    splitWord_fill h.1 h.fill_eq
  have whole := Line.compact_eq_written template
  have slotted := isSlotted_compact h.isSlotted
  rw [whole, isSlotted_append h.1] at slotted
  have behind : Line.written (replace arguments template) =
      replace arguments (Line.written template) := by
    have filled := compact_replace plain h.isSlotted
    rw [Line.compact_eq_written, word, whole, replace_append h.1] at filled
    exact List.append_cancel_left filled
  rw [Line.statement_eq, word, behind, cutOperands_replace plain slotted, Line.Statement.replaced,
    Line.statement_eq template]

end Template

lemma Line.arePlain_operands (line : Text) : Template.ArePlain (statement line).operands :=
  fun _ member => visible_of_mem_operands member

namespace Macro

/-- A macro whose templates have placeholders for its number of arguments. -/
def HasSlots (m : Macro) : Prop :=
  ∀ template ∈ m.templates, Template.HasSlots m.arity.toNat template

instance (m : Macro) : Decidable m.HasSlots :=
  inferInstanceAs (Decidable (∀ template ∈ m.templates, Template.HasSlots m.arity.toNat template))

variable {m : Macro} {arguments : List Text}

lemma HasSlots.of_arity (h : m.HasSlots) (arity : m.arity = arguments.length) {template : Text}
    (member : template ∈ m.templates) : Template.HasSlots arguments.length template := by
  have slots := h template member
  rwa [arity, Int.toNat_natCast] at slots

/-- A macro that is used with its number of arguments stands for its templates with replaced
placeholders. -/
lemma HasSlots.expand_eq (h : m.HasSlots) (arity : m.arity = arguments.length) :
    m.expand arguments = .ok (m.templates.map (Template.replace arguments)) :=
  expand_eq_map arity fun _ member => (h.of_arity arity member).fill_eq

end Macro

namespace Tables

/-- Tables whose macros have templates with placeholders for their numbers of arguments. -/
def HasSlots (t : Tables) : Prop := ∀ m ∈ t.macros, m.HasSlots

instance (t : Tables) : Decidable t.HasSlots :=
  inferInstanceAs (Decidable (∀ m ∈ t.macros, m.HasSlots))

example : builtin.HasSlots := by decide +kernel

/-- The statements that a statement stands for at a level of nesting, made from the statements of
templates alone: none of the lines on the way is looked at. -/
inductive Nested (t : Tables) (s : Line.Statement) : Nat → Line.Statement → Prop
  | self : Nested t s 0 s
  | used {level : Nat} {u : Line.Statement} {m : Macro} {template : Text}
      (outer : Nested t s level u) (role : t.role u.mnemonic = .expansion m)
      (arity : m.arity = u.operands.length) (member : template ∈ m.templates) :
      Nested t s (level + 1) ((Line.statement template).replaced u.operands)

end Tables

namespace Assembly

variable {t : Tables}

/-- One step of the agenda keeps to the statements of templates. -/
lemma AgendaStep.nested (slots : t.HasSlots) {s : Line.Statement}
    {a b : List (Text × Nat) × Run} (h : AgendaStep t a b)
    (nested : ∀ item ∈ a.1, t.Nested s item.2 (Line.statement item.1)) :
    ∀ item ∈ b.1, t.Nested s item.2 (Line.statement item.1) := by
  cases h with
  | instruction role encodes =>
    exact fun item member => nested item (List.mem_cons_of_mem _ member)
  | @expansion line depth rest r m lines role shallow expanded =>
    intro item member
    rcases List.mem_append.1 member with new | old
    · have arity := Macro.arity_of_expand expanded
      have macroSlots := slots m (Tables.mem_of_expansion? (Tables.role_eq_expansion_iff.1 role).2)
      rw [macroSlots.expand_eq arity] at expanded
      cases expanded
      obtain ⟨_, inside, rfl⟩ := List.mem_map.1 new
      obtain ⟨template, listed, rfl⟩ := List.mem_map.1 inside
      dsimp only
      rw [(macroSlots.of_arity arity listed).statement_replace (Line.arePlain_operands line)]
      exact .used (nested (line, depth) List.mem_cons_self) role arity listed
    · exact nested item (List.mem_cons_of_mem _ old)

lemma nested_of_steps (slots : t.HasSlots) {line : Text} {r : Run}
    {b : List (Text × Nat) × Run}
    (steps : Relation.ReflTransGen (AgendaStep t) ([(line, 0)], r) b) :
    ∀ item ∈ b.1, t.Nested (Line.statement line) item.2 (Line.statement item.1) := by
  induction steps with
  | refl =>
    intro item member
    cases List.mem_singleton.1 member
    exact .self
  | tail _ step ih => exact step.nested slots ih

/-- Arguments stay within operands. A template that is filled with the operands of any line gives a
line with the mnemonic and the operands of the template, each with its placeholders replaced, of
which only a single one that comes out empty is lost. So the lines that macros stand for are made
from the statements of templates at every level of nesting, whatever is written in arguments. -/
theorem operandBounds_kept :
    (∀ source template : Text,
      Template.HasSlots (Line.statement source).operands.length template →
      ∃ line, Template.fill template (Line.statement source).operands = .ok line ∧
        Line.statement line =
          (Line.statement template).replaced (Line.statement source).operands) ∧
    ∀ t : Tables, t.HasSlots → ∀ (line : Text) (r : Run) (agenda : List (Text × Nat)) (r' : Run),
      Relation.ReflTransGen (AgendaStep t) ([(line, 0)], r) (agenda, r') →
      ∀ text level, (text, level) ∈ agenda →
        t.Nested (Line.statement line) level (Line.statement text) ∧
        ∀ m, t.role (Line.statement text).mnemonic = .expansion m →
          m.arity = (Line.statement text).operands.length →
          ∃ lines, m.expand (Line.statement text).operands = .ok lines ∧
            lines.map Line.statement = m.templates.map fun template =>
              (Line.statement template).replaced (Line.statement text).operands := by
  constructor
  · intro source template slots
    exact ⟨_, slots.fill_eq, slots.statement_replace (Line.arePlain_operands source)⟩
  · intro t slots line r agenda r' steps text level member
    refine ⟨nested_of_steps slots steps (text, level) member, fun m role arity => ?_⟩
    have macroSlots := slots m (Tables.mem_of_expansion? (Tables.role_eq_expansion_iff.1 role).2)
    refine ⟨_, macroSlots.expand_eq arity, ?_⟩
    rw [List.map_map]
    exact List.map_congr_left fun template listed =>
      (macroSlots.of_arity arity listed).statement_replace (Line.arePlain_operands text)

/-- Two macros of which one uses the other, with its arguments the other way round. -/
def crossed : Tables :=
  ⟨Instruction.builtin,
    [.ofStrings "OUTER" "" 2 ["INNER \x7b1\x7d, X\x7b0\x7d"],
      .ofStrings "INNER" "" 2 ["LW \x7b0\x7d, 4 ( \x7b1\x7d )"]]⟩

/-- Arguments with braces, a quote, a bracket, a colon and a comment mark. -/
theorem operandBounds_kept_crossed :
    (∃ line, Template.fill "SW \x7b1\x7d, 4 ( \x7b0\x7d )".toList
        (Line.statement "M \x7b1\x7d, \"#[:".toList).operands = .ok line ∧
      Line.statement line = ⟨"SW".toList, ["\"#[:".toList, "4(\x7b1\x7d)".toList]⟩) ∧
    crossed.Nested (Line.statement "OUTER \x7b1\x7d, \"#[:".toList) 2
      ⟨"LW".toList, ["\"#[:".toList, "4(X\x7b1\x7d)".toList]⟩ := by
  obtain ⟨single, nested⟩ := operandBounds_kept
  have slots : crossed.HasSlots := by decide
  have outer : crossed.role (Line.statement "OUTER \x7b1\x7d, \"#[:".toList).mnemonic =
    .expansion _ := Tables.role_eq_expansion_iff.2 ⟨by decide +kernel, rfl⟩
  have inner : crossed.role (Line.statement "INNER \"#[:, X\x7b1\x7d".toList).mnemonic =
    .expansion _ := Tables.role_eq_expansion_iff.2 ⟨by decide +kernel, rfl⟩
  have first : AgendaStep crossed ([("OUTER \x7b1\x7d, \"#[:".toList, 0)], .empty)
      (["INNER \"#[:, X\x7b1\x7d".toList].map (fun l => (l, 0 + 1)) ++ [], .empty) :=
    .expansion outer (by decide) rfl
  have second : AgendaStep crossed ([("INNER \"#[:, X\x7b1\x7d".toList, 1)], .empty)
      (["LW \"#[:, 4 ( X\x7b1\x7d )".toList].map (fun l => (l, 1 + 1)) ++ [], .empty) :=
    .expansion inner (by decide) rfl
  have steps := (Relation.ReflTransGen.single first).tail second
  have read : Line.statement "LW \"#[:, 4 ( X\x7b1\x7d )".toList =
    ⟨"LW".toList, ["\"#[:".toList, "4(X\x7b1\x7d)".toList]⟩ := by decide
  constructor
  · obtain ⟨line, filled, statement⟩ := single "M \x7b1\x7d, \"#[:".toList
      "SW \x7b1\x7d, 4 ( \x7b0\x7d )".toList (by decide)
    exact ⟨line, filled, statement.trans (by decide)⟩
  · rw [← read]
    exact (nested crossed slots _ _ _ _ steps _ _ List.mem_cons_self).1

end Assembly
end Mips64
