import Mips64.Proofs.Nesting

/-! The two limits on nesting. The first pass refuses a macro while it counts its words, and the
second while it expands it. Main statement: where nothing else stops a line, its macro is refused by
the count if it nests more than one level beyond the limit, and by the encoding if it nests beyond
the limit at all. The two agree but for the macros that nest one level beyond the limit. -/
namespace Mips64.Assembly

/-- While a line is encoded, another comes first on the agenda, at a depth and in a run. -/
def ComesUp (t : Tables) (start : Text) (r : Run) (line : Text) (depth : Nat) (s : Run) : Prop :=
  ∃ rest, Relation.ReflTransGen (AgendaStep t) ([(start, 0)], r) ((line, depth) :: rest, s)

/-- Nothing stops a line but the nesting of its macros: every mnemonic that comes up is known, every
macro that is expanded has its number of operands, and every instruction can be encoded. -/
structure GoesOn (t : Tables) (start : Text) (r : Run) : Prop where
  known : ∀ {line depth s}, ComesUp t start r line depth s →
    t.role (Line.statement line).mnemonic ≠ .unknown
  arity : ∀ {line depth s m}, ComesUp t start r line depth s → depth < Macro.maxDepth →
    t.role (Line.statement line).mnemonic = .expansion m →
    m.arity = (Line.statement line).operands.length
  encodes : ∀ {line depth s i}, ComesUp t start r line depth s →
    t.role (Line.statement line).mnemonic = .instruction i →
    ∃ word, i.encode s.store.toSymbols s.store.size (Line.statement line).operands = .ok word

def CountRefuses (t : Tables) (name : Text) : Prop :=
  ∃ c, t.count name 0 = .error c ∧ c.kind = .macroRecursion

def EncodingRefuses (t : Tables) (line : Text) (r : Run) : Prop :=
  ∃ h, encodeAgenda t [(line, 0)] r = .error h ∧ h.report.failure.IsRecursion

/-- The encoding of a line ends in a fault, as it does at a template that cannot be filled. -/
def EncodingFaults (t : Tables) (line : Text) (r : Run) : Prop :=
  ∃ h fault, encodeAgenda t [(line, 0)] r = .error h ∧ h.report.failure = .fault fault

variable {t : Tables} {line : Text} {r : Run}

lemma not_encodingFaults {c : Cause}
    (stops : encodeAgenda t [(line, 0)] r = .error (r.halt (.cause c))) :
    ¬ EncodingFaults t line r := by
  rintro ⟨h, fault, stopped, faulty⟩
  cases stops.symm.trans stopped
  cases faulty

lemma countRefuses_iff {name : Text} (called : t.IsMacro name) :
    CountRefuses t name ↔ Macro.maxDepth + 1 < t.nesting name := by
  obtain ⟨m, role⟩ := called
  have counts : t.count name 0 = t.weight (Macro.maxDepth + 1) name := by
    rw [Tables.weight_expansion role]
    rfl
  constructor
  · rintro ⟨c, refused, -⟩
    exact Tables.lt_nesting_of_weight (counts.symm.trans refused)
  · intro deep
    cases refused : t.weight (Macro.maxDepth + 1) name with
    | ok n => exact absurd (Tables.exists_weight_iff.1 ⟨n, refused⟩) (not_le_of_gt deep)
    | error c => exact ⟨c, counts.trans refused, t.failsWithin_weight _ name c refused⟩

/-- Where nothing else stops a line, it is refused if its macros nest too deep. -/
lemma encodingRefuses_of_lt_nesting (plain : t.HasPlainMnemonics) (goes : GoesOn t line r)
    (sound : ¬ EncodingFaults t line r)
    (deep : Macro.maxDepth < t.nesting (Line.statement line).mnemonic) :
    EncodingRefuses t line r := by
  obtain ⟨last, steps, ends⟩ := exists_agendaEnd t [(line, 0)] r
  cases outcome : encodeAgenda t [(line, 0)] r with
  | ok next =>
    rw [encodeAgenda_singleton] at outcome
    exact absurd (nesting_le_of_encodeNested plain outcome) (not_le_of_gt deep)
  | error h =>
    refine ⟨h, outcome, ?_⟩
    rw [outcome] at ends
    cases ends with
    | unencoded role fails =>
      obtain ⟨word, encoded⟩ := goes.encodes ⟨_, steps⟩ role
      cases encoded.symm.trans fails
    | unknown role => exact absurd role (goes.known ⟨_, steps⟩)
    | unexpanded role shallow fails =>
      obtain ⟨other, -⟩ | ⟨-, fault, rfl⟩ := Macro.expand_eq_error fails
      · exact absurd (goes.arity ⟨_, steps⟩ shallow role) other
      · exact absurd ⟨_, fault, outcome, rfl⟩ sound
    | tooDeep role deep => rfl

lemma encodingRefuses_iff (plain : t.HasPlainMnemonics) (goes : GoesOn t line r)
    (sound : ¬ EncodingFaults t line r) : EncodingRefuses t line r ↔
      Macro.maxDepth < t.nesting (Line.statement line).mnemonic :=
  ⟨fun ⟨_, failed, recursion⟩ => lt_nesting_of_encodeAgenda plain failed recursion,
    encodingRefuses_of_lt_nesting plain goes sound⟩

/-- Two limits that differ by one agree on every number but the larger of them. -/
lemma limits_agree_iff (limit : ℕ) (n : ℕ∞) : (limit + 1 < n ↔ limit < n) ↔ n ≠ limit + 1 := by
  rw [← ENat.add_one_le_iff (ENat.natCast_ne_top limit), lt_iff_le_and_ne, and_iff_left_iff_imp]
  constructor
  · intro differ same
    exact differ same.ge same.symm
  · intro differ _ same
    exact differ same.symm

/-- Lines of macros, each of which stands for the next line. -/
def IsAscent (t : Tables) (f : Nat → Text) : Prop :=
  ∀ k ≤ Macro.maxDepth, ∃ m, t.role (Line.statement (f k)).mnemonic = .expansion m ∧
    m.expand (Line.statement (f k)).operands = .ok [f (k + 1)]

/-- Where each line stands for the next, they come up one by one, each a level deeper. -/
lemma IsAscent.eq_of_comesUp {f : Nat → Text} (ascent : IsAscent t f)
    {depth : Nat} {s : Run} (comes : ComesUp t (f 0) r line depth s) :
    depth ≤ Macro.maxDepth ∧ line = f depth := by
  obtain ⟨rest, steps⟩ := comes
  have single : ∀ state, Relation.ReflTransGen (AgendaStep t) ([(f 0, 0)], r) state →
      ∃ k ≤ Macro.maxDepth, state = ([(f k, k)], r) := by
    intro state steps
    induction steps with
    | refl => exact ⟨0, Nat.zero_le _, rfl⟩
    | tail _ step ih =>
      obtain ⟨k, bound, rfl⟩ := ih
      obtain ⟨m, role, expanded⟩ := ascent k bound
      cases step with
      | instruction other encodes => cases role.symm.trans other
      | expansion same shallow lines =>
        cases role.symm.trans same
        cases expanded.symm.trans lines
        exact ⟨k + 1, shallow, rfl⟩
  obtain ⟨k, bound, same⟩ := single _ steps
  cases same
  exact ⟨bound, rfl⟩

lemma IsAscent.goesOn {f : Nat → Text} (ascent : IsAscent t f) (r : Run) : GoesOn t (f 0) r where
  known comes unknown := by
    obtain ⟨bound, rfl⟩ := ascent.eq_of_comesUp comes
    obtain ⟨m, role, -⟩ := ascent _ bound
    cases role.symm.trans unknown
  arity comes shallow same := by
    obtain ⟨bound, rfl⟩ := ascent.eq_of_comesUp comes
    obtain ⟨m, role, expanded⟩ := ascent _ bound
    cases role.symm.trans same
    exact Macro.arity_of_expand expanded
  encodes comes same := by
    obtain ⟨bound, rfl⟩ := ascent.eq_of_comesUp comes
    obtain ⟨m, role, -⟩ := ascent _ bound
    cases role.symm.trans same

/-- Where nothing but nesting stops a line, its macro is refused by the count if it nests more than
one level beyond the limit, and its encoding is refused if it nests beyond the limit. The two agree
if the macro does not nest exactly one level beyond the limit, and only then. -/
theorem guards_agree_iff (plain : t.HasPlainMnemonics)
    (called : t.IsMacro (Line.statement line).mnemonic) (goes : GoesOn t line r) :
    (CountRefuses t (Line.statement line).mnemonic ↔
      Macro.maxDepth + 1 < t.nesting (Line.statement line).mnemonic) ∧
    (¬ EncodingFaults t line r →
      (EncodingRefuses t line r ↔ Macro.maxDepth < t.nesting (Line.statement line).mnemonic) ∧
      ((CountRefuses t (Line.statement line).mnemonic ↔ EncodingRefuses t line r) ↔
        t.nesting (Line.statement line).mnemonic ≠ Macro.maxDepth + 1)) := by
  refine ⟨countRefuses_iff called, fun sound => ?_⟩
  have encoding := encodingRefuses_iff plain goes sound
  refine ⟨encoding, ?_⟩
  rw [countRefuses_iff called, encoding]
  exact limits_agree_iff _ _

/-- A macro that stands for itself. -/
def endless : Tables := ⟨Instruction.builtin, [⟨"LOOP".toList, "", 0, ["LOOP".toList]⟩]⟩

/-- A macro that stands for itself is refused by both. -/
theorem guards_agree_iff_endless :
    endless.HasPlainMnemonics ∧ endless.IsMacro (Line.statement "LOOP".toList).mnemonic ∧
    GoesOn endless "LOOP".toList Run.empty ∧ ¬ EncodingFaults endless "LOOP".toList Run.empty ∧
    CountRefuses endless (Line.statement "LOOP".toList).mnemonic ∧
    EncodingRefuses endless "LOOP".toList Run.empty := by
  have plain : endless.HasPlainMnemonics := by decide +kernel
  have role : endless.role (Line.statement "LOOP".toList).mnemonic =
      .expansion ⟨"LOOP".toList, "", 0, ["LOOP".toList]⟩ := by rfl
  have ascent : IsAscent endless fun _ => "LOOP".toList := fun _ _ => ⟨_, role, by rfl⟩
  have goes : GoesOn endless "LOOP".toList Run.empty := ascent.goesOn Run.empty
  have counted : CountRefuses endless (Line.statement "LOOP".toList).mnemonic :=
    ⟨.macroDepth "LOOP".toList Macro.maxDepth, by rfl, rfl⟩
  have stops : encodeAgenda endless [("LOOP".toList, 0)] Run.empty =
      .error (Run.empty.halt (.cause (.macroDepth "LOOP".toList Macro.maxDepth))) := by
    rw [encodeAgenda_singleton]
    rfl
  have sound := not_encodingFaults stops
  have agree := guards_agree_iff plain ⟨_, role⟩ goes
  have differs := ne_of_gt (agree.1.1 counted)
  exact ⟨plain, ⟨_, role⟩, goes, sound, counted, ((agree.2 sound).2.2 differs).1 counted⟩

/-- The first of seventeen macros, each of which stands for the next, is counted, but its encoding
is refused. -/
theorem not_guards_agree_ladder :
    (ladder 17).HasPlainMnemonics ∧ (ladder 17).IsMacro (Line.statement (rung 17 0)).mnemonic ∧
    GoesOn (ladder 17) (rung 17 0) Run.empty ∧
    ¬ EncodingFaults (ladder 17) (rung 17 0) Run.empty ∧
    ¬ (CountRefuses (ladder 17) (Line.statement (rung 17 0)).mnemonic ↔
      EncodingRefuses (ladder 17) (rung 17 0) Run.empty) := by
  have plain : (ladder 17).HasPlainMnemonics := by decide +kernel
  have each : ∀ k ≤ Macro.maxDepth,
      (ladder 17).instruction? (Line.statement (rung 17 k)).mnemonic = none ∧
      (ladder 17).expansion? (Line.statement (rung 17 k)).mnemonic =
        some ⟨rung 17 k, "", 0, [rung 17 (k + 1)]⟩ ∧
      (Line.statement (rung 17 k)).operands = [] ∧
      Macro.expand ⟨rung 17 k, "", 0, [rung 17 (k + 1)]⟩ [] = .ok [rung 17 (k + 1)] := by
    decide +kernel
  have ascent : IsAscent (ladder 17) (rung 17) := by
    intro k bound
    obtain ⟨unlisted, found, operands, expanded⟩ := each k bound
    exact ⟨_, Tables.role_eq_expansion_iff.2 ⟨unlisted, found⟩, by rw [operands, expanded]⟩
  have stops : encodeAgenda (ladder 17) [(rung 17 0, 0)] Run.empty =
      .error (Run.empty.halt (.cause (.macroDepth (rung 17 16) Macro.maxDepth))) := by
    rw [encodeAgenda_singleton]
    decide +kernel
  have counted : (ladder 17).count (Line.statement (rung 17 0)).mnemonic 0 = .ok 1 := by
    decide +kernel
  refine ⟨plain, (ascent 0 (by decide)).imp fun _ => And.left, ascent.goesOn Run.empty,
    not_encodingFaults stops, fun agree => ?_⟩
  obtain ⟨c, refused, -⟩ := agree.2 ⟨_, stops, rfl⟩
  cases counted.symm.trans refused

end Mips64.Assembly
