import Mathlib.Data.ENat.Lattice
import Mathlib.Order.CompletePartialOrder
import Mips64.Proofs.Scope
import Mips64.Proofs.Stops

/-! How deep macros nest. Templates lead from macro to macro, and the nesting of a mnemonic is the
length of the longest chain of macros that starts with it. Main statement: the expansion of macros
comes to an end whatever the tables are; a source whose macros nest within the limit is never
refused for their nesting, and one with a macro that nests deeper is never assembled. -/
namespace Mips64

namespace Tables

/-- A mnemonic is that of a macro, and of no instruction. -/
def IsMacro (t : Tables) (name : Text) : Prop := ∃ m, t.role name = .expansion m

def Calls (t : Tables) (name other : Text) : Prop :=
  ∃ m, t.role name = .expansion m ∧ ∃ template ∈ m.templates,
    (Line.statement template).mnemonic = other

def IsCallChain (t : Tables) (names : List Text) : Prop :=
  (∀ name ∈ names, t.IsMacro name) ∧ names.IsChain t.Calls

/-- The largest number of macros on a chain that starts with a mnemonic. -/
noncomputable def nesting (t : Tables) (name : Text) : ℕ∞ :=
  ⨆ (rest : List Text) (_ : t.IsCallChain (name :: rest)), ((name :: rest).length : ℕ∞)

section
variable {t : Tables} {name : Text} {m : Macro}

lemma nesting_le_iff {n : ℕ∞} : t.nesting name ≤ n ↔
    ∀ rest, t.IsCallChain (name :: rest) → ((name :: rest).length : ℕ∞) ≤ n :=
  iSup₂_le_iff

lemma nesting_of_not_isMacro (other : ¬ t.IsMacro name) : t.nesting name = 0 := by
  refine nonpos_iff_eq_zero.1 (nesting_le_iff.2 fun rest chain => ?_)
  exact absurd (chain.1 name List.mem_cons_self) other

lemma isMacro_of_lt_nesting {n : ℕ∞} (deep : n < t.nesting name) : t.IsMacro name := by
  by_contra other
  rw [nesting_of_not_isMacro other] at deep
  exact not_lt_zero deep

lemma one_le_nesting (role : t.role name = .expansion m) : 1 ≤ t.nesting name := by
  have alone : t.IsCallChain [name] := ⟨by simpa using ⟨m, role⟩, .singleton name⟩
  simpa using nesting_le_iff.1 le_rfl [] alone

lemma isCallChain_cons_cons (role : t.role name = .expansion m) {other : Text}
    {rest : List Text} : t.IsCallChain (name :: other :: rest) ↔
      (∃ template ∈ m.templates, (Line.statement template).mnemonic = other) ∧
        t.IsCallChain (other :: rest) := by
  have calls : t.Calls name other ↔
      ∃ template ∈ m.templates, (Line.statement template).mnemonic = other := by
    simp [Calls, role]
  simp only [IsCallChain, List.isChain_cons_cons, List.forall_mem_cons (a := name), calls]
  constructor
  · rintro ⟨⟨-, macros⟩, called, chain⟩
    exact ⟨called, macros, chain⟩
  · rintro ⟨called, macros, chain⟩
    exact ⟨⟨⟨m, role⟩, macros⟩, called, chain⟩

/-- A macro nests one level deeper than the deepest of its templates. -/
lemma nesting_le_add_one_iff (role : t.role name = .expansion m) {n : ℕ∞} :
    t.nesting name ≤ n + 1 ↔
      ∀ template ∈ m.templates, t.nesting (Line.statement template).mnemonic ≤ n := by
  constructor
  · intro bound template member
    refine nesting_le_iff.2 fun rest chain => ?_
    have longer := nesting_le_iff.1 bound _ ((isCallChain_cons_cons role).2
      ⟨⟨template, member, rfl⟩, chain⟩)
    rw [List.length_cons, Nat.cast_add, Nat.cast_one] at longer
    exact (ENat.add_le_add_iff_right ENat.one_ne_top).1 longer
  · intro each
    refine nesting_le_iff.2 fun rest chain => ?_
    cases rest with
    | nil => simp
    | cons other rest =>
      obtain ⟨⟨template, member, rfl⟩, inner⟩ := (isCallChain_cons_cons role).1 chain
      rw [List.length_cons, Nat.cast_add, Nat.cast_one]
      gcongr
      exact nesting_le_iff.1 (each template member) rest inner

/-- A template nests less deep than its macro. -/
lemma nesting_add_one_le (role : t.role name = .expansion m) {template : Text}
    (member : template ∈ m.templates) :
    t.nesting (Line.statement template).mnemonic + 1 ≤ t.nesting name := by
  obtain ⟨n, same⟩ : ∃ n : ℕ∞, t.nesting name = n + 1 :=
    ⟨t.nesting name - 1, (tsub_add_cancel_of_le (one_le_nesting role)).symm⟩
  rw [same]
  gcongr
  exact (nesting_le_add_one_iff role).1 same.le template member

end

/-- A sum succeeds where all its parts do. -/
lemma exists_foldlM_add_iff {ε α : Type} {f : α → Except ε Nat} {xs : List α} {total : Nat} :
    (∃ n, xs.foldlM (fun total x => (f x).map (total + ·)) total = .ok n) ↔
      ∀ x ∈ xs, ∃ n, f x = .ok n := by
  induction xs generalizing total with
  | nil => simp [pure, Except.pure]
  | cons x xs ih =>
    rw [List.foldlM_cons, List.forall_mem_cons]
    cases f x with
    | error e => simp [Except.map, bind, Except.bind]
    | ok n =>
      simp only [Except.map, bind, Except.bind, Except.ok.injEq, exists_eq', true_and]
      exact ih

lemma weight_expansion {t : Tables} {name : Text} {m : Macro}
    (role : t.role name = .expansion m) (levels : Nat) :
    t.weight levels name = t.countWithin levels name := by
  rw [weight, role]

/-- The first pass counts a mnemonic where it nests to at most the levels that it counts. -/
theorem exists_weight_iff {t : Tables} {levels : Nat} {name : Text} :
    (∃ n, t.weight levels name = .ok n) ↔ t.nesting name ≤ levels := by
  induction levels generalizing name with
  | zero =>
    cases role : t.role name with
    | instruction i | unknown =>
      rw [nesting_of_not_isMacro (by simp [IsMacro, role])]
      simp [weight, role]
    | expansion m =>
      rw [weight_expansion role, countWithin]
      constructor
      · rintro ⟨n, ⟨⟩⟩
      · intro flat
        exact absurd ((one_le_nesting role).trans flat) (by decide)
  | succ levels ih =>
    cases role : t.role name with
    | instruction i | unknown =>
      rw [nesting_of_not_isMacro (by simp [IsMacro, role])]
      simp [weight, role]
    | expansion m =>
      rw [weight_expansion role, countWithin_succ (role_eq_expansion_iff.1 role).2,
        exists_foldlM_add_iff]
      simp only [ih]
      exact (nesting_le_add_one_iff role).symm

lemma lt_nesting_of_weight {t : Tables} {levels : Nat} {name : Text} {c : Cause}
    (refused : t.weight levels name = .error c) : levels < t.nesting name := by
  rw [← not_le, ← exists_weight_iff, refused]
  rintro ⟨n, ⟨⟩⟩

/-- A count fails only by the nesting of macros. -/
lemma failsWithin_weight (t : Tables) (levels : Nat) (name : Text) :
    FailsWithin (fun c => c.kind = .macroRecursion) (t.weight levels name) := by
  induction levels generalizing name with
  | zero =>
    unfold weight
    split
    · exact .error rfl
    · exact .ok 1
  | succ levels ih =>
    unfold weight
    split
    · rename_i m role
      rw [countWithin_succ (role_eq_expansion_iff.1 role).2]
      exact .foldlM (fun total template => (ih _).map _) _ _
    · exact .ok 1

/-- The depth of a count grows with each call, up to the limit. -/
inductive CountCall (t : Tables) : Text × Int → Text × Int → Prop
  | intro {name template : Text} {m : Macro} {depth : Int} (shallow : depth ≤ Macro.maxDepth)
      (found : t.expansion? name = some m) (member : template ∈ m.templates)
      (called : t.IsMacro (Line.statement template).mnemonic) :
      CountCall t (name, depth) ((Line.statement template).mnemonic, depth + 1)

/-- A count refuses a depth beyond the limit. At any other depth it adds up the templates of its
macro: a template that is a macro adds its own count one level deeper, and any other adds one. -/
theorem count_eq (t : Tables) (name : Text) (depth : Int) :
    t.count name depth =
      if Macro.maxDepth < depth then .error (.macroDepth name Macro.maxDepth)
      else t.expansion name >>= fun m => m.templates.foldlM (fun total template => do
        let called := (Line.statement template).mnemonic
        if (t.instruction? called).isNone && (t.expansion? called).isSome then
          return total + (← t.count called (depth + 1))
        else return total + 1) 0 := by
  split
  · rename_i deep
    have spent : ((Macro.maxDepth : Int) + 1 - depth).toNat = 0 := by omega
    rw [count, spent, countWithin]
  · rename_i shallow
    have levels : ((Macro.maxDepth : Int) + 1 - depth).toNat =
        ((Macro.maxDepth : Int) + 1 - (depth + 1)).toNat + 1 := by omega
    rw [count, levels, countWithin]
    rfl

/-- Calls nest to at most the levels that are left. -/
lemma length_le_of_countCalls {t : Tables} {start : Text × Int} {calls : List (Text × Int)}
    (chain : List.IsChain t.CountCall (start :: calls)) :
    calls.length ≤ ((Macro.maxDepth : Int) + 1 - start.2).toNat := by
  induction calls generalizing start with
  | nil => exact Nat.zero_le _
  | cons next calls ih =>
    rw [List.isChain_cons_cons] at chain
    obtain ⟨⟨shallow, -, -, -⟩, rest⟩ := chain
    have fewer := ih rest
    rw [List.length_cons]
    dsimp only at fewer ⊢
    omega

end Tables

/-- A macro is not expanded where it has another number of arguments, or a template of it cannot be
filled. -/
lemma Macro.expand_eq_error {m : Macro} {arguments : List Text} {failure : Failure}
    (h : m.expand arguments = .error failure) :
    (m.arity ≠ arguments.length ∧
      failure = .cause (.macroArity m.symbol m.description m.arity arguments.length)) ∨
    (m.arity = arguments.length ∧ ∃ fault, failure = .fault fault) := by
  unfold expand at h
  split at h
  · rename_i arity
    right
    refine ⟨arity, ?_⟩
    cases filled : m.templates.mapM (fun t => Template.fill t arguments) with
    | ok lines => rw [filled] at h; cases h
    | error fault => rw [filled] at h; cases h; exact ⟨fault, rfl⟩
  · rename_i arity
    cases h
    exact .inl ⟨arity, rfl⟩

lemma Instruction.not_isRecursion_of_encode {i : Instruction} {symbols : Symbols} {here : Nat}
    {written : List Text} {failure : Failure} (h : i.encode symbols here written = .error failure) :
    ¬ failure.IsRecursion := by
  rcases i.failsWithin_encode symbols here written failure h with ofOperand | rfl
  · exact ofOperand.not_isRecursion
  · rintro ⟨⟩

namespace Assembly

variable {t : Tables}

/-- The end of an agenda: it is empty, or its first line cannot be gone on with. -/
inductive AgendaEnd (t : Tables) : List (Text × Nat) × Run → Except Halt Run → Prop
  | done {r : Run} : AgendaEnd t ([], r) (.ok r)
  | unencoded {line : Text} {depth : Nat} {rest : List (Text × Nat)} {r : Run} {i : Instruction}
      {failure : Failure} (role : t.role (Line.statement line).mnemonic = .instruction i)
      (fails : i.encode r.store.toSymbols r.store.size (Line.statement line).operands =
        .error failure) : AgendaEnd t ((line, depth) :: rest, r) (.error (r.halt failure))
  | unknown {line : Text} {depth : Nat} {rest : List (Text × Nat)} {r : Run}
      (role : t.role (Line.statement line).mnemonic = .unknown) :
      AgendaEnd t ((line, depth) :: rest, r)
        (.error (r.halt (.cause (.unknownStatement line (Line.statement line).mnemonic))))
  | unexpanded {line : Text} {depth : Nat} {rest : List (Text × Nat)} {r : Run} {m : Macro}
      {failure : Failure} (role : t.role (Line.statement line).mnemonic = .expansion m)
      (shallow : depth < Macro.maxDepth)
      (fails : m.expand (Line.statement line).operands = .error failure) :
      AgendaEnd t ((line, depth) :: rest, r) (.error (r.halt failure))
  | tooDeep {line : Text} {depth : Nat} {rest : List (Text × Nat)} {r : Run} {m : Macro}
      (role : t.role (Line.statement line).mnemonic = .expansion m)
      (deep : Macro.maxDepth ≤ depth) :
      AgendaEnd t ((line, depth) :: rest, r)
        (.error (r.halt (.cause (.macroDepth (Line.statement line).mnemonic Macro.maxDepth))))

/-- Every agenda is worked off, step by step, to an end. -/
theorem exists_agendaEnd (t : Tables) (agenda : List (Text × Nat)) (r : Run) :
    ∃ last, Relation.ReflTransGen (AgendaStep t) (agenda, r) last ∧
      AgendaEnd t last (encodeAgenda t agenda r) := by
  fun_induction encodeAgenda t agenda r with
  | case1 r => exact ⟨_, .refl, .done⟩
  | case2 r line depth rest s i found ih =>
    have role := Tables.role_eq_instruction_iff.2 found
    cases encoded : encodeInstruction i line s.operands r with
    | ok next =>
      obtain ⟨last, steps, ends⟩ := ih next
      exact ⟨last, .head (.instruction role encoded) steps, ends⟩
    | error h =>
      have single : encodeText t r line = .error h := by
        rw [encodeText, found]
        exact encoded
      obtain ⟨failure, fails, rfl⟩ := encodeText_eq_error found single
      exact ⟨_, .refl, .unencoded role fails⟩
  | case3 r line depth rest s unlisted found =>
    exact ⟨_, .refl, .unknown (Tables.role_eq_unknown_iff.2 ⟨unlisted, found⟩)⟩
  | case4 r line depth rest s unlisted m found shallow lines expanded ih =>
    have role := Tables.role_eq_expansion_iff.2 ⟨unlisted, found⟩
    obtain ⟨last, steps, ends⟩ := ih
    exact ⟨last, .head (.expansion role shallow expanded) steps, ends⟩
  | case5 r line depth rest s unlisted m found shallow failure expanded =>
    have role := Tables.role_eq_expansion_iff.2 ⟨unlisted, found⟩
    exact ⟨_, .refl, .unexpanded role shallow expanded⟩
  | case6 r line depth rest s unlisted m found deep =>
    have role := Tables.role_eq_expansion_iff.2 ⟨unlisted, found⟩
    exact ⟨_, .refl, .tooDeep role (Nat.le_of_not_lt deep)⟩

/-- A step leaves less work. -/
lemma AgendaStep.workload_lt {a b : List (Text × Nat) × Run} (h : AgendaStep t a b) :
    workload t b.1 < workload t a.1 := by
  cases h with
  | instruction role encodes => exact workload_lt_cons t _ _
  | expansion role shallow expanded =>
    have listed := Tables.mem_of_expansion? (Tables.role_eq_expansion_iff.1 role).2
    exact workload_lt_expansion listed shallow (Macro.length_expand expanded) _ _

/-- There are no more steps than there is work. -/
lemma length_le_workload {start : List (Text × Nat) × Run}
    {states : List (List (Text × Nat) × Run)}
    (chain : List.IsChain (AgendaStep t) (start :: states)) :
    states.length ≤ workload t start.1 := by
  induction states generalizing start with
  | nil => exact Nat.zero_le _
  | cons next states ih =>
    rw [List.isChain_cons_cons] at chain
    have less := chain.1.workload_lt
    have fewer := ih chain.2
    rw [List.length_cons]
    omega

/-- The lines of an agenda, each at its depth, nest to at most this many levels. -/
def NestsWithin (t : Tables) (n : ℕ∞) (agenda : List (Text × Nat)) : Prop :=
  ∀ item ∈ agenda, item.2 + t.nesting (Line.statement item.1).mnemonic ≤ n

/-- A step keeps the nesting of an agenda within its bound. -/
theorem AgendaStep.nestsWithin (plain : t.HasPlainMnemonics) {n : ℕ∞}
    {a b : List (Text × Nat) × Run} (h : AgendaStep t a b) (within : NestsWithin t n a.1) :
    NestsWithin t n b.1 := by
  cases h with
  | instruction role encodes => exact fun item member => within item (List.mem_cons_of_mem _ member)
  | @expansion line depth rest r m lines role shallow expanded =>
    intro item member
    rcases List.mem_append.1 member with new | old
    · obtain ⟨text, inside, rfl⟩ := List.mem_map.1 new
      have listed := Tables.mem_of_expansion? (Tables.role_eq_expansion_iff.1 role).2
      obtain ⟨template, of_macro, same⟩ :=
        exists_mem_of_forall₂ (Macro.forall₂_mnemonic (plain m listed) expanded) inside
      have inner := Tables.nesting_add_one_le role of_macro
      have outer := within (line, depth) List.mem_cons_self
      calc ((depth + 1 : ℕ) : ℕ∞) + t.nesting (Line.statement text).mnemonic
        _ = depth + (t.nesting (Line.statement template).mnemonic + 1) := by
          rw [same, Nat.cast_add, Nat.cast_one, add_assoc, add_comm 1]
        _ ≤ depth + t.nesting (Line.statement line).mnemonic := by gcongr
        _ ≤ n := outer
    · exact within item (List.mem_cons_of_mem _ old)

lemma nestsWithin_of_steps (plain : t.HasPlainMnemonics) {n : ℕ∞}
    {a b : List (Text × Nat) × Run} (steps : Relation.ReflTransGen (AgendaStep t) a b)
    (within : NestsWithin t n a.1) : NestsWithin t n b.1 := by
  induction steps with
  | refl => exact within
  | tail _ step ih => exact step.nestsWithin plain ih

/-- A line is refused for the nesting of its macros only if they nest too deep. -/
theorem lt_nesting_of_encodeAgenda (plain : t.HasPlainMnemonics) {line : Text} {r : Run} {h : Halt}
    (failed : encodeAgenda t [(line, 0)] r = .error h) (recursion : h.report.failure.IsRecursion) :
    Macro.maxDepth < t.nesting (Line.statement line).mnemonic := by
  obtain ⟨last, steps, ends⟩ := exists_agendaEnd t [(line, 0)] r
  have within : NestsWithin t (t.nesting (Line.statement line).mnemonic) last.1 := by
    refine nestsWithin_of_steps plain steps fun item member => ?_
    cases List.mem_singleton.1 member
    simp
  rw [failed] at ends
  cases ends with
  | unencoded role fails => exact absurd recursion (Instruction.not_isRecursion_of_encode fails)
  | unknown role => cases recursion
  | unexpanded role shallow fails =>
    obtain ⟨-, rfl⟩ | ⟨-, fault, rfl⟩ := Macro.expand_eq_error fails
    · cases recursion
    · exact recursion.elim
  | @tooDeep text depth rest r m role deep =>
    have level : (Macro.maxDepth : ℕ∞) ≤ depth := by exact_mod_cast deep
    calc (Macro.maxDepth : ℕ∞)
      _ < Macro.maxDepth + 1 := by decide
      _ ≤ depth + t.nesting (Line.statement text).mnemonic :=
        add_le_add level (Tables.one_le_nesting role)
      _ ≤ _ := within (text, depth) List.mem_cons_self

/-- A line that can be encoded nests within the limit. -/
lemma nesting_le_of_encodeNested (plain : t.HasPlainMnemonics) {line : Text} {r next : Run}
    (encoded : encodeNested t Macro.maxDepth line r = .ok next) :
    t.nesting (Line.statement line).mnemonic ≤ Macro.maxDepth := by
  obtain ⟨texts, stands⟩ := exists_instructionLines encoded
  exact Tables.exists_weight_iff.1 ⟨_, Tables.weight_eq_length plain stands le_rfl⟩

/-- The first pass refuses a line for the nesting of its macros only if they nest too deep. -/
lemma exists_statement_of_tally {text : Text} {r : Run} {h : Halt}
    (failed : tally t text r = .error h) (recursion : h.report.failure.IsRecursion) :
    ∃ statement, (shape text).content = .statement statement ∧
      Macro.maxDepth < t.nesting (Line.statement statement).mnemonic := by
  have flat {x : Except Halt Run} {ways : Failure → Prop}
      (within : FailsWithin (Halt.StopsWithin ways) x) (stops : x = .error h)
      (other : ∀ failure, ways failure → ¬ failure.IsRecursion) : False := by
    obtain ⟨failure, report, way⟩ := within h stops
    rw [report] at recursion
    exact other failure way recursion
  rw [tally_eq] at failed
  cases declared : declareLabel (shape text).label r with
  | error h' =>
    rw [declared] at failed
    cases failed
    exact (flat (failsWithin_declareLabel _ r) declared fun _ => And.right).elim
  | ok next =>
    rw [declared] at failed
    change tallyContent t (shape text).content next = .error h at failed
    cases holds : (shape text).content with
    | nothing => rw [holds] at failed; cases failed
    | directive line =>
      rw [holds] at failed
      exact (flat (Run.failsWithin_step (Directive.failsWithin_run _ _) next) failed
        fun _ => And.right).elim
    | statement line =>
      rw [holds, tallyContent] at failed
      refine ⟨line, rfl, ?_⟩
      by_cases known : t.role (Line.statement line).mnemonic = .unknown
      · obtain ⟨unlisted, unnamed⟩ := Tables.role_eq_unknown_iff.1 known
        simp only [tallyStatement, unlisted, unnamed] at failed
        cases failed
        cases recursion
      · rw [tallyStatement_eq known] at failed
        cases weight : t.weight (Macro.maxDepth + 1) (Line.statement line).mnemonic with
        | ok n => rw [weight] at failed; cases failed
        | error c => exact lt_trans (by decide) (Tables.lt_nesting_of_weight weight)

def Invokes (t : Tables) (source : List Text) (name : Text) : Prop :=
  ∃ line ∈ source, ∃ statement, (shape (Line.normalize line)).content = .statement statement ∧
    (Line.statement statement).mnemonic = name ∧ t.IsMacro name

/-- A source is refused for the nesting of macros only if it uses one that nests too deep. -/
lemma exists_invokes_of_isRecursion (plain : t.HasPlainMnemonics) {source : List Text}
    {report : Report} (failed : (assemble t source).result = .error report)
    (recursion : report.failure.IsRecursion) :
    ∃ name, Invokes t source name ∧ Macro.maxDepth < t.nesting name := by
  have invoked {before after : List Text} {line statement : Text}
      (holds : (shape (Line.normalize line)).content = .statement statement)
      (deep : Macro.maxDepth < t.nesting (Line.statement statement).mnemonic) :
      ∃ name, Invokes t (before ++ line :: after) name ∧ Macro.maxDepth < t.nesting name :=
    ⟨_, ⟨line, by simp, statement, holds, rfl, Tables.isMacro_of_lt_nesting deep⟩, deep⟩
  unfold assemble at failed
  cases both : passes t source with
  | ok final => rw [both] at failed; cases failed
  | error h =>
    rw [both] at failed
    cases failed
    rcases passes_eq_error both with first | ⟨counted, -, second⟩ | ⟨emitted, counted, disagree⟩
    · rw [firstPass_eq_overLines] at first
      obtain ⟨before, line, after, reached, stopped, rfl, -, stops, rfl⟩ := overLines_eq_error first
      rw [Halt.attach, Report.attach_failure] at recursion
      obtain ⟨statement, holds, deep⟩ := exists_statement_of_tally stops recursion
      exact invoked holds deep
    · rw [secondPass_eq_overLines] at second
      obtain ⟨before, line, after, reached, stopped, rfl, -, stops, rfl⟩ :=
        overLines_eq_error second
      rw [Halt.attach, Report.attach_failure] at recursion
      rw [encodeLine_eq] at stops
      cases holds : (shape (Line.normalize line)).content with
      | nothing => rw [holds] at stops; cases stops
      | directive d => rw [holds] at stops; cases stops
      | statement statement =>
        rw [holds, encodeContent, ← encodeAgenda_singleton] at stops
        exact invoked holds (lt_nesting_of_encodeAgenda plain stops recursion)
    · rw [disagree] at recursion
      cases recursion

/-- A source that is assembled uses macros within the limit only. -/
lemma nesting_le_of_assemble (plain : t.HasPlainMnemonics) {source : List Text} {p : Program}
    (assembled : (assemble t source).result = .ok p) {name : Text}
    (invoked : Invokes t source name) : t.nesting name ≤ Macro.maxDepth := by
  obtain ⟨line, member, statement, holds, rfl, -⟩ := invoked
  obtain ⟨counted, emitted, -, second, -⟩ := exists_runs_of_assemble assembled
  obtain ⟨before, after, rfl⟩ := List.append_of_mem member
  rw [encodeLines_append] at second
  obtain ⟨reached, -, rest⟩ := bind_eq_ok_iff.1 second
  rw [encodeLines_cons] at rest
  obtain ⟨next, encoded, -⟩ := bind_eq_ok_iff.1 rest
  rw [encodeLine_eq, holds] at encoded
  exact nesting_le_of_encodeNested plain encoded

/-- The expansion of macros comes to an end, whatever macros the tables hold. A count calls itself
one level deeper, and never deeper than the limit; an agenda is worked off to its end in a bounded
number of steps. Where templates keep their mnemonics, a source whose macros nest within the limit
is never refused for their nesting, and a source with a macro that nests deeper is never
assembled. -/
theorem expansion_ends (t : Tables) :
    (∀ name depth, t.count name depth =
      if Macro.maxDepth < depth then .error (.macroDepth name Macro.maxDepth)
      else t.expansion name >>= fun m => m.templates.foldlM (fun total template => do
        let called := (Line.statement template).mnemonic
        if (t.instruction? called).isNone && (t.expansion? called).isSome then
          return total + (← t.count called (depth + 1))
        else return total + 1) 0) ∧
    (∀ start calls, List.IsChain t.CountCall (start :: calls) →
      calls.length ≤ ((Macro.maxDepth : Int) + 1 - start.2).toNat) ∧
    (∀ line r, (∃ last, Relation.ReflTransGen (AgendaStep t) ([(line, 0)], r) last ∧
        AgendaEnd t last (encodeAgenda t [(line, 0)] r)) ∧
      ∀ states, List.IsChain (AgendaStep t) (([(line, 0)], r) :: states) →
        states.length ≤ (t.widest + 1) ^ (Macro.maxDepth + 1)) ∧
    (t.HasPlainMnemonics → ∀ source,
      ((∀ name, Invokes t source name → t.nesting name ≤ Macro.maxDepth) →
        ∀ report, (assemble t source).result = .error report → ¬ report.failure.IsRecursion) ∧
      ((∃ name, Invokes t source name ∧ Macro.maxDepth < t.nesting name) →
        ∀ p, (assemble t source).result ≠ .ok p)) := by
  refine ⟨t.count_eq, fun start calls chain => Tables.length_le_of_countCalls chain, ?_, ?_⟩
  · intro line r
    refine ⟨exists_agendaEnd t [(line, 0)] r, fun states chain => ?_⟩
    have bound := length_le_workload chain
    simp only [workload, Nat.sub_zero, Nat.add_zero] at bound
    exact bound
  · intro plain source
    constructor
    · intro within report failed recursion
      obtain ⟨name, invoked, deep⟩ := exists_invokes_of_isRecursion plain failed recursion
      exact absurd (within name invoked) (not_le_of_gt deep)
    · rintro ⟨name, invoked, deep⟩ p assembled
      exact absurd (nesting_le_of_assemble plain assembled invoked) (not_le_of_gt deep)

/-- A line on a ladder of macros. Behind the last macro stands an instruction that does nothing. -/
def rung (n k : Nat) : Text := if k < n then 'M' :: List.replicate k 'X' else "NOP".toList

def ladder (n : Nat) : Tables :=
  ⟨Instruction.builtin, (List.range n).map fun k => ⟨rung n k, "", 0, [rung n (k + 1)]⟩⟩

/-- A use of the first macro of a ladder, and an instruction with an operand too many. -/
def climb : List Text := ["m".toList, "nop 1".toList]

/-- A ladder of sixteen macros is within the limit, so its use is not what the source is refused
for. With one more it is beyond the limit. -/
theorem expansion_ends_ladder :
    ((ladder 16).HasPlainMnemonics ∧
      (∀ name, Invokes (ladder 16) climb name → (ladder 16).nesting name ≤ Macro.maxDepth) ∧
      ∃ report, (assemble (ladder 16) climb).result = .error report ∧
        ¬ report.failure.IsRecursion) ∧
    (ladder 17).HasPlainMnemonics ∧
      (∃ name, Invokes (ladder 17) climb name ∧ Macro.maxDepth < (ladder 17).nesting name) ∧
      ∀ p, (assemble (ladder 17) climb).result ≠ .ok p := by
  have first : (shape (Line.normalize "m".toList)).content = .statement "M".toList := by rfl
  have second : (shape (Line.normalize "nop 1".toList)).content = .statement "NOP 1".toList := by
    rfl
  have plain₁₆ : (ladder 16).HasPlainMnemonics := by decide +kernel
  have plain₁₇ : (ladder 17).HasPlainMnemonics := by decide +kernel
  have within : ∀ name, Invokes (ladder 16) climb name →
      (ladder 16).nesting name ≤ Macro.maxDepth := by
    rintro name ⟨line, member, statement, holds, rfl, -⟩
    rcases List.mem_pair.1 member with rfl | rfl
    · cases first.symm.trans holds
      exact Tables.exists_weight_iff.1 ⟨1, by decide +kernel⟩
    · cases second.symm.trans holds
      exact Tables.exists_weight_iff.1 ⟨1, by decide +kernel⟩
  have beyond : ∃ name, Invokes (ladder 17) climb name ∧
      Macro.maxDepth < (ladder 17).nesting name := by
    have deep : Macro.maxDepth < (ladder 17).nesting (Line.statement "M".toList).mnemonic :=
      Tables.lt_nesting_of_weight (c := .macroDepth (rung 17 16) Macro.maxDepth) (by decide +kernel)
    exact ⟨_, ⟨"m".toList, List.mem_cons_self, "M".toList, first, rfl,
      Tables.isMacro_of_lt_nesting deep⟩, deep⟩
  have refused : (halt? (ladder 16) climb).isSome = true := by decide +kernel
  obtain ⟨h, stops⟩ := Option.isSome_iff_exists.1 refused
  have failed : (assemble (ladder 16) climb).result = .error h.report := by
    rw [assemble_of_halt? stops]
  refine ⟨⟨plain₁₆, within, h.report, failed, ?_⟩, plain₁₇, beyond, ?_⟩
  · exact ((expansion_ends (ladder 16)).2.2.2 plain₁₆ climb).1 within h.report failed
  · exact ((expansion_ends (ladder 17)).2.2.2 plain₁₇ climb).2 beyond

end Assembly
end Mips64
