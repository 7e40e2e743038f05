import Mips64.Proofs.Mistakes

/-! Where a run stops, and what it has put out by then. The lines that a line stands for are come to
one after another, in the order of the templates and as deep as they nest. Main statement: a failure
is reported with the first line that cannot be accounted for or encoded, and the words that have
been put out are those of the lines before it and of the instructions in it that are come to before
the one that fails. -/
namespace Mips64

/-- Work on a list stops at the first item that fails. -/
lemma foldlM_eq_error {ε α β : Type} {f : β → α → Except ε β} {xs : List α} {b : β} {e : ε}
    (failed : xs.foldlM f b = .error e) : ∃ before x after c,
      xs = before ++ x :: after ∧ before.foldlM f b = .ok c ∧ f c x = .error e := by
  induction xs generalizing b with
  | nil => cases failed
  | cons x xs ih =>
    rw [List.foldlM_cons] at failed
    cases first : f b x with
    | error e' =>
      rw [first] at failed
      cases failed
      exact ⟨[], x, xs, b, rfl, rfl, first⟩
    | ok next =>
      rw [first] at failed
      obtain ⟨before, y, after, c, rfl, reached, stops⟩ := ih failed
      refine ⟨x :: before, y, after, c, rfl, ?_, stops⟩
      rw [List.foldlM_cons, first]
      exact reached

lemma foldlM_flatMap {ε α β γ : Type} (f : β → γ → Except ε β) (g : α → List γ) (xs : List α)
    (b : β) : (xs.flatMap g).foldlM f b = xs.foldlM (fun b x => (g x).foldlM f b) b := by
  induction xs generalizing b with
  | nil => rfl
  | cons x xs ih =>
    rw [List.flatMap_cons, List.foldlM_append, List.foldlM_cons]
    exact congrArg _ (funext ih)

/-- What is come to in the lines that a line stands for: an instruction to encode, or a line that
stands for nothing and why. -/
inductive Visit
  | instruction (line : Text)
  | stuck (failure : Failure)

/-- What is come to in the lines that a line stands for, depth first and in the order of the
templates, where macros nest to at most this many levels. -/
def Tables.visits (t : Tables) : (levels : Nat) → (line : Text) → List Visit
  | levels, line =>
    match t.role (Line.statement line).mnemonic with
    | .instruction _ => [.instruction line]
    | .unknown => [.stuck (.cause (.unknownStatement line (Line.statement line).mnemonic))]
    | .expansion m =>
      match levels with
      | 0 => [.stuck (.cause (.macroDepth (Line.statement line).mnemonic Macro.maxDepth))]
      | levels + 1 =>
        match m.expand (Line.statement line).operands with
        | .ok lines => lines.flatMap (t.visits levels)
        | .error failure => [.stuck failure]

namespace Tables

variable {t : Tables} {levels : Nat} {line : Text} {m : Macro}

lemma visits_instruction {i : Instruction}
    (h : t.role (Line.statement line).mnemonic = .instruction i) :
    t.visits levels line = [.instruction line] := by
  rw [visits, h]

lemma visits_unknown (h : t.role (Line.statement line).mnemonic = .unknown) :
    t.visits levels line =
      [.stuck (.cause (.unknownStatement line (Line.statement line).mnemonic))] := by
  rw [visits, h]

lemma visits_zero (h : t.role (Line.statement line).mnemonic = .expansion m) :
    t.visits 0 line =
      [.stuck (.cause (.macroDepth (Line.statement line).mnemonic Macro.maxDepth))] := by
  rw [visits, h]

lemma visits_expansion (h : t.role (Line.statement line).mnemonic = .expansion m)
    {lines : List Text} (expanded : m.expand (Line.statement line).operands = .ok lines) :
    t.visits (levels + 1) line = lines.flatMap (t.visits levels) := by
  rw [visits, h]
  dsimp only
  rw [expanded]

lemma visits_expansion_error (h : t.role (Line.statement line).mnemonic = .expansion m)
    {failure : Failure} (expanded : m.expand (Line.statement line).operands = .error failure) :
    t.visits (levels + 1) line = [.stuck failure] := by
  rw [visits, h]
  dsimp only
  rw [expanded]

/-- An instruction that is come to is in the table. -/
lemma exists_instruction_of_mem_visits {text : Text}
    (member : .instruction text ∈ t.visits levels line) :
    ∃ i, t.instruction? (Line.statement text).mnemonic = some i := by
  induction levels using Nat.strong_induction_on generalizing line with
  | _ levels ih =>
    cases role : t.role (Line.statement line).mnemonic with
    | instruction i =>
      rw [visits_instruction role, List.mem_singleton] at member
      cases member
      exact ⟨i, role_eq_instruction_iff.1 role⟩
    | unknown =>
      rw [visits_unknown role, List.mem_singleton] at member
      cases member
    | expansion m =>
      cases levels with
      | zero =>
        rw [visits_zero role, List.mem_singleton] at member
        cases member
      | succ levels =>
        cases expanded : m.expand (Line.statement line).operands with
        | error failure =>
          rw [visits_expansion_error role expanded, List.mem_singleton] at member
          cases member
        | ok lines =>
          rw [visits_expansion role expanded] at member
          obtain ⟨inner, -, within⟩ := List.mem_flatMap.1 member
          exact ih levels levels.lt_succ_self within

end Tables

/-- Words that instruction lines are encoded to, at one position of the output after another. -/
inductive Assembles (t : Tables) (symbols : Symbols) : Nat → List Text → List Int → Prop
  | nil {position : Nat} : Assembles t symbols position [] []
  | cons {position : Nat} {text : Text} {texts : List Text} {i : Instruction} {word : Nat}
      {words : List Int} (found : t.instruction? (Line.statement text).mnemonic = some i)
      (encodes : i.encode symbols (position * 4) (Line.statement text).operands = .ok word)
      (others : Assembles t symbols (position + 1) texts words) :
      Assembles t symbols position (text :: texts) ((word : Int) :: words)

/-- What is come to fails at a position of the output: the instruction cannot be encoded, or the
line stands for nothing. -/
inductive Visit.Fails (t : Tables) (symbols : Symbols) (position : Nat) : Visit → Failure → Prop
  | instruction {text : Text} {i : Instruction} {failure : Failure}
      (found : t.instruction? (Line.statement text).mnemonic = some i)
      (fails : i.encode symbols (position * 4) (Line.statement text).operands = .error failure) :
      Fails t symbols position (.instruction text) failure
  | stuck {failure : Failure} : Fails t symbols position (.stuck failure) failure

namespace Assembly

variable {t : Tables}

def visit (t : Tables) (r : Run) : Visit → Except Halt Run
  | .instruction line => encodeText t r line
  | .stuck failure => .error (r.halt failure)

lemma foldlM_visit_singleton (v : Visit) (r : Run) :
    [v].foldlM (visit t) r = visit t r v := by
  rw [List.foldlM_cons]
  exact bind_pure _

/-- A line is encoded by going on from one thing that is come to to the next. -/
theorem encodeNested_eq_visits (levels : Nat) (line : Text) (r : Run) :
    encodeNested t levels line r = (t.visits levels line).foldlM (visit t) r := by
  induction levels using Nat.strong_induction_on generalizing line r with
  | _ levels ih =>
    cases role : t.role (Line.statement line).mnemonic with
    | instruction i =>
      rw [encodeNested_instruction role, Tables.visits_instruction role, foldlM_visit_singleton,
        visit, encodeText, Tables.role_eq_instruction_iff.1 role]
    | unknown =>
      rw [Tables.visits_unknown role, foldlM_visit_singleton, visit, encodeNested, role]
    | expansion m =>
      cases levels with
      | zero => rw [Tables.visits_zero role, foldlM_visit_singleton, visit, encodeNested, role]
      | succ levels =>
        cases expanded : m.expand (Line.statement line).operands with
        | error failure =>
          rw [encodeNested_expansion_error role expanded,
            Tables.visits_expansion_error role expanded, foldlM_visit_singleton, visit]
        | ok lines =>
          rw [encodeNested_expansion role expanded, Tables.visits_expansion role expanded,
            foldlM_flatMap]
          refine congrArg (fun f => lines.foldlM f r) (funext fun r => funext fun l => ?_)
          exact ih levels levels.lt_succ_self l r

/-- What is gone on with is all instructions. -/
lemma exists_instructions {visits : List Visit} {r next : Run}
    (steps : visits.foldlM (visit t) r = .ok next) :
    ∃ texts : List Text, visits = texts.map .instruction ∧
      texts.foldlM (encodeText t) r = .ok next := by
  induction visits generalizing r with
  | nil => exact ⟨[], rfl, steps⟩
  | cons v visits ih =>
    rw [List.foldlM_cons] at steps
    obtain ⟨middle, first, others⟩ := bind_eq_ok_iff.1 steps
    obtain ⟨texts, rfl, encoded⟩ := ih others
    cases v with
    | stuck failure => cases first
    | instruction text =>
      refine ⟨text :: texts, rfl, ?_⟩
      rw [List.foldlM_cons]
      exact bind_eq_ok_iff.2 ⟨middle, first, encoded⟩

/-- Instruction lines put out their words behind those that are there. -/
lemma exists_words_of_encodeTexts {texts : List Text} {r next : Run}
    (steps : texts.foldlM (encodeText t) r = .ok next) :
    ∃ words, Assembles t r.store.toSymbols r.store.words.size texts words ∧
      next.store.words = r.store.words ++ words.toArray := by
  induction texts generalizing r with
  | nil =>
    cases steps
    exact ⟨[], .nil, by simp⟩
  | cons text texts ih =>
    rw [List.foldlM_cons] at steps
    obtain ⟨middle, first, others⟩ := bind_eq_ok_iff.1 steps
    obtain ⟨i, word, found, encodes, rfl⟩ := encodeText_cases first
    obtain ⟨words, assembles, behind⟩ := ih others
    have further : (r.store.words.push (word : Int)).size = r.store.words.size + 1 :=
      Array.size_push _
    refine ⟨(word : Int) :: words, .cons found encodes (further ▸ assembles), ?_⟩
    rw [behind]
    simp

/-- An instruction of the table that cannot be put out cannot be encoded: its word would fit. -/
lemma encodeText_eq_error {text : Text} {i : Instruction} {r : Run} {h : Halt}
    (found : t.instruction? (Line.statement text).mnemonic = some i)
    (failed : encodeText t r text = .error h) :
    ∃ failure, i.encode r.store.toSymbols r.store.size (Line.statement text).operands =
      .error failure ∧ h = r.halt failure := by
  rw [encodeText, found] at failed
  cases encodes : i.encode r.store.toSymbols r.store.size (Line.statement text).operands with
  | error failure =>
    simp only [encodeInstruction, encodes] at failed
    cases failed
    exact ⟨failure, rfl, rfl⟩
  | ok word =>
    simp only [encodeInstruction, encodes, putWord_of_lt (Instruction.encode_lt encodes)] at failed
    cases failed

/-- A statement that cannot be encoded: instructions of it are put out up to the first thing that
fails, and the run stops there. -/
theorem encodeNested_eq_error {levels : Nat} {line : Text} {r : Run} {h : Halt}
    (failed : encodeNested t levels line r = .error h) :
    ∃ (texts : List Text) (stop : Visit) (rest : List Visit) (reached : Run) (failure : Failure),
      t.visits levels line = texts.map .instruction ++ stop :: rest ∧
      texts.foldlM (encodeText t) r = .ok reached ∧ h = reached.halt failure ∧
      stop.Fails t reached.store.toSymbols reached.store.words.size failure := by
  rw [encodeNested_eq_visits] at failed
  obtain ⟨before, stop, rest, reached, split, steps, stops⟩ := foldlM_eq_error failed
  obtain ⟨texts, rfl, encoded⟩ := exists_instructions steps
  cases stop with
  | stuck failure =>
    cases stops
    exact ⟨texts, _, rest, reached, failure, split, encoded, rfl, .stuck⟩
  | instruction text =>
    have member : Visit.instruction text ∈ t.visits levels line := by
      rw [split]
      exact List.mem_append_right _ List.mem_cons_self
    obtain ⟨i, found⟩ := Tables.exists_instruction_of_mem_visits member
    obtain ⟨failure, fails, halted⟩ := encodeText_eq_error found stops
    exact ⟨texts, _, rest, reached, failure, split, encoded, halted, .instruction found fails⟩

/-- A line that cannot be accounted for puts nothing out. -/
lemma tally_eq_error {text : Text} {r : Run} {h : Halt} (failed : tally t text r = .error h) :
    ∃ (reached : Run) (failure : Failure), h = reached.halt failure ∧
      reached.store.words = r.store.words ∧ reached.listing = r.listing := by
  have step {s : Run} {x : Except Failure Store} {h : Halt} (failed : s.step x = .error h) :
      ∃ failure, h = s.halt failure := by
    cases x with
    | ok store => cases failed
    | error failure => cases failed; exact ⟨failure, rfl⟩
  have content {s : Run} {c : Content} {h : Halt} (failed : tallyContent t c s = .error h) :
      ∃ failure, h = s.halt failure := by
    cases c with
    | nothing => cases failed
    | directive line => exact step failed
    | statement line =>
      simp only [tallyContent, tallyStatement] at failed
      split at failed
      · cases failed
      · split at failed
        · split at failed
          · cases failed
          · cases failed; exact ⟨_, rfl⟩
        · cases failed; exact ⟨_, rfl⟩
  rw [tally_eq] at failed
  cases label : (shape text).label with
  | none =>
    rw [label] at failed
    obtain ⟨failure, halted⟩ := content failed
    exact ⟨r, failure, halted, rfl, rfl⟩
  | some name =>
    rw [label, declareLabel] at failed
    cases declared : declare name r with
    | error h' =>
      rw [declared] at failed
      cases failed
      obtain ⟨failure, halted⟩ := step declared
      exact ⟨r, failure, halted, rfl, rfl⟩
    | ok next =>
      rw [declared] at failed
      obtain ⟨failure, halted⟩ := content failed
      refine ⟨next, failure, halted, ?_⟩
      obtain ⟨-, -, -, rfl⟩ | ⟨-, -, rfl⟩ := declare_cases declared <;> exact ⟨rfl, rfl⟩

/-- Lines are gone through up to the first that fails, and its number and text are attached to the
report. -/
lemma overLines_eq_error {step : Text → Run → Except Halt Run} {number : Nat}
    {source : List Text} {r : Run} {h : Halt} (failed : overLines step number source r = .error h) :
    ∃ before line after reached stopped, source = before ++ line :: after ∧
      overLines step number before r = .ok reached ∧ step line reached = .error stopped ∧
      h = stopped.attach ⟨((number + before.length : Nat) : Int), line⟩ := by
  induction source generalizing number r with
  | nil => cases failed
  | cons line source ih =>
    rw [overLines] at failed
    cases first : step line r with
    | error stopped =>
      rw [first] at failed
      cases failed
      exact ⟨[], line, source, r, stopped, rfl, rfl, first, rfl⟩
    | ok next =>
      rw [first] at failed
      obtain ⟨before, l, after, reached, stopped, rfl, steps, stops, rfl⟩ := ih failed
      refine ⟨line :: before, l, after, reached, stopped, rfl, ?_, stops, ?_⟩
      · rw [overLines, first]
        exact steps
      · have further : number + 1 + before.length = number + (line :: before).length := by
          rw [List.length_cons]
          omega
        rw [further]

/-- Both passes fail in the first, in the second, or in the check behind them. -/
lemma passes_eq_error {source : List Text} {h : Halt} (failed : passes t source = .error h) :
    firstPass t 1 source Run.empty = .error h ∨
    (∃ counted, firstPass t 1 source Run.empty = .ok counted ∧
      secondPass t 1 source counted.rewound = .error h) ∨
    ∃ emitted counted, h.report.failure = .cause (.passesDisagree emitted counted) := by
  unfold passes at failed
  cases first : firstPass t 1 source Run.empty with
  | error h' =>
    rw [first] at failed
    cases failed
    exact .inl rfl
  | ok counted =>
    rw [first] at failed
    change secondPass t 1 source counted.rewound >>= _ = _ at failed
    cases second : secondPass t 1 source counted.rewound with
    | error h' =>
      rw [second] at failed
      cases failed
      exact .inr (.inl ⟨counted, rfl, second⟩)
    | ok emitted =>
      rw [second] at failed
      change (if _ then _ else _) = _ at failed
      split at failed
      · cases failed
      · cases failed
        exact .inr (.inr ⟨_, _, rfl⟩)

/-- A run that stopped in the first pass, at a line that cannot be accounted for. -/
def StopsCounting (t : Tables) (before : List Text) (line : Text) (failure : Failure)
    (stopped : Run) : Prop :=
  ∃ reached h, firstPass t 1 before Run.empty = .ok reached ∧
    tally t (Line.normalize line) reached = .error h ∧ h.report.failure = failure ∧
    stopped.store.words = #[]

/-- A run that stopped in the second pass, in a line whose statement cannot be encoded: the
instructions before the one that fails have been put out behind the lines before. -/
def StopsEncoding (t : Tables) (source before : List Text) (line : Text) (failure : Failure)
    (stopped : Run) : Prop :=
  ∃ (counted reached : Run) (statement : Text) (texts : List Text) (stop : Visit)
      (rest : List Visit) (words : List Int),
    firstPass t 1 source Run.empty = .ok counted ∧
    secondPass t 1 before counted.rewound = .ok reached ∧
    (shape (Line.normalize line)).content = .statement statement ∧
    t.visits Macro.maxDepth statement = texts.map .instruction ++ stop :: rest ∧
    Assembles t { counted.store.toSymbols with scope := scopeAfter (before ++ [line]) }
      reached.store.words.size texts words ∧
    stop.Fails t { counted.store.toSymbols with scope := scopeAfter (before ++ [line]) }
      (reached.store.words.size + texts.length) failure ∧
    stopped.store.words = reached.store.words ++ words.toArray

/-- A run with an entry of its listing for each word. -/
def Run.IsListed (r : Run) : Prop := r.listing.size = r.store.words.size

lemma Emitted.isListed {symbols : Symbols} {count : Nat} {lines : List Text}
    {done : List Emission} {r : Run} (h : Emitted t symbols count lines done r) : r.IsListed :=
  h.listing_size.trans h.words_size.symm

/-- The first pass stops at the first line that cannot be accounted for. -/
lemma firstPass_eq_error {source : List Text} {h : Halt}
    (failed : firstPass t 1 source Run.empty = .error h) :
    ∃ before line after failure, source = before ++ line :: after ∧
      h.report = (Report.unplaced failure).attach ⟨((before.length + 1 : Nat) : Int), line⟩ ∧
      StopsCounting t before line failure h.run ∧ h.run.IsListed := by
  rw [firstPass_eq_overLines] at failed
  obtain ⟨before, line, after, reached, stopped, rfl, steps, stops, rfl⟩ :=
    overLines_eq_error failed
  rw [← firstPass_eq_overLines] at steps
  obtain ⟨unwritten, unlisted⟩ := tallyLines_frame (firstPass_eq_ok_iff.1 steps)
  obtain ⟨last, failure, rfl, words, listing⟩ := tally_eq_error stops
  have empty : last.store.words = #[] := words.trans unwritten
  refine ⟨before, line, after, failure, rfl, ?_, ⟨reached, _, steps, stops, rfl, empty⟩, ?_⟩
  · rw [Nat.add_comm]
    rfl
  · change last.listing.size = last.store.words.size
    rw [listing, unlisted, empty]
    rfl

/-- The second pass stops at the first line whose statement cannot be encoded. -/
lemma secondPass_eq_error {source : List Text} {counted : Run} {h : Halt}
    (first : firstPass t 1 source Run.empty = .ok counted)
    (failed : secondPass t 1 source counted.rewound = .error h) :
    ∃ before line after failure, source = before ++ line :: after ∧
      h.report = (Report.unplaced failure).attach ⟨((before.length + 1 : Nat) : Int), line⟩ ∧
      StopsEncoding t source before line failure h.run ∧ h.run.IsListed := by
  rw [secondPass_eq_overLines] at failed
  obtain ⟨before, line, after, reached, stopped, split, steps, stops, rfl⟩ :=
    overLines_eq_error failed
  rw [← secondPass_eq_overLines] at steps
  have done := emitted_of_rewound (firstPass_eq_ok_iff.1 first) (secondPass_eq_ok_iff.1 steps)
  have entered := done.enterScope line
  have behind : (enterScope (labelOf line) reached).store.words = reached.store.words := by
    unfold enterScope
    split
    · rfl
    · split <;> rfl
  rw [encodeLine_eq] at stops
  cases holds : (shape (Line.normalize line)).content with
  | nothing => rw [holds] at stops; cases stops
  | directive d => rw [holds] at stops; cases stops
  | statement s =>
    rw [holds] at stops
    obtain ⟨texts, stop, rest, last, failure, visits, encoded, rfl, fails⟩ :=
      encodeNested_eq_error stops
    obtain ⟨words, assembles, extended⟩ := exists_words_of_encodeTexts encoded
    have after_texts := entered.encodeTexts encoded
    have size : last.store.words.size = reached.store.words.size + texts.length := by
      rw [after_texts.words_size, done.words_size, List.length_append, List.length_map]
    rw [after_texts.symbols_eq, size] at fails
    rw [show (shape (Line.normalize line)).label = labelOf line from rfl, entered.symbols_eq,
      behind] at assembles
    refine ⟨before, line, after, failure, split, ?_, ⟨counted, reached, s, texts, stop, rest, words,
      first, steps, holds, visits, assembles, fails, ?_⟩, after_texts.isListed⟩
    · rw [Nat.add_comm]
      rfl
    · rw [← behind]
      exact extended

/-- Where a source does not assemble, and it is not that the passes disagree, the report names the
first line that a pass cannot go through, with its number. In the first pass no word has been put
out by then. In the second pass the words are those of the lines before, and of the instructions of
the line that are come to before the one that fails. Each word has been listed. -/
theorem assemble_stops {source : List Text} {report : Report} {c : Cause}
    (failed : (assemble t source).result = .error report) (reported : report.failure = .cause c)
    (early : ∀ emitted counted, c ≠ .passesDisagree emitted counted) :
    ∃ before line after, source = before ++ line :: after ∧
      report.place = some ⟨((before.length + 1 : Nat) : Int), line⟩ ∧
      (StopsCounting t before line (.cause c) (assemble t source).run ∨
        StopsEncoding t source before line (.cause c) (assemble t source).run) ∧
      (assemble t source).run.IsListed := by
  obtain ⟨h, stopped, rfl, run⟩ : ∃ h, passes t source = .error h ∧ h.report = report ∧
      (assemble t source).run = h.run := by
    unfold assemble at failed ⊢
    cases both : passes t source with
    | ok final => rw [both] at failed; cases failed
    | error h => rw [both] at failed; cases failed; exact ⟨h, rfl, rfl, rfl⟩
  rw [run]
  -- What a pass reports is the failure of a line, with that line attached if it is a cause.
  have placed {failure : Failure} {place : Place}
      (report : h.report = (Report.unplaced failure).attach place) :
      failure = .cause c ∧ h.report.place = some place := by
    rw [report, Report.attach_failure] at reported
    cases (reported : failure = .cause c)
    exact ⟨rfl, by rw [report]; rfl⟩
  rcases passes_eq_error stopped with
    first | ⟨counted, first, second⟩ | ⟨emitted, counted, disagree⟩
  · obtain ⟨before, line, after, failure, split, report, stops, listed⟩ := firstPass_eq_error first
    obtain ⟨rfl, place⟩ := placed report
    exact ⟨before, line, after, split, place, .inl stops, listed⟩
  · obtain ⟨before, line, after, failure, split, report, stops, listed⟩ :=
      secondPass_eq_error first second
    obtain ⟨rfl, place⟩ := placed report
    exact ⟨before, line, after, split, place, .inr stops, listed⟩
  · rw [reported] at disagree
    cases disagree
    exact absurd rfl (early emitted counted)

/-- How a pass over a source stops, with macros expanded recursively, so that it can be
evaluated. -/
def halt? (t : Tables) (source : List Text) : Option Halt :=
  match firstPass t 1 source Run.empty with
  | .error h => some h
  | .ok counted =>
    match overLines (fun line r => encodeContent t (shape (Line.normalize line)).content
        (enterScope (shape (Line.normalize line)).label r)) 1 source counted.rewound with
    | .error h => some h
    | .ok _ => none

lemma assemble_of_halt? {source : List Text} {h : Halt} (stops : halt? t source = some h) :
    assemble t source = ⟨h.run, .error h.report⟩ := by
  have failed : passes t source = .error h := by
    unfold halt? at stops
    unfold passes
    cases first : firstPass t 1 source Run.empty with
    | error h' =>
      rw [first] at stops
      cases stops
      rfl
    | ok counted =>
      rw [first] at stops
      simp only [← encodeLine_eq, ← secondPass_eq_overLines] at stops
      change secondPass t 1 source counted.rewound >>= _ = _
      cases second : secondPass t 1 source counted.rewound with
      | error h' =>
        rw [second] at stops
        cases stops
        rfl
      | ok emitted =>
        rw [second] at stops
        cases stops
  rw [assemble, failed]

/-- A jump to a label that is nowhere declared. -/
def astray : List Text := ["nop".toList, " here: goto $t0, oops ; away".toList, "nop".toList]

/-- The first of the three instructions that the jump stands for has been put out when the second
one fails. -/
theorem assemble_stops_astray : ∃ (report : Report) (c : Cause),
    (assemble Tables.builtin astray).result = .error report ∧ report.failure = .cause c ∧
    (∀ emitted counted, c ≠ .passesDisagree emitted counted) ∧
    (assemble Tables.builtin astray).run.store.words = #[0, 0x3c080000] ∧
    ∃ before line after, astray = before ++ line :: after ∧
      report.place = some ⟨((before.length + 1 : Nat) : Int), line⟩ ∧
      StopsEncoding Tables.builtin astray before line (.cause c)
        (assemble Tables.builtin astray).run := by
  have evaluated : (halt? Tables.builtin astray).map
      (fun h => (h.report.failure, h.run.store.words)) =
      some (.cause (.unresolvedLabel (.decimal "OOPS".toList)), #[0, 0x3c080000]) := by
    decide +kernel
  obtain ⟨h, stops, same⟩ := Option.map_eq_some_iff.1 evaluated
  obtain ⟨failure, words⟩ := Prod.mk.injEq _ _ _ _ ▸ same
  have outcome := assemble_of_halt? stops
  have failed : (assemble Tables.builtin astray).result = .error h.report := by rw [outcome]
  have written : (assemble Tables.builtin astray).run.store.words = #[0, 0x3c080000] := by
    rw [outcome]
    exact words
  have early (emitted counted : Nat) : Cause.unresolvedLabel (.decimal "OOPS".toList) ≠
      .passesDisagree emitted counted := by
    intro same
    cases same
  obtain ⟨before, line, after, split, place, stopped, -⟩ := assemble_stops failed failure early
  refine ⟨h.report, _, failed, failure, early, written, before, line, after, split, place, ?_⟩
  rcases stopped with ⟨-, -, -, -, -, unwritten⟩ | encoding
  · rw [written] at unwritten
    cases unwritten
  · exact encoding

end Assembly
end Mips64
