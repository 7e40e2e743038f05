import Mips64.Proofs.Stops

/-! The layout of a source. Blank lines, comments, indentation and the case of letters are gone once
lines are in normal form, and a line that is empty then does nothing in either pass. Main statement:
sources with the same lines in normal form, the empty ones aside, are assembled by the same run, and
end in the same program or in the same failure, reported with lines of one normal form. -/
namespace Mips64

namespace Report

/-- Two reports of one failure, with no line or with lines that have one normal form. -/
structure Alike (report report' : Report) : Prop where
  failure : report.failure = report'.failure
  place : Option.Rel (fun place place' : Place =>
    Line.normalize place.line = Line.normalize place'.line) report.place report'.place

lemma Alike.attach (report : Report) {place place' : Place}
    (same : Line.normalize place.line = Line.normalize place'.line) :
    (report.attach place).Alike (report.attach place') := by
  refine ⟨by rw [attach_failure, attach_failure], ?_⟩
  obtain ⟨failure, before⟩ := report
  cases failure with
  | fault f =>
    cases before with
    | none => exact .none
    | some first => exact .some rfl
  | cause c =>
    cases before with
    | none => exact .some same
    | some first => exact .some rfl

end Report

namespace Assembly

/-- The lines of a source that count: those that are not empty in normal form. -/
def texts (source : List Text) : List Text :=
  (source.map Line.normalize).filter (fun text => !text.isEmpty)

lemma texts_cons_of_eq_nil {line : Text} (empty : Line.normalize line = [])
    (source : List Text) : texts (line :: source) = texts source := by
  simp [texts, empty]

lemma texts_cons_of_ne_nil {line : Text} (visible : Line.normalize line ≠ [])
    (source : List Text) : texts (line :: source) = Line.normalize line :: texts source := by
  simp [texts, visible]

/-- Two passes that end in one run, or in one run that stopped for alike reasons. -/
def EndAlike : Except Halt Run → Except Halt Run → Prop
  | .ok r, .ok r' => r = r'
  | .error h, .error h' => h.run = h'.run ∧ h.report.Alike h'.report
  | _, _ => False

lemma EndAlike.refl (x : Except Halt Run) : EndAlike x x := by
  cases x with
  | ok r => exact rfl
  | error h =>
    refine ⟨rfl, rfl, ?_⟩
    cases h.report.place with
    | none => exact .none
    | some place => exact .some rfl

lemma EndAlike.bind {x x' : Except Halt Run} {f f' : Run → Except Halt Run}
    (first : EndAlike x x') (next : ∀ r, EndAlike (f r) (f' r)) :
    EndAlike (x >>= f) (x' >>= f') := by
  cases x with
  | error h =>
    cases x' with
    | ok r => exact first.elim
    | error h' => exact first
  | ok r =>
    cases x' with
    | error h' => exact first.elim
    | ok r' =>
      cases (first : r = r')
      exact next r

section
variable {step : Text → Run → Except Halt Run}

/-- A step for each line that counts. A line that stops the run is kept beside the halt. -/
def overTexts (step : Text → Run → Except Halt Run) : List Text → Run → Except (Halt × Text) Run
  | [], r => .ok r
  | text :: rest, r =>
    match step text r with
    | .ok next => overTexts step rest next
    | .error h => .error (h, text)

/-- What steps over lines end in, told by what steps over the lines that count end in. -/
def Reports : Except (Halt × Text) Run → Except Halt Run → Prop
  | .ok r, x => x = .ok r
  | .error (h, text), x =>
    ∃ place : Place, Line.normalize place.line = text ∧ x = .error (h.attach place)

/-- Where an empty line does nothing, only the lines that count are gone through, and their numbers
and layout matter to the report alone. -/
theorem reports_overTexts (idle : ∀ r, step [] r = .ok r) (number : Nat) (source : List Text)
    (r : Run) : Reports (overTexts step (texts source) r)
      (overLines (fun line => step (Line.normalize line)) number source r) := by
  induction source generalizing number r with
  | nil => rfl
  | cons line source ih =>
    rw [overLines]
    by_cases empty : Line.normalize line = []
    · rw [texts_cons_of_eq_nil empty, empty, idle]
      exact ih (number + 1) r
    · rw [texts_cons_of_ne_nil empty, overTexts]
      cases step (Line.normalize line) r with
      | ok next => exact ih (number + 1) next
      | error h => exact ⟨⟨number, line⟩, rfl, rfl⟩

/-- Steps over sources with the same lines that count end alike. -/
lemma endAlike_overLines (idle : ∀ r, step [] r = .ok r) {source source' : List Text}
    (same : texts source = texts source') (number number' : Nat) (r : Run) :
    EndAlike (overLines (fun line => step (Line.normalize line)) number source r)
      (overLines (fun line => step (Line.normalize line)) number' source' r) := by
  have one := reports_overTexts idle number source r
  have other := reports_overTexts idle number' source' r
  rw [← same] at other
  cases ends : overTexts step (texts source) r with
  | ok final =>
    rw [ends] at one other
    rw [show overLines _ number source r = _ from one,
      show overLines _ number' source' r = _ from other]
    exact .refl _
  | error stop =>
    obtain ⟨h, text⟩ := stop
    rw [ends] at one other
    obtain ⟨place, normal, stops⟩ := one
    obtain ⟨place', normal', stops'⟩ := other
    rw [stops, stops']
    exact ⟨rfl, .attach h.report (normal.trans normal'.symm)⟩

end

section
variable {t : Tables} {source source' : List Text}

lemma endAlike_firstPass (same : texts source = texts source') (r : Run) :
    EndAlike (firstPass t 1 source r) (firstPass t 1 source' r) := by
  rw [firstPass_eq_overLines, firstPass_eq_overLines]
  exact endAlike_overLines (fun r => rfl) same 1 1 r

lemma endAlike_secondPass (same : texts source = texts source') (r : Run) :
    EndAlike (secondPass t 1 source r) (secondPass t 1 source' r) := by
  rw [secondPass_eq_overLines, secondPass_eq_overLines]
  exact endAlike_overLines (fun r => rfl) same 1 1 r

/-- Both passes, and the check behind them, see no more of a source than the lines that count. -/
theorem endAlike_passes (same : texts source = texts source') :
    EndAlike (passes t source) (passes t source') := by
  refine (endAlike_firstPass same Run.empty).bind fun counted => ?_
  exact (endAlike_secondPass same counted.rewound).bind fun emitted => .refl _

/-- Sources that have the same lines in normal form, the empty ones aside, are assembled alike. The
runs are the same, so the words put out, the count and the definitions are, and both end in one
program, or in reports of one failure on lines of one normal form. -/
theorem assemble_of_texts_eq (same : texts source = texts source') :
    (assemble t source).run = (assemble t source').run ∧
    ((∃ p, (assemble t source).result = .ok p ∧ (assemble t source').result = .ok p) ∨
      ∃ report report', (assemble t source).result = .error report ∧
        (assemble t source').result = .error report' ∧ report.Alike report') := by
  have alike := endAlike_passes (t := t) same
  unfold assemble
  cases both : passes t source with
  | ok run =>
    cases both' : passes t source' with
    | error h' => rw [both, both'] at alike; exact alike.elim
    | ok run' =>
      rw [both, both'] at alike
      cases (alike : run = run')
      exact ⟨rfl, .inl ⟨run.program, rfl, rfl⟩⟩
  | error h =>
    cases both' : passes t source' with
    | ok run' => rw [both, both'] at alike; exact alike.elim
    | error h' =>
      rw [both, both'] at alike
      obtain ⟨run, report⟩ : h.run = h'.run ∧ h.report.Alike h'.report := alike
      exact ⟨run, .inr ⟨h.report, h'.report, rfl, rfl, report⟩⟩

end

/-- A loop, and a jump through what is no register. -/
def neatLoop : List Text :=
  ["LOOP: ADDIU $T0, $T0, 1".toList, "B LOOP".toList, "JR 5".toList]

/-- The same lines among comments and blanks. -/
def looseLoop : List Text :=
  ["# count up".toList, "\tloop: addiu $t0, $t0, 1 ; and on".toList, [],
    "  b Loop // for ever ; \"".toList, " ; not reached".toList, "jr 5".toList]

/-- The loop is put out from either source, and both stop at the jump. -/
theorem assemble_of_texts_eq_looseLoop : texts neatLoop = texts looseLoop ∧
    (∃ p, (assemble Tables.builtin (neatLoop.take 2)).result = .ok p ∧
      (assemble Tables.builtin (looseLoop.take 5)).result = .ok p ∧ p.words.size = 2) ∧
    ∃ report report', (assemble Tables.builtin neatLoop).result = .error report ∧
      (assemble Tables.builtin looseLoop).result = .error report' ∧ report.Alike report' ∧
      report.place = some ⟨3, "JR 5".toList⟩ ∧
      (assemble Tables.builtin looseLoop).run.store.words.size = 2 := by
  have same : texts neatLoop = texts looseLoop := by decide +kernel
  have loop : texts (neatLoop.take 2) = texts (looseLoop.take 5) := by decide +kernel
  have evaluated : (program? Tables.builtin (neatLoop.take 2)).map (fun p => p.words.size) =
      some 2 := by decide +kernel
  have stopped : (halt? Tables.builtin neatLoop).map
      (fun h => (h.report.place, h.run.store.words.size)) = some (some ⟨3, "JR 5".toList⟩, 2) := by
    decide +kernel
  obtain ⟨p, made, size⟩ := Option.map_eq_some_iff.1 evaluated
  obtain ⟨h, stops, parts⟩ := Option.map_eq_some_iff.1 stopped
  obtain ⟨place, words⟩ := Prod.mk.inj parts
  have assembled := assemble_result_of_program? made
  have outcome := assemble_of_halt? stops
  refine ⟨same, ⟨p, assembled, ?_, size⟩, ?_⟩
  · obtain ⟨-, ⟨q, one, other⟩ | ⟨report, -, failed, -⟩⟩ :=
      assemble_of_texts_eq (t := Tables.builtin) loop
    · cases one.symm.trans assembled
      exact other
    · cases failed.symm.trans assembled
  · obtain ⟨run, ⟨q, one, -⟩ | ⟨report, report', failed, failed', alike⟩⟩ :=
      assemble_of_texts_eq (t := Tables.builtin) same
    · rw [outcome] at one
      cases one
    · rw [outcome] at failed run
      cases failed
      exact ⟨_, report', by rw [outcome], failed', alike, place, by rw [← run]; exact words⟩

end Assembly
end Mips64
