import Mips64.Proofs.Labels

/-! The definitions that directives make. Main statement: after the first pass the definitions are
the ones that the source asks for, in order, and no name is defined twice. -/
namespace Mips64

namespace Directive

def Request.entry? : Request → Option (Text × Text)
  | .base _ => none
  | .define name tokens =>
    some (Text.upper (Text.strip name), Text.strip (Text.joinWith ' ' tokens))

/-- A request adds its entry to the definitions, under a name that is new. -/
lemma Request.definitions_of_apply {q : Request} {store next : Store}
    (h : q.apply store = .ok next) :
    next.definitions = store.definitions ++ q.entry?.toList ∧
      ((store.definitions.map Prod.fst).Nodup → (next.definitions.map Prod.fst).Nodup) := by
  cases q with
  | base token =>
    obtain ⟨value, -, set⟩ := bind_eq_ok_iff.1 h
    cases set
    exact ⟨(List.append_nil _).symm, id⟩
  | define name tokens =>
    simp only [apply, applyDefine, Store.define] at h
    split at h
    · cases h
    · rename_i fresh
      cases h
      exact ⟨rfl, fun nodup =>
        Assembly.nodup_concat nodup (Option.not_isSome_iff_eq_none.1 fresh) _⟩

end Directive

namespace Assembly

def requestOf (line : Text) : Option Directive.Request :=
  match (shape (Line.normalize line)).content with
  | .directive d => (Directive.request d).toOption
  | _ => none

lemma exists_of_requestOf {line : Text} {q : Directive.Request} (h : requestOf line = some q) :
    ∃ d, (shape (Line.normalize line)).content = .directive d ∧ Directive.request d = .ok q := by
  unfold requestOf at h
  split at h
  · rename_i d holds
    cases asks : Directive.request d with
    | error failure => rw [asks] at h; cases h
    | ok q' =>
      rw [asks] at h
      cases h
      exact ⟨d, holds, asks⟩
  · cases h

def definitionsOf (source : List Text) : List (Text × Text) :=
  source.filterMap (fun line => (requestOf line).bind Directive.Request.entry?)

def definedNames (source : List Text) : List Text := (definitionsOf source).map Prod.fst

lemma declareLabel_definitions {label : Option Text} {r next : Run}
    (h : declareLabel label r = .ok next) : next.store.definitions = r.store.definitions := by
  cases label with
  | none => cases h; rfl
  | some name =>
    obtain ⟨-, -, -, rfl⟩ | ⟨-, -, rfl⟩ := declare_cases h
    · rfl
    · rfl

/-- A line that is accounted for adds the definition that it asks for, if it asks for one. -/
lemma tally_definitions {t : Tables} {line : Text} {r next : Run}
    (h : tally t (Line.normalize line) r = .ok next) :
    next.store.definitions =
        r.store.definitions ++ ((requestOf line).bind Directive.Request.entry?).toList ∧
      ((r.store.definitions.map Prod.fst).Nodup → (next.store.definitions.map Prod.fst).Nodup) := by
  rw [tally_eq] at h
  obtain ⟨declared, label, content⟩ := bind_eq_ok_iff.1 h
  rw [← declareLabel_definitions label]
  cases holds : (shape (Line.normalize line)).content with
  | nothing =>
    rw [holds] at content
    cases content
    exact ⟨by simp [requestOf, holds], id⟩
  | statement statement =>
    rw [holds] at content
    obtain ⟨n, -, rfl⟩ := tallyStatement_cases content
    exact ⟨by simp [requestOf, holds], id⟩
  | directive d =>
    rw [holds] at content
    simp only [tallyContent, Directive.run] at content
    cases asks : Directive.request d with
    | error failure => rw [asks] at content; cases content
    | ok q =>
      rw [asks] at content
      change declared.step (q.apply declared.store) = .ok next at content
      cases applied : q.apply declared.store with
      | error failure => rw [applied] at content; cases content
      | ok store =>
        rw [applied] at content
        cases content
        simpa [requestOf, holds, asks, Except.toOption] using q.definitions_of_apply applied

/-- After the first pass the definitions are the ones that the source asks for. -/
theorem definitions_of_tallyLines {t : Tables} {lines : List Text} {r : Run}
    (h : tallyLines t lines Run.empty = .ok r) :
    r.store.definitions = definitionsOf lines ∧ (definedNames lines).Nodup := by
  induction lines using List.reverseRecOn generalizing r with
  | nil => cases h; exact ⟨rfl, .nil⟩
  | append_singleton lines line ih =>
    obtain ⟨before, reached, tallied⟩ := tallyLines_concat_eq_ok_iff.1 h
    obtain ⟨same, nodup⟩ := ih reached
    obtain ⟨added, keeps⟩ := tally_definitions tallied
    have all : r.store.definitions = definitionsOf (lines ++ [line]) := by
      rw [added, same, definitionsOf, definitionsOf, List.filterMap_append]
      cases entry : (requestOf line).bind Directive.Request.entry? <;> simp [entry]
    refine ⟨all, ?_⟩
    rw [definedNames, ← all]
    exact keeps (by rw [same]; exact nodup)

end Assembly
end Mips64
