import Mathlib.Data.List.Nodup
import Mips64.Proofs.Passes

/-! The labels of a source and the tables that the first pass makes of them. Main statement: after
the first pass the tables hold one entry for each declaration, in order, at the address counted over
the lines before it; a child belongs to the last global label before it. -/
namespace Mips64.Assembly

/-- What the lines of a source give one after another, where each line is seen together with the
lines before it. -/
def collect {α : Type} (f : List Text → Text → List α) (before : List Text) : List Text → List α
  | [] => []
  | line :: rest => f before line ++ collect f (before ++ [line]) rest

lemma collect_append {α : Type} (f : List Text → Text → List α) (before lines more : List Text) :
    collect f before (lines ++ more) =
      collect f before lines ++ collect f (before ++ lines) more := by
  induction lines generalizing before with
  | nil => simp [collect]
  | cons line lines ih => simp [collect, ih]

lemma collect_concat {α : Type} (f : List Text → Text → List α) (lines : List Text) (line : Text) :
    collect f [] (lines ++ [line]) = collect f [] lines ++ f lines line := by
  simp [collect_append, collect]

lemma mem_collect {α : Type} {f : List Text → Text → List α} {before lines : List Text} {a : α} :
    a ∈ collect f before lines ↔
      ∃ first line rest, lines = first ++ line :: rest ∧ a ∈ f (before ++ first) line := by
  induction lines generalizing before with
  | nil => simp [collect]
  | cons line lines ih =>
    rw [collect, List.mem_append, ih]
    constructor
    · rintro (here | ⟨first, later, rest, rfl, there⟩)
      · exact ⟨[], line, lines, rfl, by simpa using here⟩
      · exact ⟨line :: first, later, rest, rfl, by simpa using there⟩
    · rintro ⟨first, later, rest, split, h⟩
      cases first with
      | nil =>
        cases split
        exact .inl (by simpa using h)
      | cons head first =>
        cases split
        exact .inr ⟨first, later, rest, rfl, by simpa using h⟩

def labelOf (line : Text) : Option Text := (shape (Line.normalize line)).label

/-- The scope that a line leaves: that of its own label, if it declares a global one. -/
def scopeFrom (scope : Text) : Option Text → Text
  | none => scope
  | some name => if Line.isChild name then scope else name

/-- The global label in scope after lines: the last one that they declare. -/
def scopeAfter (lines : List Text) : Text :=
  lines.foldl (fun scope line => scopeFrom scope (labelOf line)) []

/-- A label of a source, with the lines before the one that declares it. -/
structure Declaration where
  before : List Text
  name : Text
  deriving DecidableEq

def declarations (source : List Text) : List Declaration :=
  collect (fun before line => (labelOf line).toList.map (Declaration.mk before)) [] source

def globalLabels (source : List Text) : List Declaration :=
  (declarations source).filter (fun d => !Line.isChild d.name)

def childLabels (source : List Text) : List Declaration :=
  (declarations source).filter (fun d => Line.isChild d.name)

lemma mem_declarations {source : List Text} {d : Declaration} :
    d ∈ declarations source ↔
      ∃ line rest, source = d.before ++ line :: rest ∧ labelOf line = some d.name := by
  rw [declarations, mem_collect]
  constructor
  · rintro ⟨before, line, rest, rfl, h⟩
    simp only [List.nil_append, List.mem_map, Option.mem_toList] at h
    obtain ⟨name, declared, rfl⟩ := h
    exact ⟨line, rest, rfl, declared⟩
  · rintro ⟨line, rest, split, declared⟩
    refine ⟨d.before, line, rest, split, ?_⟩
    simp only [List.nil_append, List.mem_map, Option.mem_toList]
    exact ⟨d.name, declared, rfl⟩

lemma scopeAfter_concat (lines : List Text) (line : Text) :
    scopeAfter (lines ++ [line]) = scopeFrom (scopeAfter lines) (labelOf line) := by
  simp [scopeAfter]

lemma declarations_concat (lines : List Text) (line : Text) :
    declarations (lines ++ [line]) =
      declarations lines ++ (labelOf line).toList.map (Declaration.mk lines) := by
  simp only [declarations, collect_concat]

/-- A label is never empty. -/
lemma labelOf_ne_nil {line name : Text} (h : labelOf line = some name) : name ≠ [] := by
  simp only [labelOf, shape, Line.declaration] at h
  split at h
  · cases h
  · dsimp only at h
    split at h
    · rename_i long
      cases h
      intro empty
      have short := congrArg List.length empty
      simp only [List.length_dropLast, List.length_nil] at short
      omega
    · cases h

/-- An address is the one that the first pass has counted after lines. -/
def IsCounted (t : Tables) (lines : List Text) (address : Int) : Prop :=
  ∃ r, tallyLines t lines Run.empty = .ok r ∧ address = r.count * 4

/-- The tables of a run hold what lines declare: one entry for each declaration, in order, and each
name once. -/
structure Labelled (t : Tables) (lines : List Text) (r : Run) : Prop where
  scope : r.store.scope = scopeAfter lines
  labels : List.Forall₂ (fun d entry => entry.1 = d.name ∧ IsCounted t d.before entry.2)
    (globalLabels lines) r.store.labels
  children : List.Forall₂ (fun d entry =>
      entry.1 = (scopeAfter d.before, d.name) ∧ IsCounted t d.before entry.2)
    (childLabels lines) r.store.children
  owned : ∀ d ∈ childLabels lines, scopeAfter d.before ≠ []
  labels_nodup : (r.store.labels.map Prod.fst).Nodup
  children_nodup : (r.store.children.map Prod.fst).Nodup

lemma Labelled.empty (t : Tables) : Labelled t [] Run.empty :=
  ⟨rfl, .nil, .nil, fun _ h => (List.not_mem_nil h).elim, .nil, .nil⟩

/-- A run with the same tables holds the same declarations. -/
lemma Labelled.congr {t : Tables} {lines : List Text} {r s : Run} (h : Labelled t lines r)
    (scope : s.store.scope = r.store.scope) (labels : s.store.labels = r.store.labels)
    (children : s.store.children = r.store.children) : Labelled t lines s :=
  ⟨scope ▸ h.scope, labels ▸ h.labels, children ▸ h.children, h.owned, labels ▸ h.labels_nodup,
    children ▸ h.children_nodup⟩

/-- What a line holds beside its label changes neither tables nor scope, and puts out no word. -/
lemma tallyContent_frame {t : Tables} {content : Content} {r next : Run}
    (h : tallyContent t content r = .ok next) :
    next.store.scope = r.store.scope ∧ next.store.labels = r.store.labels ∧
      next.store.children = r.store.children ∧ next.store.words = r.store.words ∧
      next.listing = r.listing := by
  cases content with
  | nothing => cases h; exact ⟨rfl, rfl, rfl, rfl, rfl⟩
  | directive line =>
    simp only [tallyContent] at h
    cases run : Directive.run r.store line with
    | error failure => rw [run] at h; cases h
    | ok store =>
      rw [run] at h
      cases h
      obtain ⟨definitions, base, record, rfl, -⟩ := directive_cases run
      exact ⟨rfl, rfl, rfl, rfl, rfl⟩
  | statement line =>
    obtain ⟨n, -, rfl⟩ := tallyStatement_cases h
    exact ⟨rfl, rfl, rfl, rfl, rfl⟩

/-- An entry under a new name keeps the names of a table apart. -/
lemma nodup_concat {α β : Type} [BEq α] [LawfulBEq α] {entries : List (α × β)} {key : α}
    (nodup : (entries.map Prod.fst).Nodup) (fresh : entries.lookup key = none) (value : β) :
    ((entries ++ [(key, value)]).map Prod.fst).Nodup := by
  have absent : key ∉ entries.map Prod.fst := by
    rw [List.mem_map]
    rintro ⟨entry, member, rfl⟩
    simpa using List.lookup_eq_none_iff.1 fresh entry member
  simpa using List.Nodup.concat absent nodup

/-- One line keeps the tables in step with the declarations. -/
theorem Labelled.step {t : Tables} {lines : List Text} {line : Text} {r next : Run}
    (h : Labelled t lines r) (reached : tallyLines t lines Run.empty = .ok r)
    (tallied : tally t (Line.normalize line) r = .ok next) :
    Labelled t (lines ++ [line]) next := by
  rw [tally_eq] at tallied
  obtain ⟨declared, first, rest⟩ := bind_eq_ok_iff.1 tallied
  obtain ⟨scope, labels, children, -, -⟩ := tallyContent_frame rest
  refine Labelled.congr ?_ scope labels children
  have counted : IsCounted t lines (r.count * 4 : Int) := ⟨r, reached, rfl⟩
  have after := scopeAfter_concat lines line
  have added := declarations_concat lines line
  change declareLabel (labelOf line) r = .ok declared at first
  cases declares : labelOf line with
  | none =>
    rw [declares] at first after added
    cases first
    simp only [Option.toList_none, List.map_nil, List.append_nil] at added
    refine ⟨h.scope.trans after.symm, ?_, ?_, ?_, h.labels_nodup, h.children_nodup⟩
    · rw [globalLabels, added]; exact h.labels
    · rw [childLabels, added]; exact h.children
    · rw [childLabels, added]; exact h.owned
  | some name =>
    rw [declares] at first after added
    simp only [Option.toList_some, List.map_cons, List.map_nil] at added
    obtain ⟨child, owned, fresh, rfl⟩ | ⟨global, fresh, rfl⟩ := declare_cases first
    · have noGlobal : globalLabels (lines ++ [line]) = globalLabels lines := by
        simp [globalLabels, added, child]
      have oneChild : childLabels (lines ++ [line]) = childLabels lines ++ [⟨lines, name⟩] := by
        simp [childLabels, added, child]
      rw [scopeFrom, if_pos child] at after
      refine ⟨h.scope.trans after.symm, ?_, ?_, ?_, h.labels_nodup,
        nodup_concat h.children_nodup fresh _⟩
      · rw [noGlobal]; exact h.labels
      · rw [oneChild]
        exact List.rel_append h.children (.cons ⟨by rw [h.scope], counted⟩ .nil)
      · intro d member
        rw [oneChild] at member
        rcases List.mem_append.1 member with old | new
        · exact h.owned d old
        · cases List.mem_singleton.1 new
          exact h.scope ▸ owned
    · have oneGlobal : globalLabels (lines ++ [line]) = globalLabels lines ++ [⟨lines, name⟩] := by
        simp [globalLabels, added, global]
      have noChild : childLabels (lines ++ [line]) = childLabels lines := by
        simp [childLabels, added, global]
      rw [scopeFrom, if_neg (by simp [global])] at after
      refine ⟨after.symm, ?_, ?_, ?_, nodup_concat h.labels_nodup fresh _, h.children_nodup⟩
      · rw [oneGlobal]
        exact List.rel_append h.labels (.cons ⟨rfl, counted⟩ .nil)
      · rw [noChild]; exact h.children
      · rw [noChild]; exact h.owned

/-- After the first pass the tables hold what the source declares. -/
theorem labelled_of_tallyLines {t : Tables} {lines : List Text} {r : Run}
    (h : tallyLines t lines Run.empty = .ok r) : Labelled t lines r := by
  induction lines using List.reverseRecOn generalizing r with
  | nil => cases h; exact Labelled.empty t
  | append_singleton lines line ih =>
    obtain ⟨before, reached, tallied⟩ := tallyLines_concat_eq_ok_iff.1 h
    exact (ih reached).step reached tallied

end Mips64.Assembly
