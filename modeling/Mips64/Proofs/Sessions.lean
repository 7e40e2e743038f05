import Mips64.Proofs.WordRange
import Mips64.Session

/-! Stores over whole sessions. An operation checks what it needs before it changes anything, so it
makes one change to the store or fails and makes none. Main statement: after any operations names
are bound once and numbers are in range, what is bound and put out stays where it is, and an
operation that fails leaves the store as it was. -/
namespace Mips64

namespace Store

inductive Change (s : Store) : Store → Prop
  | none : Change s s
  | label {name : Text} {address : Int} {log : Array Log.Record}
      (fresh : s.labels.lookup name = .none) :
      Change s { s with labels := s.labels ++ [(name, address)], scope := name, log := log }
  | child {name : Text} {address : Int} {log : Array Log.Record} (owned : s.scope ≠ [])
      (fresh : s.children.lookup (s.scope, name) = .none) :
      Change s { s with children := s.children ++ [((s.scope, name), address)], log := log }
  | scope {name : Text} : Change s { s with scope := name }
  | definition {name text : Text} {log : Array Log.Record}
      (fresh : s.definitions.lookup name = .none) :
      Change s { s with definitions := s.definitions ++ [(name, text)], log := log }
  | base {value : Int} {log : Array Log.Record} (lower : 0 ≤ value) (upper : value ≤ 0xFFFF) :
      Change s { s with base := value, log := log }
  | word {word : Int} {log : Array Log.Record} (lower : 0 ≤ word) (upper : word ≤ 0xFFFFFFFF) :
      Change s { s with words := s.words.push word, log := log }

/-- A store in which each name is bound once, children have owners, and numbers are in range. -/
structure IsSound (s : Store) : Prop where
  labels : (s.labels.map Prod.fst).Nodup
  children : (s.children.map Prod.fst).Nodup
  definitions : (s.definitions.map Prod.fst).Nodup
  owned : ∀ entry ∈ s.children, entry.1.1 ≠ []
  base : 0 ≤ s.base ∧ s.base ≤ 0xFFFF
  words : ∀ word ∈ s.words, 0 ≤ word ∧ word ≤ 0xFFFFFFFF

/-- A store that has all that another has, at the same places, and maybe more behind it. -/
structure Extends (s next : Store) : Prop where
  labels : s.labels <+: next.labels
  children : s.children <+: next.children
  definitions : s.definitions <+: next.definitions
  words : s.words.toList <+: next.words.toList

variable {s next final : Store}

lemma isSound_empty : empty.IsSound := by
  constructor <;> simp [empty, Symbols.empty]

lemma Extends.refl (s : Store) : s.Extends s :=
  ⟨List.prefix_rfl, List.prefix_rfl, List.prefix_rfl, List.prefix_rfl⟩

lemma Extends.trans (first : s.Extends next) (second : next.Extends final) : s.Extends final :=
  ⟨first.labels.trans second.labels, first.children.trans second.children,
    first.definitions.trans second.definitions, first.words.trans second.words⟩

lemma change_of_declareLabel {name : Text} {address : Int}
    (h : s.declareLabel name address = .ok next) : s.Change next := by
  unfold declareLabel at h
  split at h
  · cases h
  · rename_i fresh
    cases h
    exact .label (Option.not_isSome_iff_eq_none.1 fresh)

lemma change_of_declareChild {name : Text} {address : Int}
    (h : s.declareChild name address = .ok next) : s.Change next := by
  unfold declareChild at h
  split at h
  · cases h
  · rename_i owned
    split at h
    · cases h
    · rename_i fresh
      cases h
      exact .child (by simpa using owned) (Option.not_isSome_iff_eq_none.1 fresh)

lemma change_of_define {name text : Text} (h : s.define name text = .ok next) :
    s.Change next := by
  unfold define at h
  split at h
  · cases h
  · rename_i fresh
    cases h
    exact .definition (Option.not_isSome_iff_eq_none.1 fresh)

lemma change_of_pushWord {word : Int} (h : s.pushWord word = .ok next) : s.Change next := by
  unfold pushWord at h
  split at h
  · rename_i fits
    cases h
    simp only [isWord, Bool.and_eq_true, decide_eq_true_eq] at fits
    exact .word fits.1 fits.2
  · cases h

lemma Change.isSound (change : s.Change next) (sound : s.IsSound) : next.IsSound := by
  cases change with
  | none => exact sound
  | scope => exact { sound with }
  | label fresh => exact { sound with labels := Assembly.nodup_concat sound.labels fresh _ }
  | definition fresh =>
    exact { sound with definitions := Assembly.nodup_concat sound.definitions fresh _ }
  | base lower upper => exact { sound with base := ⟨lower, upper⟩ }
  | child owned fresh =>
    refine { sound with
      children := Assembly.nodup_concat sound.children fresh _
      owned := fun entry member => ?_ }
    rcases List.mem_append.1 member with before | last
    · exact sound.owned entry before
    · rw [List.mem_singleton.1 last]
      exact owned
  | word lower upper =>
    refine { sound with words := fun word member => ?_ }
    rcases Array.mem_push.1 member with before | rfl
    · exact sound.words word before
    · exact ⟨lower, upper⟩

lemma Change.extends (change : s.Change next) : s.Extends next := by
  cases change with
  | none | scope | base => exact { Extends.refl s with }
  | label => exact { Extends.refl s with labels := List.prefix_append _ _ }
  | child => exact { Extends.refl s with children := List.prefix_append _ _ }
  | definition => exact { Extends.refl s with definitions := List.prefix_append _ _ }
  | word =>
    refine { Extends.refl s with words := ?_ }
    rw [Array.toList_push]
    exact List.prefix_append _ _

lemma Change.words_cases (change : s.Change next) :
    next.words = s.words ∨ ∃ word, next.words = s.words.push word := by
  cases change with
  | word => exact .inr ⟨_, rfl⟩
  | _ => exact .inl rfl

end Store

namespace Session

variable {α β : Type} {s : Store} {t : Tables}

/-- The end of work that does all of something to a store or nothing. -/
def whole (s : Store) : Except Failure Store → EStateM.Result Failure Store Unit
  | .ok next => .ok () next
  | .error failure => .error failure s

lemma run_get_bind (rest : Store → Work α) (s : Store) :
    (get >>= rest).run s = (rest s).run s := rfl

lemma run_ensure_bind (holds : Bool) (cause : Cause) (rest : Unit → Work α) (s : Store) :
    (Work.ensure holds cause >>= rest).run s =
      if holds then (rest ()).run s else .error (.cause cause) s := by
  cases holds <;> rfl

/-- Step by step a label is declared as it is at once, and where it is refused nothing has been
done. -/
lemma run_declareLabel (name : Text) (address : Int) (s : Store) :
    (Work.declareLabel name address).run s =
      whole s ((s.declareLabel name address).mapError .cause) := by
  unfold Work.declareLabel Store.declareLabel
  rw [run_get_bind, run_ensure_bind]
  cases s.labels.lookup name <;> rfl

lemma run_declareChild (name : Text) (address : Int) (s : Store) :
    (Work.declareChild name address).run s =
      whole s ((s.declareChild name address).mapError .cause) := by
  unfold Work.declareChild Store.declareChild
  rw [run_get_bind, run_ensure_bind, run_get_bind, run_ensure_bind]
  cases s.scope.isEmpty with
  | true => rfl
  | false => cases s.children.lookup (s.scope, name) <;> rfl

lemma run_define (name text : Text) (s : Store) :
    (Work.define name text).run s = whole s ((s.define name text).mapError .cause) := by
  unfold Work.define Store.define
  rw [run_get_bind, run_ensure_bind]
  cases s.definitions.lookup name <;> rfl

lemma run_pushWord (word : Int) (s : Store) :
    (Work.pushWord word).run s = whole s ((s.pushWord word).mapError .cause) := by
  unfold Work.pushWord Store.pushWord
  rw [run_ensure_bind]
  cases Store.isWord word <;> rfl

/-- A word is noted before it is checked, and one of 32 bits passes the check. -/
lemma run_putWord {word : Nat} (small : word < 2 ^ 32) (s : Store) :
    (do modify (·.noteWord word); Work.pushWord word; return (word : Int) : Work Int).run s =
      .ok (word : Int) { s.noteWord word with words := s.words.push word } := by
  change (Work.pushWord word >>= fun _ => pure (word : Int)).run (s.noteWord word) = _
  rw [EStateM.run_bind, run_pushWord, Store.pushWord, if_pos (Store.isWord_of_lt small)]
  rfl

/-- What the store shows is passed on, and the store stays. -/
lemma run_look_bind {s : Store} {view : Store → Except Failure β} {b : β} (seen : view s = .ok b)
    (rest : β → Work α) : (Work.look view >>= rest).run s = (rest b).run s := by
  have looked : (Work.look view).run s = .ok b s := by simp [Work.look, seen]
  rw [EStateM.run_bind, looked]

/-- Where the store does not show what is looked for, work ends there. -/
lemma run_look_bind_error {s : Store} {view : Store → Except Failure β} {failure : Failure}
    (seen : view s = .error failure) (rest : β → Work α) :
    (Work.look view >>= rest).run s = .error failure s := by
  have looked : (Work.look view).run s = .error failure s := by
    simp only [Work.look, EStateM.run_bind, EStateM.run_get, seen]
    rfl
  rw [EStateM.run_bind, looked]

/-- Work that ends in one change to the store, or fails and has changed nothing. -/
def Settles (s : Store) : EStateM.Result Failure Store α → Prop
  | .ok _ next => s.Change next
  | .error _ next => next = s

namespace Settles

lemma of_whole {x : Except Cause Store} (h : ∀ next, x = .ok next → s.Change next) :
    Settles s (whole s (x.mapError .cause)) := by
  cases x with
  | ok next => exact h next rfl
  | error cause => rfl

/-- Looking at the store comes before any change to it. -/
lemma look {view : Store → Except Failure β} {rest : β → Work α}
    (h : ∀ b, view s = .ok b → Settles s ((rest b).run s)) :
    Settles s ((Work.look view >>= rest).run s) := by
  cases seen : view s with
  | ok b =>
    rw [run_look_bind seen]
    exact h b seen
  | error failure =>
    rw [run_look_bind_error seen]
    rfl

/-- What is replied makes no difference. -/
lemma reply {work : Work β} {g : β → α} (h : Settles s (work.run s)) :
    Settles s ((work >>= fun b => pure (g b)).run s) := by
  rw [EStateM.run_bind]
  cases ends : work.run s with
  | ok b next => rw [ends] at h; exact h
  | error failure next => rw [ends] at h; exact h

end Settles

lemma settles_define (name text : Text) : Settles s ((Work.define name text).run s) := by
  rw [run_define]
  exact .of_whole fun _ => Store.change_of_define

lemma settles_fulfil (q : Directive.Request) : Settles s ((Work.fulfil q).run s) := by
  cases q with
  | base token =>
    refine .look fun value _ => ?_
    obtain ⟨lower, upper⟩ := s.withBase_range value
    exact .base lower upper
  | define name tokens => exact settles_define _ _

lemma settles_directive (line : Text) : Settles s ((Work.directive line).run s) := by
  unfold Work.directive
  split
  · exact .look fun q _ => .reply (settles_fulfil q)
  · exact .none

lemma settles_encode (mnemonic : Text) (written : List Text) :
    Settles s ((Work.encode t mnemonic written).run s) := by
  unfold Work.encode
  refine .look fun i _ => .look fun word encodes => ?_
  have small := Instruction.encode_lt encodes
  rw [run_putWord small]
  exact .word (Int.natCast_nonneg word) (by omega)

/-- An operation makes one change to the store, or fails and makes none. -/
theorem settles_perform (o : Operation) : Settles s ((Work.perform t o).run s) := by
  cases o with
  | declareLabel name address =>
    refine .reply ?_
    rw [run_declareLabel]
    exact .of_whole fun _ => Store.change_of_declareLabel
  | declareChild name address =>
    refine .reply ?_
    rw [run_declareChild]
    exact .of_whole fun _ => Store.change_of_declareChild
  | scope name => exact .scope
  | define name text => exact .reply (settles_define name text)
  | base value =>
    obtain ⟨lower, upper⟩ := s.withBase_range value
    exact .base lower upper
  | pushWord word =>
    refine .reply ?_
    rw [run_pushWord]
    exact .of_whole fun _ => Store.change_of_pushWord
  | directive line => exact .reply (settles_directive line)
  | encode mnemonic written => exact .reply (settles_encode mnemonic written)
  | query q =>
    rw [Work.perform, ← bind_pure (Work.look _)]
    exact .look fun reply _ => .none

lemma step_of_error {o : Operation} {failure : Failure} (h : (step t s o).2 = .error failure) :
    (step t s o).1 = s := by
  have settles := settles_perform (s := s) (t := t) o
  unfold step at h ⊢
  cases ends : (Work.perform t o).run s with
  | ok reply next => rw [ends] at h; cases h
  | error failure next => rw [ends] at settles; exact settles

lemma change_step (t : Tables) (s : Store) (o : Operation) : s.Change (step t s o).1 := by
  have settles := settles_perform (s := s) (t := t) o
  unfold step
  cases ends : (Work.perform t o).run s with
  | ok reply next => rw [ends] at settles; exact settles
  | error failure next =>
    rw [ends] at settles
    cases (settles : next = s)
    exact .none

lemma isSound_run (sound : s.IsSound) (operations : List Operation) :
    (run t s operations).IsSound := by
  induction operations generalizing s with
  | nil => exact sound
  | cons o operations ih =>
    rw [run_cons]
    exact ih ((change_step t s o).isSound sound)

lemma extends_run (t : Tables) (s : Store) (operations : List Operation) :
    s.Extends (run t s operations) := by
  induction operations generalizing s with
  | nil => exact .refl s
  | cons o operations ih =>
    rw [run_cons]
    exact (change_step t s o).extends.trans (ih _)

/-- At any point of any session names are bound once, no child is without owner, and base and words
are in range. The next operation puts out one word at most and leaves the store as it was if it
fails, and whatever operations follow, all that is bound or put out stays what and where it is. -/
theorem run_empty_keeps (t : Tables) (done : List Operation) (o : Operation)
    (more : List Operation) :
    (run t .empty done).IsSound ∧
    (∀ failure, (step t (run t .empty done) o).2 = .error failure →
      (step t (run t .empty done) o).1 = run t .empty done) ∧
    ((step t (run t .empty done) o).1.words = (run t .empty done).words ∨
      ∃ word, (step t (run t .empty done) o).1.words = (run t .empty done).words.push word) ∧
    (run t .empty done).Extends (run t .empty (done ++ o :: more)) := by
  refine ⟨isSound_run Store.isSound_empty done, fun failure => step_of_error,
    (change_step t _ o).words_cases, ?_⟩
  rw [run_append]
  exact extends_run t _ (o :: more)

example : (run ⟨[], []⟩ .empty
    [.declareLabel "A".toList 0, .declareChild ".B".toList 4, .declareLabel "A".toList 8,
      .pushWord 7, .pushWord (-1), .directive "[BASE 0x12345]".toList]).toSymbols =
    ⟨[("A".toList, 0)], [(("A".toList, ".B".toList), 4)], [], "A".toList, 0x2345⟩ := by
  decide +kernel

end Session
end Mips64
