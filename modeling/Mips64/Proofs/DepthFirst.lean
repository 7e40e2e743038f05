import Mips64.Proofs.WordRange

/-! Expansion depth first. What a line puts out is defined by recursion on the depth of nesting: an
instruction gives its word, and a macro gives what its lines give one level deeper, one after
another. Main statement: this is what working off the agenda adds to a run, and where the recursion
fails the agenda stops, with the same failure and behind the same words. -/
namespace Mips64.Assembly

/-- What is put out: the entries of the listing, each with its word, and the failure behind them, if
there is one. -/
structure Output where
  entries : List ListingEntry
  failure : Option Failure
  deriving DecidableEq

/-- The output of items one after another, each from the position behind the words before it.
Nothing comes behind a failure. -/
def Output.inTurn {α : Type} (f : Nat → α → Output) : (position : Nat) → List α → Output
  | _, [] => ⟨[], none⟩
  | position, item :: items =>
    let first := f position item
    match first.failure with
    | some failure => ⟨first.entries, some failure⟩
    | none =>
      let others := inTurn f (position + first.entries.length) items
      ⟨first.entries ++ others.entries, others.failure⟩

lemma Output.inTurn_singleton {α : Type} (f : Nat → α → Output) (position : Nat) (item : α) :
    inTurn f position [item] = f position item := by
  cases only : f position item with
  | mk entries failure => cases failure <;> simp [inTurn, only]

/-- The output of a line at a depth of nesting, from a position on. -/
def outputOf (t : Tables) (symbols : Symbols) (depth position : Nat) (line : Text) : Output :=
  let s := Line.statement line
  match t.role s.mnemonic with
  | .instruction i =>
    match i.encode symbols (position * 4) s.operands with
    | .ok word => ⟨[⟨position * 4, word, line, i.note⟩], none⟩
    | .error failure => ⟨[], some failure⟩
  | .unknown => ⟨[], some (.cause (.unknownStatement line s.mnemonic))⟩
  | .expansion m =>
    if depth < Macro.maxDepth then
      match m.expand s.operands with
      | .ok lines => Output.inTurn (fun p l => outputOf t symbols (depth + 1) p l) position lines
      | .error failure => ⟨[], some failure⟩
    else ⟨[], some (.cause (.macroDepth s.mnemonic Macro.maxDepth))⟩
termination_by Macro.maxDepth - depth

namespace Run

/-- The run with entries put out: its words, its listing and its log go on with them. -/
def withEntries (r : Run) (entries : List ListingEntry) : Run :=
  { r with
    store := { r.store with
      words := r.store.words ++ (entries.map ListingEntry.word).toArray
      log := r.store.log ++ (entries.map fun e =>
        Log.Record.encoded e.address.toNat (Text.bits 32 e.word)).toArray }
    listing := r.listing ++ entries.toArray }

/-- The run with an output, stopped if the output fails. -/
def ended (r : Run) (o : Output) : Except Halt Run :=
  match o.failure with
  | none => .ok (r.withEntries o.entries)
  | some failure => .error ((r.withEntries o.entries).halt failure)

@[simp] lemma withEntries_toSymbols (r : Run) (entries : List ListingEntry) :
    (r.withEntries entries).store.toSymbols = r.store.toSymbols := rfl

@[simp] lemma withEntries_words_size (r : Run) (entries : List ListingEntry) :
    (r.withEntries entries).store.words.size = r.store.words.size + entries.length := by
  simp [withEntries]

@[simp] lemma withEntries_nil (r : Run) : r.withEntries [] = r := by
  simp [withEntries]

lemma withEntries_append (r : Run) (entries more : List ListingEntry) :
    r.withEntries (entries ++ more) = (r.withEntries entries).withEntries more := by
  simp [withEntries]

end Run

/-- An instruction puts out its word, or fails as its encoding does. -/
lemma encodeInstruction_eq_ended {t : Tables} {line : Text} {i : Instruction}
    (role : t.role (Line.statement line).mnemonic = .instruction i) (depth : Nat) (r : Run) :
    encodeInstruction i line (Line.statement line).operands r =
      r.ended (outputOf t r.store.toSymbols depth r.store.words.size line) := by
  rw [outputOf, role]
  simp only [encodeInstruction, Store.size]
  cases encodes : i.encode r.store.toSymbols (r.store.words.size * 4)
      (Line.statement line).operands with
  | error failure => simp [Run.ended]
  | ok word =>
    have address : ((r.store.words.size : Int) * 4).toNat = r.store.words.size * 4 := by omega
    simp only [putWord_of_lt (Instruction.encode_lt encodes)]
    simp [Run.ended, Run.withEntries, Store.noteWord, Store.note, Store.size, address]

/-- Where each item adds its output to a run, items one after another add theirs in turn. -/
lemma foldlM_eq_ended {α : Type} {f : Run → α → Except Halt Run} {g : Nat → α → Output}
    {symbols : Symbols} {items : List α}
    (each : ∀ item ∈ items, ∀ r : Run, r.store.toSymbols = symbols →
      f r item = r.ended (g r.store.words.size item))
    {r : Run} (start : r.store.toSymbols = symbols) :
    items.foldlM f r = r.ended (Output.inTurn g r.store.words.size items) := by
  induction items generalizing r with
  | nil => simp [Output.inTurn, Run.ended, pure, Except.pure]
  | cons item items ih =>
    have others := ih (fun x member => each x (List.mem_cons_of_mem item member))
      (r := r.withEntries (g r.store.words.size item).entries) start
    rw [List.foldlM_cons, each item List.mem_cons_self r start, Output.inTurn]
    cases failed : (g r.store.words.size item).failure with
    | some failure => simp [Run.ended, failed, bind, Except.bind]
    | none =>
      simp only [Run.ended, failed, bind, Except.bind, others, Run.withEntries_words_size,
        Run.withEntries_append]

/-- Encoding with the levels that are left at a depth adds the output at that depth. -/
theorem encodeNested_eq_ended (t : Tables) (depth : Nat) (line : Text) (r : Run) :
    encodeNested t (Macro.maxDepth - depth) line r =
      r.ended (outputOf t r.store.toSymbols depth r.store.words.size line) := by
  induction left : Macro.maxDepth - depth using Nat.strong_induction_on
    generalizing depth line r with
  | _ levels ih =>
    subst left
    cases role : t.role (Line.statement line).mnemonic with
    | instruction i => rw [encodeNested_instruction role, encodeInstruction_eq_ended role]
    | unknown =>
      rw [encodeNested, role, outputOf, role]
      simp [Run.ended]
    | expansion m =>
      by_cases shallow : depth < Macro.maxDepth
      · have deeper : Macro.maxDepth - depth = (Macro.maxDepth - (depth + 1)) + 1 := by omega
        rw [deeper, outputOf, role]
        cases expanded : m.expand (Line.statement line).operands with
        | error failure =>
          rw [encodeNested_expansion_error role expanded]
          simp [Run.ended, shallow, expanded]
        | ok lines =>
          rw [encodeNested_expansion role expanded]
          simp only [shallow, if_true, expanded]
          refine foldlM_eq_ended (fun l _ r' same => ?_) rfl
          rw [ih _ (by omega) (depth + 1) l r' rfl, same]
      · have bottom : Macro.maxDepth - depth = 0 := by omega
        rw [bottom, encodeNested, role, outputOf, role]
        simp [Run.ended, shallow]

/-- An agenda of lines at any depths is worked off to the outputs of the lines in turn. -/
theorem encodeAgenda_eq_ended (t : Tables) (agenda : List (Text × Nat)) (r : Run) :
    encodeAgenda t agenda r = r.ended (Output.inTurn
      (fun position item => outputOf t r.store.toSymbols item.2 position item.1)
      r.store.words.size agenda) := by
  rw [encodeAgenda_eq_foldlM]
  refine foldlM_eq_ended (fun item _ r' same => ?_) rfl
  rw [encodeNested_eq_ended, same]

/-- A line is worked off to its output at the outermost depth: its words and its entries of the
listing are added to the run in their order, and where the output fails the line fails behind
them. -/
theorem emits_depthFirst (t : Tables) (line : Text) (r : Run) :
    encodeAgenda t [(line, 0)] r =
      r.ended (outputOf t r.store.toSymbols 0 r.store.words.size line) := by
  rw [encodeAgenda_eq_ended, Output.inTurn_singleton]

end Mips64.Assembly
