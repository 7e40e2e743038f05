import Mathlib.Data.Set.Card
import Mips64.Proofs.Inclusion

/-! The chain of files that are being read while includes are followed. The recursion that puts a
source together is worked off in steps, on a stack of files of which each has come to one of its
lines. Main statements: the steps come to an end whatever the files include, and no path is on the
stack twice; and what stops a reading is reported with the line that the innermost file has come to,
behind lines that were processed in every file on the stack. -/
namespace Mips64

namespace FileSystem.Path

/-- A name that leads on to a file: it is neither empty nor dots that stay or go up. -/
def IsName (name : Text) : Prop :=
  name ≠ [] ∧ name ≠ ['.'] ∧ name ≠ ['.', '.'] ∧ '/' ∉ name

lemma follow_nil (parts : List Text) : follow parts [] = parts := rfl

lemma follow_of_isName {name : Text} (proper : IsName name) (parts : List Text) :
    follow parts name = parts ++ [name] := by
  simp [follow, proper.1, proper.2.1, proper.2.2.1]

lemma isName_of_follow {name : Text} (unslashed : '/' ∉ name) {parts : List Text}
    (proper : ∀ part ∈ parts, IsName part) : ∀ part ∈ follow parts name, IsName part := by
  intro part member
  unfold follow at member
  split at member
  · exact proper part member
  · rename_i stays
    split at member
    · exact proper part ((List.dropLast_sublist parts).subset member)
    · rename_i up
      rcases List.mem_append.1 member with old | new
      · exact proper part old
      · cases List.mem_singleton.1 new
        simp only [Bool.or_eq_true, List.isEmpty_iff, beq_iff_eq, not_or] at stays up
        exact ⟨stays.1, stays.2, up, unslashed⟩

lemma foldl_follow_of_isName {names : List Text} (proper : ∀ name ∈ names, IsName name)
    (parts : List Text) : names.foldl follow parts = parts ++ names := by
  induction names generalizing parts with
  | nil => simp
  | cons name names ih =>
    rw [List.foldl_cons, follow_of_isName (proper name List.mem_cons_self),
      ih (fun n member => proper n (List.mem_cons_of_mem name member))]
    simp

lemma isName_of_foldl {names : List Text} (unslashed : ∀ name ∈ names, '/' ∉ name)
    {parts : List Text} (proper : ∀ part ∈ parts, IsName part) :
    ∀ part ∈ names.foldl follow parts, IsName part := by
  induction names generalizing parts with
  | nil => exact proper
  | cons name names ih =>
    exact ih (fun n member => unslashed n (List.mem_cons_of_mem name member))
      (isName_of_follow (unslashed name List.mem_cons_self) proper)

lemma isName_ofText (path : Text) : ∀ part ∈ (ofText path).parts, IsName part := by
  refine isName_of_foldl (fun name member slash => ?_) (by simp)
  simpa using (of_mem_splitOnP member slash).2

lemma splitOn_slash (s : Text) : ('/' :: s).splitOn '/' = [] :: s.splitOn '/' := by
  simp [List.splitOn, List.splitOnP_cons_eq_if_modifyHead]

lemma foldl_follow_joinWith {parts : List Text} (proper : ∀ part ∈ parts, IsName part) :
    ((Text.joinWith '/' parts).splitOn '/').foldl follow [] = parts := by
  cases parts with
  | nil => rfl
  | cons part parts =>
    rw [Text.joinWith, List.splitOn_intercalate '/' (fun p member => (proper p member).2.2.2)
      (by simp), foldl_follow_of_isName proper, List.nil_append]

lemma head?_joinWith_ne {parts : List Text} (proper : ∀ part ∈ parts, IsName part) :
    (Text.joinWith '/' parts).head? ≠ some '/' := by
  cases parts with
  | nil => simp [Text.joinWith]
  | cons part parts =>
    obtain ⟨nonempty, -, -, unslashed⟩ := proper part List.mem_cons_self
    obtain ⟨c, rest, rfl⟩ := List.exists_cons_of_ne_nil nonempty
    have other : c ≠ '/' := fun same => unslashed (same ▸ List.mem_cons_self)
    cases parts <;> simpa [Text.joinWith] using other

/-- A path in normal form is read back from its text. -/
theorem ofText_text_ofText (path : Text) : ofText (ofText path).text = ofText path := by
  have proper := isName_ofText path
  generalize ofText path = p at proper
  obtain ⟨doubled, parts⟩ := p
  have start := head?_joinWith_ne proper
  have names := foldl_follow_joinWith proper
  cases doubled with
  | false =>
    have single : startsDoubled ('/' :: Text.joinWith '/' parts) = false := by
      cases joined : Text.joinWith '/' parts with
      | nil => rfl
      | cons c rest =>
        rw [joined] at start
        unfold startsDoubled
        split
        · simp_all
        · rfl
    have slash : (⟨false, parts⟩ : Path).text = '/' :: Text.joinWith '/' parts := rfl
    rw [slash, ofText, single, splitOn_slash, List.foldl_cons, follow_nil, names]
  | true =>
    have double : startsDoubled ('/' :: '/' :: Text.joinWith '/' parts) = true := by
      simpa [startsDoubled] using start
    have slashes : (⟨true, parts⟩ : Path).text = '/' :: '/' :: Text.joinWith '/' parts := rfl
    rw [slashes, ofText, double, splitOn_slash, splitOn_slash, List.foldl_cons, List.foldl_cons,
      follow_nil, follow_nil, names]

end FileSystem.Path

namespace FileSystem

/-- The texts in normal form of the paths under which lines can be read. -/
def readableTexts (fs : FileSystem) : Set Text :=
  {t | (Path.ofText t).text = t ∧ ∃ lines, HasLines fs (Path.ofText t) lines}

lemma finite_readableTexts (fs : FileSystem) : fs.readableTexts.Finite := by
  refine (List.finite_toSet (fs.readable.map Path.text)).subset ?_
  rintro t ⟨normal, lines, opens⟩
  exact List.mem_map.2 ⟨_, Include.mem_readable_of_hasLines opens, normal⟩

/-- Why a path is not read: it is barred, or there is no file at it. -/
def RefusedFor (fs : FileSystem) (path : Path) (reason : Refusal) : Prop :=
  fs.bar? path.parts = some reason ∨
    fs.bar? path.parts = none ∧ fs.file? path.parts = none ∧ reason = fs.refusal path.parts

/-- A file cannot be opened, and the cause says which path, and why. -/
def Refuses (fs : FileSystem) (path : Path) (cause : Cause) : Prop :=
  hasNul path.text = false ∧ ∃ reason, fs.RefusedFor path reason ∧
    (reason.number = Refusal.missing.number ∧ cause = .fileMissing path.text ∨
      reason.number ≠ Refusal.missing.number ∧ cause = .fileRefused path.text reason)

end FileSystem

namespace Include

open FileSystem (Path HasLines)

/-- A file that is being read: the lines that are done with, and those that are left. -/
structure Frame where
  path : Path
  done : List Text
  left : List Text

/-- Where a reading stands: the files that are being read, innermost first, the path that is to be
opened next, and what has been read so far. -/
structure Stage where
  frames : List Frame
  next : Option Path
  read : Reading

def Stage.start (path : Path) : Stage := ⟨[], some path, ⟨#[], []⟩⟩

def paths (frames : List Frame) : List Path := frames.map Frame.path

def Stage.chain (s : Stage) : List Text := (paths s.frames).map Path.text

def passLine : List Frame → List Frame
  | ⟨path, done, line :: left⟩ :: outer => ⟨path, done ++ [line], left⟩ :: outer
  | frames => frames

/-- Attaches the line that the innermost file has come to. -/
def attachLine (frames : List Frame) (h : Halt) : Halt :=
  match frames with
  | ⟨path, done, line :: _⟩ :: _ => h.attach (position path (done.length + 1) line)
  | _ => h

/-- One step of a reading: a file is opened, a line is passed over or kept, an include line asks
for its file, or a file has come to its end and the line that included it is done with. -/
inductive Step (fs : FileSystem) : Stage → Stage → Prop
  | opened {path : Path} {lines : List Text} {frames : List Frame} {read : Reading}
      (fresh : path ∉ paths frames) (opens : HasLines fs path lines) :
      Step fs ⟨frames, some path, read⟩ ⟨⟨path, [], lines⟩ :: frames, none, read⟩
  | blank {path : Path} {done left : List Text} {line : Text} {outer : List Frame} {read : Reading}
      (empty : Text.strip line = []) :
      Step fs ⟨⟨path, done, line :: left⟩ :: outer, none, read⟩
        ⟨⟨path, done ++ [line], left⟩ :: outer, none, read⟩
  | verbatim {path : Path} {done left : List Text} {line : Text} {outer : List Frame}
      {read : Reading} (visible : Text.strip line ≠ []) (plain : ¬ IsBang line) :
      Step fs ⟨⟨path, done, line :: left⟩ :: outer, none, read⟩
        ⟨⟨path, done ++ [line], left⟩ :: outer, none, ⟨read.log, read.lines ++ [line]⟩⟩
  | included {path : Path} {done left : List Text} {line target : Text} {outer : List Frame}
      {read : Reading} (names : Names line target) :
      Step fs ⟨⟨path, done, line :: left⟩ :: outer, none, read⟩
        ⟨⟨path, done, line :: left⟩ :: outer, some (path.parent.resolve target),
          ⟨read.log.push (.including (FileSystem.join path.directory target) path.text),
            read.lines⟩⟩
  | closed {path : Path} {done : List Text} {outer : List Frame} {read : Reading} :
      Step fs ⟨⟨path, done, []⟩ :: outer, none, read⟩ ⟨passLine outer, none, read⟩

/-- How a reading ends: all files are done with, a line is a bad include line, or a file is not
opened, because it is being read or for a reason of its own. What is wrong is reported with the line
that the innermost file has come to. -/
inductive End (fs : FileSystem) : Stage → Except Halt Reading → Prop
  | finished {read : Reading} : End fs ⟨[], none, read⟩ (.ok read)
  | malformed {path : Path} {done left : List Text} {line : Text} {outer : List Frame}
      {read : Reading} {failure : Failure} (bang : IsBang line)
      (bad : target? line = .error failure) :
      End fs ⟨⟨path, done, line :: left⟩ :: outer, none, read⟩
        (.error (attachLine (⟨path, done, line :: left⟩ :: outer) ⟨read.log, .unplaced failure⟩))
  | cyclic {path : Path} {frames : List Frame} {read : Reading} (inside : path ∈ paths frames) :
      End fs ⟨frames, some path, read⟩
        (.error (attachLine frames ⟨read.log, .unplaced (.cause (.includesItself path.text))⟩))
  | unopened {path : Path} {frames : List Frame} {read : Reading} {failure : Failure}
      (fresh : path ∉ paths frames) (refused : openLines fs path = .error failure) :
      End fs ⟨frames, some path, read⟩
        (.error (attachLine frames ⟨read.log, .unplaced failure⟩))

def Steps (fs : FileSystem) : Stage → Stage → Prop := Relation.ReflTransGen (Step fs)

section
variable {fs : FileSystem}

/-- A line is blank, is kept, names a file, or is a bad include line. -/
lemma line_cases (line : Text) : Text.strip line = [] ∨ (Text.strip line ≠ [] ∧ ¬ IsBang line) ∨
    (∃ target, Names line target) ∨ IsBang line ∧ ∃ failure, target? line = .error failure := by
  by_cases bang : IsBang line
  · right; right
    cases read : target? line with
    | error failure => exact .inr ⟨bang, failure, rfl⟩
    | ok named =>
      cases named with
      | none => exact absurd bang (target?_eq_none_iff.1 read)
      | some target => exact .inl ⟨target, target?_eq_some_iff.1 read⟩
  · by_cases empty : Text.strip line = []
    · exact .inl empty
    · exact .inr (.inl ⟨empty, bang⟩)

lemma not_names_of_target? {line target : Text} {failure : Failure}
    (bad : target? line = .error failure) : ¬ Names line target := by
  intro names
  rw [target?_eq_some_iff.2 names] at bad
  cases bad

lemma flattenLines_malformed {chain : List Path} {path : Path} {number : Nat} {line : Text}
    {rest : List Text} {log : Array Log.Record} {failure : Failure} (bang : IsBang line)
    (bad : target? line = .error failure) :
    flattenLines fs chain path number (line :: rest) log =
      .error (Halt.attach ⟨log, .unplaced failure⟩ (position path number line)) := by
  rw [flattenLines, if_neg (by simpa using bang.strip_ne_nil), bad]

lemma flattenLines_names {chain : List Path} {path : Path} {number : Nat} {line target : Text}
    {rest : List Text} {log : Array Log.Record} (names : Names line target) :
    flattenLines fs chain path number (line :: rest) log =
      ((flattenFile fs chain (path.parent.resolve target)
        (log.push (.including (FileSystem.join path.directory target) path.text))).mapError
          (Halt.attach · (position path number line))).bind fun included =>
        (flattenLines fs chain path (number + 1) rest included.log).map
          (Reading.prepend included.lines) := by
  rw [flattenLines, if_neg (by simpa using names.isBang.strip_ne_nil), target?_eq_some_iff.2 names]
  have resolved : Path.ofText (FileSystem.join path.directory target) =
    path.parent.resolve target := rfl
  simp only [resolved]
  cases flattenFile fs chain (path.parent.resolve target)
    (log.push (.including (FileSystem.join path.directory target) path.text)) <;> rfl

@[simp] lemma Halt.attach_attach (h : Halt) (place other : Place) :
    (h.attach place).attach other = h.attach place := by
  simp [Halt.attach]

lemma exceptMap_eq_error_iff {ε α β : Type} {f : α → β} {x : Except ε α} {e : ε} :
    x.map f = .error e ↔ x = .error e := by
  cases x <;> simp [Except.map]

/-- What lines of a file are stopped by has its line, or can have none. -/
lemma attach_of_flattenLines {chain : List Path} {path : Path} {number : Nat} {lines : List Text}
    {log : Array Log.Record} {h : Halt}
    (stopped : flattenLines fs chain path number lines log = .error h) (place : Place) :
    h.attach place = h := by
  induction lines generalizing number log with
  | nil =>
    rw [flattenLines] at stopped
    cases stopped
  | cons line rest ih =>
    obtain empty | ⟨visible, plain⟩ | ⟨target, names⟩ | ⟨bang, failure, bad⟩ := line_cases line
    · rw [flattenLines_blank empty] at stopped
      exact ih stopped
    · rw [flattenLines_verbatim visible plain, exceptMap_eq_error_iff] at stopped
      exact ih stopped
    · rw [flattenLines_names names] at stopped
      cases inner : flattenFile fs chain (path.parent.resolve target)
          (log.push (.including (FileSystem.join path.directory target) path.text)) with
      | error h' =>
        rw [inner] at stopped
        cases stopped
        exact Halt.attach_attach _ _ _
      | ok included =>
        rw [inner] at stopped
        exact ih (exceptMap_eq_error_iff.1 stopped)
    · rw [flattenLines_malformed bang bad] at stopped
      cases stopped
      exact Halt.attach_attach _ _ _

lemma attachLine_of_flattenLines {chain : List Path} {path : Path} {number : Nat}
    {lines : List Text} {log : Array Log.Record} {h : Halt} {frames : List Frame}
    (stopped : flattenLines fs chain path number lines log = .error h) :
    attachLine frames h = h := by
  unfold attachLine
  split
  · exact attach_of_flattenLines stopped _
  · rfl

/-- What becomes of a stage: the reading comes to the frames given, with the lines of the result
behind those that were read before, or it ends with what the result reports. -/
def Yields (fs : FileSystem) (s : Stage) (frames : List Frame) : Except Halt Reading → Prop
  | .ok r => Steps fs s ⟨frames, none, r.prepend s.read.lines⟩
  | .error h => ∃ last, Steps fs s last ∧ End fs last (.error h)

lemma Yields.head {s next : Stage} {frames : List Frame} {result : Except Halt Reading}
    (step : Step fs s next) (same : next.read.lines = s.read.lines)
    (h : Yields fs next frames result) : Yields fs s frames result := by
  cases result with
  | ok r =>
    have steps : Steps fs s ⟨frames, none, r.prepend next.read.lines⟩ := .head step h
    rwa [same] at steps
  | error halt =>
    obtain ⟨last, steps, ends⟩ := h
    exact ⟨last, .head step steps, ends⟩

/-- What has been read is followed by what is read from there on. -/
lemma Yields.trans {s middle : Stage} {frames : List Frame} {lines : List Text}
    {result : Except Halt Reading} (steps : Steps fs s middle)
    (more : middle.read.lines = s.read.lines ++ lines) (h : Yields fs middle frames result) :
    Yields fs s frames (result.map (Reading.prepend lines)) := by
  cases result with
  | ok r =>
    have whole : r.prepend middle.read.lines = (r.prepend lines).prepend s.read.lines := by
      simp [Reading.prepend, more]
    change Steps fs s ⟨frames, none, (r.prepend lines).prepend s.read.lines⟩
    rw [← whole]
    exact steps.trans h
  | error halt =>
    obtain ⟨last, further, ends⟩ := h
    exact ⟨last, steps.trans further, ends⟩

/-- The lines of a file are stepped through, where the files that they name are. -/
lemma yields_flattenLines {path : Path} {outer : List Frame}
    (files : ∀ left done target read, Yields fs ⟨⟨path, done, left⟩ :: outer, some target, read⟩
      (passLine (⟨path, done, left⟩ :: outer))
      ((flattenFile fs (path :: paths outer) target read.log).mapError
        (attachLine (⟨path, done, left⟩ :: outer))))
    (left done : List Text) (read : Reading) :
    Yields fs ⟨⟨path, done, left⟩ :: outer, none, read⟩ (passLine outer)
      (flattenLines fs (path :: paths outer) path (done.length + 1) left read.log) := by
  induction left generalizing done read with
  | nil =>
    rw [flattenLines]
    have same : (⟨read.log, []⟩ : Reading).prepend read.lines = read := by simp [Reading.prepend]
    change Steps fs _ ⟨passLine outer, none, (⟨read.log, []⟩ : Reading).prepend read.lines⟩
    rw [same]
    exact .single .closed
  | cons line left ih =>
    have later (read : Reading) := ih (done ++ [line]) read
    simp only [List.length_append, List.length_singleton] at later
    obtain empty | ⟨visible, plain⟩ | ⟨target, names⟩ | ⟨bang, failure, bad⟩ := line_cases line
    · rw [flattenLines_blank empty]
      exact (later read).head (.blank empty) rfl
    · rw [flattenLines_verbatim visible plain]
      exact .trans (.single (.verbatim visible plain)) rfl (later ⟨read.log, read.lines ++ [line]⟩)
    · rw [flattenLines_names names]
      have asked := (files (line :: left) done (path.parent.resolve target) ⟨read.log.push
        (.including (FileSystem.join path.directory target) path.text), read.lines⟩).head
          (.included names) rfl
      dsimp only at asked
      cases inner : flattenFile fs (path :: paths outer) (path.parent.resolve target)
          (read.log.push (.including (FileSystem.join path.directory target) path.text)) with
      | error h =>
        rw [inner] at asked
        exact asked
      | ok r =>
        rw [inner] at asked
        exact .trans asked rfl (later (r.prepend read.lines))
    · rw [flattenLines_malformed bang bad]
      exact ⟨_, .refl, .malformed bang bad⟩

/-- Reading a file, with the files that are being read on the chain, is stepping through it. -/
theorem yields_flattenFile (fs : FileSystem) (frames : List Frame) (path : Path) (read : Reading) :
    Yields fs ⟨frames, some path, read⟩ (passLine frames)
      ((flattenFile fs (paths frames) path read.log).mapError (attachLine frames)) := by
  -- A file that is opened is on the chain of all that it leads to, so fewer files are left there.
  induction bound : (unvisited fs (paths frames)).length using Nat.strong_induction_on
    generalizing frames path read with
  | _ n deeper =>
    rw [flattenFile]
    split
    · rename_i fresh
      have absent : path ∉ paths frames := by simpa using fresh
      split
      · rename_i lines opened
        have opens := openLines_eq_ok_iff.1 opened
        have shorter := unvisited_cons_lt (mem_readable_of_hasLines opens) fresh
        have within := (yields_flattenLines (fun left done target read =>
          deeper _ (bound ▸ shorter) (⟨path, done, left⟩ :: frames) target read rfl)
            lines [] read).head (.opened absent opens) rfl
        dsimp only [List.length_nil] at within
        cases result : flattenLines fs (path :: paths frames) path (0 + 1) lines read.log with
        | ok r =>
          rw [result] at within
          exact within
        | error h =>
          rw [result] at within
          change Yields fs _ _ (.error (attachLine frames h))
          rw [attachLine_of_flattenLines result]
          exact within
      · rename_i failure refused
        exact ⟨_, .refl, .unopened absent refused⟩
    · rename_i visited
      exact ⟨_, .refl, .cyclic (by simpa using visited)⟩

/-- The reading of a path is stepped through from its start, and ends as it does. -/
theorem exists_end (fs : FileSystem) (here : Path) (path : Text) :
    ∃ last, Steps fs (.start (here.resolve path)) last ∧ End fs last (flatten fs here path) := by
  have yields := yields_flattenFile fs [] (here.resolve path) ⟨#[], []⟩
  unfold flatten
  have alone : flattenFile fs (paths []) (here.resolve path) (⟨#[], []⟩ : Reading).log =
    flattenFile fs [] (here.resolve path) #[] := rfl
  rw [alone] at yields
  cases result : flattenFile fs [] (here.resolve path) #[] with
  | ok r =>
    rw [result] at yields
    exact ⟨_, yields, .finished⟩
  | error h =>
    rw [result] at yields
    exact yields

/-- No stage has two steps. -/
lemma Step.unique {s next other : Stage} (h : Step fs s next) (h' : Step fs s other) :
    next = other := by
  cases h with
  | opened fresh opens =>
    cases h' with
    | opened _ opens' => rw [hasLines_unique opens opens']
  | blank empty =>
    cases h' with
    | blank => rfl
    | verbatim visible => exact absurd empty visible
    | included names => exact absurd empty names.isBang.strip_ne_nil
  | verbatim visible plain =>
    cases h' with
    | blank empty => exact absurd empty visible
    | verbatim => rfl
    | included names => exact absurd names.isBang plain
  | included names =>
    cases h' with
    | blank empty => exact absurd empty names.isBang.strip_ne_nil
    | verbatim _ plain => exact absurd names.isBang plain
    | included names' => rw [names.unique names']
  | closed => cases h'; rfl

lemma End.not_step {s next : Stage} {result : Except Halt Reading} (h : End fs s result) :
    ¬ Step fs s next := by
  intro step
  cases h with
  | finished => cases step
  | malformed bang bad =>
    cases step with
    | blank empty => exact bang.strip_ne_nil empty
    | verbatim _ plain => exact plain bang
    | included names => exact not_names_of_target? bad names
  | cyclic inside =>
    cases step with
    | opened fresh => exact fresh inside
  | unopened _ refused =>
    cases step with
    | opened _ opens =>
      rw [openLines_eq_ok_iff.2 opens] at refused
      cases refused

/-- From a stage at which the reading comes to an end, it cannot go on forever. -/
lemma acc_of_end {s last : Stage} {result : Except Halt Reading} (steps : Steps fs s last)
    (ends : End fs last result) : Acc (fun next s => Step fs s next) s := by
  induction steps using Relation.ReflTransGen.head_induction_on with
  | refl => exact Acc.intro _ fun next step => absurd step ends.not_step
  | head step _ ih =>
    refine Acc.intro _ fun next step' => ?_
    rw [step'.unique step]
    exact ih

/-- The include lines among lines of a file are well-formed, and the files that they name are read
to the end while those of the chain are being read. -/
def Processed (fs : FileSystem) (chain : List Path) (path : Path) (lines : List Text) : Prop :=
  ∀ line ∈ lines, IsBang line → ∃ target, Names line target ∧
    ∀ log, ∃ reading, flattenFile fs chain (path.parent.resolve target) log = .ok reading

lemma Processed.exists_flattenLines {chain : List Path} {path : Path} {lines : List Text}
    (h : Processed fs chain path lines) (number : Nat) (log : Array Log.Record) :
    ∃ reading, flattenLines fs chain path number lines log = .ok reading := by
  induction lines generalizing number log with
  | nil => exact ⟨_, by rw [flattenLines]⟩
  | cons line lines ih =>
    have later := ih fun l member => h l (List.mem_cons_of_mem line member)
    obtain empty | ⟨visible, plain⟩ | ⟨target, names⟩ | ⟨bang, failure, bad⟩ := line_cases line
    · rw [flattenLines_blank empty]
      exact later _ _
    · obtain ⟨reading, read⟩ := later (number + 1) log
      rw [flattenLines_verbatim visible plain, read]
      exact ⟨_, rfl⟩
    · obtain ⟨target', names', reads⟩ := h line List.mem_cons_self names.isBang
      cases names.unique names'
      obtain ⟨included, inner⟩ := reads (log.push
        (.including (FileSystem.join path.directory target) path.text))
      obtain ⟨others, read⟩ := later (number + 1) included.log
      exact ⟨_, (flattenLines_eq_ok_of_names names).2 ⟨included, others, inner, read, rfl⟩⟩
    · obtain ⟨target, names, -⟩ := h line List.mem_cons_self bang
      exact absurd names (not_names_of_target? bad)

/-- The path that comes next: the first one where no file is being read yet, and else the one that
the line names which the innermost file has come to. -/
def LeadsTo (start : Path) : List Frame → Path → Prop
  | [], path => path = start
  | frame :: _, path => ∃ line left target, frame.left = line :: left ∧ Names line target ∧
      path = frame.path.parent.resolve target

/-- Files that are being read, innermost first: each was not being read when the line outside led to
it, and its lines up to where it has come are processed. -/
inductive IsOpen (fs : FileSystem) (start : Path) : List Frame → Prop
  | nil : IsOpen fs start []
  | cons {frame : Frame} {outer : List Frame} (outside : IsOpen fs start outer)
      (led : LeadsTo start outer frame.path) (fresh : frame.path ∉ paths outer)
      (opens : HasLines fs frame.path (frame.done ++ frame.left))
      (before : Processed fs (frame.path :: paths outer) frame.path frame.done) :
      IsOpen fs start (frame :: outer)

lemma IsOpen.pass {start path : Path} {done left : List Text} {line : Text} {outer : List Frame}
    (h : IsOpen fs start (⟨path, done, line :: left⟩ :: outer))
    (processed : Processed fs (path :: paths outer) path [line]) :
    IsOpen fs start (⟨path, done ++ [line], left⟩ :: outer) := by
  cases h with
  | cons outside led fresh opens before =>
    refine .cons outside led fresh (by simpa using opens) ?_
    intro l member bang
    rcases List.mem_append.1 member with old | new
    · exact before l old bang
    · exact processed l new bang

lemma processed_of_not_isBang {chain : List Path} {path : Path} {line : Text}
    (plain : ¬ IsBang line) : Processed fs chain path [line] := by
  intro l member bang
  cases List.mem_singleton.1 member
  exact absurd bang plain

/-- A file that has come to its end was read while the files outside were being read. -/
lemma IsOpen.exists_flattenFile {start path : Path} {done : List Text} {outer : List Frame}
    (h : IsOpen fs start (⟨path, done, []⟩ :: outer)) (log : Array Log.Record) :
    ∃ reading, flattenFile fs (paths outer) path log = .ok reading := by
  cases h with
  | cons outside led fresh opens before =>
    obtain ⟨reading, read⟩ := before.exists_flattenLines 1 log
    rw [List.append_nil] at opens
    exact ⟨reading, flattenFile_eq_ok_iff.2 ⟨fresh, done, opens, read⟩⟩

lemma IsOpen.close {start path : Path} {done : List Text} {outer : List Frame}
    (h : IsOpen fs start (⟨path, done, []⟩ :: outer)) : IsOpen fs start (passLine outer) := by
  have reads := h.exists_flattenFile
  cases h with
  | cons outside led fresh opens before =>
    cases outer with
    | nil => exact .nil
    | cons above outer =>
      obtain ⟨path', done', _⟩ := above
      obtain ⟨line, left, target, rfl, names, rfl⟩ := led
      refine outside.pass fun l member bang => ?_
      cases List.mem_singleton.1 member
      exact ⟨target, names, reads⟩

/-- What holds at every stage of a reading: the files that are being read are open, and lead to the
path that is to be opened next. -/
structure Stage.IsSound (fs : FileSystem) (start : Path) (s : Stage) : Prop where
  isOpen : IsOpen fs start s.frames
  leads : ∀ path, s.next = some path → LeadsTo start s.frames path

lemma isSound_start (path : Path) : (Stage.start path).IsSound fs path :=
  ⟨.nil, fun _ same => (Option.some.inj same).symm⟩

lemma Step.isSound {start : Path} {s next : Stage} (h : Step fs s next)
    (sound : s.IsSound fs start) : next.IsSound fs start := by
  obtain ⟨isOpen, leads⟩ := sound
  cases h with
  | opened fresh opens =>
    refine ⟨.cons isOpen (leads _ rfl) fresh opens ?_, by rintro _ ⟨⟩⟩
    rintro line ⟨⟩
  | blank empty =>
    exact ⟨isOpen.pass (processed_of_not_isBang fun bang => bang.strip_ne_nil empty),
      by rintro _ ⟨⟩⟩
  | verbatim visible plain =>
    exact ⟨isOpen.pass (processed_of_not_isBang plain), by rintro _ ⟨⟩⟩
  | included names =>
    refine ⟨isOpen, ?_⟩
    rintro _ ⟨⟩
    exact ⟨_, _, _, rfl, names, rfl⟩
  | closed => exact ⟨isOpen.close, by rintro _ ⟨⟩⟩

lemma isSound_of_steps {start : Path} {s : Stage} (steps : Steps fs (.start start) s) :
    s.IsSound fs start := by
  induction steps with
  | refl => exact isSound_start start
  | tail _ step ih => exact step.isSound ih

lemma IsOpen.nodup {start : Path} {frames : List Frame} (h : IsOpen fs start frames) :
    (paths frames).Nodup := by
  induction h with
  | nil => exact List.nodup_nil
  | cons _ _ fresh _ _ ih => exact List.nodup_cons.2 ⟨fresh, ih⟩

/-- Files that are being read are read under their texts in normal form. -/
lemma IsOpen.of_mem {start : Path} {frames : List Frame} (h : IsOpen fs start frames)
    (normal : Path.ofText start.text = start) {path : Path} (member : path ∈ paths frames) :
    Path.ofText path.text = path ∧ ∃ lines, HasLines fs path lines := by
  induction h with
  | nil => cases member
  | @cons frame outer outside led fresh opens before ih =>
    rcases List.mem_cons.1 member with rfl | old
    · refine ⟨?_, _, opens⟩
      cases outer with
      | nil =>
        rw [LeadsTo] at led
        rw [led, normal]
      | cons above _ =>
        obtain ⟨_, _, target, -, -, same⟩ := led
        rw [same]
        exact Path.ofText_text_ofText _
    · exact ih old

/-- A stage comes to at most one end. -/
lemma eq_of_end {s last last' : Stage} {result result' : Except Halt Reading}
    (steps : Steps fs s last) (ends : End fs last result) (steps' : Steps fs s last')
    (ends' : End fs last' result') : last = last' := by
  induction steps using Relation.ReflTransGen.head_induction_on with
  | refl =>
    rcases steps'.cases_head with same | ⟨next, step, -⟩
    · exact same
    · exact absurd step ends.not_step
  | head step _ ih =>
    rcases steps'.cases_head with rfl | ⟨next, step', further⟩
    · exact absurd step ends'.not_step
    · rw [step'.unique step] at further
      exact ih further

lemma End.unique {s : Stage} {result result' : Except Halt Reading} (h : End fs s result)
    (h' : End fs s result') : result = result' := by
  cases h with
  | finished => cases h'; rfl
  | malformed bang bad =>
    cases h' with
    | malformed _ bad' =>
      rw [bad] at bad'
      cases bad'
      rfl
  | cyclic inside =>
    cases h' with
    | cyclic => rfl
    | unopened fresh => exact absurd inside fresh
  | unopened fresh refused =>
    cases h' with
    | cyclic inside => exact absurd inside fresh
    | unopened _ refused' =>
      rw [refused] at refused'
      cases refused'
      rfl

lemma flatten_eq_of_end {here : Path} {path : Text} {last : Stage} {result : Except Halt Reading}
    (steps : Steps fs (.start (here.resolve path)) last) (ends : End fs last result) :
    flatten fs here path = result := by
  obtain ⟨last', steps', ends'⟩ := exists_end fs here path
  cases eq_of_end steps ends steps' ends'
  exact ends'.unique ends

lemma openLines_eq_cause_iff {path : Path} {cause : Cause} :
    openLines fs path = .error (.cause cause) ↔ fs.Refuses path cause := by
  unfold openLines FileSystem.Refuses
  cases FileSystem.hasNul path.text with
  | true => simp
  | false =>
    unfold FileSystem.read FileSystem.RefusedFor
    cases fs.bar? path.parts with
    | some reason =>
      by_cases missing : reason.number = FileSystem.Refusal.missing.number <;>
        simp [missing, eq_comm]
    | none =>
      cases fs.file? path.parts with
      | some contents =>
        unfold decode
        cases decoded : String.fromUTF8? contents <;> simp [decoded, Except.mapError]
      | none =>
        by_cases missing : (fs.refusal path.parts).number = FileSystem.Refusal.missing.number <;>
          simp [missing, eq_comm]

lemma leadingString_ne_includesItself {arguments : List Text} {t : Text} :
    Operand.leadingString arguments ≠ .error (.cause (.includesItself t)) := by
  intro h
  unfold Operand.leadingString at h
  split at h
  · cases h
  · split at h <;> cases h
  · cases h

lemma target?_ne_includesItself {line t : Text} :
    target? line ≠ .error (.cause (.includesItself t)) := by
  intro h
  unfold target? at h
  dsimp only at h
  split at h
  · split at h
    · cases h
    · split at h
      · split at h
        · cases h
        · exact leadingString_ne_includesItself (exceptMap_eq_error_iff.1 h)
      · cases h
  · cases h

lemma attachLine_failure (frames : List Frame) (h : Halt) :
    (attachLine frames h).report.failure = h.report.failure := by
  unfold attachLine
  split
  · exact Report.attach_failure _ _
  · rfl

/-- A file is refused for being read already only where it is. -/
lemma End.of_includesItself {s : Stage} {halt : Halt} (h : End fs s (.error halt)) {t : Text}
    (cyclic : halt.report.failure = .cause (.includesItself t)) :
    t ∈ s.chain ∧ s.next.map Path.text = some t := by
  cases h with
  | malformed bang bad =>
    rw [attachLine_failure] at cyclic
    cases cyclic
    exact absurd bad target?_ne_includesItself
  | cyclic inside =>
    rw [attachLine_failure] at cyclic
    cases cyclic
    exact ⟨List.mem_map_of_mem inside, rfl⟩
  | unopened fresh refused =>
    rw [attachLine_failure] at cyclic
    cases cyclic
    obtain ⟨-, _, -, ⟨-, other⟩ | ⟨-, other⟩⟩ := openLines_eq_cause_iff.1 refused <;> cases other

lemma Stage.IsSound.chain {start : Path} {s : Stage} (h : s.IsSound fs start)
    (normal : Path.ofText start.text = start) :
    s.chain.Nodup ∧ ∀ t ∈ s.chain, t ∈ fs.readableTexts := by
  constructor
  · refine List.Nodup.map_on ?_ h.isOpen.nodup
    intro path member path' member' same
    rw [← (h.isOpen.of_mem normal member).1, same, (h.isOpen.of_mem normal member').1]
  · intro t member
    obtain ⟨path, inside, rfl⟩ := List.mem_map.1 member
    obtain ⟨again, opens⟩ := h.isOpen.of_mem normal inside
    exact ⟨congrArg Path.text again, again.symm ▸ opens⟩

lemma length_le_ncard {α : Type} {s : Set α} (finite : s.Finite) {items : List α}
    (nodup : items.Nodup) (inside : ∀ a ∈ items, a ∈ s) : items.length ≤ s.ncard := by
  classical
  have subset : (items.toFinset : Set α) ⊆ s := fun a member => inside a (by simpa using member)
  calc items.length = items.toFinset.card := (List.toFinset_card_of_nodup nodup).symm
    _ = (items.toFinset : Set α).ncard := (Set.ncard_coe_finset _).symm
    _ ≤ s.ncard := Set.ncard_le_ncard subset finite

end

/-- Whatever the files of a file system include, reading cannot go on forever, and ends as `flatten`
does. At every stage on the way the paths of the files that are being read are different from each
other and can all be read, so there are no more of them than readable paths; and a path is reported
as including itself only where it is among them and is to be opened again. -/
theorem flatten_ends (fs : FileSystem) (here : Path) (path : Text) :
    Acc (fun next s => Step fs s next) (.start (here.resolve path)) ∧
    (∃ last, Steps fs (.start (here.resolve path)) last ∧ End fs last (flatten fs here path)) ∧
    fs.readableTexts.Finite ∧
    ∀ s, Steps fs (.start (here.resolve path)) s →
      s.chain.Nodup ∧ (∀ t ∈ s.chain, t ∈ fs.readableTexts) ∧
      s.chain.length ≤ fs.readableTexts.ncard ∧
      ∀ halt t, End fs s (.error halt) → halt.report.failure = .cause (.includesItself t) →
        t ∈ s.chain ∧ s.next.map Path.text = some t := by
  obtain ⟨last, steps, ends⟩ := exists_end fs here path
  have finite := FileSystem.finite_readableTexts fs
  refine ⟨acc_of_end steps ends, ⟨last, steps, ends⟩, finite, fun s reached => ?_⟩
  obtain ⟨nodup, readable⟩ := (isSound_of_steps reached).chain (Path.ofText_text_ofText _)
  exact ⟨nodup, readable, length_le_ncard finite nodup readable,
    fun halt t stopped cyclic => stopped.of_includesItself cyclic⟩

/-- Two files at the root that include each other. -/
def pair : FileSystem :=
  ⟨[(["a".toList], "!include \"b\"".toUTF8), (["b".toList], "nop\n!include \"/a\"".toUTF8)], [], []⟩

/-- The second file is stopped where it includes the first. -/
theorem flatten_ends_pair : ∃ s halt, Steps pair (.start ⟨false, ["a".toList]⟩) s ∧
    End pair s (.error halt) ∧ halt.report.failure = .cause (.includesItself "/a".toList) ∧
    s.chain = ["/b".toList, "/a".toList] ∧ 2 ≤ pair.readableTexts.ncard ∧
    "/a".toList ∈ s.chain := by
  have first : HasLines pair ⟨false, ["a".toList]⟩ ["!include \"b\"".toList] :=
    hasLines_of_file? "!include \"b\"" rfl rfl rfl
  have second : HasLines pair ⟨false, ["b".toList]⟩ ["nop".toList, "!include \"/a\"".toList] :=
    hasLines_of_file? "nop\n!include \"/a\"" rfl rfl rfl
  have toSecond : Names "!include \"b\"".toList "b".toList := target?_eq_some_iff.1 (by rfl)
  have toFirst : Names "!include \"/a\"".toList "/a".toList := target?_eq_some_iff.1 (by rfl)
  have opened : Steps pair (.start ⟨false, ["a".toList]⟩) _ :=
    (Relation.ReflTransGen.single (.opened (by decide) first)).tail (.included toSecond)
  have steps := ((opened.tail (.opened (by decide) second)).tail
    (.verbatim (by decide) (by decide))).tail (.included toFirst)
  obtain ⟨-, -, bound, cyclic⟩ := (flatten_ends pair ⟨false, []⟩ "a".toList).2.2.2 _ steps
  exact ⟨_, _, steps, .cyclic (by decide), rfl, rfl, bound,
    (cyclic _ _ (.cyclic (by decide)) rfl).1⟩

/-- A cause that stops a reading is that the path given cannot be opened, and has no line; or it is
reported with the line that the innermost of the files that are being read has come to, under its
number in that file and behind the file's name. That line is a bad include line, or names a path
that is being read or cannot be opened. The lines before it, and those before the lines that led to
the file, were processed. -/
theorem flatten_error_placed {fs : FileSystem} {here : Path} {path : Text} {halt : Halt}
    {cause : Cause} (failed : flatten fs here path = .error halt)
    (caused : halt.report.failure = .cause cause) :
    (fs.Refuses (here.resolve path) cause ∧ halt.report.place = none) ∨
    ∃ s file done line left outer, Steps fs (.start (here.resolve path)) s ∧
      End fs s (.error halt) ∧ s.frames = ⟨file, done, line :: left⟩ :: outer ∧
      IsOpen fs (here.resolve path) s.frames ∧
      halt.report.place = some ⟨(done.length + 1 : Nat), file.name ++ ": ".toList ++ line⟩ ∧
      (IsBang line ∧ (∀ target, ¬ Names line target) ∧ target? line = .error (.cause cause) ∨
        ∃ target, Names line target ∧
          (file.parent.resolve target ∈ file :: paths outer ∧
              cause = .includesItself (file.parent.resolve target).text ∨
            file.parent.resolve target ∉ file :: paths outer ∧
              fs.Refuses (file.parent.resolve target) cause)) := by
  obtain ⟨last, steps, ends⟩ := exists_end fs here path
  rw [failed] at ends
  obtain ⟨isOpen, leads⟩ := isSound_of_steps steps
  have stopped := ends
  cases ends with
  | @malformed file done left line outer read failure bang bad =>
    rw [attachLine_failure] at caused
    cases caused
    exact .inr ⟨_, file, done, line, left, outer, steps, stopped, rfl, isOpen, rfl,
      .inl ⟨bang, fun target => not_names_of_target? bad, bad⟩⟩
  | @cyclic next frames read inside =>
    rw [attachLine_failure] at caused
    cases caused
    cases frames with
    | nil => cases inside
    | cons frame outer =>
      obtain ⟨file, done, _⟩ := frame
      obtain ⟨line, left, target, rfl, names, rfl⟩ := leads _ rfl
      exact .inr ⟨_, file, done, line, left, outer, steps, stopped, rfl, isOpen, rfl,
        .inr ⟨target, names, .inl ⟨inside, rfl⟩⟩⟩
  | @unopened next frames read failure fresh refused =>
    rw [attachLine_failure] at caused
    cases caused
    have refuses := openLines_eq_cause_iff.1 refused
    cases frames with
    | nil =>
      cases leads _ rfl
      exact .inl ⟨refuses, rfl⟩
    | cons frame outer =>
      obtain ⟨file, done, _⟩ := frame
      obtain ⟨line, left, target, rfl, names, rfl⟩ := leads _ rfl
      exact .inr ⟨_, file, done, line, left, outer, steps, stopped, rfl, isOpen, rfl,
        .inr ⟨target, names, .inr ⟨fresh, refuses⟩⟩⟩

/-- A file that includes another, which includes one that is missing. -/
def dangling : FileSystem :=
  ⟨[(["main".toList], "nop\n\n!include \"lib/io\"".toUTF8),
    (["lib".toList, "io".toList], "\n  !include \"gone\"\nnop".toUTF8)], [["lib".toList]], []⟩

/-- The line of the inner file is reported, and not the one that included that file. -/
theorem flatten_error_placed_dangling : ∃ halt s file done line left outer,
    flatten dangling ⟨false, []⟩ "main".toList = .error halt ∧
    halt.report.failure = .cause (.fileMissing "/lib/gone".toList) ∧
    halt.report.place = some ⟨2, "io:   !include \"gone\"".toList⟩ ∧
    Steps dangling (.start ⟨false, ["main".toList]⟩) s ∧ End dangling s (.error halt) ∧
    s.frames = ⟨file, done, line :: left⟩ :: outer ∧
    IsOpen dangling ⟨false, ["main".toList]⟩ s.frames ∧
    halt.report.place = some ⟨(done.length + 1 : Nat), file.name ++ ": ".toList ++ line⟩ := by
  have main : HasLines dangling ⟨false, ["main".toList]⟩
      ["nop".toList, [], "!include \"lib/io\"".toList] :=
    hasLines_of_file? "nop\n\n!include \"lib/io\"" rfl rfl rfl
  have inner : HasLines dangling ⟨false, ["lib".toList, "io".toList]⟩
      [[], "  !include \"gone\"".toList, "nop".toList] :=
    hasLines_of_file? "\n  !include \"gone\"\nnop" rfl rfl rfl
  have toInner : Names "!include \"lib/io\"".toList "lib/io".toList :=
    target?_eq_some_iff.1 (by rfl)
  have toNothing : Names "  !include \"gone\"".toList "gone".toList :=
    target?_eq_some_iff.1 (by rfl)
  have opened : Steps dangling (.start ⟨false, ["main".toList]⟩) _ :=
    ((Relation.ReflTransGen.single (.opened (by decide) main)).tail
      (.verbatim (by decide) (by decide))).tail (.blank rfl)
  have steps : Steps dangling (.start ⟨false, ["main".toList]⟩) _ :=
    (((opened.tail (.included toInner)).tail (.opened (by decide) inner)).tail (.blank rfl)).tail
      (.included toNothing)
  have failed : flatten dangling ⟨false, []⟩ "main".toList = _ :=
    flatten_eq_of_end steps (.unopened (by decide)
      (openLines_eq_cause_iff.2
        ⟨by decide, .missing, .inr ⟨rfl, rfl, by decide⟩, .inl ⟨rfl, rfl⟩⟩))
  obtain ⟨⟨-, _, barred | ⟨-, missing, -⟩, -⟩, -⟩ | ⟨s, file, done, line, left, outer, steps', ends', frames, isOpen,
    place, -⟩ := flatten_error_placed failed rfl
  · cases barred
  · cases missing
  · exact ⟨_, s, file, done, line, left, outer, failed, rfl, rfl, steps', ends', frames, isOpen,
      place⟩

end Include
end Mips64
