import Mips64.CommandLine.Run
import Mips64.Proofs.Inclusion
import Mips64.Proofs.Passes

/-! What a command leaves on the disk. It writes the words of its program first, and then the
listing if it is asked for one, and the system may refuse or break off either file for any reason.
Main statement: a command that fails leaves every file as it was, but for three cases: the words are
broken off, the listing is refused after the words have been written, or the listing is broken off.
What has been written up to there stays. -/
namespace Mips64

namespace FileSystem

/-- Where contents are replaced, those of one place are other and the rest are the same. -/
lemma lookup_replaced (entries : List (List Text × ByteArray)) (place : List Text)
    (contents : ByteArray) (other : List Text) :
    (entries.map fun e => if e.1 == place then (place, contents) else e).lookup other =
      if other = place then (entries.lookup place).map fun _ => contents
      else entries.lookup other := by
  simp only [beq_iff_eq]
  induction entries with
  | nil => simp
  | cons entry entries ih =>
    obtain ⟨parts, old⟩ := entry
    rw [List.map_cons]
    by_cases here : parts = place
    · by_cases same : other = place
      · simp [here, same]
      · rw [if_neg same] at ih ⊢
        simp [here, List.lookup_cons, beq_false_of_ne same, ih]
    · by_cases same : other = place
      · subst same
        rw [if_pos rfl] at ih ⊢
        simp [here, List.lookup_cons, beq_false_of_ne (Ne.symm here), ih]
      · rw [if_neg same] at ih ⊢
        simp [here, List.lookup_cons, ih]

/-- A place that is given contents holds them, and every other place holds what it held. -/
theorem file?_put (fs : FileSystem) (place : List Text) (contents : ByteArray)
    (other : List Text) :
    (fs.put place contents).file? other =
      if other = place then some contents else fs.file? other := by
  unfold put
  split
  · rename_i there
    obtain ⟨old, found⟩ := Option.isSome_iff_exists.1 there
    rw [file?] at found
    simp only [file?, lookup_replaced, found, Option.map_some]
  · rename_i free
    have unused : fs.files.lookup place = none := Option.not_isSome_iff_eq_none.1 free
    simp only [file?, List.lookup_append]
    by_cases same : other = place
    · simp [same, unused]
    · simp [same, List.lookup_cons, beq_false_of_ne same]

def putAll (fs : FileSystem) (changes : List (List Text × ByteArray)) : FileSystem :=
  changes.foldl (fun fs change => fs.put change.1 change.2) fs

/-- The last contents that a place is given are the ones it holds. -/
lemma file?_putAll (fs : FileSystem) (changes : List (List Text × ByteArray))
    (other : List Text) :
    (fs.putAll changes).file? other = (changes.reverse.lookup other).or (fs.file? other) := by
  induction changes generalizing fs with
  | nil => rfl
  | cons change changes ih =>
    obtain ⟨place, contents⟩ := change
    rw [putAll, List.foldl_cons, ← putAll, ih, file?_put, List.reverse_cons, List.lookup_append,
      Option.or_assoc]
    by_cases same : other = place
    · simp [same]
    · simp [same, List.lookup_cons, beq_false_of_ne same]

@[simp] lemma put_directories (fs : FileSystem) (place : List Text) (contents : ByteArray) :
    (fs.put place contents).directories = fs.directories := by
  unfold put
  split <;> rfl

@[simp] lemma put_barred (fs : FileSystem) (place : List Text) (contents : ByteArray) :
    (fs.put place contents).barred = fs.barred := by
  unfold put
  split <;> rfl

lemma putAll_directories (fs : FileSystem) (changes : List (List Text × ByteArray)) :
    (fs.putAll changes).directories = fs.directories := by
  induction changes generalizing fs with
  | nil => rfl
  | cons change changes ih => exact (ih _).trans (fs.put_directories change.1 change.2)

lemma putAll_barred (fs : FileSystem) (changes : List (List Text × ByteArray)) :
    (fs.putAll changes).barred = fs.barred := by
  induction changes generalizing fs with
  | nil => rfl
  | cons change changes ih => exact (ih _).trans (fs.put_barred change.1 change.2)

@[simp] lemma put_isDirectory (fs : FileSystem) (place parts : List Text) (contents : ByteArray) :
    (fs.put place contents).isDirectory parts = fs.isDirectory parts := by
  simp [isDirectory]

/-- Files are in nobody's way: what can be entered depends on the directories alone. -/
lemma enter_put_eq_ok_iff {fs : FileSystem} {place start reached names : List Text}
    {contents : ByteArray} :
    (fs.put place contents).enter start names = .ok reached ↔
      fs.enter start names = .ok reached := by
  induction names generalizing start with
  | nil => rfl
  | cons name names ih =>
    simp only [enter, put_isDirectory]
    split
    · exact ih
    · constructor <;> intro h <;> split at h <;> cases h

/-- A new file takes no place away, and makes none. -/
lemma writable_put_eq_ok_iff {fs : FileSystem} {here : Path} {path : Text}
    {place reached : List Text} {contents : ByteArray} :
    (fs.put place contents).writable here path = .ok reached ↔
      fs.writable here path = .ok reached := by
  unfold writable
  dsimp only
  split
  · rfl
  · split
    · rfl
    · simp only [bind_eq_ok_iff, enter_put_eq_ok_iff, put_isDirectory]

lemma openPlace_put_eq_ok_iff {fs : FileSystem} {answer : Answer} {here : Path} {path : Text}
    {place reached : List Text} {contents : ByteArray} :
    (fs.put place contents).openPlace answer here path = .ok reached ↔
      fs.openPlace answer here path = .ok reached := by
  cases answer with
  | refuses reason => rfl
  | complies => exact writable_put_eq_ok_iff
  | breaksOff count reason => exact writable_put_eq_ok_iff

lemma exists_openPlace_put_eq_error_iff {fs : FileSystem} {answer : Answer} {here : Path}
    {path : Text} {place : List Text} {contents : ByteArray} :
    (∃ reason, (fs.put place contents).openPlace answer here path = .error reason) ↔
      ∃ reason, fs.openPlace answer here path = .error reason := by
  have opens (reached : List Text) : (fs.put place contents).openPlace answer here path =
      .ok reached ↔ fs.openPlace answer here path = .ok reached := openPlace_put_eq_ok_iff
  cases after : (fs.put place contents).openPlace answer here path with
  | ok reached => simp [(opens reached).1 after]
  | error later =>
    cases before : fs.openPlace answer here path with
    | ok reached => cases after.symm.trans ((opens reached).2 before)
    | error earlier => simp

end FileSystem

namespace CommandLine

open FileSystem (Path Answer Refusal hasNul)

/-- A source is assembled, and the path for the words of its program is opened at a place. -/
inductive OpensOutput (answers : Program.Artifact → Answer) (files : FileSystem) (here : Path)
    (given : Arguments) (program : Program) (format : Program.Format) (words : ByteArray)
    (place : List Text) : Prop
  | intro {input output : Text} {reading : Include.Reading} (reads : given.input = some input)
      (flattened : Include.flatten files here input = .ok reading)
      (assembled : (Assembly.assemble .builtin reading.lines).result = .ok program)
      (chosen : given.format = some format)
      (formed : program.contents? (.words format) = some words)
      (writes : given.output = some output) (sound : hasNul output = false)
      (opened : files.openPlace (answers (.words format)) here output = .ok place)

/-- A listing is asked for, with a path that can be passed on. -/
structure AsksForListing (given : Arguments) (path : Text) : Prop where
  asks : given.listing = some path
  named : path ≠ []
  sound : hasNul path = false

/-- What a command that fails has written, in order: the words as far as they came, the words
without the listing, or the words and the listing as far as it came. -/
inductive Leaves (answers : Program.Artifact → Answer) (files : FileSystem) (here : Path)
    (given : Arguments) : List (List Text × ByteArray) → Prop
  | wordsBrokenOff {program : Program} {format : Program.Format} {words : ByteArray}
      {place : List Text} {count : Nat} {reason : Refusal}
      (opens : OpensOutput answers files here given program format words place)
      (broken : answers (.words format) = .breaksOff count reason) :
      Leaves answers files here given [(place, words.extract 0 count)]
  | listingRefused {program : Program} {format : Program.Format} {words : ByteArray}
      {place : List Text} {path : Text} {reason : Refusal}
      (opens : OpensOutput answers files here given program format words place)
      (whole : ∀ count reason, answers (.words format) ≠ .breaksOff count reason)
      (asked : AsksForListing given path)
      (refused : files.openPlace (answers .listing) here path = .error reason) :
      Leaves answers files here given [(place, words)]
  | listingBrokenOff {program : Program} {format : Program.Format} {words listing : ByteArray}
      {place listingPlace : List Text} {path : Text} {count : Nat} {reason : Refusal}
      (opens : OpensOutput answers files here given program format words place)
      (whole : ∀ count reason, answers (.words format) ≠ .breaksOff count reason)
      (asked : AsksForListing given path) (listed : program.contents? .listing = some listing)
      (opened : files.openPlace (answers .listing) here path = .ok listingPlace)
      (broken : answers .listing = .breaksOff count reason) :
      Leaves answers files here given
        [(place, words), (listingPlace, listing.extract 0 count)]

namespace Work

variable {answers : Program.Artifact → Answer} {w next : Work} {here : Path} {given : Arguments}
  {program : Program} {stop : Halt}

/-- Reading and assembling touch no file. -/
lemma files_of_assemble_error {input : Option Text}
    (h : w.assemble here input = .error stop) : stop.work.files = w.files := by
  unfold assemble at h
  split at h
  · cases h; rfl
  · split at h
    · cases h; rfl
    · dsimp only at h
      split at h <;> cases h
      rfl

lemma assemble_eq_ok {input : Option Text} (h : w.assemble here input = .ok (next, program)) :
    next.files = w.files ∧ ∃ path reading, input = some path ∧
      Include.flatten w.files here path = .ok reading ∧
      (Assembly.assemble .builtin reading.lines).result = .ok program := by
  unfold assemble at h
  split at h
  · cases h
  · rename_i path
    split at h
    · cases h
    · rename_i reading flattened
      dsimp only at h
      split at h
      · cases h
      · rename_i assembled
        cases h
        exact ⟨rfl, path, reading, rfl, flattened, assembled⟩

lemma exists_assemble {path : Text} {reading : Include.Reading}
    (flattened : Include.flatten w.files here path = .ok reading)
    (assembled : (Assembly.assemble .builtin reading.lines).result = .ok program) :
    ∃ next, w.assemble here (some path) = .ok (next, program) ∧ next.files = w.files := by
  simp only [assemble, flattened, assembled]
  exact ⟨_, rfl, rfl⟩

inductive WriteEnd (answer : Answer) (w : Work) (here : Path) (program : Program)
    (what : Program.Artifact) (path : Text) : Except Halt Work → Prop
  | formless (unformed : program.contents? what = none) :
      WriteEnd answer w here program what path (.error (w.halt (.fault .wordOutOfRange)))
  | nul {contents : ByteArray} (formed : program.contents? what = some contents)
      (unsound : hasNul path = true) :
      WriteEnd answer w here program what path (.error (w.halt (.fault .pathWithNul)))
  | refused {contents : ByteArray} {reason : Refusal}
      (formed : program.contents? what = some contents) (sound : hasNul path = false)
      (refused : w.files.openPlace answer here path = .error reason) :
      WriteEnd answer w here program what path
        (.error (w.halt (.cause (.writeRefused what path reason))))
  | brokenOff {contents : ByteArray} {place : List Text} {count : Nat} {reason : Refusal}
      (formed : program.contents? what = some contents) (sound : hasNul path = false)
      (opened : w.files.openPlace answer here path = .ok place)
      (broken : answer = .breaksOff count reason) :
      WriteEnd answer w here program what path
        (.error (halt { w with files := w.files.put place (contents.extract 0 count) }
          (.cause (.writeRefused what path reason))))
  | written {contents : ByteArray} {place : List Text}
      (formed : program.contents? what = some contents) (sound : hasNul path = false)
      (opened : w.files.openPlace answer here path = .ok place)
      (whole : ∀ count reason, answer ≠ .breaksOff count reason) :
      WriteEnd answer w here program what path
        (.ok { w with files := w.files.put place contents })

lemma write_eq_iff {answer : Answer} {what : Program.Artifact} {path : Text}
    {result : Except Halt Work} :
    w.write answer here program what path = result ↔
      WriteEnd answer w here program what path result := by
  constructor
  · rintro rfl
    unfold write
    split
    · exact .formless ‹_›
    · rename_i contents formed
      split
      · exact .nul formed ‹_›
      · rename_i sound
        rw [Bool.not_eq_true] at sound
        split
        · exact .refused formed sound ‹_›
        · rename_i place opened
          split
          · exact .brokenOff formed sound opened rfl
          · exact .written formed sound opened (by rintro count reason ⟨⟩)
          · exact .written formed sound opened (by rintro count reason ⟨⟩)
  · intro ends
    cases ends with
    | formless unformed => simp [write, unformed]
    | nul formed unsound => simp [write, formed, unsound]
    | refused formed sound refused => simp [write, formed, sound, refused]
    | brokenOff formed sound opened broken =>
      subst broken
      simp [write, formed, sound, opened]
    | written formed sound opened whole =>
      cases answer with
      | breaksOff count reason => exact absurd rfl (whole count reason)
      | complies => simp [write, formed, sound, opened]
      | refuses reason => simp [write, formed, sound, opened]

/-- Words that are not written have touched no file, or are broken off. -/
lemma writeWords_eq_error {format : Option Program.Format} {output : Option Text}
    (h : w.writeWords answers here program format output = .error stop) :
    stop.work.files = w.files ∨ ∃ chosen path contents place count reason,
      format = some chosen ∧ output = some path ∧
      program.contents? (.words chosen) = some contents ∧ hasNul path = false ∧
      w.files.openPlace (answers (.words chosen)) here path = .ok place ∧
      answers (.words chosen) = .breaksOff count reason := by
  unfold writeWords at h
  split at h
  · cases h; exact .inl rfl
  · cases h; exact .inl rfl
  · rename_i chosen path
    cases wrote : w.write (answers (.words chosen)) here program (.words chosen) path with
    | ok written => rw [wrote] at h; cases h
    | error other =>
      rw [wrote] at h
      cases h
      cases write_eq_iff.1 wrote with
      | formless => exact .inl rfl
      | nul => exact .inl rfl
      | refused => exact .inl rfl
      | brokenOff formed sound opened broken =>
        exact .inr ⟨chosen, path, _, _, _, _, rfl, rfl, formed, sound, opened, broken⟩

lemma writeWords_eq_ok {format : Option Program.Format} {output : Option Text}
    (h : w.writeWords answers here program format output = .ok next) :
    ∃ chosen path contents place, format = some chosen ∧ output = some path ∧
      program.contents? (.words chosen) = some contents ∧ hasNul path = false ∧
      w.files.openPlace (answers (.words chosen)) here path = .ok place ∧
      (∀ count reason, answers (.words chosen) ≠ .breaksOff count reason) ∧
      next.files = w.files.put place contents := by
  unfold writeWords at h
  split at h
  · cases h
  · cases h
  · rename_i chosen path
    obtain ⟨written, wrote, same⟩ := bind_eq_ok_iff.1 h
    cases same
    cases write_eq_iff.1 wrote with
    | written formed sound opened whole =>
      exact ⟨chosen, path, _, _, rfl, rfl, formed, sound, opened, whole, rfl⟩

/-- A listing that is not written for a cause is refused or broken off. -/
lemma writeListing_eq_error {c : Cause}
    (h : w.writeListing answers here program given.listing = .error stop)
    (cause : stop.report.failure = .cause c) :
    ∃ path, AsksForListing given path ∧
      ((∃ reason, w.files.openPlace (answers .listing) here path = .error reason) ∨
        ∃ listing place count reason, program.contents? .listing = some listing ∧
          w.files.openPlace (answers .listing) here path = .ok place ∧
          answers .listing = .breaksOff count reason) := by
  unfold writeListing at h
  split at h
  · cases h
  · cases h
  · rename_i path visible asks
    cases wrote : w.write (answers .listing) here program .listing path with
    | ok written => rw [wrote] at h; cases h
    | error other =>
      rw [wrote] at h
      cases h
      cases write_eq_iff.1 wrote with
      | formless => cases cause
      | nul => cases cause
      | refused formed sound refused =>
        exact ⟨path, ⟨asks, visible, sound⟩, .inl ⟨_, refused⟩⟩
      | brokenOff formed sound opened broken =>
        exact ⟨path, ⟨asks, visible, sound⟩, .inr ⟨_, _, _, _, formed, opened, broken⟩⟩

/-- Work that fails for a cause has left the files as they were, or what it had written. -/
theorem leaves_of_carryOut {c : Cause} (h : w.carryOut answers here given = .error stop)
    (cause : stop.report.failure = .cause c) :
    stop.work.files = w.files ∨ ∃ changes, Leaves answers w.files here given changes := by
  unfold carryOut at h
  cases assembles : w.assemble here given.input with
  | error other =>
    rw [assembles] at h
    cases h
    exact .inl (files_of_assemble_error assembles)
  | ok pair =>
    obtain ⟨first, program⟩ := pair
    obtain ⟨same, input, reading, reads, flattened, assembled⟩ := assemble_eq_ok assembles
    rw [assembles] at h
    cases writes : first.writeWords answers here program given.format given.output with
    | error other =>
      simp only [bind, Except.bind, writes] at h
      cases h
      obtain untouched | ⟨format, output, words, place, count, reason, chosen, named, formed, sound,
        opened, broken⟩ := writeWords_eq_error writes
      · exact .inl (untouched.trans same)
      · rw [same] at opened
        exact .inr ⟨_, .wordsBrokenOff (.intro reads flattened assembled chosen formed named sound
          opened) broken⟩
    | ok second =>
      obtain ⟨format, output, words, place, chosen, named, formed, sound, opened, whole, put⟩ :=
        writeWords_eq_ok writes
      rw [same] at opened put
      have opens : OpensOutput answers w.files here given program format words place :=
        .intro reads flattened assembled chosen formed named sound opened
      cases lists : second.writeListing answers here program given.listing with
      | ok third =>
        simp only [bind, Except.bind, writes, lists] at h
        cases h
      | error other =>
        simp only [bind, Except.bind, writes, lists] at h
        cases h
        -- the words have no part in whether the path of the listing is opened
        obtain ⟨path, asked, refused | ⟨listing, listingPlace, count, reason, listed, reached,
          broken⟩⟩ := writeListing_eq_error lists cause
        · rw [put, FileSystem.exists_openPlace_put_eq_error_iff] at refused
          obtain ⟨reason, refused⟩ := refused
          exact .inr ⟨_, .listingRefused opens whole asked refused⟩
        · rw [put, FileSystem.openPlace_put_eq_ok_iff] at reached
          exact .inr ⟨_, .listingBrokenOff opens whole asked listed reached broken⟩

/-- Words that are written leave it to the listing how the work ends. -/
lemma exists_carryOut_of_opensOutput {format : Program.Format} {words : ByteArray}
    {place : List Text}
    (opens : OpensOutput answers w.files here given program format words place)
    (whole : ∀ count reason, answers (.words format) ≠ .breaksOff count reason) :
    ∃ second : Work, second.files = w.files.put place words ∧
      w.carryOut answers here given =
        (second.writeListing answers here program given.listing).map (·, program) := by
  obtain @⟨input, output, reading, reads, flattened, assembled, chosen, formed, writes, sound,
    opened⟩ := opens
  obtain ⟨first, assembles, same⟩ := exists_assemble flattened assembled
  rw [← same] at opened
  have wrote := write_eq_iff.2 (.written formed sound opened whole)
  refine ⟨Work.note { first with files := first.files.put place words }
    [.wroteWords format output], congrArg (FileSystem.put · place words) same, ?_⟩
  simp only [carryOut, reads, assembles, chosen, writes, writeWords, wrote, bind, Except.bind,
    pure, Except.pure]
  cases writeListing _ answers here program given.listing <;> rfl

lemma exists_carryOut_of_brokenOff {format : Program.Format} {words : ByteArray}
    {place : List Text} {count : Nat} {reason : Refusal}
    (opens : OpensOutput answers w.files here given program format words place)
    (broken : answers (.words format) = .breaksOff count reason) :
    ∃ stop c, w.carryOut answers here given = .error stop ∧ stop.report.failure = .cause c ∧
      stop.work.files = w.files.put place (words.extract 0 count) := by
  obtain @⟨input, output, reading, reads, flattened, assembled, chosen, formed, writes, sound,
    opened⟩ := opens
  obtain ⟨first, assembles, same⟩ := exists_assemble flattened assembled
  rw [← same] at opened
  have stopped := write_eq_iff.2 (.brokenOff formed sound opened broken)
  refine ⟨halt { first with files := first.files.put place (words.extract 0 count) }
    (.cause (.writeRefused (.words format) output reason)), _, ?_, rfl,
    congrArg (FileSystem.put · place (words.extract 0 count)) same⟩
  simp only [carryOut, reads, assembles, chosen, writes, writeWords, stopped, bind, Except.bind]

lemma writeListing_of_asks {path : Text} (asked : AsksForListing given path)
    (unwritten : w.write (answers .listing) here program .listing path = .error stop) :
    w.writeListing answers here program given.listing = .error stop := by
  obtain ⟨letter, letters, rfl⟩ := List.exists_cons_of_ne_nil asked.named
  simp only [asked.asks, writeListing, unwritten, bind, Except.bind]

/-- Where a command can leave what it has written, it does, and fails. -/
theorem exists_carryOut_of_leaves {changes : List (List Text × ByteArray)}
    (leaves : Leaves answers w.files here given changes) :
    ∃ stop c, w.carryOut answers here given = .error stop ∧ stop.report.failure = .cause c ∧
      stop.work.files = w.files.putAll changes := by
  cases leaves with
  | wordsBrokenOff opens broken => exact exists_carryOut_of_brokenOff opens broken
  | @listingRefused program _ _ _ path _ opens whole asked refused =>
    obtain ⟨second, put, ends⟩ := exists_carryOut_of_opensOutput opens whole
    obtain ⟨later, still⟩ : ∃ later,
        second.files.openPlace (answers .listing) here path = .error later := by
      rw [put, FileSystem.exists_openPlace_put_eq_error_iff]
      exact ⟨_, refused⟩
    have unlisted : second.write _ here program .listing path = _ :=
      write_eq_iff.2 (.refused rfl asked.sound still)
    exact ⟨_, _, by rw [ends, writeListing_of_asks asked unlisted]; rfl, rfl, put⟩
  | @listingBrokenOff _ _ _ _ _ listingPlace path _ _ opens whole asked listed opened broken =>
    obtain ⟨second, put, ends⟩ := exists_carryOut_of_opensOutput opens whole
    have still : second.files.openPlace (answers .listing) here path = .ok listingPlace := by
      rw [put, FileSystem.openPlace_put_eq_ok_iff]
      exact opened
    have unlisted := write_eq_iff.2 (.brokenOff listed asked.sound still broken)
    exact ⟨_, _, by rw [ends, writeListing_of_asks asked unlisted]; rfl, rfl,
      congrArg (FileSystem.put · _ _) put⟩

end Work

variable {answers : Program.Artifact → Answer} {files : FileSystem} {here : Path}
  {arguments : List Text}

/-- The exit status is one where the work fails for a cause. -/
lemma status_eq_one_iff : (run answers files here arguments).status = .ok 1 ↔
    ∃ given stop c, parse arguments = .ok given ∧
      Work.carryOut ⟨#[], files⟩ answers here given = .error stop ∧
      stop.report.failure = .cause c := by
  unfold run
  constructor
  · intro h
    split at h
    · cases h
    · cases h
    · rename_i given parsed
      split at h
      · cases h
      · rename_i stop stopped
        dsimp only at h
        split at h
        · rename_i c cause
          exact ⟨given, stop, c, parsed, stopped, cause⟩
        · cases h
  · rintro ⟨given, stop, c, parsed, stopped, cause⟩
    simp only [parsed, stopped, cause]

lemma files_of_carryOut_error {given : Arguments} {stop : Halt}
    (parsed : parse arguments = .ok given)
    (stopped : Work.carryOut ⟨#[], files⟩ answers here given = .error stop) :
    (run answers files here arguments).files = stop.work.files := by
  unfold run
  simp only [parsed, stopped]
  split <;> rfl

/-- A command that can leave what it has written fails, and leaves it. -/
lemma run_of_leaves {given : Arguments} {changes : List (List Text × ByteArray)}
    (parsed : parse arguments = .ok given) (leaves : Leaves answers files here given changes) :
    (run answers files here arguments).status = .ok 1 ∧
      (run answers files here arguments).files = files.putAll changes := by
  obtain ⟨stop, c, stopped, cause, put⟩ :=
    Work.exists_carryOut_of_leaves (w := ⟨#[], files⟩) leaves
  exact ⟨status_eq_one_iff.2 ⟨given, stop, c, parsed, stopped, cause⟩,
    (files_of_carryOut_error parsed stopped).trans put⟩

/-- However the system answers, a command that fails leaves every file as it was, unless it has
written words that are broken off, words whose listing is refused, or words and a listing that is
broken off. What it has written is then what it leaves, the last of it where two files are one, and
all else is as it was. -/
theorem failed_run_files (failed : (run answers files here arguments).status = .ok 1) :
    ∃ given, parse arguments = .ok given ∧
      (((run answers files here arguments).files = files ∧
        ¬ ∃ changes, Leaves answers files here given changes) ∨
      ∃ changes, Leaves answers files here given changes ∧
        (run answers files here arguments).files.directories = files.directories ∧
        (run answers files here arguments).files.barred = files.barred ∧
        ∀ other, (run answers files here arguments).files.file? other =
          (changes.reverse.lookup other).or (files.file? other)) := by
  obtain ⟨given, stop, c, parsed, stopped, cause⟩ := status_eq_one_iff.1 failed
  refine ⟨given, parsed, ?_⟩
  by_cases leaves : ∃ changes, Leaves answers files here given changes
  · obtain ⟨changes, leaves⟩ := leaves
    rw [(run_of_leaves parsed leaves).2]
    exact .inr ⟨changes, leaves, files.putAll_directories changes, files.putAll_barred changes,
      files.file?_putAll changes⟩
  · rw [files_of_carryOut_error parsed stopped]
    exact .inl ⟨(Work.leaves_of_carryOut stopped cause).resolve_right leaves, leaves⟩

def oneLine : FileSystem := ⟨[(["a.s".toList], "nop\n".toUTF8)], [], []⟩

/-- The source is assembled, to a word of zeros. -/
lemma exists_program_oneLine : ∃ reading program,
    Include.flatten oneLine ⟨false, []⟩ "a.s".toList = .ok reading ∧
    (Assembly.assemble .builtin reading.lines).result = .ok program ∧
    program.contents? (.words .raw) = some ⟨#[0, 0, 0, 0]⟩ := by
  have holds : FileSystem.HasLines oneLine ⟨false, ["a.s".toList]⟩ ["nop".toList] :=
    Include.hasLines_of_file? "nop\n" rfl rfl rfl
  obtain ⟨reading, read, lines⟩ := Include.Flat.exists_flattenFile_alone
    ⟨_, holds, .verbatim (by decide) (by decide) .nil⟩
  have evaluated : (Assembly.program? .builtin ["nop".toList]).bind
      (·.contents? (.words .raw)) = some ⟨#[0, 0, 0, 0]⟩ := by rfl
  obtain ⟨program, assembled, contents⟩ := Option.bind_eq_some_iff.1 evaluated
  exact ⟨reading, program, read, by rw [lines, Assembly.assemble_result_of_program? assembled],
    contents⟩

/-- A command line that asks for the words of the source and a listing. -/
def both (output listing : String) : List Text :=
  ["a.s".toList, output.toList, "-l".toList, listing.toList]

/-- The words of the source come to be written at the root, as far as the system lets them. -/
lemma exists_opensOutput_oneLine (answers : Program.Artifact → Answer) (listing : Text)
    (lets : oneLine.openPlace (answers (.words .raw)) ⟨false, []⟩ "out".toList =
      .ok ["out".toList]) :
    ∃ program, OpensOutput answers oneLine ⟨false, []⟩
      ⟨some "a.s".toList, some "out".toList, some .raw, some listing, false⟩ program .raw
      ⟨#[0, 0, 0, 0]⟩ ["out".toList] := by
  obtain ⟨reading, program, flattened, assembled, words⟩ := exists_program_oneLine
  exact ⟨program, .intro rfl flattened assembled rfl words rfl (by rfl) lets⟩

/-- A disk that is full after two bytes. -/
def afterTwo : Program.Artifact → Answer :=
  fun _ => .breaksOff 2 ⟨28, "No space left on device", false⟩

/-- A disk that is full leaves the bytes that it had room for. -/
theorem failed_run_files_afterTwo :
    (run afterTwo oneLine ⟨false, []⟩ (both "out" "a.lst")).status = .ok 1 ∧
    (run afterTwo oneLine ⟨false, []⟩ (both "out" "a.lst")).files.directories =
      oneLine.directories ∧
    (run afterTwo oneLine ⟨false, []⟩ (both "out" "a.lst")).files.file? ["out".toList] =
      some ⟨#[0, 0]⟩ := by
  have parsed : parse (both "out" "a.lst") =
    .ok ⟨some "a.s".toList, some "out".toList, some .raw, some "a.lst".toList, false⟩ := by rfl
  obtain ⟨program, opens⟩ := exists_opensOutput_oneLine afterTwo "a.lst".toList (by rfl)
  have leaves := Leaves.wordsBrokenOff opens rfl
  obtain ⟨failed, put⟩ := run_of_leaves parsed leaves
  obtain ⟨given, again, ⟨-, spared⟩ | ⟨changes, -, directories, -⟩⟩ := failed_run_files failed
  · cases parsed.symm.trans again
    exact absurd ⟨_, leaves⟩ spared
  · refine ⟨failed, directories, ?_⟩
    rw [put, FileSystem.file?_putAll]
    rfl

/-- A path for the listing that is refused leaves a file of words on the disk. -/
theorem not_failed_run_files_listing :
    (run (fun _ => .complies) oneLine ⟨false, []⟩ (both "out" "no/a.lst")).status = .ok 1 ∧
    oneLine.file? ["out".toList] = none ∧
    (run (fun _ => .complies) oneLine ⟨false, []⟩ (both "out" "no/a.lst")).files.file?
      ["out".toList] = some ⟨#[0, 0, 0, 0]⟩ := by
  have parsed : parse (both "out" "no/a.lst") =
    .ok ⟨some "a.s".toList, some "out".toList, some .raw, some "no/a.lst".toList, false⟩ := by rfl
  have refused : oneLine.openPlace .complies ⟨false, []⟩ "no/a.lst".toList = .error .missing := by
    rfl
  obtain ⟨program, opens⟩ :=
    exists_opensOutput_oneLine (fun _ => .complies) "no/a.lst".toList (by rfl)
  obtain ⟨failed, put⟩ := run_of_leaves parsed
    (.listingRefused opens (by rintro _ _ ⟨⟩) ⟨rfl, by decide, by rfl⟩ refused)
  refine ⟨failed, rfl, ?_⟩
  rw [put, FileSystem.file?_putAll]
  rfl

end CommandLine
end Mips64
