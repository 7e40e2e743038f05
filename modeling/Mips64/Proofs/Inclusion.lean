import Mathlib.Logic.Relation
import Mips64.Include
import Mips64.Proofs.Operands

/-! Sources put together from files. The files that include lines lead to form a graph, and the
lines of a file are put together without looking at the files that include it. Main statement: a
file is read to the end where every file that it leads to can be read, has no bad include line and
does not lead back to itself; and then each include line is replaced by the lines of its file. This
is so however long a chain of files gets, as no limit of a host on nested calls is modelled. -/
namespace Mips64

namespace FileSystem

def Path.parent (p : Path) : Path := { p with parts := p.parts.dropLast }

/-- The lines of a file: there is one at the path, the path can be passed on and is not barred, and
the contents are text. -/
def HasLines (fs : FileSystem) (path : Path) (lines : List Text) : Prop :=
  hasNul path.text = false ∧ fs.bar? path.parts = none ∧
    ∃ contents text, fs.file? path.parts = some contents ∧
      String.fromUTF8? contents = some text ∧ lines = Text.lines text.toList

end FileSystem

namespace Include

open FileSystem (Path HasLines)

/-- A result is mapped to another where it is a result. -/
lemma exceptMap_eq_ok_iff {ε α β : Type} {f : α → β} {x : Except ε α} {b : β} :
    x.map f = .ok b ↔ ∃ a, x = .ok a ∧ f a = b := by
  cases x with
  | error e => simp [Except.map]
  | ok a => simp [Except.map]

lemma openLines_eq_ok_iff {fs : FileSystem} {path : Path} {lines : List Text} :
    openLines fs path = .ok lines ↔ HasLines fs path lines := by
  unfold openLines HasLines
  cases FileSystem.hasNul path.text with
  | true => simp
  | false =>
    unfold FileSystem.read
    cases fs.bar? path.parts with
    | some reason =>
      by_cases missing : reason.number = FileSystem.Refusal.missing.number <;> simp [missing]
    | none =>
      cases fs.file? path.parts with
      | none =>
        by_cases missing : (fs.refusal path.parts).number = FileSystem.Refusal.missing.number <;>
          simp [missing]
      | some contents =>
        unfold decode
        cases decoded : String.fromUTF8? contents with
        | none => simp [decoded, Except.mapError]
        | some text => simp [decoded, Except.mapError, eq_comm]

lemma hasLines_of_file? {fs : FileSystem} {path : Path} (text : String)
    (plain : FileSystem.hasNul path.text = false) (unbarred : fs.bar? path.parts = none)
    (found : fs.file? path.parts = some text.toUTF8) : HasLines fs path (Text.lines text.toList) :=
  ⟨plain, unbarred, text.toUTF8, text, found, dif_pos text.isValidUTF8, rfl⟩

/-- A line that has to be an include line. -/
def IsBang (line : Text) : Prop := (Text.strip line).head? = some '!'

instance (line : Text) : Decidable (IsBang line) :=
  inferInstanceAs (Decidable ((Text.strip line).head? = some '!'))

/-- A well-formed include line and the path that it names. The word after the directive opens with a
quote, and the path goes on to the first quote at the end of a word behind it, with single spaces
between its words. -/
inductive Names : Text → Text → Prop
  | intro {line word body last : Text} {more before rest : List Text} (bang : IsBang line)
      (written : Text.words (Text.strip line) = word :: ('"' :: body) :: more)
      (directive : Text.upper word = "!INCLUDE".toList)
      (closed : body :: more = before ++ (last ++ ['"']) :: rest)
      (unclosed : ∀ piece ∈ before, piece.getLast? ≠ some '"') :
      Names line (Text.joinWith ' ' (before ++ [last]))

lemma throughQuote_eq_some_iff {tokens spanned : List Text} :
    Operand.throughQuote tokens = some spanned ↔ ∃ before last rest,
      tokens = before ++ (last ++ ['"']) :: rest ∧ spanned = before ++ [last ++ ['"']] ∧
      ∀ piece ∈ before, piece.getLast? ≠ some '"' := by
  induction tokens generalizing spanned with
  | nil =>
    constructor
    · intro h; cases h
    · rintro ⟨before, last, rest, h, -⟩; simp at h
  | cons token tokens ih =>
    rw [Operand.throughQuote]
    by_cases closing : token.getLast? = some '"'
    · rw [if_pos closing]
      obtain ⟨last, rfl⟩ := List.getLast?_eq_some_iff.1 closing
      constructor
      · intro h
        cases h
        exact ⟨[], last, tokens, rfl, rfl, by simp⟩
      · rintro ⟨before, last', rest, split, rfl, unclosed⟩
        cases before with
        | nil =>
          simp only [List.nil_append, List.cons.injEq] at split
          rw [split.1]
          rfl
        | cons piece before =>
          simp only [List.cons_append, List.cons.injEq] at split
          exact absurd (split.1 ▸ closing) (unclosed piece List.mem_cons_self)
    · rw [if_neg closing]
      constructor
      · intro h
        obtain ⟨others, spans, rfl⟩ := Option.map_eq_some_iff.1 h
        obtain ⟨before, last, rest, rfl, rfl, unclosed⟩ := ih.1 spans
        refine ⟨token :: before, last, rest, rfl, rfl, ?_⟩
        rintro piece (_ | ⟨_, member⟩)
        · exact closing
        · exact unclosed piece member
      · rintro ⟨before, last, rest, split, rfl, unclosed⟩
        cases before with
        | nil =>
          simp only [List.nil_append, List.cons.injEq] at split
          rw [split.1] at closing
          simp at closing
        | cons piece before =>
          simp only [List.cons_append, List.cons.injEq] at split
          obtain ⟨rfl, rfl⟩ := split
          refine Option.map_eq_some_iff.2 ⟨before ++ [last ++ ['"']], ih.2 ?_, rfl⟩
          exact ⟨before, last, rest, rfl, rfl, fun p member =>
            unclosed p (List.mem_cons_of_mem token member)⟩

lemma joinWith_concat (before : List Text) (last : Text) (c : Char) :
    Text.joinWith ' ' (before ++ [last ++ [c]]) = Text.joinWith ' ' (before ++ [last]) ++ [c] := by
  induction before with
  | nil => simp [Text.joinWith]
  | cons piece before ih =>
    cases before with
    | nil => simp [Text.joinWith]
    | cons second before =>
      simp only [Text.joinWith, List.cons_append, List.intercalate_cons_cons] at ih ⊢
      rw [ih]
      simp

/-- A quoted text is read up to the first quote at the end of a token behind the one that opens
it. -/
lemma leadingString_eq_ok_iff {arguments : List Text} {content : Text} :
    Operand.leadingString arguments = .ok content ↔ ∃ body more before last rest,
      arguments = ('"' :: body) :: more ∧ body :: more = before ++ (last ++ ['"']) :: rest ∧
      (∀ piece ∈ before, piece.getLast? ≠ some '"') ∧
      content = Text.joinWith ' ' (before ++ [last]) := by
  unfold Operand.leadingString
  split
  · simp
  · rename_i body more
    split
    · rename_i spanned spans
      obtain ⟨before, last, rest, split, rfl, unclosed⟩ := throughQuote_eq_some_iff.1 spans
      constructor
      · intro h
        cases h
        exact ⟨body, more, before, last, rest, rfl, split, unclosed, by
          rw [joinWith_concat, List.dropLast_concat]⟩
      · rintro ⟨body', more', before', last', rest', same, split', unclosed', rfl⟩
        cases same
        have again := throughQuote_eq_some_iff.2 ⟨before', last', rest', split', rfl, unclosed'⟩
        rw [spans, Option.some.injEq] at again
        rw [again, joinWith_concat, List.dropLast_concat]
    · rename_i unspanned
      constructor
      · intro h; cases h
      · rintro ⟨body', more', before, last, rest, same, split, unclosed, rfl⟩
        cases same
        have spans := throughQuote_eq_some_iff.2 ⟨before, last, rest, split, rfl, unclosed⟩
        rw [unspanned] at spans
        cases spans
  · rename_i token rest unquoted
    constructor
    · intro h; cases h
    · rintro ⟨body, more, before, last, rest', same, -⟩
      cases same
      exact absurd rfl (unquoted body)

lemma words_ne_nil_of_isBang {line : Text} (bang : IsBang line) :
    Text.words (Text.strip line) ≠ [] := by
  intro wordless
  have member : '!' ∈ Text.strip line := List.mem_of_mem_head? bang
  have kept : '!' ∈ Text.compact (Text.strip line) := List.mem_filter.2 ⟨member, by decide⟩
  rw [← Text.flatten_words, wordless] at kept
  cases kept

/-- An include line is recognised where it starts with its mark. -/
lemma target?_eq_none_iff {line : Text} : target? line = .ok none ↔ ¬ IsBang line := by
  unfold target?
  dsimp only
  split
  · rename_i bang
    refine ⟨fun h => ?_, fun h => absurd bang h⟩
    split at h
    · rename_i nothing
      exact absurd nothing (words_ne_nil_of_isBang bang)
    · split at h
      · split at h
        · cases h
        · obtain ⟨content, -, different⟩ := exceptMap_eq_ok_iff.1 h
          cases different
      · cases h
  · rename_i plain
    exact ⟨fun _ => plain, fun _ => rfl⟩

lemma target?_eq_some_iff {line target : Text} :
    target? line = .ok (some target) ↔ Names line target := by
  constructor
  · intro h
    unfold target? at h
    dsimp only at h
    split at h
    · rename_i bang
      split at h
      · cases h
      · rename_i word arguments written
        split at h
        · rename_i directive
          split at h
          · cases h
          · obtain ⟨content, read, same⟩ := exceptMap_eq_ok_iff.1 h
            cases same
            obtain ⟨body, more, before, last, rest, rfl, closed, unclosed, rfl⟩ :=
              leadingString_eq_ok_iff.1 read
            exact .intro bang written directive closed unclosed
        · cases h
    · cases h
  · rintro ⟨bang, written, directive, closed, unclosed⟩
    have read := leadingString_eq_ok_iff.2 ⟨_, _, _, _, _, rfl, closed, unclosed, rfl⟩
    rw [IsBang] at bang
    simp only [target?, bang, written, directive, if_true, read]
    rfl

lemma Names.unique {line target other : Text} (h : Names line target) (h' : Names line other) :
    target = other := by
  have same := (target?_eq_some_iff.2 h).symm.trans (target?_eq_some_iff.2 h')
  cases same
  rfl

lemma Names.isBang {line target : Text} (h : Names line target) : IsBang line := by
  cases h with
  | intro bang _ _ _ _ => exact bang

lemma IsBang.strip_ne_nil {line : Text} (h : IsBang line) : Text.strip line ≠ [] := by
  intro empty
  rw [IsBang, empty] at h
  cases h

lemma hasLines_unique {fs : FileSystem} {path : Path} {lines others : List Text}
    (h : HasLines fs path lines) (h' : HasLines fs path others) : lines = others := by
  have same := (openLines_eq_ok_iff.2 h).symm.trans (openLines_eq_ok_iff.2 h')
  cases same
  rfl

/-- One file includes another: a line of the one names the other, as seen from its directory. -/
def Includes (fs : FileSystem) (p q : Path) : Prop :=
  ∃ lines line target, HasLines fs p lines ∧ line ∈ lines ∧ Names line target ∧
    q = p.parent.resolve target

/-- Includes lead from one file to another, or it is the same. -/
def Reaches (fs : FileSystem) : Path → Path → Prop := Relation.ReflTransGen (Includes fs)

/-- A file that can be read, and whose include lines are all well-formed. -/
def IsSound (fs : FileSystem) (p : Path) : Prop :=
  ∃ lines, HasLines fs p lines ∧ ∀ line ∈ lines, IsBang line → ∃ target, Names line target

/-- What lines of a file are replaced by. A blank line is dropped, an include line gives the lines
of the file that it names, and any other line is kept. -/
inductive Spliced (fs : FileSystem) : Path → List Text → List Text → Prop
  | nil {p : Path} : Spliced fs p [] []
  | blank {p : Path} {line : Text} {rest out : List Text} (empty : Text.strip line = [])
      (others : Spliced fs p rest out) : Spliced fs p (line :: rest) out
  | verbatim {p : Path} {line : Text} {rest out : List Text} (visible : Text.strip line ≠ [])
      (plain : ¬ IsBang line) (others : Spliced fs p rest out) :
      Spliced fs p (line :: rest) (line :: out)
  | included {p : Path} {line target : Text} {rest out lines inner : List Text}
      (names : Names line target) (opens : HasLines fs (p.parent.resolve target) lines)
      (within : Spliced fs (p.parent.resolve target) lines inner)
      (others : Spliced fs p rest out) : Spliced fs p (line :: rest) (inner ++ out)

/-- The lines that a file gives with its includes in place. -/
def Flat (fs : FileSystem) (p : Path) (out : List Text) : Prop :=
  ∃ lines, HasLines fs p lines ∧ Spliced fs p lines out

section
variable {fs : FileSystem} {p q : Path}

lemma Spliced.unique {lines out other : List Text} (h : Spliced fs p lines out)
    (h' : Spliced fs p lines other) : out = other := by
  induction h generalizing other with
  | nil => cases h'; rfl
  | blank empty _ ih =>
    cases h' with
    | blank _ others => exact ih others
    | verbatim visible => exact absurd empty visible
    | included names => exact absurd empty names.isBang.strip_ne_nil
  | verbatim visible plain _ ih =>
    cases h' with
    | blank empty => exact absurd empty visible
    | verbatim _ _ others => rw [ih others]
    | included names => exact absurd names.isBang plain
  | included names opens _ _ within_ih ih =>
    cases h' with
    | blank empty => exact absurd empty names.isBang.strip_ne_nil
    | verbatim _ plain => exact absurd names.isBang plain
    | included names' opens' within' others' =>
      cases names.unique names'
      cases hasLines_unique opens opens'
      rw [within_ih within', ih others']

lemma Flat.unique {out other : List Text} (h : Flat fs p out) (h' : Flat fs p other) :
    out = other := by
  obtain ⟨lines, opens, spliced⟩ := h
  obtain ⟨lines', opens', spliced'⟩ := h'
  cases hasLines_unique opens opens'
  exact spliced.unique spliced'

/-- An include line is well-formed, and the lines of its file stand where it stood. -/
lemma Spliced.of_isBang {lines out : List Text} (h : Spliced fs p lines out) {line : Text}
    (member : line ∈ lines) (bang : IsBang line) : ∃ target inner,
      Names line target ∧ Flat fs (p.parent.resolve target) inner ∧ inner <:+: out := by
  induction h with
  | nil => cases member
  | blank empty _ ih =>
    rcases List.mem_cons.1 member with rfl | later
    · exact absurd empty bang.strip_ne_nil
    · exact ih later
  | verbatim _ plain _ ih =>
    rcases List.mem_cons.1 member with rfl | later
    · exact absurd bang plain
    · obtain ⟨target, inner, names, flat, inside⟩ := ih later
      exact ⟨target, inner, names, flat, inside.trans (List.suffix_cons _ _).isInfix⟩
  | included names opens within _ _ ih =>
    rcases List.mem_cons.1 member with rfl | later
    · exact ⟨_, _, names, ⟨_, opens, within⟩, (List.prefix_append _ _).isInfix⟩
    · obtain ⟨target, inner, names', flat, inside⟩ := ih later
      exact ⟨target, inner, names', flat, inside.trans (List.suffix_append _ _).isInfix⟩

lemma Flat.isSound {out : List Text} (h : Flat fs p out) : IsSound fs p := by
  obtain ⟨lines, opens, spliced⟩ := h
  refine ⟨lines, opens, fun line member bang => ?_⟩
  obtain ⟨target, -, names, -⟩ := spliced.of_isBang member bang
  exact ⟨target, names⟩

lemma Flat.of_includes {out : List Text} (h : Flat fs p out) (step : Includes fs p q) :
    ∃ inner, Flat fs q inner ∧ inner <:+: out := by
  obtain ⟨lines, line, target, opens, member, names, rfl⟩ := step
  obtain ⟨lines', opens', spliced⟩ := h
  cases hasLines_unique opens opens'
  obtain ⟨target', inner, names', flat, inside⟩ := spliced.of_isBang member names.isBang
  cases names.unique names'
  exact ⟨inner, flat, inside⟩

/-- A file that is put together holds every file that it leads to. -/
lemma Flat.of_reaches {out : List Text} (h : Flat fs p out) (reaches : Reaches fs p q) :
    ∃ inner, Flat fs q inner ∧ inner <:+: out := by
  induction reaches with
  | refl => exact ⟨out, h, List.infix_rfl⟩
  | tail _ step ih =>
    obtain ⟨middle, flat, inside⟩ := ih
    obtain ⟨inner, flat', inside'⟩ := flat.of_includes step
    exact ⟨inner, flat', inside'.trans inside⟩

/-- Includes cannot be followed forever from a file that is put together. -/
lemma Flat.acc {out : List Text} (h : Flat fs p out) : Acc (fun q p => Includes fs p q) p := by
  obtain ⟨lines, opens, spliced⟩ := h
  have inner : ∀ line ∈ lines, ∀ target, Names line target →
      Acc (fun q p => Includes fs p q) (p.parent.resolve target) := by
    clear opens
    induction spliced with
    | nil => intro line member; cases member
    | blank empty _ ih =>
      intro line member target names
      rcases List.mem_cons.1 member with rfl | later
      · exact absurd empty names.isBang.strip_ne_nil
      · exact ih line later target names
    | verbatim _ plain _ ih =>
      intro line member target names
      rcases List.mem_cons.1 member with rfl | later
      · exact absurd names.isBang plain
      · exact ih line later target names
    | included names' opens _ _ within_ih ih =>
      intro line member target names
      rcases List.mem_cons.1 member with rfl | later
      · cases names.unique names'
        refine Acc.intro _ ?_
        rintro r ⟨lines', line', target', opens', member', names'', rfl⟩
        cases hasLines_unique opens opens'
        exact within_ih line' member' target' names''
      · exact ih line later target names
  refine Acc.intro _ ?_
  rintro r ⟨lines', line, target, opens', member, names, rfl⟩
  cases hasLines_unique opens opens'
  exact inner line member target names

/-- A file that is put together does not lead back to itself. -/
lemma Flat.not_cyclic {out : List Text} (h : Flat fs p out) :
    ¬ Relation.TransGen (Includes fs) p p := by
  have irreflexive {r : Path → Path → Prop} {a : Path} (acc : Acc r a) : ¬ r a a := by
    induction acc with
    | intro a _ ih => exact fun loop => ih a loop loop
  intro loop
  exact irreflexive h.acc.transGen (Relation.transGen_swap.2 loop)


/-- Where every include line is well-formed and names a file that is put together, so are the
lines. -/
lemma exists_spliced {lines : List Text}
    (named : ∀ line ∈ lines, IsBang line → ∃ target, Names line target)
    (flat : ∀ line ∈ lines, ∀ target, Names line target →
      ∃ inner, Flat fs (p.parent.resolve target) inner) : ∃ out, Spliced fs p lines out := by
  induction lines with
  | nil => exact ⟨[], .nil⟩
  | cons line lines ih =>
    obtain ⟨out, others⟩ := ih (fun l member => named l (List.mem_cons_of_mem _ member))
      (fun l member => flat l (List.mem_cons_of_mem _ member))
    by_cases bang : IsBang line
    · obtain ⟨target, names⟩ := named line List.mem_cons_self bang
      obtain ⟨inner, _, opens, within⟩ := flat line List.mem_cons_self target names
      exact ⟨inner ++ out, .included names opens within others⟩
    · by_cases empty : Text.strip line = []
      · exact ⟨out, .blank empty others⟩
      · exact ⟨line :: out, .verbatim empty bang others⟩

lemma mem_readable_of_hasLines {lines : List Text} (h : HasLines fs p lines) : p ∈ fs.readable :=
  mem_readable_of_openLines (openLines_eq_ok_iff.2 h)

/-- What the files that a file includes lead to is not on the chain, nor is it the file itself. -/
lemma not_mem_cons_of_includes {chain : List Path} (acyclic : ¬ Relation.TransGen (Includes fs) p p)
    (fresh : ∀ q, Reaches fs p q → q ∉ chain) {r : Path} (step : Includes fs p r)
    (reaches : Reaches fs r q) : q ∉ p :: chain := by
  intro inside
  rcases List.mem_cons.1 inside with rfl | old
  · exact acyclic (.head' step reaches)
  · exact fresh q (.head step reaches) old

/-- In a finite file system, a file that leads to sound files only and to no cycle is put together.
The files on the chain are those that it does not lead to. -/
lemma exists_flat (chain : List Path) (sound : ∀ q, Reaches fs p q → IsSound fs q)
    (acyclic : ∀ q, Reaches fs p q → ¬ Relation.TransGen (Includes fs) q q)
    (fresh : ∀ q, Reaches fs p q → q ∉ chain) : ∃ out, Flat fs p out := by
  -- Every step along an include adds to the chain a readable file that was not on it.
  induction bound : (unvisited fs chain).length using Nat.strong_induction_on
    generalizing p chain with
  | _ n ih =>
    obtain ⟨lines, opens, named⟩ := sound p .refl
    have flat : ∀ line ∈ lines, ∀ target, Names line target →
        ∃ inner, Flat fs (p.parent.resolve target) inner := by
      intro line member target names
      have step : Includes fs p (p.parent.resolve target) :=
        ⟨lines, line, target, opens, member, names, rfl⟩
      have shorter := unvisited_cons_lt (mem_readable_of_hasLines opens)
        (by simpa using fresh p .refl)
      exact ih _ (bound ▸ shorter) (p :: chain) (fun q reaches => sound q (.head step reaches))
        (fun q reaches => acyclic q (.head step reaches))
        (fun q reaches => not_mem_cons_of_includes (acyclic p .refl) fresh step reaches) rfl
    obtain ⟨out, spliced⟩ := exists_spliced named flat
    exact ⟨out, lines, opens, spliced⟩

/-! Reading follows the chain of files that are being read, and the lines do not depend on it. -/

lemma flattenFile_eq_ok_iff {chain : List Path} {log : Array Log.Record} {reading : Reading} :
    flattenFile fs chain p log = .ok reading ↔ p ∉ chain ∧ ∃ lines, HasLines fs p lines ∧
      flattenLines fs (p :: chain) p 1 lines log = .ok reading := by
  simp only [← openLines_eq_ok_iff]
  rw [flattenFile]
  split
  · rename_i fresh
    have absent : p ∉ chain := by simpa using fresh
    split
    · rename_i lines opened
      simp [absent, opened]
    · rename_i failure opened
      simp [opened]
  · rename_i visited
    have inside : p ∈ chain := by simpa using visited
    simp [inside]

section
variable {chain : List Path} {number : Nat} {line : Text} {rest : List Text}
  {log : Array Log.Record} {reading : Reading}

lemma flattenLines_blank (empty : Text.strip line = []) :
    flattenLines fs chain p number (line :: rest) log =
      flattenLines fs chain p (number + 1) rest log := by
  rw [flattenLines, if_pos (by simp [empty])]

lemma flattenLines_verbatim (visible : Text.strip line ≠ []) (plain : ¬ IsBang line) :
    flattenLines fs chain p number (line :: rest) log =
      (flattenLines fs chain p (number + 1) rest log).map (Reading.prepend [line]) := by
  rw [flattenLines, if_neg (by simpa using visible), target?_eq_none_iff.2 plain]

lemma flattenLines_eq_ok_of_names {target : Text} (names : Names line target) :
    flattenLines fs chain p number (line :: rest) log = .ok reading ↔ ∃ included others,
      flattenFile fs chain (p.parent.resolve target) (log.push
        (.including (FileSystem.join p.directory target) p.text)) = .ok included ∧
      flattenLines fs chain p (number + 1) rest included.log = .ok others ∧
      reading = others.prepend included.lines := by
  rw [flattenLines, if_neg (by simpa using names.isBang.strip_ne_nil), target?_eq_some_iff.2 names]
  have resolved : Path.ofText (FileSystem.join p.directory target) = p.parent.resolve target := rfl
  simp only [resolved]
  cases flattenFile fs chain (p.parent.resolve target)
      (log.push (.including (FileSystem.join p.directory target) p.text)) with
  | error h => simp
  | ok included =>
    dsimp only
    rw [exceptMap_eq_ok_iff]
    constructor
    · rintro ⟨others, read, rfl⟩
      exact ⟨included, others, rfl, read, rfl⟩
    · rintro ⟨_, others, same, read, rfl⟩
      cases same
      exact ⟨others, read, rfl⟩

/-- A bad include line stops the reading. -/
lemma exists_names_of_flattenLines (bang : IsBang line)
    (h : flattenLines fs chain p number (line :: rest) log = .ok reading) :
    ∃ target, Names line target := by
  rw [flattenLines, if_neg (by simpa using bang.strip_ne_nil)] at h
  split at h
  · cases h
  · rename_i plain
    exact absurd bang (target?_eq_none_iff.1 plain)
  · rename_i target named
    exact ⟨target, target?_eq_some_iff.1 named⟩

end

/-- Lines that are read are those that the file is put together from, whatever the chain. -/
theorem spliced_of_flattenLines {chain : List Path} {number : Nat} {lines : List Text}
    {log : Array Log.Record} {reading : Reading}
    (h : flattenLines fs chain p number lines log = .ok reading) :
    Spliced fs p lines reading.lines := by
  induction bound : (unvisited fs chain).length using Nat.strong_induction_on
    generalizing chain p number lines log reading with
  | _ n deeper =>
    -- Within one file, the induction goes over its lines; an included file has a longer chain.
    induction lines generalizing number log reading with
    | nil =>
      rw [flattenLines] at h
      cases h
      exact .nil
    | cons line rest ih =>
      by_cases bang : IsBang line
      · obtain ⟨target, names⟩ := exists_names_of_flattenLines bang h
        obtain ⟨included, others, inner, later, rfl⟩ := (flattenLines_eq_ok_of_names names).1 h
        obtain ⟨fresh, lines', opens, within⟩ := flattenFile_eq_ok_iff.1 inner
        have absent : chain.contains (p.parent.resolve target) = false := by simpa using fresh
        have shorter := unvisited_cons_lt (mem_readable_of_hasLines opens) absent
        exact .included names opens (deeper _ (bound ▸ shorter) within rfl) (ih later)
      · by_cases empty : Text.strip line = []
        · rw [flattenLines_blank empty] at h
          exact .blank empty (ih h)
        · rw [flattenLines_verbatim empty bang] at h
          obtain ⟨others, read, rfl⟩ := exceptMap_eq_ok_iff.1 h
          exact .verbatim empty bang (ih read)

lemma flat_of_flattenFile {chain : List Path} {log : Array Log.Record} {reading : Reading}
    (h : flattenFile fs chain p log = .ok reading) : Flat fs p reading.lines := by
  obtain ⟨-, lines, opens, read⟩ := flattenFile_eq_ok_iff.1 h
  exact ⟨lines, opens, spliced_of_flattenLines read⟩

/-- Lines that are put together are read, under any chain of files that they do not lead to. -/
theorem Spliced.exists_flattenLines {lines out : List Text} (h : Spliced fs p lines out)
    {chain : List Path}
    (fresh : ∀ line ∈ lines, ∀ target, Names line target → ∀ q,
      Reaches fs (p.parent.resolve target) q → q ∉ chain) (number : Nat) (log : Array Log.Record) :
    ∃ reading, flattenLines fs chain p number lines log = .ok reading ∧ reading.lines = out := by
  induction h generalizing chain number log with
  | nil => exact ⟨⟨log, []⟩, by rw [flattenLines], rfl⟩
  | blank empty _ ih =>
    rw [flattenLines_blank empty]
    exact ih (fun l member => fresh l (List.mem_cons_of_mem _ member)) _ _
  | verbatim visible plain _ ih =>
    obtain ⟨others, read, rfl⟩ :=
      ih (fun l member => fresh l (List.mem_cons_of_mem _ member)) (number + 1) log
    rw [flattenLines_verbatim visible plain, read]
    exact ⟨_, rfl, rfl⟩
  | @included p line target rest out lines inner names opens within _ within_ih ih =>
    have outside := fresh line List.mem_cons_self target names
    have flat : Flat fs (p.parent.resolve target) inner := ⟨lines, opens, within⟩
    have deeper : ∀ l ∈ lines, ∀ t, Names l t → ∀ q,
        Reaches fs ((p.parent.resolve target).parent.resolve t) q →
          q ∉ p.parent.resolve target :: chain := by
      intro l member t names' q reaches
      exact not_mem_cons_of_includes flat.not_cyclic outside
        ⟨lines, l, t, opens, member, names', rfl⟩ reaches
    obtain ⟨included, read, rfl⟩ := within_ih deeper 1
      (log.push (.including (FileSystem.join p.directory target) p.text))
    have file := flattenFile_eq_ok_iff.2 ⟨outside _ .refl, lines, opens, read⟩
    obtain ⟨others, later, rfl⟩ :=
      ih (fun l member => fresh l (List.mem_cons_of_mem _ member)) (number + 1) included.log
    exact ⟨_, (flattenLines_eq_ok_of_names names).2 ⟨included, others, file, later, rfl⟩, rfl⟩

lemma Flat.exists_flattenFile {out : List Text} (h : Flat fs p out) (chain : List Path)
    (fresh : ∀ q, Reaches fs p q → q ∉ chain) (log : Array Log.Record) :
    ∃ reading, flattenFile fs chain p log = .ok reading ∧ reading.lines = out := by
  obtain ⟨lines, opens, spliced⟩ := id h
  have deeper : ∀ l ∈ lines, ∀ t, Names l t → ∀ q, Reaches fs (p.parent.resolve t) q →
      q ∉ p :: chain := by
    intro l member t names q reaches
    exact not_mem_cons_of_includes h.not_cyclic fresh ⟨lines, l, t, opens, member, names, rfl⟩
      reaches
  obtain ⟨reading, read, same⟩ := spliced.exists_flattenLines deeper 1 log
  exact ⟨reading, flattenFile_eq_ok_iff.2 ⟨fresh p .refl, lines, opens, read⟩, same⟩

/-- A file is read, with nothing on the chain, where it is put together. -/
lemma Flat.exists_flattenFile_alone {out : List Text} (h : Flat fs p out) :
    ∃ reading, flattenFile fs [] p #[] = .ok reading ∧ reading.lines = out :=
  h.exists_flattenFile [] (fun _ _ => List.not_mem_nil) #[]

/-- A file that nothing includes yet is read where it can be put together. -/
lemma exists_flattenFile_iff : (∃ reading, flattenFile fs [] p #[] = .ok reading) ↔
    (∀ q, Reaches fs p q → IsSound fs q) ∧
      ∀ q, Reaches fs p q → ¬ Relation.TransGen (Includes fs) q q := by
  constructor
  · rintro ⟨reading, read⟩
    have flat := flat_of_flattenFile read
    constructor
    · intro q reaches
      obtain ⟨inner, there, -⟩ := flat.of_reaches reaches
      exact there.isSound
    · intro q reaches
      obtain ⟨inner, there, -⟩ := flat.of_reaches reaches
      exact there.not_cyclic
  · rintro ⟨sound, acyclic⟩
    obtain ⟨out, flat⟩ := exists_flat [] sound acyclic (fun q _ => List.not_mem_nil)
    obtain ⟨reading, read, -⟩ := flat.exists_flattenFile_alone
    exact ⟨reading, read⟩

lemma Spliced.visible {lines out : List Text} (h : Spliced fs p lines out) :
    ∀ line ∈ out, Text.strip line ≠ [] ∧ ¬ IsBang line := by
  induction h with
  | nil => intro line member; cases member
  | blank _ _ ih => exact ih
  | verbatim visible plain _ ih =>
    rintro line (_ | ⟨_, later⟩)
    · exact ⟨visible, plain⟩
    · exact ih line later
  | included _ _ _ _ within_ih ih =>
    intro line member
    rcases List.mem_append.1 member with inside | later
    · exact within_ih line inside
    · exact ih line later

/-- What a line of a file gives: itself, or the lines of the file that it names, as it is read from
the including file's directory when nothing includes it. -/
def Gives (fs : FileSystem) (p : Path) (line : Text) (piece : List Text) : Prop :=
  (¬ IsBang line ∧ piece = [line]) ∨ ∃ target inner, Names line target ∧
    flatten fs p.parent target = .ok inner ∧ piece = inner.lines

lemma Spliced.exists_pieces {lines out : List Text} (h : Spliced fs p lines out) :
    ∃ pieces, List.Forall₂ (Gives fs p) (lines.filter fun line => !(Text.strip line).isEmpty)
      pieces ∧ out = pieces.flatten := by
  induction h with
  | nil => exact ⟨[], .nil, rfl⟩
  | blank empty _ ih =>
    rw [List.filter_cons_of_neg (by simp [empty])]
    exact ih
  | @verbatim p line rest out visible plain _ ih =>
    obtain ⟨pieces, each, rfl⟩ := ih
    rw [List.filter_cons_of_pos (by simpa using visible)]
    exact ⟨[line] :: pieces, .cons (.inl ⟨plain, rfl⟩) each, rfl⟩
  | included names opens within _ _ ih =>
    obtain ⟨pieces, each, rfl⟩ := ih
    rw [List.filter_cons_of_pos (by simpa using names.isBang.strip_ne_nil)]
    obtain ⟨inner, read, rfl⟩ := Flat.exists_flattenFile_alone ⟨_, opens, within⟩
    exact ⟨inner.lines :: pieces, .cons (.inr ⟨_, inner, names, read, rfl⟩) each, rfl⟩

lemma Spliced.of_append {lines more out : List Text} (h : Spliced fs p (lines ++ more) out) :
    ∃ first second, Spliced fs p lines first ∧ Spliced fs p more second ∧
      out = first ++ second := by
  induction lines generalizing out with
  | nil => exact ⟨[], out, .nil, h, rfl⟩
  | cons line lines ih =>
    cases h with
    | blank empty others =>
      obtain ⟨first, second, before, after, rfl⟩ := ih others
      exact ⟨first, second, .blank empty before, after, rfl⟩
    | verbatim visible plain others =>
      obtain ⟨first, second, before, after, rfl⟩ := ih others
      exact ⟨line :: first, second, .verbatim visible plain before, after, rfl⟩
    | included names opens within others =>
      obtain ⟨first, second, before, after, rfl⟩ := ih others
      exact ⟨_, second, .included names opens within before, after, by simp⟩

/-- Two lines of a file, one behind the other, both lead to another file. -/
def LeadsTwice (fs : FileSystem) (p q : Path) : Prop :=
  ∃ before first middle second after target₁ target₂,
    HasLines fs p (before ++ first :: (middle ++ second :: after)) ∧
    Names first target₁ ∧ Reaches fs (p.parent.resolve target₁) q ∧
    Names second target₂ ∧ Reaches fs (p.parent.resolve target₂) q

/-- Lines that hold a copy of other lines and, behind it, another one. -/
def HoldsTwice (lines inner : List Text) : Prop :=
  ∃ before between after, lines = before ++ (inner ++ (between ++ (inner ++ after)))

lemma HoldsTwice.widen {lines wider inner : List Text} (h : HoldsTwice lines inner)
    (inside : lines <:+: wider) : HoldsTwice wider inner := by
  obtain ⟨before, between, after, rfl⟩ := h
  obtain ⟨front, back, rfl⟩ := inside
  exact ⟨front ++ before, between, after ++ back, by simp⟩

lemma Flat.holdsTwice {out inner : List Text} (h : Flat fs p out) (twice : LeadsTwice fs p q)
    (there : Flat fs q inner) : HoldsTwice out inner := by
  obtain ⟨before, first, middle, second, after, target₁, target₂, opens, names₁, reaches₁, names₂,
    reaches₂⟩ := twice
  obtain ⟨lines, opens', spliced⟩ := h
  cases hasLines_unique opens opens'
  -- The lines are parted behind the first of the two, and each part holds a copy.
  rw [← List.cons_append, ← List.append_assoc] at spliced
  obtain ⟨out₁, out₂, spliced₁, spliced₂, rfl⟩ := spliced.of_append
  have copy {lines' out' : List Text} (part : Spliced fs p lines' out') {line target : Text}
      (member : line ∈ lines') (names : Names line target)
      (reaches : Reaches fs (p.parent.resolve target) q) : inner <:+: out' := by
    obtain ⟨target', out'', names', flat, inside⟩ := part.of_isBang member names.isBang
    cases names.unique names'
    obtain ⟨inner', there', inside'⟩ := flat.of_reaches reaches
    cases there.unique there'
    exact inside'.trans inside
  obtain ⟨front₁, back₁, rfl⟩ := copy spliced₁ (by simp) names₁ reaches₁
  obtain ⟨front₂, back₂, rfl⟩ := copy spliced₂ (by simp) names₂ reaches₂
  exact ⟨front₁, back₁ ++ front₂, back₂, by simp⟩

end

/-- A file is read to the end if and only if every file that it leads to can be read and has
well-formed include lines only, and none of them leads back to itself. What is read is made of the
lines of the file that are not blank: each of them as it is, or the lines of the file that it names,
which are the same whatever files include it. So no blank line and no include line is left, and a
file to which two lines lead is there twice. -/
theorem flatten_spec (fs : FileSystem) (here : Path) (path : Text) :
    ((∃ reading, flatten fs here path = .ok reading) ↔
      (∀ q, Reaches fs (here.resolve path) q → IsSound fs q) ∧
      ∀ q, Reaches fs (here.resolve path) q → ¬ Relation.TransGen (Includes fs) q q) ∧
    (∀ reading, flatten fs here path = .ok reading →
      (∃ lines pieces, HasLines fs (here.resolve path) lines ∧
        List.Forall₂ (Gives fs (here.resolve path))
          (lines.filter fun line => !(Text.strip line).isEmpty) pieces ∧
        reading.lines = pieces.flatten) ∧
      (∀ line ∈ reading.lines, Text.strip line ≠ [] ∧ ¬ IsBang line) ∧
      ∀ p q inner, Reaches fs (here.resolve path) p → LeadsTwice fs p q →
        flattenFile fs [] q #[] = .ok inner → HoldsTwice reading.lines inner.lines) ∧
    ∀ chain q log reading, flattenFile fs chain q log = .ok reading →
      ∃ alone, flattenFile fs [] q #[] = .ok alone ∧ reading.lines = alone.lines := by
  refine ⟨exists_flattenFile_iff, fun reading read => ?_, fun chain q log reading read => ?_⟩
  · have flat := flat_of_flattenFile read
    obtain ⟨lines, opens, spliced⟩ := id flat
    obtain ⟨pieces, each, joined⟩ := spliced.exists_pieces
    refine ⟨⟨lines, pieces, opens, each, joined⟩, spliced.visible, ?_⟩
    intro p q inner reaches twice alone
    obtain ⟨out, there, inside⟩ := flat.of_reaches reaches
    exact (there.holdsTwice twice (flat_of_flattenFile alone)).widen inside
  · obtain ⟨alone, read', same⟩ := (flat_of_flattenFile read).exists_flattenFile_alone
    exact ⟨alone, read', same.symm⟩

/-- Four files at the root: two that are included by the first and include the last. -/
def diamond : FileSystem :=
  ⟨[(["main".toList], "!include \"left\"\n\n !Include \"right\"".toUTF8),
    (["left".toList], "!INCLUDE \"/last\"".toUTF8),
    (["right".toList], "a: nop\n!include \"last\"".toUTF8),
    (["last".toList], "b a".toUTF8)], [], []⟩

lemma diamond_hasLines (name text : String)
    (plain : FileSystem.hasNul (Path.text ⟨false, [name.toList]⟩) = false)
    (found : diamond.file? [name.toList] = some text.toUTF8) :
    HasLines diamond ⟨false, [name.toList]⟩ (Text.lines text.toList) :=
  hasLines_of_file? text plain rfl found

/-- The last file is read twice, on either side of the line between. -/
theorem flatten_spec_diamond : ∃ reading,
    flatten diamond ⟨false, []⟩ "main".toList = .ok reading ∧
    reading.lines = ["b a".toList, "a: nop".toList, "b a".toList] ∧
    HoldsTwice reading.lines ["b a".toList] := by
  have main := diamond_hasLines "main" "!include \"left\"\n\n !Include \"right\"" rfl rfl
  have left := diamond_hasLines "left" "!INCLUDE \"/last\"" rfl rfl
  have right := diamond_hasLines "right" "a: nop\n!include \"last\"" rfl rfl
  have last := diamond_hasLines "last" "b a" rfl rfl
  have inLast : Spliced diamond ⟨false, ["last".toList]⟩ ["b a".toList] ["b a".toList] :=
    .verbatim (by decide) (by decide) .nil
  have toLeft : Names "!include \"left\"".toList "left".toList := target?_eq_some_iff.1 (by rfl)
  have toRight : Names " !Include \"right\"".toList "right".toList :=
    target?_eq_some_iff.1 (by rfl)
  have leftToLast : Names "!INCLUDE \"/last\"".toList "/last".toList :=
    target?_eq_some_iff.1 (by rfl)
  have rightToLast : Names "!include \"last\"".toList "last".toList :=
    target?_eq_some_iff.1 (by rfl)
  have inLeft : Spliced diamond ⟨false, ["left".toList]⟩ ["!INCLUDE \"/last\"".toList]
      (["b a".toList] ++ []) := .included leftToLast last inLast .nil
  have inRight : Spliced diamond ⟨false, ["right".toList]⟩
      ["a: nop".toList, "!include \"last\"".toList] ("a: nop".toList :: (["b a".toList] ++ [])) :=
    .verbatim (by decide) (by decide) (.included rightToLast last inLast .nil)
  have inMain : Spliced diamond ⟨false, ["main".toList]⟩
      ["!include \"left\"".toList, [], " !Include \"right\"".toList]
      (["b a".toList] ++ (["a: nop".toList, "b a".toList] ++ [])) :=
    .included toLeft left inLeft (.blank rfl (.included toRight right inRight .nil))
  obtain ⟨reading, read, lines⟩ := Flat.exists_flattenFile_alone ⟨_, main, inMain⟩
  obtain ⟨alone, readAlone, same⟩ := Flat.exists_flattenFile_alone ⟨_, last, inLast⟩
  have twice : LeadsTwice diamond ⟨false, ["main".toList]⟩ ⟨false, ["last".toList]⟩ :=
    ⟨[], _, [[]], _, [], _, _, main, toLeft, .single ⟨_, _, _, left, by decide, leftToLast, rfl⟩,
      toRight, .single ⟨_, _, _, right, by decide, rightToLast, rfl⟩⟩
  have holds := ((flatten_spec diamond ⟨false, []⟩ "main".toList).2.1 reading read).2.2 _ _ _
    .refl twice readAlone
  exact ⟨reading, read, lines, same ▸ holds⟩

end Include
end Mips64
