import Mips64.Failure
import Mips64.Macro.Layout

/-! Templates: lines with placeholders between braces. A placeholder is filled by an argument,
chosen by its index or, where it has none, by its turn; a doubled brace stands for itself. A
template is read into pieces, and the pieces are filled from left to right, so that what is wrong
with a template shows where filling comes to it. -/
namespace Mips64.Template

/-- A placeholder: the name of an argument with accesses to parts of it, a conversion behind an
exclamation mark, and a layout behind a colon. -/
structure Placeholder where
  field : Text
  conversion : Option Char
  layout : Text
  deriving DecidableEq, Repr

/-- A piece of a template. Behind a broken piece there are no more. -/
inductive Piece
  | plain (c : Char)
  | placeholder (p : Placeholder)
  | broken
  deriving DecidableEq, Repr

/-- Where the reading of a template stands, with what has been read of a placeholder. Between
brackets a field may hold any character, and in a layout braces are counted. -/
inductive Position
  | outside
  | field (field : Text) (bracketed : Bool)
  | conversion (field : Text)
  | converted (field : Text) (conversion : Char)
  | layout (field : Text) (conversion : Option Char) (depth : Nat) (layout : Text)
  deriving DecidableEq, Repr

/-- The pieces of a template from a position on. -/
def piecesFrom : Position → Text → List Piece
  | .outside, [] => []
  | _, [] => [.broken]
  | .outside, '\x7b' :: '\x7b' :: rest => .plain '\x7b' :: piecesFrom .outside rest
  | .outside, '\x7d' :: '\x7d' :: rest => .plain '\x7d' :: piecesFrom .outside rest
  | .outside, c :: rest =>
    if c = '\x7b' then piecesFrom (.field [] false) rest
    else if c = '\x7d' then [.broken]
    else .plain c :: piecesFrom .outside rest
  | .field field true, c :: rest => piecesFrom (.field (field ++ [c]) (c != ']')) rest
  | .field field false, c :: rest =>
    if c = '\x7b' then [.broken]
    else if c = '\x7d' then .placeholder ⟨field, none, []⟩ :: piecesFrom .outside rest
    else if c = '!' then piecesFrom (.conversion field) rest
    else if c = ':' then piecesFrom (.layout field none 0 []) rest
    else piecesFrom (.field (field ++ [c]) (c == '[')) rest
  | .conversion field, c :: rest => piecesFrom (.converted field c) rest
  | .converted field conversion, c :: rest =>
    if c = '\x7d' then .placeholder ⟨field, some conversion, []⟩ :: piecesFrom .outside rest
    else if c = ':' then piecesFrom (.layout field (some conversion) 0 []) rest
    else [.broken]
  | .layout field conversion depth layout, c :: rest =>
    if c = '\x7b' then piecesFrom (.layout field conversion (depth + 1) (layout ++ [c])) rest
    else if c = '\x7d' then
      match depth with
      | 0 => .placeholder ⟨field, conversion, layout⟩ :: piecesFrom .outside rest
      | outer + 1 => piecesFrom (.layout field conversion outer (layout ++ [c])) rest
    else piecesFrom (.layout field conversion depth (layout ++ [c])) rest

def pieces (template : Text) : List Piece := piecesFrom .outside template

/-- How the placeholders of a template have chosen their arguments so far. -/
inductive Numbering
  | undecided
  | byTurn (next : Nat)
  | byIndex
  deriving DecidableEq, Repr

/-- The index that a name denotes; none where it has a character that is no decimal digit, or none
at all. A number that is too large is at fault as soon as it is. -/
def index? (name : Text) : Except Fault (Option Nat) :=
  match numberFrom? 0 name with
  | none => .error .templateNumbering
  | some (index, rest) => .ok (if rest.isEmpty && !name.isEmpty then some index else none)

def argument (arguments : List Text) (index : Nat) : Except Fault Text :=
  match arguments[index]? with
  | some text => .ok text
  | none => .error .placeholderOutOfRange

/-- The argument of a name, and the numbering after it. Turns and indices do not mix. -/
def choose (arguments : List Text) (numbering : Numbering) (name : Text) :
    Except Fault (Numbering × Text) := do
  match ← index? name with
  | some index =>
    match numbering with
    | .byTurn _ => .error .templateNumbering
    | _ => return (.byIndex, ← argument arguments index)
  | none =>
    if name.isEmpty then
      match numbering with
      | .byIndex => .error .templateNumbering
      | .undecided => return (.byTurn 1, ← argument arguments 0)
      | .byTurn next => return (.byTurn (next + 1), ← argument arguments next)
    else .error .namedPlaceholder

/-- Whether a character starts an access to a part of an argument. -/
def startsAccess (c : Char) : Bool := c == '.' || c == '['

def item (text name : Text) : Except Fault Text := do
  match ← index? name with
  | some index =>
    match text[index]? with
    | some c => return [c]
    | none => .error .placeholderOutOfRange
  | none => .error (if name.isEmpty then .templateField else .placeholderKey)

/-- The part of a text that accesses lead to. An index between brackets leads to a character, where
`name` is what has been read of it. Templates that ask for a part by its name, behind a dot, are
outside the model: they end in a fault, whatever the name. -/
def access (text : Text) : (name : Option Text) → Text → Except Fault Text
  | none, [] => .ok text
  | some _, [] => .error .templateField
  | none, c :: rest =>
    if c = '[' then access text (some []) rest
    else if c = '.' && !(rest.takeWhile (fun d => !startsAccess d)).isEmpty then
      .error .placeholderPart
    else .error .templateField
  | some name, c :: rest =>
    if c = ']' then do
      let part ← item text name
      access part none rest
    else access text (some (name ++ [c])) rest

/-- The text after a conversion: as it is or between quotes. The null character converts nothing. -/
def convert (text : Text) : Option Char → Except Fault Text
  | none | some '\x00' | some 's' => .ok text
  | some 'r' => .ok (Text.quoted text)
  | some 'a' => .ok (Text.quotedAscii text)
  | some _ => .error .templateField

/-- The text in a layout that is written out. -/
def lay (layout text : Text) : Except Fault Text :=
  match Layout.ofText? layout with
  | some l => .ok (l.apply text)
  | none => .error .templateField

/-- The text of a placeholder, and the numbering after it. A layout with braces is a template, which
`nested` fills. -/
def fillPlaceholder (nested : Numbering → Text → Except Fault (Numbering × Text))
    (arguments : List Text) (numbering : Numbering) (p : Placeholder) :
    Except Fault (Numbering × Text) := do
  let name := p.field.takeWhile (fun c => !startsAccess c)
  let (chosen, argument) ← choose arguments numbering name
  let part ← access argument none (p.field.drop name.length)
  let text ← convert part p.conversion
  let (next, layout) ←
    if p.layout.contains '\x7b' then nested chosen p.layout else .ok (chosen, p.layout)
  return (next, ← lay layout text)

/-- The text of pieces, and the numbering after them. -/
def fillPieces (nested : Numbering → Text → Except Fault (Numbering × Text))
    (arguments : List Text) : Numbering → List Piece → Except Fault (Numbering × Text)
  | numbering, [] => .ok (numbering, [])
  | numbering, .plain c :: rest => do
    let (last, text) ← fillPieces nested arguments numbering rest
    return (last, c :: text)
  | numbering, .placeholder p :: rest => do
    let (next, filled) ← fillPlaceholder nested arguments numbering p
    let (last, text) ← fillPieces nested arguments next rest
    return (last, filled ++ text)
  | _, .broken :: _ => .error .templateBrace

/-- The text of a template whose layouts nest to at most this many levels. -/
def fillWithin (arguments : List Text) :
    (levels : Nat) → Numbering → Text → Except Fault (Numbering × Text)
  | 0, _, _ => .error .templateField
  | levels + 1, numbering, template =>
    fillPieces (fillWithin arguments levels) arguments numbering (pieces template)

/-- The levels of templates: a template and the layouts in it. -/
def maxLevels : Nat := 2

def fill (template : Text) (arguments : List Text) : Except Fault Text :=
  (fillWithin arguments maxLevels .undecided template).map Prod.snd

example : fill "\x7b1\x7d \x7b0\x7d\x7b\x7bx\x7d\x7d".toList ["a".toList, "b".toList] =
    .ok "b a\x7bx\x7d".toList := by rfl
example : fill "\x7b\x7d \x7b0\x7d".toList ["a".toList] = .error .templateNumbering := by rfl
example : fill "\x7b2\x7d".toList ["a".toList] = .error .placeholderOutOfRange := by rfl
example : fill "\x7b2[\x7d".toList ["a".toList] = .error .templateBrace := by rfl
example : fill "\x7bx\x7d".toList ["a".toList] = .error .namedPlaceholder := by rfl
example : fill "\x7b0!\x00\x7d".toList ["a".toList] = .ok "a".toList := by rfl
example : fill "x \x7d".toList [] = .error .templateBrace := by rfl

end Mips64.Template
