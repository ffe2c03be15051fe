import SuiteAtlas.Console.Action
import SuiteAtlas.Console.Style

/-!
Markup in printed text.

A tag stands between square brackets and starts with a lower-case letter or one of `#`, `/`, `@`.
An opening tag names a style, or, behind the sign `@`, an action; parameters may follow an equals
sign. A tag with a slash closes the last open tag of its name, or the last one of all. Backslashes
in front of a tag are escapes: each pair stands for one of them, and a last one without a partner
makes the tag ordinary text.

`shown` is the text that remains when the tags are taken out, and `escape` guards a text against
being read as markup.
-/

namespace SuiteAtlas.Console.Markup

/-- Why a text is no markup: a closing tag has no open one to close, or a tag cannot be read. -/
inductive Error
  | unmatched (tag : String) (position : Nat)
  | nothingOpen (position : Nat)
  | action (fault : Action.Fault)
  | style (error : StyleError)
  deriving DecidableEq, Repr

def Error.message : Error → String
  | .unmatched tag position =>
    s!"closing tag '{tag}' at position {position} doesn't match any open tag"
  | .nothingOpen position => s!"closing tag '[/]' at position {position} has nothing to close"
  | .action fault => fault.message
  | .style error => error.message

/-- A piece of markup: ordinary text, or a tag at a position of the source. -/
inductive Piece
  | text (shown : List Char)
  | tag (position : Nat) (content : List Char)
  deriving DecidableEq, Repr

def startsTag (c : Char) : Bool :=
  ('a' ≤ c && c ≤ 'z') || c == '#' || c == '/' || c == '@'

def isBracket (c : Char) : Bool :=
  c == '[' || c == ']'

/-- The content of a tag whose opening bracket was just read. -/
def tagContent? (rest : List Char) : Option (List Char) :=
  if rest.head?.any startsTag then
    if (rest.dropWhile fun c => !isBracket c).head? = some ']' then
      some (rest.takeWhile fun c => !isBracket c)
    else none
  else none

/-- Ordinary text as it is shown: a backslash in front of an opening bracket guards it. -/
def unguard : List Char → List Char
  | [] => []
  | '\\' :: '[' :: rest => '[' :: unguard rest
  | c :: rest => c :: unguard rest

/-- The piece of ordinary text that was collected, last character first, unless it is empty. -/
def textPiece (collected : List Char) : List Piece :=
  if collected.isEmpty then [] else [.text (unguard collected.reverse)]

/-- The pieces that a tag and the backslashes in front of it make. -/
def tagPieces (position backslashes : Nat) (content : List Char) : List Piece :=
  let pairs := backslashes / 2
  let shown := if pairs = 0 then [] else [.text (List.replicate pairs '\\')]
  let last :=
    if backslashes % 2 = 1 then .text ('[' :: content ++ [']'])
    else .tag (position + 2 * pairs) content
  shown ++ [last]

/-- The pieces of the rest of a text at `position`, with the text collected before it. -/
def piecesFrom (position : Nat) (collected rest : List Char) : List Piece :=
  match rest with
  | [] => textPiece collected
  | c :: rest =>
    match if c = '[' then tagContent? rest else none with
    | some content =>
      let backslashes := collected.takeWhile (· == '\\')
      textPiece (collected.drop backslashes.length) ++
        tagPieces (position - backslashes.length) backslashes.length content ++
        piecesFrom (position + content.length + 2) [] (rest.drop (content.length + 1))
    | none => piecesFrom (position + 1) (c :: collected) rest
  termination_by rest.length
  decreasing_by all_goals (simp only [List.length_cons, List.length_drop]; omega)

def pieces (text : List Char) : List Piece :=
  piecesFrom 0 [] text

/-- An open tag: its normal name, what stands behind the equals sign if there is one, and the number
of shown characters before it. -/
structure OpenTag where
  name : String
  parameters : Option (List Char)
  start : Nat
  deriving DecidableEq, Repr

/-- A style that a tag gives to the text from a place on. -/
structure TagStyle where
  start : Nat
  text : List Char
  deriving DecidableEq, Repr

/-- The style that a tag gives; its parameters are more words of it. -/
def OpenTag.style (tag : OpenTag) : TagStyle :=
  ⟨tag.start, tag.name.toList ++ (tag.parameters.map (' ' :: ·)).getD []⟩

/-- What closing a tag gives: an action no style, but its parameters are read. -/
def OpenTag.close (tag : OpenTag) : Except Error (Option TagStyle) :=
  if tag.name.startsWith "@" then
    match (tag.parameters.filter fun text => !text.isEmpty).bind Action.fault? with
    | some fault => .error (.action fault)
    | none => .ok none
  else .ok (some tag.style)

/-- The name in a tag, and what stands behind the equals sign if there is one. -/
def splitTag (content : List Char) : List Char × Option (List Char) :=
  (content.takeWhile (· != '='), (content.dropWhile (· != '=')).tail?)

def normalName (text : List Char) : Except Error String :=
  (Console.normalName text).mapError .style

/-- What one tag makes of the open tags, where `start` characters are shown before it, and the style
that it ends. -/
def applyTag (start : Nat) (openTags : List OpenTag) (position : Nat) (content : List Char) :
    Except Error (List OpenTag × Option TagStyle) := do
  let (name, parameters) := splitTag content
  match name with
  | '/' :: name =>
    if (Text.trim name).isEmpty then
      match openTags with
      | tag :: rest => return (rest, ← tag.close)
      | [] => throw (.nothingOpen position)
    else
      let name ← normalName (Text.trim name)
      match openTags.find? fun tag => tag.name == name with
      | some tag => return (openTags.eraseP fun tag => tag.name == name, ← tag.close)
      | none => throw (.unmatched (String.ofList ('[' :: content ++ [']'])) position)
  | name => return (⟨← normalName name, parameters, start⟩ :: openTags, none)

def isUnprinted (c : Char) : Bool :=
  c.toNat == 7 || c.toNat == 8 || (11 ≤ c.toNat && c.toNat ≤ 13)

def printed (text : List Char) : List Char :=
  text.filter fun c => !isUnprinted c

/-- The text that pieces show behind `start` characters, with the tags that are open before them;
and the styles in it, the one that ends last first. Tags that are never closed end with the text. -/
def readPieces (start : Nat) (openTags : List OpenTag) :
    List Piece → Except Error (List Char × List TagStyle)
  | [] => .ok ([], openTags.reverse.map OpenTag.style)
  | .text shown :: rest => do
    let shown := printed shown
    let (more, styles) ← readPieces (start + shown.length) openTags rest
    return (shown ++ more, styles)
  | .tag position content :: rest => do
    let (openTags, ended) ← applyTag start openTags position content
    let (more, styles) ← readPieces start openTags rest
    return (more, styles ++ ended.toList)

/-- The text that markup shows. It is shown only if all its styles can be read, in the order in
which they start. -/
def shown (text : List Char) : Except Error (List Char) := do
  let (shown, styles) ← readPieces 0 [] (pieces text)
  (styles.mergeSort fun a b => a.start ≤ b.start).forM fun style =>
    (Style.ofText? style.text).mapError Error.style *> pure ()
  return shown

/-- Escapes the rest of a text, where `collected` are the backslashes just before it: in front of
a tag they are doubled, and one more is added. -/
def escapeFrom (collected rest : List Char) : List Char :=
  match rest with
  | [] => collected
  | c :: rest =>
    if c = '\\' then escapeFrom (c :: collected) rest
    else
      match if c = '[' then tagContent? rest else none with
      | some content =>
        collected ++ collected ++ '\\' :: c :: content ++ ']' ::
          escapeFrom [] (rest.drop (content.length + 1))
      | none => collected ++ c :: escapeFrom [] rest
  termination_by rest.length
  decreasing_by all_goals (simp only [List.length_cons, List.length_drop]; omega)

/-- A text in which no tag is read. A single backslash at the end is doubled, too. -/
def escape (text : List Char) : List Char :=
  let escaped := escapeFrom [] text
  if (escaped.reverse.takeWhile (· == '\\')).length = 1 then escaped ++ ['\\'] else escaped

end SuiteAtlas.Console.Markup
