import SuiteAtlas.Text.Case
import SuiteAtlas.Text.Numeral

/-!
Names of text styles.

A style is a row of words: attributes, each of which may be negated, a colour of the text, one of
the background behind `on`, and an address behind `link`. Several rows name one style; `normalName`
is the same for all of them. A row that names no style stands for itself, in lower case. The three
components of a colour are numbers in digits of any script; one that is left out, or too long to be
read, is an error.
-/

namespace SuiteAtlas.Console

open Text (isBlank)

/-- The words of the attributes, each with its place in a normal name and the name it has there. -/
def attributeWords : List (String × Nat × String) := [
  ("bold", 0, "bold"), ("b", 0, "bold"), ("dim", 1, "dim"), ("d", 1, "dim"),
  ("italic", 2, "italic"), ("i", 2, "italic"), ("underline", 3, "underline"),
  ("u", 3, "underline"), ("blink", 4, "blink"), ("blink2", 5, "blink2"),
  ("reverse", 6, "reverse"), ("r", 6, "reverse"), ("conceal", 7, "conceal"), ("c", 7, "conceal"),
  ("strike", 8, "strike"), ("s", 8, "strike"), ("underline2", 9, "underline2"),
  ("uu", 9, "underline2"), ("frame", 10, "frame"), ("encircle", 11, "encircle"),
  ("overline", 12, "overline"), ("o", 12, "overline")]

def colourNames : List String :=
  ("black red green yellow blue magenta cyan white bright_black bright_red bright_green " ++
    "bright_yellow bright_blue bright_magenta bright_cyan bright_white navy_blue dark_blue " ++
    "blue3 blue1 dark_green deep_sky_blue4 dodger_blue3 dodger_blue2 green4 spring_green4 " ++
    "turquoise4 deep_sky_blue3 dodger_blue1 green3 spring_green3 dark_cyan light_sea_green " ++
    "deep_sky_blue2 deep_sky_blue1 spring_green2 cyan3 dark_turquoise turquoise2 green1 " ++
    "spring_green1 medium_spring_green cyan2 cyan1 dark_red deep_pink4 purple4 purple3 " ++
    "blue_violet orange4 medium_purple4 slate_blue3 royal_blue1 chartreuse4 dark_sea_green4 " ++
    "pale_turquoise4 steel_blue steel_blue3 cornflower_blue chartreuse3 cadet_blue sky_blue3 " ++
    "steel_blue1 pale_green3 sea_green3 aquamarine3 medium_turquoise chartreuse2 sea_green2 " ++
    "sea_green1 aquamarine1 dark_slate_gray2 dark_magenta dark_violet purple light_pink4 " ++
    "plum4 medium_purple3 slate_blue1 yellow4 wheat4 light_slate_grey light_slate_gray " ++
    "medium_purple light_slate_blue dark_olive_green3 dark_sea_green light_sky_blue3 " ++
    "sky_blue2 dark_sea_green3 dark_slate_gray3 sky_blue1 chartreuse1 light_green pale_green1 " ++
    "dark_slate_gray1 red3 medium_violet_red magenta3 dark_orange3 indian_red hot_pink3 " ++
    "medium_orchid3 medium_orchid medium_purple2 dark_goldenrod light_salmon3 rosy_brown " ++
    "medium_purple1 gold3 dark_khaki navajo_white3 light_steel_blue3 light_steel_blue yellow3 " ++
    "dark_sea_green2 light_cyan3 light_sky_blue1 green_yellow dark_olive_green2 " ++
    "dark_sea_green1 pale_turquoise1 deep_pink3 magenta2 hot_pink2 orchid medium_orchid1 " ++
    "orange3 light_pink3 pink3 plum3 violet light_goldenrod3 tan misty_rose3 thistle3 plum2 " ++
    "khaki3 light_goldenrod2 light_yellow3 light_steel_blue1 yellow2 dark_olive_green1 " ++
    "honeydew2 light_cyan1 red1 deep_pink2 deep_pink1 magenta1 orange_red1 indian_red1 " ++
    "hot_pink dark_orange salmon1 light_coral pale_violet_red1 orchid2 orchid1 orange1 " ++
    "sandy_brown light_salmon1 light_pink1 pink1 plum1 gold1 navajo_white1 misty_rose1 " ++
    "thistle1 yellow1 light_goldenrod1 khaki1 wheat1 cornsilk1 default").splitOn " "

def greyShades : List Nat :=
  [0, 3, 7, 11, 15, 19, 23, 27, 30, 35, 37, 39, 42, 46, 50, 53, 54, 58, 62, 63, 66, 69, 70, 74, 78,
    82, 84, 85, 89, 93, 100]

/-- What stands between a start and an end of a text. -/
def between? (start stop text : List Char) : Option (List Char) :=
  (Text.after? start text).bind fun rest =>
    if stop.isSuffixOf rest then some (rest.take (rest.length - stop.length)) else none

/-- Why a component of a colour is no number. -/
inductive StyleError
  | emptyComponent
  | tooManyDigits (count : Nat)
  deriving DecidableEq, Repr

def StyleError.message : StyleError → String
  | .emptyComponent => "invalid literal for int() with base 10: \x27\x27"
  | .tooManyDigits count => Text.tooManyDigitsMessage count

/-- The number that a component of a colour writes, in digits of any script. -/
def component (digits : List Char) : Except StyleError Nat :=
  if digits.isEmpty then .error .emptyComponent
  else if digits.length > Text.integerDigitLimit then .error (.tooManyDigits digits.length)
  else .ok (Text.natOfDigits (digits.map Text.toAsciiDigit))

/-- The components of a colour: three texts of digits between commas. -/
def components? (word : List Char) : Option (List (List Char)) :=
  (between? "rgb(".toList [')'] word).bind fun inner =>
    let parts := inner.splitOn ','
    if parts.length == 3 && parts.flatten.all Text.isDigit then some parts else none

def isHexDigit (c : Char) : Bool :=
  Text.isAsciiDigit c || ('a' ≤ c && c ≤ 'f')

/-- Whether a text is the number of a colour: up to three digits that write less than 256. -/
def isColourNumber (text : List Char) : Bool :=
  !text.isEmpty && text.length ≤ 3 && text.all Text.isAsciiDigit && Text.natOfDigits text < 256

/-- Whether a word is the name of a colour, its number, or its components in hexadecimal digits. -/
def isPlainColour (word : String) : Bool :=
  colourNames.contains word ||
    greyShades.any (fun n => word == s!"grey{n}" || word == s!"gray{n}") ||
    (match word.toList with
      | '#' :: digits => digits.length == 6 && digits.all isHexDigit
      | _ => false) ||
    (between? "color(".toList [')'] word.toList).any isColourNumber

def isColour (word : String) : Except StyleError Bool := do
  if isPlainColour word then return true
  else
    match components? word.toList with
    | some parts => return (← parts.mapM component).all (· < 256)
    | none => return false

/-- A style: the attributes that are set or taken away, by place, and what else it changes. -/
structure Style where
  attributes : List (Nat × String) := []
  colour : Option String := none
  background : Option String := none
  link : Option String := none
  deriving DecidableEq, Repr

namespace Style

def lower (word : String) : String :=
  String.ofList (Text.lower word.toList)

def withAttribute (s : Style) (place : Nat) (name : String) : Style :=
  { s with attributes := (place, name) :: s.attributes.filter fun a => a.1 != place }

/-- The style that a word for an attribute or a colour adds to another one. -/
def addWord? (s : Style) (word : String) : Except StyleError (Option Style) := do
  match attributeWords.lookup word with
  | some (place, name) => return some (s.withAttribute place name)
  | none => return if ← isColour word then some { s with colour := some word } else none

def addWords? (s : Style) : List String → Except StyleError (Option Style)
  | [] => .ok (some s)
  | [word] => s.addWord? (lower word)
  | word :: next :: rest => do
    let name := lower word
    if name == "on" then
      if ← isColour (lower next) then addWords? { s with background := some (lower next) } rest
      else return none
    else if name == "not" then
      match attributeWords.lookup next with
      | some (place, name) => addWords? (s.withAttribute place s!"not {name}") rest
      | none => return none
    else if name == "link" then addWords? { s with link := some next } rest
    else
      match ← s.addWord? name with
      | some s => addWords? s (next :: rest)
      | none => return none

/-- The normal name of a style; a style that changes nothing is called `none`. -/
def name (s : Style) : String :=
  let attributes := (s.attributes.mergeSort fun a b => a.1 ≤ b.1).map Prod.snd
  let words := attributes ++ s.colour.toList ++ (s.background.map ("on " ++ ·)).toList ++
    (s.link.map ("link " ++ ·)).toList
  if words.isEmpty then "none" else " ".intercalate words

def ofText? (text : List Char) : Except StyleError (Option Style) :=
  let words := ((text.splitOnP isBlank).filter fun word => !word.isEmpty).map String.ofList
  if words == ["none"] then .ok (some {}) else addWords? {} words

end Style

def normalName (text : List Char) : Except StyleError String := do
  match ← Style.ofText? text with
  | some style => return style.name
  | none => return Style.lower (String.ofList (Text.trim text))

end SuiteAtlas.Console
