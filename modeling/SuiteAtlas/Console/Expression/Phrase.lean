import SuiteAtlas.Console.Expression.Literal
import Std.Data.HashMap

/-!
Grammars as data, and the reading of tokens by them.

A `Phrase` describes a row of tokens with choices in a fixed order: the first choice that can be
read is taken. A named phrase is a rule, whose reading is remembered where the rule says so. What
can be read has a kind, which is the last one that was given to a part of it.

Tokens are read twice: once to see whether they can be read, and once more with the refusals in the
grammar that say what is wrong, or, if they could be read, with those that say why what they write
has no value. A reader that gets to the end of the tokens before the text ends stops at the fault
that stands there.
-/

namespace SuiteAtlas.Console.Expression

/-- The readings of tokens by a grammar: to see whether they can be read, to say why they cannot, or
to say whether what they write has a value. -/
inductive Stage
  | check
  | explain
  | value
  deriving DecidableEq, Repr

/-- A description of rows of tokens, over rules that have names. A constant is a number, or literal
texts side by side. What is refused is refused at one stage or at all of them. -/
inductive Phrase (Rule : Type)
  | token (accepts : Shape → Bool)
  | constant
  | rule (name : Rule)
  | seq (parts : List (Phrase Rule))
  | choice (parts : List (Phrase Rule))
  | many (part : Phrase Rule)
  | ahead (part : Phrase Rule)
  | notAhead (part : Phrase Rule)
  | inBrackets
  | kind (name : String) (part : Phrase Rule)
  | refusal (stage : Option Stage) (subject rest : Phrase Rule) (fault? : String → Option Fault)

namespace Phrase

variable {Rule : Type}

instance : Coe String (Phrase Rule) where
  coe text := .token (· == .fixed text)

def optional (part : Phrase Rule) : Phrase Rule :=
  .choice [part, .seq []]

def separated (part : Phrase Rule) : Phrase Rule :=
  .seq [part, .many (.seq [",", part])]

def anyOf (texts : List String) : Phrase Rule :=
  .choice (texts.map fun text => .token (· == .fixed text))

def named (names : List String) : Phrase Rule :=
  .token fun shape => names.any fun name => shape == .name name

/-- What is refused for one reason. -/
def refused (fault : Fault) (parts : List (Phrase Rule)) : Phrase Rule :=
  .refusal (some .explain) (.seq parts) (.seq []) fun _ => some fault

/-- What is refused for one reason at every stage. -/
def alwaysRefused (fault : Fault) (parts : List (Phrase Rule)) : Phrase Rule :=
  .refusal none (.seq parts) (.seq []) fun _ => some fault

/-- What is looked at for what is refused in it, and never read. -/
def neverRead (parts : List (Phrase Rule)) : Phrase Rule :=
  .refusal (some .explain) (.seq parts) (.seq []) fun _ => none

end Phrase

/-- The rules of a grammar. While the content of a quiet rule is read, nothing is refused. -/
structure Grammar (Rule : Type) where
  content : Rule → Phrase Rule
  isQuiet : Rule → Bool
  isRemembered : Rule → Bool

/-- What was read: the place behind it, and its kind. -/
structure Reading where
  next : Nat
  kind : Option String
  deriving DecidableEq, Repr

/-- What a reader remembers: the rules that it tried at a place, and the number of tokens that it
asked for. -/
structure Memory (Rule : Type) [BEq Rule] [Hashable Rule] where
  readings : Std.HashMap (Rule × Nat) (Option Reading) := ∅
  asked : Nat := 0

variable {Rule : Type} [BEq Rule] [Hashable Rule]

abbrev Reader (Rule : Type) [BEq Rule] [Hashable Rule] :=
  ExceptT Fault (StateM (Memory Rule))

variable (grammar : Grammar Rule) (tokens : Array Token) (ending : Ending)

def tokenAt (place : Nat) : Reader Rule Token := do
  match tokens[place]? with
  | some token =>
    modify fun memory => { memory with asked := max memory.asked (place + 1) }
    return token
  | none => throw ending.fault

/-- The literals that stand side by side in some tokens. -/
def leadingLiterals (tokens : List Token) : List Literal :=
  ((tokens.map fun token => match token.shape with
    | .literal text => some text
    | _ => none).takeWhile Option.isSome).filterMap id

/-- Reads a phrase at a place. Every step into a phrase takes one unit of `fuel`; without any,
nothing can be read. -/
def readPhrase (fuel : Nat) (stage : Stage) (phrase : Phrase Rule) (place : Nat) :
    Reader Rule (Option Reading) := do
  match fuel with
  | 0 => return none
  | fuel + 1 =>
    match phrase with
    | .token accepts =>
      let token ← tokenAt tokens ending place
      return if accepts token.shape then some ⟨place + 1, none⟩ else none
    | .constant =>
      match (← tokenAt tokens ending place).shape with
      | .number digits =>
        if Text.integerDigitLimit < digits then throw (.tooManyDigits digits)
        else return some ⟨place + 1, "literal"⟩
      | .literal _ =>
        let texts := leadingLiterals (tokens.toList.drop place)
        let _ ← tokenAt tokens ending (place + texts.length)
        match literalsFault? none texts with
        | some fault => throw fault
        | none =>
          let kind := if texts.any (·.formatted) then "f-string expression" else "literal"
          return some ⟨place + texts.length, kind⟩
      | _ => return none
    | .rule name =>
      match (← get).readings[(name, place)]? with
      | some reading => return reading
      | none =>
        let stage := if grammar.isQuiet name then .check else stage
        let reading ← readPhrase fuel stage (grammar.content name) place
        if grammar.isRemembered name then
          modify fun memory =>
            { memory with readings := memory.readings.insert (name, place) reading }
        return reading
    | .seq [] => return some ⟨place, none⟩
    | .seq (part :: parts) =>
      match ← readPhrase fuel stage part place with
      | none => return none
      | some first =>
        return (← readPhrase fuel stage (.seq parts) first.next).map fun last =>
          { last with kind := last.kind.or first.kind }
    | .choice [] => return none
    | .choice (part :: parts) =>
      match ← readPhrase fuel stage part place with
      | some reading => return some reading
      | none => readPhrase fuel stage (.choice parts) place
    | .many part =>
      match ← readPhrase fuel stage part place with
      | none => return some ⟨place, none⟩
      | some first =>
        return (← readPhrase fuel stage (.many part) first.next).map fun last =>
          { last with kind := last.kind.or first.kind }
    | .ahead part =>
      return (← readPhrase fuel stage part place).map fun _ => ⟨place, none⟩
    | .notAhead part =>
      return if (← readPhrase fuel stage part place).isSome then none else some ⟨place, none⟩
    | .inBrackets =>
      return if tokens[place - 1]?.any (·.depth ≠ 0) then some ⟨place, none⟩ else none
    | .kind name part =>
      return (← readPhrase fuel stage part place).map fun reading =>
        { reading with kind := name }
    | .refusal when subject rest fault? =>
      if when.all (· == stage) then
        match ← readPhrase fuel stage subject place with
        | none => return none
        | some reading =>
          match ← readPhrase fuel stage rest reading.next with
          | none => return none
          | some _ =>
            match fault? (reading.kind.getD "") with
            | some fault => throw fault
            | none => return none
      else return none

/-- The depth of a grammar's phrases between two tokens is far below this number. -/
def fuelPerToken : Nat := 1000

def readRule (stage : Stage) (rule : Rule) : Except Fault (Option Reading) × Memory Rule :=
  let fuel := fuelPerToken * (tokens.size + 2)
  (readPhrase grammar tokens ending fuel stage (.rule rule) 0).run.run {}

/-- The fault that is reported where reading stopped at `fault` after `asked` tokens: one that is
found further on in the text, if there is any. A bracket that is never closed counts only if its
line is over, and a bad continuation never. -/
def laterFault (asked : Nat) (fault : Fault) : Fault :=
  match ending with
  | .finished => fault
  | .broken later => if later == .badContinuation then fault else later
  | .unclosed opening line =>
    if tokens[asked - 1]?.any (line < ·.line) then .neverClosed opening else fault

/-- Why the tokens of a text cannot be read by a rule, or why what they write has no value. -/
def ruleFault? (rule : Rule) : Option Fault :=
  match readRule grammar tokens ending .check rule with
  | (.error fault, memory) => some (laterFault tokens ending memory.asked fault)
  | (.ok (some _), _) =>
    match (readRule grammar tokens ending .value rule).1 with
    | .error fault => some fault
    | .ok _ => none
  | (.ok none, memory) =>
    let (result, again) := readRule grammar tokens ending .explain rule
    let asked := max memory.asked again.asked
    let last := tokens[memory.asked - 1]?
    match result with
    | .error fault => some (laterFault tokens ending asked fault)
    | .ok _ =>
      if last.any (·.shape == .indent) then some .indented
      else some (laterFault tokens ending asked .invalid)

end SuiteAtlas.Console.Expression
