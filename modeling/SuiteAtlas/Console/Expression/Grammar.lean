import SuiteAtlas.Console.Expression.Phrase

/-!
The grammar of expressions.

An expression is built from names, literals and brackets by operators, which bind in levels.
Brackets hold one expression, a tuple, a dictionary, a set, or a comprehension; behind another
expression they hold the arguments of a call. The grammar has no square brackets, since those end a
tag.

`fault?` says whether a text is one expression, or several with commas between them.
-/

namespace SuiteAtlas.Console.Expression

inductive Rule
  | whole
  | expression
  | plainExpression
  | lambda
  | parameters
  | starExpressions
  | starExpression
  | starElement
  | starred
  | assignment
  | namedExpression
  | disjunction
  | conjunction
  | inversion
  | comparison
  | operation (level : Nat)
  | factor
  | power
  | awaited
  | primary
  | atom
  | group
  | yielded
  | tuple
  | generator
  | dictionary
  | entry
  | set
  | dictionaryComprehension
  | setComprehension
  | clauses
  | targets
  | target
  | plainTarget
  | arguments
  | argumentRow
  | argument
  | namedArguments
  | nameOrStar
  | nameOrStars
  deriving DecidableEq, Hashable, Repr

namespace Rule

open Phrase

/-- The operators of a level; those of a later one bind more closely. -/
def operators : Nat → List String
  | 0 => ["|"]
  | 1 => ["^"]
  | 2 => ["&"]
  | 3 => ["<<", ">>"]
  | 4 => ["+", "-"]
  | _ => ["*", "/", "//", "%", "@"]

def operand : Phrase Rule :=
  .rule (.operation 0)

def expr : Phrase Rule :=
  .rule .expression

def name : Phrase Rule :=
  .kind "name" (.token fun shape => match shape with
    | .name _ => true
    | _ => false)

def literal : Phrase Rule :=
  .token fun shape => match shape with
    | .literal _ => true
    | _ => false

/-- The expressions that are no element of a set and no key of a dictionary, by kind. -/
def unhashableTypes : List (String × String) := [("dict literal", "dict"), ("set display", "set")]

/-- What has no value if `subject` is a set or a dictionary. -/
def hashed (subject rest : Phrase Rule) : Phrase Rule :=
  .refusal (some .value) subject rest fun kind =>
    (unhashableTypes.lookup kind).map fun type => .noValue (.unhashable type)

/-- Elements with commas between them; one more comma may follow. -/
def elements : Phrase Rule :=
  .seq [separated (.rule .starElement), optional ","]

def comparisonSign : Phrase Rule :=
  .choice [anyOf ["==", "!=", "<=", "<", ">=", ">", "in"], .seq ["not", "in"],
    .seq ["is", optional "not"]]

/-- Words that were statements once: what follows them is no argument without brackets. -/
def formerStatements : List String := ["print", "exec"]

/-- An expression behind another one, and an expression that breaks off. A name in front of a
literal may be meant as a word in front of it, and a few names start a statement. -/
def expressionRefusals : List (Phrase Rule) :=
  [refused .forgottenComma [
      .notAhead (.choice [.seq [name, literal], named ["_", "case", "match"]]),
      .ahead (.rule .disjunction),
      .notAhead (.seq [named formerStatements, .notAhead "(", .rule .plainExpression]),
      .rule .disjunction, .rule .plainExpression, .inBrackets],
    refused .missingElse [.rule .disjunction, "if", .rule .disjunction,
      .notAhead (anyOf ["else", ":"])]] ++
  (formerStatements.map fun word => refused (.missingParentheses word) [
      named [word], .notAhead "(", .rule .starExpressions]) ++
  [neverRead [name, .notAhead "(", .rule .starExpressions]]

def expressionForms : List (Phrase Rule) := [
  .kind "conditional expression"
    (.seq [.rule .disjunction, "if", .rule .disjunction, "else", expr]),
  .rule .disjunction, .rule .lambda]

/-- The parameters of a function up to the colon, from those without a value of their own on. -/
def parameterForms : Phrase Rule :=
  let separator := Phrase.choice [",", .ahead ":"]
  let plain := Phrase.seq [name, separator]
  let value := Phrase.seq ["=",
    .choice [expr, refused .missingDefault [.ahead (anyOf [")", ","])]]]
  let valued := Phrase.seq [name, value, separator]
  let either := Phrase.seq [name, optional value, separator]
  let slash := Phrase.seq ["/", separator]
  let further := Phrase.seq ["**", plain]
  .seq [
    .choice [
      .seq [plain, .many plain, slash, .many plain, .many valued],
      .seq [.many plain, valued, .many valued, slash, .many valued],
      .seq [.many plain, .many valued]],
    optional (.choice [
      .seq ["*", plain, .many either, optional further],
      .seq ["*", ",", either, .many either, optional further],
      further])]

/-- An equals sign does not give a name to a value here. -/
def assignmentRefusals : List (Phrase Rule) :=
  let noMore := Phrase.notAhead (anyOf ["=", ":="])
  [.refusal (some .explain) expr (.seq [":=", expr]) fun kind => some (.namedTo kind),
    refused .assigned [name, "=", operand, noMore],
    .seq [
      .notAhead (.choice [.rule .tuple, .rule .generator, anyOf ["True", "None", "False"]]),
      .refusal (some .explain) operand (.seq ["=", operand, noMore]) fun kind =>
        some (.assignedTo kind)]]

/-- What cannot be an element of a comprehension. -/
def comprehensionRefusals : List (Phrase Rule) := [
  refused .unpackedElement [anyOf ["(", "\x7b"], .rule .starred, .rule .clauses],
  refused .bareElements ["\x7b", .rule .starElement, ",", elements, .rule .clauses],
  refused .bareElements ["\x7b", .rule .starElement, ",", .rule .clauses]]

/-- What is no entry of a dictionary because of its value. -/
def valueRefusals : List (Phrase Rule) := [
  alwaysRefused .starredValue [expr, ":", "*", operand],
  alwaysRefused .missingValue [expr, ":", .ahead (anyOf ["\x7d", ","])]]

/-- What is wrong with the entries of a dictionary. -/
def entryRefusals : Phrase Rule :=
  .choice (.seq [separated (.rule .entry), ",",
    .choice (alwaysRefused .missingColon [expr, .notAhead ":"] :: valueRefusals)] :: valueRefusals)

/-- The kinds of expression that can be given a value in a loop, as a whole or in their parts. -/
def targetKinds : List String := ["name", "attribute", "tuple", "starred"]

def loopStart : Phrase Rule :=
  .seq [optional "async", "for"]

/-- A loop over the values of an expression, and conditions on them. -/
def clause : Phrase Rule :=
  .choice [
    .seq [loopStart, .rule .targets, "in", .rule .disjunction,
      .many (.seq ["if", .rule .disjunction])],
    .seq [.notAhead (.seq [loopStart, .rule .targets, "in"]), loopStart,
      .ahead (.rule .starExpressions), .refusal (some .explain) operand (.seq []) fun kind =>
        if targetKinds.contains kind then none else some (.target kind)]]

def valueForm : Phrase Rule :=
  .choice [.rule .assignment, .seq [expr, .notAhead ":="]]

/-- The ways to go on behind a value: one of its parts, or a call. -/
def steps : List (Phrase Rule) := [
  .kind "attribute" (.seq [".", name]),
  .kind "function call" (.rule .generator),
  .kind "function call" (.seq ["(", optional (.rule .arguments), ")"])]

/-- What is wrong with the arguments of a call. -/
def argumentRefusals : List (Phrase Rule) := [
  refused .unpackedArguments [.rule .argumentRow, ",", "*"],
  refused .bareGenerator [expr, .rule .clauses, ",",
    optional (.choice [.rule .argumentRow, .seq [expr, .rule .clauses]])],
  refused .assigned [name, "=", expr, .rule .clauses],
  refused .bareGenerator [.rule .argument, ",", .rule .argumentRow, .rule .clauses],
  refused .bareGenerator [.rule .argumentRow, ",", expr, .rule .clauses],
  .refusal (some .explain) (.rule .argumentRow) (.seq [",", .rule .argumentRow]) fun kind =>
    some (.argumentOrder (kind == "unpacked"))]

/-- What cannot stand in front of the equals sign of an argument. -/
def argumentNameRefusals : List (Phrase Rule) :=
  (["True", "False", "None"].map fun word => refused (.argumentName word) [(word : String), "="]) ++
  [refused .assigned [name, "=", expr, .rule .clauses],
    refused .argumentExpression [.notAhead (.seq [name, "="]), expr, "="]]

def content : Rule → Phrase Rule
  | whole => .seq [separated expr, optional ",", .many (.token (· == .newline)),
      .token (· == .finish)]
  | expression => .choice (expressionRefusals ++ expressionForms)
  | plainExpression => .choice expressionForms
  | lambda => .kind "lambda" (.seq ["lambda", .rule .parameters, ":", expr])
  | parameters => parameterForms
  | starExpressions => .seq [.rule .starExpression,
      .many (.kind "tuple" (.seq [",", .rule .starExpression])), optional ","]
  | starExpression => .choice [.kind "starred" (.seq ["*", operand]), expr]
  | starElement => .choice [.kind "starred" (.seq ["*", operand]), .rule .namedExpression]
  | starred => .kind "starred" (.choice [.seq ["*", expr], alwaysRefused .bareStar ["*"]])
  | assignment => .kind "named expression" (.seq [name, ":=", expr])
  | namedExpression => .choice
      (.rule .assignment :: assignmentRefusals ++ [.seq [expr, .notAhead ":="]])
  | disjunction => .seq [.rule .conjunction,
      .many (.kind "expression" (.seq ["or", .rule .conjunction]))]
  | conjunction => .seq [.rule .inversion,
      .many (.kind "expression" (.seq ["and", .rule .inversion]))]
  | inversion => .choice [.kind "expression" (.seq ["not", .rule .inversion]), .rule .comparison]
  | comparison => .seq [operand, .many (.kind "comparison" (.seq [comparisonSign, operand]))]
  | operation level =>
    let next : Phrase Rule := if level < 5 then .rule (.operation (level + 1)) else .rule .factor
    .seq [next, .many (.kind "expression" (.seq [anyOf (operators level), next]))]
  | factor => .choice [.kind "expression" (.seq [anyOf ["+", "-", "~"], .rule .factor]),
      .rule .power]
  | power => .seq [.rule .awaited, optional (.kind "expression" (.seq ["**", .rule .factor]))]
  | awaited => .choice [.kind "await expression" (.seq ["await", .rule .primary]), .rule .primary]
  | primary => .seq [.rule .atom, .many (.choice steps)]
  | atom => .choice (name :: (["True", "False", "None"].map fun word =>
        .kind word (.token (· == .fixed word))) ++ [
      .constant, .seq [.ahead "(", .choice [.rule .tuple, .rule .group, .rule .generator]],
      .seq [.ahead "\x7b", .choice [.rule .dictionary, .rule .set, .rule .dictionaryComprehension,
        .rule .setComprehension]],
      .kind "ellipsis" "..."])
  | group => .choice [.seq ["(", .choice [.rule .yielded, .rule .namedExpression], ")"],
      refused .starred ["(", .rule .starred, ")"], refused .doubleStarred ["(", "**", expr, ")"]]
  | yielded => .kind "yield expression"
      (.seq ["yield", .choice [.seq ["from", expr], optional (.rule .starExpressions)]])
  | tuple => .kind "tuple"
      (.seq ["(", optional (.seq [.rule .starElement, ",", optional elements]), ")"])
  | generator => .choice (.kind "generator expression"
      (.seq ["(", valueForm, .rule .clauses, ")"]) :: comprehensionRefusals)
  | dictionary => .choice [.kind "dict literal" (.seq ["\x7b",
        optional (.seq [separated (.rule .entry), optional ","]), "\x7d"]),
      .seq ["\x7b", entryRefusals, "\x7d"]]
  | entry =>
    let spread := Phrase.seq ["**", operand]
    .choice [.refusal (some .value) spread (.seq []) (fun _ => some (.noValue .noKey)), spread,
      hashed expr (.seq [":", expr]), .seq [expr, ":", expr]]
  | set =>
    let element := Phrase.rule .starElement
    let hashedElement := Phrase.choice [hashed element (.seq []), element]
    .kind "set display" (.seq ["\x7b", separated hashedElement, optional ",", "\x7d"])
  | dictionaryComprehension => .choice [
      .kind "dict comprehension" (.seq ["\x7b", expr, ":", expr, .rule .clauses, "\x7d"]),
      refused .unpackedEntry ["\x7b", "**", operand, .rule .clauses, "\x7d"]]
  | setComprehension => .choice (.kind "set comprehension"
      (.seq ["\x7b", .rule .namedExpression, .rule .clauses, "\x7d"]) :: comprehensionRefusals)
  | clauses => .seq [clause, .many clause]
  | targets => .seq [separated (.rule .target), optional ","]
  | target => .choice [.seq ["*", .notAhead "*", .rule .target], .rule .plainTarget]
  | plainTarget =>
    let goesOn := Phrase.ahead (anyOf ["(", "."])
    let endsHere := Phrase.notAhead (anyOf ["(", "."])
    .choice [
      .seq [.rule .atom, goesOn, .many (.seq [.choice steps, goesOn]), ".", name, endsHere],
      name, .seq ["(", .rule .plainTarget, ")"],
      .seq ["(", optional (.choice [
        .seq [.rule .target, ",", separated (.rule .target), optional ","],
        .seq [.rule .target, ","]]), ")"]]
  | arguments => .choice (.seq [.rule .argumentRow, optional ",", .ahead ")"] :: argumentRefusals)
  | argumentRow => .choice [
      .seq [separated (.rule .argument), optional (.seq [",", .rule .namedArguments])],
      .rule .namedArguments]
  | argument => .choice [.rule .starred, .seq [valueForm, .notAhead "="]]
  | namedArguments =>
    let first := separated (.rule .nameOrStar)
    let last := separated (.rule .nameOrStars)
    .choice [.seq [first, ",", last], first, last]
  | nameOrStar => .choice (argumentNameRefusals ++ [.seq [name, "=", expr], .rule .starred])
  | nameOrStars => .choice
      (argumentNameRefusals ++ [.seq [name, "=", expr], .kind "unpacked" (.seq ["**", expr])])

/-- The rules whose reading is remembered. -/
def isRemembered : Rule → Bool
  | expression | starExpression | disjunction | conjunction | inversion | operation _ | factor
  | awaited | primary | arguments | target | plainTarget => true
  | _ => false

def grammar : Grammar Rule where
  content
  isQuiet rule := rule == .plainExpression
  isRemembered

end Rule

def fault? (text : List Char) : Option Fault :=
  let (tokens, ending) := tokensOf (Text.unifyLineEnds text)
  ruleFault? Rule.grammar tokens ending .whole

end SuiteAtlas.Console.Expression
