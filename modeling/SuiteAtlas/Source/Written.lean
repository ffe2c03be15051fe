import SuiteAtlas.Source.Event

/-!
Test classes as they are written.

`WrittenTest.render` writes tests in the plainest form that `scan` reads: above each test a comment
with its tags, then its declaration, then one line for each assertion. `WrittenTest.said` says
what is to be read from it.
-/

namespace SuiteAtlas.Source

/-- An assertion in the words of its source: the operator, the three arguments, and the message
that the last argument writes as a text literal. -/
structure WrittenAssertion where
  operator : List Char
  harness : List Char
  actual : List Char
  expected : List Char
  message : List Char
  deriving DecidableEq, Repr

/-- A test in the words of its source; the name stands without `test_`. -/
structure WrittenTest where
  name : List Char
  tags : List (List Char)
  assertions : List WrittenAssertion
  deriving DecidableEq, Repr

/-- A text between quotation marks, with a backslash before each mark and each backslash in it. -/
def quoteMessage (message : List Char) : List Char :=
  '"' :: message.flatMap (fun c => if c = '"' || c = '\\' then ['\\', c] else [c]) ++ ['"']

namespace WrittenAssertion

def receiver : List Char := "\t$t.assert.".toList

def arguments (a : WrittenAssertion) : List (List Char) :=
  [a.harness, a.actual, a.expected, quoteMessage a.message]

def line (a : WrittenAssertion) : List Char :=
  receiver ++ a.operator ++ '(' :: "; ".toList.intercalate a.arguments ++ [')']

/-- An operator is a name, each argument an expression that is one argument, and no text holds a
line feed. -/
structure IsProper (a : WrittenAssertion) : Prop where
  operator_ne_nil : a.operator ≠ []
  isWord_of_mem_operator : ∀ c ∈ a.operator, Text.isWord c
  isExpression : ∀ x ∈ [a.harness, a.actual, a.expected],
    x ≠ [] ∧ Text.trim x = x ∧ '\n' ∉ x ∧
      (argumentsAt ('(' :: x ++ [')']) 0).map Prod.fst = some [x]
  lineFeed_notMem_message : '\n' ∉ a.message

instance (a : WrittenAssertion) : Decidable a.IsProper :=
  decidable_of_iff
    (a.operator ≠ [] ∧ a.operator.all Text.isWord ∧
      (∀ x ∈ [a.harness, a.actual, a.expected], x ≠ [] ∧ Text.trim x = x ∧ '\n' ∉ x ∧
        (argumentsAt ('(' :: x ++ [')']) 0).map Prod.fst = some [x]) ∧
      '\n' ∉ a.message)
    ⟨fun ⟨hne, hword, hexpression, hmessage⟩ =>
        ⟨hne, List.all_eq_true.1 hword, hexpression, hmessage⟩,
      fun h => ⟨h.operator_ne_nil, List.all_eq_true.2 h.isWord_of_mem_operator, h.isExpression,
        h.lineFeed_notMem_message⟩⟩

end WrittenAssertion

namespace WrittenTest

def payload (t : WrittenTest) : List Char :=
  ' ' :: ", ".toList.intercalate t.tags

def tagLine (t : WrittenTest) : List Char :=
  "// #tags:".toList ++ t.payload

def declaration (t : WrittenTest) : List Char :=
  "Function test_".toList ++ t.name ++ "($t : Object)".toList

def lines (t : WrittenTest) : List (List Char) :=
  t.tagLine :: t.declaration :: t.assertions.map WrittenAssertion.line

def render (tests : List WrittenTest) : List Char :=
  (tests.flatMap lines).flatMap fun line => line ++ ['\n']

/-- A name is not empty, there are tags, each of them once, and the assertions are proper. -/
structure IsProper (t : WrittenTest) : Prop where
  name_ne_nil : t.name ≠ []
  isWord_of_mem_name : ∀ c ∈ t.name, Text.isWord c
  tags_ne_nil : t.tags ≠ []
  nodup_tags : t.tags.Nodup
  isTag_of_mem : ∀ tag ∈ t.tags, tag ≠ [] ∧ Text.trim tag = tag ∧ ',' ∉ tag ∧ '\n' ∉ tag
  isProper_of_mem : ∀ a ∈ t.assertions, a.IsProper

instance (t : WrittenTest) : Decidable t.IsProper :=
  decidable_of_iff
    (t.name ≠ [] ∧ t.name.all Text.isWord ∧ t.tags ≠ [] ∧ t.tags.Nodup ∧
      (∀ tag ∈ t.tags, tag ≠ [] ∧ Text.trim tag = tag ∧ ',' ∉ tag ∧ '\n' ∉ tag) ∧
      ∀ a ∈ t.assertions, a.IsProper)
    ⟨fun ⟨hne, hword, htags, hnodup, htag, hassertion⟩ =>
        ⟨hne, List.all_eq_true.1 hword, htags, hnodup, htag, hassertion⟩,
      fun h => ⟨h.name_ne_nil, List.all_eq_true.2 h.isWord_of_mem_name, h.tags_ne_nil,
        h.nodup_tags, h.isTag_of_mem, h.isProper_of_mem⟩⟩

end WrittenTest

/-- What an event says apart from its place. -/
inductive Said
  | heading (name : String) (tagDepth : Nat) (tags : List String)
  | assertion (operator actual expected should : String)
  deriving DecidableEq, Repr

def Event.said : Event → Said
  | .heading h => .heading h.name h.tagDepth h.tags
  | .assertion a => .assertion a.operator a.actual a.expected a.should

def WrittenAssertion.said (a : WrittenAssertion) : Said :=
  .assertion (String.ofList a.operator) (String.ofList a.actual) (String.ofList a.expected)
    (String.ofList a.message)

def WrittenTest.said (t : WrittenTest) : List Said :=
  .heading ("test_" ++ String.ofList t.name) (1 + t.payload.count ':') (t.tags.map String.ofList) ::
    t.assertions.map WrittenAssertion.said

end SuiteAtlas.Source
