import SuiteAtlas.Console.Expression.Grammar

/-!
The parameters of an action.

They are a call, which is a name and perhaps arguments between brackets, or else any expression. Of
a call the arguments are read, and a call without brackets has none. The parameters are only
checked: what they mean is up to the one who acts.
-/

namespace SuiteAtlas.Console.Action

/-- Why parameters cannot be read: they have the null character, they have no value, or they are no
expression. -/
inductive Fault
  | null (parameters : String)
  | noValue (parameters : String) (cause : Expression.ValueFault)
  | noExpression (expression parameters : String) (fault : Expression.Fault)
  deriving DecidableEq, Repr

def Fault.message : Fault → String
  | .null parameters =>
    s!"error parsing {Text.quoted parameters}; source code string cannot contain null bytes"
  | .noValue parameters cause => s!"error parsing {Text.quoted parameters}; {cause.message}"
  | .noExpression expression parameters fault =>
    s!"error parsing {Text.quoted expression} in {Text.quoted parameters}; {fault.message}"

/-- The arguments of a call, in their brackets; none if a text is no call. -/
def arguments? (text : List Char) : Option (List Char) :=
  match text.dropWhile fun c => Text.isWord c || c == '.' with
  | [] => some ['(', ')']
  | '(' :: rest =>
    if rest.getLast? = some ')' && !rest.contains '\n' then some ('(' :: rest) else none
  | _ => none

def fault? (parameters : List Char) : Option Fault :=
  let text := Text.trim parameters
  let expression := (arguments? text).getD text
  if expression.contains '\x00' then some (.null (String.ofList parameters))
  else
    (Expression.fault? expression).map fun fault =>
      match fault with
      | .noValue cause => .noValue (String.ofList parameters) cause
      | fault => .noExpression (String.ofList expression) (String.ofList parameters) fault

end SuiteAtlas.Console.Action
