import Sitewright.Number.Notation
import Sitewright.Template.DataRef

/-!
Contract: conditions over request data, and their text as calls of the template
language.

Calls are written in front of their arguments. A call with two arguments is in
parentheses; a negation is not, and gets parentheses where it is an argument.

Owns:
- the tree of an expression;
- its text alone and as an argument;
- the references at its leaves, and the first leaf that cannot be written.
-/

namespace Sitewright.Template

open Number

inductive Literal where
  | string (value : String)
  | whole (value : Int)
  | float (value : Binary64)
  | bool (value : Bool)
deriving DecidableEq, Repr

namespace Literal

def boolText (value : Bool) : String :=
  if value then "true" else "false"

def text : Literal → String
  | .string value => quote value
  | .whole value => toString value
  | .float value => value.text .plain
  | .bool value => boolText value

/-- Why a literal cannot be written, if it cannot: the language has no literals
for infinities and for not-a-number. -/
def defect? : Literal → Option String
  | .float value =>
      if value.isFinite then none
      else some ("`" ++ value.text .plain ++ "` has no template literal form")
  | _ => none

end Literal

inductive Comparison where
  | equal
  | notEqual
  | less
  | lessOrEqual
  | greater
  | greaterOrEqual
deriving DecidableEq, Repr

/-- The function of the template language that compares. -/
def Comparison.function : Comparison → String
  | .equal => "eq"
  | .notEqual => "ne"
  | .less => "lt"
  | .lessOrEqual => "le"
  | .greater => "gt"
  | .greaterOrEqual => "ge"

/-- Whether all of several conditions have to hold or any one. -/
inductive Junction where
  | all
  | any
deriving DecidableEq, Repr

/-- The function of the template language that joins two conditions. -/
def Junction.function : Junction → String
  | .all => "and"
  | .any => "or"

/-- What no conditions amount to. -/
def Junction.ofNone : Junction → Bool
  | .all => true
  | .any => false

inductive Expr where
  | ref (source : DataRef)
  | literal (value : Literal)
  | not (operand : Expr)
  | junction (kind : Junction) (items : List Expr)
  | compare (comparison : Comparison) (left right : Expr)
  | hasType (operand : Expr) (type : String)

namespace Expr

/-- Whether the text is a negation, which has no parentheses of its own. A
junction of one item is that item. -/
def isNegation : Expr → Bool
  | .not _ => true
  | .junction _ [single] => single.isNegation
  | _ => false

/-- Whether the expression is a condition and not a reference or a literal. -/
def isCondition : Expr → Bool
  | .ref _ | .literal _ => false
  | _ => true

/-- The text of an expression as an argument, given its text alone. -/
def asArgument (expr : Expr) (alone : String) : String :=
  match expr with
  | .ref source => source.argument
  | _ => if expr.isNegation then "(" ++ alone ++ ")" else alone

mutual

/-- The text of an expression that stands alone. -/
def text : Expr → String
  | .ref source => source.name
  | .literal value => value.text
  | .not operand => "not " ++ operand.asArgument operand.text
  | .junction kind [] => Literal.boolText kind.ofNone
  | .junction _ [single] => single.text
  | .junction kind (first :: second :: rest) =>
      chain kind.function (first :: second :: rest)
  | .compare comparison left right =>
      "(" ++ comparison.function ++ " " ++ left.asArgument left.text ++ " " ++
        right.asArgument right.text ++ ")"
  | .hasType operand type =>
      "(" ++ Comparison.equal.function ++ " " ++ quote type ++ " (printf " ++ quote "%T" ++ " " ++
        operand.asArgument operand.text ++ "))"

/-- Calls of `function` nested to the right over the items. -/
def chain (function : String) : List Expr → String
  | [] => ""
  | [last] => last.asArgument last.text
  | head :: next :: rest =>
      "(" ++ function ++ " " ++ head.asArgument head.text ++ " " ++
        chain function (next :: rest) ++ ")"

end

/-- The text of an expression as an argument of a call. -/
def argument (expr : Expr) : String :=
  expr.asArgument expr.text

mutual

/-- The references at the leaves, left to right, repetitions included. -/
def refs : Expr → List DataRef
  | .ref source => [source]
  | .literal _ => []
  | .not operand => operand.refs
  | .junction _ items => refsOfAll items
  | .compare _ left right => left.refs ++ right.refs
  | .hasType operand _ => operand.refs

def refsOfAll : List Expr → List DataRef
  | [] => []
  | head :: tail => head.refs ++ refsOfAll tail

end

mutual

/-- Why the expression cannot be written, if it cannot: the reason of the first
such literal from the left. -/
def defect? : Expr → Option String
  | .ref _ => none
  | .literal value => value.defect?
  | .not operand => operand.defect?
  | .junction _ items => defectOfAll? items
  | .compare _ left right => left.defect?.or right.defect?
  | .hasType operand _ => operand.defect?

def defectOfAll? : List Expr → Option String
  | [] => none
  | head :: tail => head.defect?.or (defectOfAll? tail)

end

/-- The text in the header of a conditional block. Behind a negating keyword it
is an argument. -/
def header (expr : Expr) (negated : Bool) : String :=
  if negated then expr.argument else expr.text

end Expr

end Sitewright.Template
