/-
# The text of an expression

* `Expr.chars`, `Expr.render` : the canonical source of an expression;
* `Expr.describe` : a text that also tells the kinds of atoms apart, for log records.
-/
import Lisp.Expr
import Lisp.Literal

namespace Lisp.Expr

/-! ## Canonical source -/

mutual

/-- The characters of the canonical source of an expression. -/
def chars : Expr → List Char
  | name id => id.toList
  | text value => Literal.encode value.toList
  | operator op => op.chars
  | number n => n.chars
  | boolean true => ['t']
  | boolean false => ['n', 'i', 'l']
  | quoted items => '\x27' :: '(' :: (charsAll items ++ [')'])
  | form items => '(' :: (charsAll items ++ [')'])

/-- The characters of some expressions with a space between each two. -/
def charsAll : List Expr → List Char
  | [] => []
  | e :: rest => e.chars ++ charsMore rest

/-- The characters of some expressions with a space before each. -/
def charsMore : List Expr → List Char
  | [] => []
  | e :: rest => ' ' :: (e.chars ++ charsMore rest)

end

/-- The canonical source of an expression. -/
def render (e : Expr) : String := String.ofList e.chars

/-! ## Descriptions -/

/-- The label that a description gives to an operator. -/
def operatorLabel : Operator → String
  | .add => "ADD"
  | .sub => "SUB"
  | .mul => "MUL"
  | .div => "DIV"
  | .rem => "REMAINDER"
  | .defun => "DEFINE_FUNCTION"
  | .nth => "NTH"
  | .list => "LIST"
  | .eval => "EVAL"
  | .car => "CAR"
  | .map => "MAP"

/-- The text with its quotes, as a string. -/
def quotedText (s : String) : String := String.ofList (Text.quoted s.toList)

mutual

/-- A text that tells the kind and the content of an expression and of all its parts. -/
def describe : Expr → String
  | name id => "Name(id=" ++ quotedText id ++ ")"
  | text value => "QuotedString(value=" ++ quotedText value ++ ")"
  | operator op => "Operator(tag=<OperatorTag." ++ operatorLabel op ++ ": '" ++ op.keyword ++ "'>)"
  | number (.int n) => "Int(value=" ++ String.ofList (Number.int n).describe ++ ")"
  | number (.float x) => "Float(value=" ++ String.ofList (Number.float x).describe ++ ")"
  | boolean true => "t"
  | boolean false => "nil"
  | quoted items => "QuotedList(items=(" ++ describeAll items ++ "))"
  | form items => "List(items=(" ++ describeAll items ++ "))"

/-- The descriptions of the elements of a list; a single one is followed by a comma. -/
def describeAll : List Expr → String
  | [] => ""
  | e :: [] => e.describe ++ ","
  | e :: rest => e.describe ++ describeMore rest

/-- Descriptions with a comma before each. -/
def describeMore : List Expr → String
  | [] => ""
  | e :: rest => ", " ++ e.describe ++ describeMore rest

end

/-- The text that names an expression: a name or a keyword itself, and a description otherwise. -/
def label : Expr → String
  | name id => id
  | operator op => op.keyword
  | e => e.describe

end Lisp.Expr
