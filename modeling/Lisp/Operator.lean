/-
# Operators

The built-in operators. Each has a canonical keyword, the one it is printed with; the four
arithmetic ones can also be written with their usual symbol.

* `Operator` : the eleven operators;
* `Operator.chars`, `Operator.keyword` : the canonical keyword;
* `Operator.spellings` : the words and symbols of a source, in the order in which they are tried;
* `Operator.ofKeyword?` : the operator with a given keyword.
-/

namespace Lisp

/-- The built-in operators. -/
inductive Operator where
  | add
  | sub
  | mul
  | div
  | rem
  | defun
  | nth
  | list
  | eval
  | car
  | map
  deriving DecidableEq, Repr

namespace Operator

/-- Every operator, once. -/
def all : List Operator := [add, sub, mul, div, rem, defun, nth, list, eval, car, map]

/-- The characters of the canonical keyword. -/
def chars : Operator → List Char
  | add => ['a', 'd', 'd']
  | sub => ['s', 'u', 'b']
  | mul => ['m', 'u', 'l']
  | div => ['d', 'i', 'v']
  | rem => ['%']
  | defun => ['d', 'e', 'f', 'u', 'n']
  | nth => ['n', 't', 'h']
  | list => ['l', 'i', 's', 't']
  | eval => ['e', 'v', 'a', 'l']
  | car => ['c', 'a', 'r']
  | map => ['m', 'a', 'p']

/-- The canonical keyword. -/
def keyword (o : Operator) : String := String.ofList o.chars

/-- The spellings of operators in the order in which they are tried: words, the symbols that stand
for some of them, and the words without a symbol. -/
def spellings : List (List Char × Operator) := [
  (['a', 'd', 'd'], add), (['s', 'u', 'b'], sub), (['m', 'u', 'l'], mul), (['d', 'i', 'v'], div),
  (['d', 'e', 'f', 'u', 'n'], defun),
  (['+'], add), (['*'], mul), (['-'], sub), (['/'], div), (['%'], rem),
  (['n', 't', 'h'], nth), (['l', 'i', 's', 't'], list), (['e', 'v', 'a', 'l'], eval),
  (['c', 'a', 'r'], car), (['m', 'a', 'p'], map)
]

/-- The operator with a given keyword. -/
def ofKeyword? (s : String) : Option Operator :=
  all.find? (·.keyword = s)

end Operator

end Lisp
