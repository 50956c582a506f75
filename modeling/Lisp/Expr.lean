/-
# Expressions

Programs and data are the same trees. A form is evaluated by applying its head to the rest, a quoted
list stands for the form inside it, and there is no further kind of value.

* `Expr` : expressions;
* `Expr.items?`, `Expr.head?`, `Expr.tail` : the parts of a list;
* `Expr.isAtom`, `Expr.isTrue` : the two tests on expressions;
* `Expr.depth` : how deep lists nest;
* `Expr.agree`, `Expr.same` : structural equality, the latter with doubles compared as numbers.
-/
import Lisp.Number
import Lisp.Operator

namespace Lisp

/-- Expressions, which are programs and values at once. -/
inductive Expr where
  | name (id : String)
  | text (value : String)
  | operator (op : Operator)
  | number (value : Number)
  | boolean (value : Bool)
  | quoted (items : List Expr)
  | form (items : List Expr)

namespace Expr

instance : Inhabited Expr := ⟨boolean false⟩

/-- The value that stands for nothing and for falsehood. -/
def nil : Expr := boolean false

/-- The expression of an integer. -/
def int (n : Int) : Expr := number (.int n)

/-- The expression of a double. -/
def float (x : Float) : Expr := number (.float x)

/-! ## Parts of a list -/

/-- The elements of a form or of a quoted list. -/
def items? : Expr → Option (List Expr)
  | quoted items => some items
  | form items => some items
  | _ => none

/-- The first element of a list. -/
def head? (e : Expr) : Option Expr := e.items?.bind List.head?

/-- The elements of a list behind the first. -/
def tail (e : Expr) : List Expr := (e.items?.getD []).tail

/-! ## Tests -/

/-- Whether an expression is anything but a list. -/
def isAtom (e : Expr) : Bool := e.items?.isNone

/-- Whether an expression counts as true, which all do but `nil`. -/
def isTrue : Expr → Bool
  | boolean b => b
  | _ => true

/-- The name that an expression consists of. -/
def name? : Expr → Option String
  | name id => some id
  | _ => none

/-! ## Depth -/

mutual

/-- How deep lists nest in an expression; an atom has depth zero. -/
def depth : Expr → Nat
  | quoted items => depthAll items + 1
  | form items => depthAll items + 1
  | _ => 0

/-- The greatest depth of some expressions. -/
def depthAll : List Expr → Nat
  | [] => 0
  | e :: rest => max e.depth (depthAll rest)

end

/-! ## Equality -/

mutual

/-- Structural equality, where `eq` compares numbers. -/
def agree (eq : Number → Number → Bool) : Expr → Expr → Bool
  | name a, name b => a = b
  | text a, text b => a = b
  | operator a, operator b => a = b
  | number a, number b => eq a b
  | boolean a, boolean b => a = b
  | quoted as, quoted bs => agreeAll eq as bs
  | form as, form bs => agreeAll eq as bs
  | _, _ => false

/-- Structural equality of two lists, element by element. -/
def agreeAll (eq : Number → Number → Bool) : List Expr → List Expr → Bool
  | [], [] => true
  | a :: as, b :: bs => a.agree eq b && agreeAll eq as bs
  | _, _ => false

end

/-- Structural equality, with doubles compared as numbers. -/
def same (a b : Expr) : Bool := a.agree Number.same b

mutual

/-- Expressions that agree with equal numbers are equal. -/
theorem agree_decide_iff (a b : Expr) : a.agree (fun m n => m = n) b = true ↔ a = b :=
  match a with
  | name _ | text _ | operator _ | number _ | boolean _ => by cases b <;> simp [agree]
  | quoted as => by
    cases b with
    | quoted bs => simpa [agree] using agreeAll_decide_iff as bs
    | _ => simp [agree]
  | form as => by
    cases b with
    | form bs => simpa [agree] using agreeAll_decide_iff as bs
    | _ => simp [agree]

theorem agreeAll_decide_iff (as bs : List Expr) :
    agreeAll (fun m n => m = n) as bs = true ↔ as = bs :=
  match as with
  | [] => by cases bs <;> simp [agreeAll]
  | a :: as => by
    cases bs with
    | nil => simp [agreeAll]
    | cons b bs => simp [agreeAll, agree_decide_iff a b, agreeAll_decide_iff as bs]

end

instance : DecidableEq Expr := fun a b => decidable_of_iff _ (agree_decide_iff a b)

end Expr

end Lisp
