/-
# What evaluation does to the environment

An evaluation touches its environment by four effects only: it defines a function, binds parameters
for the time of a call, goes one level deeper for a time, and goes on from where another evaluation
ended.  A relation between environments that respects these four relates the environment before
every evaluation to the one after it, however the evaluation ends.

* `Effect` : the relations that respect the four effects;
* `Keeps` : the computations that stay within a relation;
* `evaluate_keeps` : every evaluation stays within such a relation;
* `sameScope_effect`, `evaluate_env_scope` : variables, nesting and limit are never changed.
-/
import Lisp.Eval
import Lisp.Proofs.Binding

namespace Lisp.Eval

open EvalM

variable {α β : Type} {R : Env → Env → Prop}

/-- The relations between the environment before a computation and the one after it that respect
whatever an evaluation can do.  A function that is defined always has a form as its body. -/
structure Effect (R : Env → Env → Prop) : Prop where
  refl : ∀ E, R E E
  trans : ∀ {E F G}, R E F → R F G → R E G
  define : ∀ E name params body, R E (E.define ⟨name, params, .form body⟩)
  bound : ∀ {E F} names values, R (E.bind names values) F → R E (F.restore (E.save names))
  within : ∀ {E F}, R { E with depth := E.depth + 1 } F → R E F.leave

/-- A computation whose environments before and after are related, also when it fails. -/
def Keeps (R : Env → Env → Prop) (m : EvalM α) : Prop := ∀ E, R E (m E).env

/-! ## Primitive computations -/

section Primitive

variable (hR : Effect R)
include hR

/-- A value by itself has no effect. -/
theorem keeps_pure (a : α) : Keeps R (pure a : EvalM α) := fun E => hR.refl E

theorem keeps_fail (e : EvalError) : Keeps R (fail e : EvalM α) := fun E => hR.refl E

/-- A question to the environment has no effect, whether or not there is an answer. -/
theorem keeps_ask (f : Env → Except EvalError α) : Keeps R (ask f) := fun E => hR.refl E

theorem keeps_record (event : Env → Event) : Keeps R (record event) := fun E => hR.refl E

/-- One computation after another, whether or not the second one is reached. -/
theorem keeps_bind {m : EvalM α} {f : α → EvalM β} (hm : Keeps R m) (hf : ∀ a, Keeps R (f a)) :
    Keeps R (m >>= f) := by
  intro E
  have hfirst := hm E
  rw [bind_apply]
  cases hres : (m E).result with
  | error e => exact hfirst
  | ok a => exact hR.trans hfirst (hf a (m E).env)

/-- A definition is one of the four effects. -/
theorem keeps_define (name : String) (params : List String) (body : List Expr) :
    Keeps R (EvalM.define ⟨name, params, .form body⟩) :=
  fun E => hR.define E name params body

/-- A computation with parameters bound is another one, whatever it does meanwhile. -/
theorem keeps_bound (names : List String) (values : List Expr) {m : EvalM α} (hm : Keeps R m) :
    Keeps R (bound names values m) :=
  fun E => hR.bound names values (hm (E.bind names values))

/-- A computation one level deeper is the third one, also if it fails there. -/
theorem keeps_within {m : EvalM α} (hm : Keeps R m) : Keeps R (within m) :=
  fun E => hR.within (hm { E with depth := E.depth + 1 })

end Primitive

/-! ## Operators -/

section Forms

variable (hR : Effect R) {ev : Evaluator} (hev : ∀ e, Keeps R (ev e))
include hR

theorem keeps_ofNumber (r : Except NumberError Number) : Keeps R (ofNumber r) := by
  cases r with
  | ok n => exact keeps_pure hR _
  | error e => exact keeps_fail hR _

/-- A definition is made only if the name, the parameters and the body are there. -/
theorem keeps_defun (args : List Expr) : Keeps R (defun args) := by
  unfold defun
  split
  · split
    · exact keeps_bind hR (keeps_define hR _ _ _) fun _ => keeps_pure hR _
    · exact keeps_fail hR _
  · exact keeps_fail hR _
  · exact keeps_fail hR _

include hev

/-- The arguments are evaluated one after another, up to the first error. -/
theorem keeps_evalAll (es : List Expr) : Keeps R (evalAll ev es) := by
  induction es with
  | nil => exact keeps_pure hR _
  | cons e rest ih =>
    exact keeps_bind hR (hev e) fun value => keeps_bind hR ih fun _ => keeps_pure hR _

/-- An operation on any number of operands does what their evaluation does. -/
theorem keeps_variadic (op : List Number → Except NumberError Number) (args : List Expr) :
    Keeps R (variadic op ev args) := by
  refine keeps_bind hR (keeps_evalAll hR hev args) fun values => ?_
  split
  · exact keeps_ofNumber hR _
  · exact keeps_fail hR _

/-- An operation on two operands does what their evaluation does, and nothing for other numbers of
them. -/
theorem keeps_binary (op : Number → Number → Except NumberError Number) (args : List Expr) :
    Keeps R (binary op ev args) := by
  unfold binary
  split
  · next a b =>
    refine keeps_bind hR (hev a) fun x => keeps_bind hR (hev b) fun y => ?_
    split
    · exact keeps_ofNumber hR _
    · exact keeps_fail hR _
  · exact keeps_fail hR _

/-- The elements of a quoted list are taken as they are; those of another list come from its value.
-/
theorem keeps_listItems (e : Expr) : Keeps R (listItems ev e) := by
  unfold listItems
  split
  · exact keeps_pure hR _
  · refine keeps_bind hR (hev e) fun value => ?_
    split
    · exact keeps_pure hR _
    · exact keeps_fail hR _

theorem keeps_list (args : List Expr) : Keeps R (list ev args) :=
  keeps_bind hR (keeps_evalAll hR hev args) fun _ => keeps_pure hR _

theorem keeps_car (args : List Expr) : Keeps R (car ev args) := by
  unfold car
  split
  · exact keeps_fail hR _
  · next e _ =>
    refine keeps_bind hR (hev e) fun value => ?_
    split
    · exact keeps_pure hR _
    · exact keeps_fail hR _
  · exact keeps_fail hR _

/-- The index is evaluated before the list. -/
theorem keeps_nth (args : List Expr) : Keeps R (nth ev args) := by
  unfold nth
  split
  · next index seq =>
    refine keeps_bind hR (hev index) fun value => ?_
    split
    · refine keeps_bind hR (keeps_listItems hR hev seq) fun items => ?_
      split
      · exact keeps_pure hR _
      · exact keeps_fail hR _
    · exact keeps_fail hR _
    · exact keeps_fail hR _
  · exact keeps_fail hR _

/-- A function is called on one element after another, which are found first. -/
theorem keeps_mapOver (fn seq : Expr) : Keeps R (mapOver ev fn seq) :=
  keeps_bind hR (keeps_listItems hR hev seq) fun items =>
    keeps_bind hR (keeps_evalAll hR hev (items.map (callOn fn))) fun _ => keeps_pure hR _

/-- Only a name or an operator is mapped over a list. -/
theorem keeps_map (args : List Expr) : Keeps R (map ev args) := by
  unfold map
  split
  · exact keeps_mapOver hR hev _ _
  · exact keeps_mapOver hR hev _ _
  · exact keeps_fail hR _
  · exact keeps_fail hR _

theorem keeps_eval (args : List Expr) : Keeps R (eval ev args) := by
  unfold eval
  split
  · next e => exact keeps_bind hR (hev e) fun value => hev value
  · exact keeps_fail hR _

/-! ## Application and evaluation -/

/-- Every operator stays within the relation if the evaluation of its operands does. -/
theorem keeps_builtin (op : Operator) (args : List Expr) : Keeps R (builtin ev op args) := by
  cases op with
  | add => exact keeps_variadic hR hev _ args
  | mul => exact keeps_variadic hR hev _ args
  | sub => exact keeps_binary hR hev _ args
  | div => exact keeps_binary hR hev _ args
  | rem => exact keeps_binary hR hev _ args
  | defun => exact keeps_defun hR args
  | nth => exact keeps_nth hR hev args
  | list => exact keeps_list hR hev args
  | eval => exact keeps_eval hR hev args
  | car => exact keeps_car hR hev args
  | map => exact keeps_map hR hev args

/-- A call looks the function up, records the call and evaluates the body with the parameters bound.
-/
theorem keeps_call (name : String) (args : List Expr) : Keeps R (call ev name args) :=
  keeps_bind hR (keeps_ask hR _) fun p =>
    keeps_bind hR (keeps_record hR _) fun _ => keeps_bound hR p.params args (hev p.body)

/-- What is applied is a function or an operator, or there is no effect. -/
theorem keeps_apply (wired : Operator → Bool) (head : Expr) (args : List Expr) :
    Keeps R (apply wired ev head args) := by
  unfold apply
  split
  · exact keeps_call hR hev _ args
  · split
    · exact keeps_builtin hR hev _ args
    · exact keeps_fail hR _
  · exact keeps_fail hR _

/-- One level stays within the relation if the levels inside do. -/
theorem keeps_step (wired : Operator → Bool) (e : Expr) : Keeps R (step wired ev e) := by
  unfold step
  split
  · exact keeps_bind hR (keeps_ask hR _) fun value => hev value
  · exact keeps_fail hR _
  · exact keeps_pure hR _
  · exact keeps_pure hR _
  · exact keeps_apply hR hev wired _ _
  · exact keeps_pure hR _

end Forms

/-- Evaluation stays within the relation, by induction on the levels that are left. -/
theorem keeps_evalWithin (hR : Effect R) (wired : Operator → Bool) (levels : Nat) (e : Expr) :
    Keeps R (evalWithin wired levels e) := by
  induction levels generalizing e with
  | zero => exact keeps_ask hR _
  | succ levels ih => exact keeps_within hR (keeps_step hR ih wired e)

/-- **Every evaluation stays within a relation that respects the four effects**, with whatever
operators available, at whatever nesting and however it ends. -/
theorem evaluate_keeps (hR : Effect R) (M : Machine) (e : Expr) : Keeps R (evaluate M e) :=
  fun E => keeps_evalWithin hR M.wired (levels M E) e E

/-! ## Variables, nesting and limit -/

/-- Environments that differ in their functions at most. -/
structure SameScope (E F : Env) : Prop where
  vars : F.vars = E.vars
  depth : F.depth = E.depth
  maxDepth : F.maxDepth = E.maxDepth

/-- Nothing but the functions could be different. -/
theorem SameScope.eq_of_functions {E F : Env} (h : SameScope E F)
    (hfunctions : F.functions = E.functions) : F = E := by
  obtain ⟨vars, functions, maxDepth, depth⟩ := F
  obtain ⟨hvars, hdepth, hmax⟩ := h
  subst hvars hdepth hmax hfunctions
  rfl

/-- The four effects change nothing but functions.  That a call puts back its caller's variables in
their order is `Env.vars_restore_of_vars_eq`. -/
theorem sameScope_effect : Effect SameScope where
  refl _ := ⟨rfl, rfl, rfl⟩
  trans h k := ⟨k.vars.trans h.vars, k.depth.trans h.depth, k.maxDepth.trans h.maxDepth⟩
  define _ _ _ _ := ⟨rfl, rfl, rfl⟩
  bound _ _ h := ⟨Env.vars_restore_of_vars_eq h.vars, h.depth, h.maxDepth⟩
  within h := by
    refine ⟨h.vars, ?_, h.maxDepth⟩
    show _ - 1 = _
    rw [h.depth]
    show _ + 1 - 1 = _
    omega

/-- **Evaluation leaves no trace but definitions.** Whether it returns or fails, the nesting, the
limit and the variables are those from before, the latter with their bindings in the same order. -/
theorem evaluate_env_scope (M : Machine) (e : Expr) (E : Env) :
    (evaluate M e E).env.depth = E.depth ∧ (evaluate M e E).env.maxDepth = E.maxDepth ∧
      (evaluate M e E).env.vars.entries = E.vars.entries := by
  have h : SameScope E (evaluate M e E).env := evaluate_keeps sameScope_effect M e E
  exact ⟨h.depth, h.maxDepth, congrArg Table.entries h.vars⟩

end Lisp.Eval
