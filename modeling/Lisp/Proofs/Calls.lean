/-
# Calls

Arguments are bound to parameters as they stand, and evaluated when the body uses the parameter: a
name in them that is a parameter too means the new binding.  So a call does not see what its
parameters were bound to before.  A function that is mapped over a quoted list is called on one
element after another, which comes to the same as a list of these calls.

* `Env.AgreeOutside` : environments that differ in what some names hold;
* `Env.sameBindings_bind` : binding these names makes them alike;
* `Eval.apply_shadows` : a call gives the same in both;
* `Eval.InTurn` : evaluating expressions one after another;
* `Eval.Gathers` : expressions that do this in one level, and make their value of the others';
* `Eval.map_eq_list` : mapping a function is listing its calls.
-/
import Lisp.Proofs.Limit

namespace Lisp

/-! ## What a call sees -/

namespace Env

/-- Environments that are the same but for what some names hold, and for the order of the
variables. -/
structure AgreeOutside (E : Env) (names : List String) (F : Env) : Prop where
  vars : ∀ k, k ∉ names → E.vars.get? k = F.vars.get? k
  functions : E.functions = F.functions
  maxDepth : E.maxDepth = F.maxDepth
  depth : E.depth = F.depth

variable {names : List String} {values : List Expr} {E F : Env}

/-- Once all the names are bound, nothing is left of the difference. -/
theorem sameBindings_bind (h : E.AgreeOutside names F) (hlen : names.length ≤ values.length) :
    Eval.SameBindings (E.bind names values) (F.bind names values) where
  vars := by
    refine get?_bindPairs_shadow fun k hk => h.vars k ?_
    rwa [List.map_fst_zip hlen] at hk
  functions k := by
    show E.functions.get? k = F.functions.get? k
    rw [h.functions]

/-- A name that is bound to one of several values holds one of them, whatever it held before. -/
theorem exists_get?_bindPairs {k : String} {pairs : List (String × Expr)}
    (hk : k ∈ pairs.map Prod.fst) (vars : Table Expr) :
    ∃ e ∈ pairs.map Prod.snd, (bindPairs vars pairs).get? k = some e := by
  obtain ⟨before, value, behind, rfl, hbehind⟩ := exists_last_pair hk
  exact ⟨value, by simp, get?_bindPairs_last hbehind vars before⟩

/-- While the names are bound, each of them holds the same new value in both. -/
theorem exists_lookupVariable_bind (h : E.AgreeOutside names F)
    (hlen : names.length = values.length) {k : String} (hk : k ∈ names) :
    ∃ e ∈ values, (E.bind names values).lookupVariable k = .ok e ∧
      (F.bind names values).lookupVariable k = .ok e := by
  have hpairs : k ∈ (names.zip values).map Prod.fst := by
    rwa [List.map_fst_zip (Nat.le_of_eq hlen)]
  obtain ⟨e, he, hget⟩ := exists_get?_bindPairs hpairs E.vars
  rw [List.map_snd_zip (Nat.le_of_eq hlen.symm)] at he
  have hsame := (sameBindings_bind h (Nat.le_of_eq hlen)).vars k
  have hE : (E.bind names values).vars.get? k = some e := hget
  have hF : (F.bind names values).vars.get? k = some e := hsame.symm.trans hE
  refine ⟨e, he, ?_, ?_⟩
  · rw [lookupVariable, hE]
  · rw [lookupVariable, hF]

end Env

namespace Eval

open EvalM

/-- A function that is found for a call is the one of the name, and takes so many arguments. -/
theorem of_lookupCall {E : Env} {name : String} {count : Nat} {p : Procedure}
    (h : E.lookupCall name count = .ok p) : E.functions.get? name = some p ∧ count = p.arity := by
  unfold Env.lookupCall Env.lookupFunction at h
  cases hget : E.functions.get? name with
  | none => simp [hget] at h
  | some q =>
    simp only [hget] at h
    split at h
    · next hcount =>
      obtain rfl := Except.ok.inj h
      exact ⟨rfl, hcount⟩
    · simp at h

section Call

variable (ev : Evaluator) {name : String} {args : List Expr} {p : Procedure} {E : Env}

/-- A call of a function that is not there, or that takes other arguments, does nothing else. -/
theorem call_of_error {err : EvalError} (h : E.lookupCall name args.length = .error err) :
    call ev name args E = ⟨.error err, E, []⟩ := by
  simp only [call, bind_apply, ask, h]

/-- A call that finds its function evaluates the body with the parameters bound, and puts them
back. -/
theorem call_of_ok (h : E.lookupCall name args.length = .ok p) :
    (call ev name args E).result = (ev p.body (E.bind p.params args)).result ∧
      (call ev name args E).env =
        (ev p.body (E.bind p.params args)).env.restore (E.save p.params) := by
  simp only [call, bind_apply, ask, h, record, bound, and_self]

end Call

/-- Runs alongside each other under one limit end alike. -/
theorem Matched.same {α : Type} {limit : Int} {Q : α → Prop} {o o' : Outcome α}
    (h : Matched False (Alongside limit limit True) (SameError limit limit) Q o o') :
    o'.result = o.result ∧ o'.env.functions = o.env.functions := by
  have hfunctions : ∀ {E F : Env}, Alongside limit limit True E F → F.functions = E.functions := by
    intro E F hR
    exact (Table.eq_of_keys_of_get? (hR.order trivial) hR.functions).symm
  cases h with
  | value _ hR => exact ⟨rfl, hfunctions hR⟩
  | failure herr hR =>
    cases herr with
    | same _ => exact ⟨rfl, hfunctions hR⟩
    | atLimit => exact ⟨rfl, hfunctions hR⟩
  | cutOff hloose => exact hloose.elim

/-- With the names bound, an evaluation within the same levels is the same in both. -/
theorem evalWithin_bind_same (wired : Operator → Bool) (levels : Nat) {names : List String}
    {values : List Expr} {E F : Env} (h : E.AgreeOutside names F)
    (hlen : names.length ≤ values.length) (e : Expr) :
    (evalWithin wired levels e (F.bind names values)).result =
        (evalWithin wired levels e (E.bind names values)).result ∧
      (evalWithin wired levels e (F.bind names values)).env.functions =
        (evalWithin wired levels e (E.bind names values)).env.functions := by
  have hagree : Alongside E.maxDepth E.maxDepth True (E.bind names values) (F.bind names values) :=
    ⟨Env.sameBindings_bind h hlen, rfl, h.maxDepth.symm, fun _ => congrArg Table.keys h.functions⟩
  have hmatch : Matched False _ _ _ (evalWithin wired levels e (E.bind names values))
      (evalWithin wired levels e (F.bind names values)) :=
    lockstep_evalWithin (coupling_alongside _ _ True) wired (.inl rfl) trivial _ _ hagree
  exact hmatch.same

/-- **A call shadows its caller's bindings.** In two environments that differ only in what the
parameters of a function hold, and in the order of their variables, a call of the function gives the
same value or the same error and leaves the same functions.  While its body is evaluated, each
parameter holds the same of the arguments in both, and this is what a name in an argument means if
it is a parameter. -/
theorem apply_shadows (M : Machine) {name : String} {p : Procedure} {E F : Env}
    (hp : E.functions.get? name = some p) (h : E.AgreeOutside p.params F) (args : List Expr) :
    (applyDirect M (.name name) args F).result = (applyDirect M (.name name) args E).result ∧
      (applyDirect M (.name name) args F).env.functions =
        (applyDirect M (.name name) args E).env.functions ∧
      (args.length = p.arity → ∀ k ∈ p.params, ∃ e ∈ args,
        (E.bind p.params args).lookupVariable k = .ok e ∧
          (F.bind p.params args).lookupVariable k = .ok e) := by
  have hlevels : levels M F = levels M E := by
    rw [levels, levels, Env.budget, Env.budget, h.maxDepth, h.depth]
  have hlookup : F.lookupCall name args.length = E.lookupCall name args.length := by
    rw [Env.lookupCall, Env.lookupCall, Env.lookupFunction, Env.lookupFunction, h.functions]
  rw [← and_assoc]
  constructor
  · show (call (evalWithin M.wired (levels M F)) name args F).result =
        (call (evalWithin M.wired (levels M E)) name args E).result ∧
      (call (evalWithin M.wired (levels M F)) name args F).env.functions =
        (call (evalWithin M.wired (levels M E)) name args E).env.functions
    rw [hlevels]
    cases hE : E.lookupCall name args.length with
    | error err =>
      rw [call_of_error _ hE, call_of_error _ (hlookup.trans hE)]
      exact ⟨rfl, h.functions.symm⟩
    | ok q =>
      obtain ⟨hq, hcount⟩ := of_lookupCall hE
      obtain rfl : p = q := Option.some.inj (hp.symm.trans hq)
      obtain ⟨hresE, henvE⟩ := call_of_ok (evalWithin M.wired (levels M E)) hE
      obtain ⟨hresF, henvF⟩ := call_of_ok (evalWithin M.wired (levels M E)) (hlookup.trans hE)
      rw [hresE, henvE, hresF, henvF]
      exact evalWithin_bind_same M.wired _ h (Nat.le_of_eq hcount.symm) p.body
  · intro hcount k hk
    exact Env.exists_lookupVariable_bind h hcount.symm hk

/-- The function adds its parameters.  Called with the name of the second parameter as its first
argument, it adds the second argument to itself, whatever its caller holds under that name. -/
theorem apply_shadows_sum :
    let sum : Procedure := ⟨"sum", ["a", "b"], .form [.operator .add, .name "a", .name "b"]⟩
    let E := ((Env.fresh 9).bind ["b", "c"] [.int 100, .int 5]).define sum
    let F := ((Env.fresh 9).bind ["c", "a"] [.int 5, .text "none"]).define sum
    let args : List Expr := [.name "b", .name "c"]
    E.functions.get? "sum" = some sum ∧ E.AgreeOutside sum.params F ∧
      (applyDirect {} (.name "sum") args E).result = .ok (.int 10) ∧
      (applyDirect {} (.name "sum") args F).result = .ok (.int 10) := by
  intro sum E F args
  have hsum : E.functions.get? "sum" = some sum := by rfl
  have hagree : E.AgreeOutside sum.params F := by
    refine ⟨fun k hk => ?_, rfl, rfl, rfl⟩
    have hnot : k ≠ "a" ∧ k ≠ "b" := by simpa [sum] using hk
    show (Env.bindPairs Table.empty [("b", Expr.int 100), ("c", .int 5)]).get? k =
      (Env.bindPairs Table.empty [("c", Expr.int 5), ("a", .text "none")]).get? k
    simp [Env.bindPairs, hnot.1, hnot.2]
  have hten : (applyDirect {} (.name "sum") args E).result = .ok (.int 10) := by rfl
  exact ⟨hsum, hagree, hten, (apply_shadows {} hsum hagree args).1.trans hten⟩

/-! ## Calls in turn -/

/-- The arguments that an element of a list stands for in a call: those on it if it is a quoted
list, and else only itself. -/
def spread : Expr → List Expr
  | .quoted items => items
  | e => [e]

/-- A call on an element has the elements of a quoted list as its arguments. -/
theorem callOn_eq (fn e : Expr) : callOn fn e = .form (fn :: spread e) := by
  cases e <;> rfl

/-- Evaluating expressions in turn: every one in the environment that the one before it left, up to
the first error, and with the environment at the end. -/
inductive InTurn (M : Machine) : List Expr → Env → Except EvalError (List Expr) → Env → Prop
  | done (E : Env) : InTurn M [] E (.ok []) E
  | next {e value : Expr} {rest : List Expr} {E F : Env} {r : Except EvalError (List Expr)} :
      (evaluate M e E).result = .ok value → InTurn M rest (evaluate M e E).env r F →
      InTurn M (e :: rest) E (r.map (value :: ·)) F
  | stop {e : Expr} {err : EvalError} (rest : List Expr) {E : Env} :
      (evaluate M e E).result = .error err →
      InTurn M (e :: rest) E (.error err) (evaluate M e E).env

/-- A computation whose value is only made into another one. -/
theorem bind_pure_apply {α β : Type} (m : EvalM α) (f : α → β) (E : Env) :
    (m >>= fun a => pure (f a)) E = ⟨(m E).result.map f, (m E).env, (m E).events⟩ := by
  rw [bind_apply]
  cases (m E).result with
  | error err => rfl
  | ok a => simp [Except.map]

theorem inTurn_evalAll (M : Machine) (es : List Expr) (E : Env) :
    InTurn M es E (evalAll (evaluate M) es E).result (evalAll (evaluate M) es E).env := by
  induction es generalizing E with
  | nil => exact .done E
  | cons e rest ih =>
    rw [evalAll, bind_apply]
    cases h : (evaluate M e E).result with
    | error err => exact .stop rest h
    | ok value =>
      simp only [bind_pure_apply]
      exact .next h (ih _)

/-- An expression that takes one level to evaluate others in turn, and makes its value of theirs. -/
def Gathers (wired : Operator → Bool) (e : Expr) (make : List Expr → Expr) (es : List Expr) :
    Prop :=
  ∀ ev E, step wired ev e E = (evalAll ev es >>= fun values => pure (make values)) E

theorem gathers_list {wired : Operator → Bool} (h : wired .list = true) (es : List Expr) :
    Gathers wired (.form (.operator .list :: es)) .quoted es := by
  intro ev E
  rw [step, apply, if_pos h]
  rfl

theorem gathers_map {wired : Operator → Bool} (h : wired .map = true) {fn : Expr}
    (hfn : (∃ id, fn = .name id) ∨ ∃ op, fn = .operator op) (xs : List Expr) :
    Gathers wired (.form [.operator .map, fn, .quoted xs]) .form
      (xs.map fun x => .form (fn :: spread x)) := by
  intro ev E
  have hover : builtin ev .map [fn, .quoted xs] = mapOver ev fn (.quoted xs) := by
    rcases hfn with ⟨id, rfl⟩ | ⟨op, rfl⟩
    · rfl
    · rfl
  have hcalls : xs.map (callOn fn) = xs.map fun x => .form (fn :: spread x) :=
    List.map_congr_left fun x _ => callOn_eq fn x
  rw [step, apply, if_pos h, hover, ← hcalls]
  rfl

/-- The values of some expressions that are evaluated in turn, one level inside. -/
def collect (M : Machine) (es : List Expr) : EvalM (List Expr) := fun E =>
  match levels M E with
  | 0 => fail (.tooDeep E.maxDepth) E
  | n + 1 => within (evalAll (evalWithin M.wired n) es) E

section Gathers

variable {M : Machine} {e : Expr} {make : List Expr → Expr} {es : List Expr}

/-- The evaluation of others is all that such an expression does. -/
theorem evaluate_eq_collect (h : Gathers M.wired e make es) (E : Env) :
    evaluate M e E =
      ⟨(collect M es E).result.map make, (collect M es E).env, (collect M es E).events⟩ := by
  unfold collect
  cases hlevels : levels M E with
  | zero => exact evaluate_of_levels_eq_zero hlevels e
  | succ n =>
    rw [evaluate, hlevels, evalWithin, within, h, bind_pure_apply]
    rfl

theorem result_map_injective (hmake : Function.Injective make) {r r' : Except EvalError (List Expr)}
    (h : r.map make = r'.map make) : r = r' := by
  cases r with
  | error err =>
    cases r' with
    | error err' => exact congrArg Except.error (Except.error.inj h)
    | ok values' => simp [Except.map] at h
  | ok values =>
    cases r' with
    | error err' => simp [Except.map] at h
    | ok values' => exact congrArg Except.ok (hmake (Except.ok.inj h))

/-- Inside the level, the others are evaluated in turn. -/
theorem inTurn_collect (h : Gathers M.wired e make es) (hmake : Function.Injective make)
    {E E' : Env} (hroom : E.budget ≤ M.room) (hE' : E.enter = .ok E') :
    ∃ G, InTurn M es E' (collect M es E).result G ∧ (collect M es E).env = G.leave := by
  have henter := evaluate_enter M e hroom
  simp only [hE', evaluate_eq_collect h E, h (evaluate M) E', bind_pure_apply] at henter
  obtain ⟨hresult, henv⟩ := henter
  refine ⟨(evalAll (evaluate M) es E').env, ?_, henv⟩
  rw [result_map_injective hmake hresult]
  exact inTurn_evalAll M es E'

end Gathers

/-- **Mapping a function is listing its calls.** Mapping a name or an operator over a quoted list
ends as the list of the calls on its elements does: in the same error, or in the same values, once
as a form and once as a quoted list; with the same environment, and after the same events.  The
calls are evaluated in turn, one level inside, where the limit allows no more levels than there is
room for. -/
theorem map_eq_list (M : Machine) (hmap : M.wired .map = true) (hlist : M.wired .list = true)
    {fn : Expr} (hfn : (∃ id, fn = .name id) ∨ ∃ op, fn = .operator op) (xs : List Expr)
    (E : Env) :
    let calls := xs.map fun x => Expr.form (fn :: spread x)
    ∃ (r : Except EvalError (List Expr)) (F : Env) (events : List Event),
      evaluate M (.form [.operator .map, fn, .quoted xs]) E = ⟨r.map .form, F, events⟩ ∧
        evaluate M (.form (.operator .list :: calls)) E = ⟨r.map .quoted, F, events⟩ ∧
        (E.budget ≤ M.room →
          ∀ E', E.enter = .ok E' → ∃ G, InTurn M calls E' r G ∧ F = G.leave) := by
  intro calls
  have hcalls := gathers_map hmap hfn xs
  refine ⟨(collect M calls E).result, (collect M calls E).env, (collect M calls E).events, ?_, ?_,
    ?_⟩
  · exact evaluate_eq_collect hcalls E
  · exact evaluate_eq_collect (gathers_list hlist calls) E
  · intro hroom E' hE'
    exact inTurn_collect hcalls (fun _ _ h => Expr.form.inj h) hroom hE'

/-- Definitions that are mapped over a list: the first one is made and remains, and the second
element is no definition. -/
theorem map_eq_list_defun :
    let body : Expr := .form [.operator .add, .name "n", .int 1]
    let first : List Expr := [.name "next", .form [.name "n"], body]
    let E := Env.fresh 9
    let mapped := evaluate {} (.form [.operator .map, .operator .defun,
      .quoted [.quoted first, .int 5, .quoted first]]) E
    let listed := evaluate {} (.form [.operator .list, .form (.operator .defun :: first),
      .form [.operator .defun, .int 5], .form (.operator .defun :: first)]) E
    mapped.result = .error (.argumentCount 3 1) ∧ listed.result = .error (.argumentCount 3 1) ∧
      mapped.env = E.define ⟨"next", ["n"], body⟩ ∧ listed.env = mapped.env := by
  intro body first E mapped listed
  obtain ⟨r, F, events, hmapped, hlisted, -⟩ :=
    map_eq_list {} rfl rfl (.inr ⟨.defun, rfl⟩) [.quoted first, .int 5, .quoted first] E
  have herror : mapped.result = .error (.argumentCount 3 1) := by rfl
  have hlisted' : listed = ⟨r.map .quoted, F, events⟩ := hlisted
  have hmapped' : mapped = ⟨r.map .form, F, events⟩ := hmapped
  have hr : r = .error (.argumentCount 3 1) := by
    refine result_map_injective (fun _ _ h => Expr.form.inj h) ?_
    rw [hmapped'] at herror
    exact herror
  refine ⟨herror, ?_, by rfl, ?_⟩
  · rw [hlisted', hr]
    rfl
  · rw [hlisted', hmapped']

end Eval

end Lisp
