/-
# Two evaluations side by side

One expression is evaluated in two environments.  As long as the environments agree on whatever the
evaluation asks of them, both runs take the same steps, and as long as every effect on both sides
keeps the agreement, they end alike.  What agreement means is left open: it is a relation between
environments, a class of expressions that the runs stay inside and a relation between their errors.

* `Agreement` : the agreements that every operator keeps;
* `Coupling` : those that a whole evaluation keeps;
* `Matched` : two outcomes that agree, or of which the first was cut off by the limit;
* `Lockstep` : computations that match from environments that agree;
* `evaluate_lockstep` : an evaluation matches itself in every environment that agrees;
* `evaluate_inside` : the case of one run, which stays inside a closed class.
-/
import Lisp.Proofs.Closure

namespace Lisp.Eval

open EvalM

/-- An agreement `R` between the environments of two runs that stay inside the class `P`, with the
errors of the two related by `S`.  Look-ups of names in the class give the same and stay inside it,
and whatever an operator does to both environments keeps the agreement. -/
structure Agreement (P : Expr → Prop) (R : Env → Env → Prop) (S : EvalError → EvalError → Prop) :
    Prop extends Closed P where
  vars : ∀ {E F id}, R E F → P (.name id) →
    E.vars.get? id = F.vars.get? id ∧ ∀ {e}, E.vars.get? id = some e → P e
  functions : ∀ {E F id}, R E F → P (.name id) →
    E.functions.get? id = F.functions.get? id ∧
      ∀ {p}, E.functions.get? id = some p → p.Inside P
  define : ∀ {E F p}, R E F → P (.operator .defun) → p.Inside P → R (E.define p) (F.define p)
  bind : ∀ {E F names values}, R E F → (∀ x ∈ names, P (.name x)) → (∀ e ∈ values, P e) →
    R (E.bind names values) (F.bind names values)
  restore : ∀ {E F E' F' names}, R E F → (∀ x ∈ names, P (.name x)) → R E' F' →
    R (E'.restore (E.save names)) (F'.restore (F.save names))
  raised : ∀ {err : EvalError}, err.RaisedOver P → S err err

/-- An agreement that is kept from level to level, down to the limit. -/
structure Coupling (P : Expr → Prop) (R : Env → Env → Prop) (S : EvalError → EvalError → Prop) :
    Prop extends Agreement P R S where
  deeper : ∀ {E F : Env}, R E F →
    R { E with depth := E.depth + 1 } { F with depth := F.depth + 1 }
  leave : ∀ {E F}, R E F → R E.leave F.leave
  limit : ∀ {E F}, R E F → S (.tooDeep E.maxDepth) (.tooDeep F.maxDepth)

variable {α β : Type} {P : Expr → Prop} {R : Env → Env → Prop} {S : EvalError → EvalError → Prop}
  {loose : Prop}

/-- Two outcomes that agree: the same value, which satisfies `Q`, or related errors, in environments
that agree.  Where the agreement is `loose`, nothing is said about a run that was cut off. -/
inductive Matched (loose : Prop) (R : Env → Env → Prop) (S : EvalError → EvalError → Prop)
    (Q : α → Prop) : Outcome α → Outcome α → Prop
  | value {a : α} {E F : Env} {events events' : List Event} :
      Q a → R E F → Matched loose R S Q ⟨.ok a, E, events⟩ ⟨.ok a, F, events'⟩
  | failure {err err' : EvalError} {E F : Env} {events events' : List Event} :
      S err err' → R E F → Matched loose R S Q ⟨.error err, E, events⟩ ⟨.error err', F, events'⟩
  | cutOff {limit : Int} {E : Env} {events : List Event} {o : Outcome α} :
      loose → Matched loose R S Q ⟨.error (.tooDeep limit), E, events⟩ o

/-- Computations that match from environments that agree. -/
def Lockstep (loose : Prop) (R : Env → Env → Prop) (S : EvalError → EvalError → Prop)
    (Q : α → Prop) (m m' : EvalM α) : Prop := ∀ E F, R E F → Matched loose R S Q (m E) (m' F)

/-! ## Primitive computations -/

/-- Whether outcomes match does not depend on their events, and it is kept by whatever keeps the
agreement of their environments. -/
theorem Matched.map {Q : α → Prop} {o o' : Outcome α} (h : Matched loose R S Q o o')
    {f g : Env → Env} (hfg : ∀ {E F}, R E F → R (f E) (g F)) (events events' : List Event) :
    Matched loose R S Q ⟨o.result, f o.env, events⟩ ⟨o'.result, g o'.env, events'⟩ := by
  cases h with
  | value ha hR => exact .value ha (hfg hR)
  | failure herr hR => exact .failure herr (hfg hR)
  | cutOff hloose => exact .cutOff hloose

theorem lockstep_pure {Q : α → Prop} {a : α} (ha : Q a) :
    Lockstep loose R S Q (pure a) (pure a) :=
  fun _ _ hR => .value ha hR

/-- One computation after another. If the first ones fail, or the first run is cut off in it, the
second ones are not reached. -/
theorem lockstep_bind {Q : α → Prop} {T : β → Prop} {m m' : EvalM α} {f f' : α → EvalM β}
    (hm : Lockstep loose R S Q m m') (hf : ∀ a, Q a → Lockstep loose R S T (f a) (f' a)) :
    Lockstep loose R S T (m >>= f) (m' >>= f') := by
  intro E F hR
  have hfirst := hm E F hR
  rw [bind_apply, bind_apply]
  generalize m E = o, m' F = o' at hfirst ⊢
  cases hfirst with
  | value ha hR => exact (hf _ ha _ _ hR).map id _ _
  | failure herr hR => exact .failure herr hR
  | cutOff hloose => exact .cutOff hloose

/-- The events that are recorded may differ. -/
theorem lockstep_record (event : Env → Event) :
    Lockstep loose R S (fun _ => True) (record event) (record event) :=
  fun _ _ hR => .value trivial hR

section Primitive

variable (A : Agreement P R S)
include A

/-- An error that is raised over the class is related to itself. -/
theorem lockstep_fail {Q : α → Prop} {err : EvalError} (h : err.RaisedOver P) :
    Lockstep loose R S Q (fail err) (fail err) :=
  fun _ _ hR => .failure (A.raised h) hR

theorem lockstep_define (hop : P (.operator .defun)) {p : Procedure} (hp : p.Inside P) :
    Lockstep loose R S (fun _ => True) (EvalM.define p) (EvalM.define p) :=
  fun _ _ hR => .value trivial (A.define hR hop hp)

/-- A variable of the class has the same value on both sides, or is unknown on both. -/
theorem lockstep_lookupVariable {id : String} (hid : P (.name id)) :
    Lockstep loose R S P (ask (·.lookupVariable id)) (ask (·.lookupVariable id)) := by
  intro E F hR
  obtain ⟨hsame, hin⟩ := A.vars hR hid
  simp only [ask, Env.lookupVariable, ← hsame]
  split
  · next h => exact .value (hin h) hR
  · exact .failure (A.raised hid) hR

/-- A function of the class is found on both sides and takes the arguments on both, or neither. -/
theorem lockstep_lookupCall {id : String} (hid : P (.name id)) (count : Nat) :
    Lockstep loose R S (Procedure.Inside P) (ask (·.lookupCall id count))
      (ask (·.lookupCall id count)) := by
  intro E F hR
  obtain ⟨hsame, hin⟩ := A.functions hR hid
  simp only [ask, Env.lookupCall, Env.lookupFunction, ← hsame]
  cases h : E.functions.get? id with
  | none => exact .failure (A.raised hid) hR
  | some p =>
    by_cases hcount : count = p.arity
    · simp only [hcount, if_true]
      exact .value (hin h) hR
    · simp only [hcount, if_false]
      exact .failure (A.raised trivial) hR

/-- Both sides bind the same parameters to the same values and put back what each had before. -/
theorem lockstep_bound {Q : α → Prop} {names : List String} {values : List Expr} {m m' : EvalM α}
    (hnames : ∀ x ∈ names, P (.name x)) (hvalues : ∀ e ∈ values, P e)
    (hm : Lockstep loose R S Q m m') :
    Lockstep loose R S Q (bound names values m) (bound names values m') :=
  fun _ _ hR => (hm _ _ (A.bind hR hnames hvalues)).map (A.restore hR hnames) _ _

end Primitive

/-- Both sides go one level deeper and come back. -/
theorem lockstep_within (C : Coupling P R S) {Q : α → Prop} {m m' : EvalM α}
    (hm : Lockstep loose R S Q m m') :
    Lockstep loose R S Q (within m) (within m') :=
  fun _ _ hR => (hm _ _ (C.deeper hR)).map C.leave _ _

/-! ## Operators -/

section Forms

variable (A : Agreement P R S) {ev ev' : Evaluator}
  (hev : ∀ {e}, P e → Lockstep loose R S P (ev e) (ev' e))

include hev in
/-- The arguments are evaluated one after another, up to the first error. -/
theorem lockstep_evalAll {es : List Expr} (hes : ∀ e ∈ es, P e) :
    Lockstep loose R S (fun values => ∀ e ∈ values, P e) (evalAll ev es) (evalAll ev' es) := by
  induction es with
  | nil => exact lockstep_pure (by simp)
  | cons e rest ih =>
    rw [List.forall_mem_cons] at hes
    refine lockstep_bind (hev hes.1) fun value hvalue => ?_
    refine lockstep_bind (ih hes.2) fun values hvalues => ?_
    exact lockstep_pure (List.forall_mem_cons.2 ⟨hvalue, hvalues⟩)

include A

/-- What is computed from numbers of the class belongs to it, and so does the cause of an error. -/
theorem lockstep_ofNumber {ns : List Number} {r : Except NumberError Number} (h : Computes ns r)
    (hns : ∀ n ∈ ns, P (.number n)) : Lockstep loose R S P (ofNumber r) (ofNumber r) := by
  cases r with
  | ok n => exact lockstep_pure (A.number h hns)
  | error cause => exact lockstep_fail A ⟨ns, h, hns⟩

/-- A definition takes its name, parameters and body from the arguments. -/
theorem lockstep_defun (hop : P (.operator .defun)) {args : List Expr} (hargs : ∀ e ∈ args, P e) :
    Lockstep loose R S P (defun args) (defun args) := by
  unfold defun
  split
  · next id params body =>
    simp only [List.forall_mem_cons] at hargs
    obtain ⟨hid, hparams, hbody, -⟩ := hargs
    split
    · next names hnames =>
      rw [A.form, eq_map_name_of_names? hnames, List.forall_mem_map] at hparams
      exact lockstep_bind (lockstep_define A hop ⟨hid, hparams, hbody⟩) fun _ _ => lockstep_pure hid
    · exact lockstep_fail A hparams
  · exact lockstep_fail A trivial
  · exact lockstep_fail A trivial

include hev

theorem lockstep_variadic {op : List Number → Except NumberError Number}
    (hop : ∀ ns, Computes ns (op ns)) {args : List Expr} (hargs : ∀ e ∈ args, P e) :
    Lockstep loose R S P (variadic op ev args) (variadic op ev' args) := by
  refine lockstep_bind (lockstep_evalAll hev hargs) fun values hvalues => ?_
  split
  · next ns hns =>
    rw [eq_map_number_of_numbers? hns, List.forall_mem_map] at hvalues
    exact lockstep_ofNumber A (hop ns) hvalues
  · exact lockstep_fail A trivial

theorem lockstep_binary {op : Number → Number → Except NumberError Number}
    (hop : ∀ m n, Computes [m, n] (op m n)) {args : List Expr} (hargs : ∀ e ∈ args, P e) :
    Lockstep loose R S P (binary op ev args) (binary op ev' args) := by
  unfold binary
  split
  · next a b =>
    simp only [List.forall_mem_cons] at hargs
    refine lockstep_bind (hev hargs.1) fun x hx => lockstep_bind (hev hargs.2.1) fun y hy => ?_
    split
    · next m n =>
      refine lockstep_ofNumber A (hop m n) ?_
      rw [List.forall_mem_cons, List.forall_mem_singleton]
      exact ⟨hx, hy⟩
    · exact lockstep_fail A trivial
  · exact lockstep_fail A trivial

/-- The elements of a list of the class belong to it, be it quoted or a value. -/
theorem lockstep_listItems {e : Expr} (he : P e) :
    Lockstep loose R S (fun items => ∀ x ∈ items, P x) (listItems ev e) (listItems ev' e) := by
  unfold listItems
  split
  · next items => exact lockstep_pure ((A.quoted items).1 he)
  · refine lockstep_bind (hev he) fun value hvalue => ?_
    split
    · next items hitems => exact lockstep_pure (A.of_items? hvalue hitems)
    · exact lockstep_fail A trivial

theorem lockstep_list {args : List Expr} (hargs : ∀ e ∈ args, P e) :
    Lockstep loose R S P (list ev args) (list ev' args) :=
  lockstep_bind (lockstep_evalAll hev hargs) fun values hvalues =>
    lockstep_pure ((A.quoted values).2 hvalues)

theorem lockstep_car {args : List Expr} (hargs : ∀ e ∈ args, P e) :
    Lockstep loose R S P (car ev args) (car ev' args) := by
  unfold car
  split
  · exact lockstep_fail A trivial
  · next e _ =>
    rw [List.forall_mem_singleton] at hargs
    refine lockstep_bind (hev hargs) fun value hvalue => ?_
    split
    · next items hitems =>
      have hin := A.of_items? hvalue hitems
      cases items with
      | nil => exact lockstep_pure A.nil
      | cons first rest => exact lockstep_pure (hin first List.mem_cons_self)
    · exact lockstep_fail A trivial
  · exact lockstep_fail A trivial

/-- The index selects one element of the same list on both sides. -/
theorem lockstep_nth {args : List Expr} (hargs : ∀ e ∈ args, P e) :
    Lockstep loose R S P (nth ev args) (nth ev' args) := by
  unfold nth
  split
  · next index seq =>
    simp only [List.forall_mem_cons] at hargs
    refine lockstep_bind (hev hargs.1) fun value hvalue => ?_
    split
    · refine lockstep_bind (lockstep_listItems A hev hargs.2.1) fun items hitems => ?_
      split
      · exact lockstep_pure (hitems _ (List.getElem_mem _))
      · exact lockstep_fail A trivial
    · exact lockstep_fail A hvalue
    · exact lockstep_fail A trivial
  · exact lockstep_fail A trivial

/-- The calls that are put together from a function and the elements belong to the class. -/
theorem lockstep_mapOver {fn seq : Expr} (hfn : P fn) (hseq : P seq) :
    Lockstep loose R S P (mapOver ev fn seq) (mapOver ev' fn seq) := by
  refine lockstep_bind (lockstep_listItems A hev hseq) fun items hitems => ?_
  have hcalls : ∀ e ∈ items.map (callOn fn), P e := by
    rw [List.forall_mem_map]
    intro x hx
    exact A.callOn hfn (hitems x hx)
  exact lockstep_bind (lockstep_evalAll hev hcalls) fun values hvalues =>
    lockstep_pure ((A.form values).2 hvalues)

/-- Only a name or an operator is mapped over a list, on both sides. -/
theorem lockstep_map {args : List Expr} (hargs : ∀ e ∈ args, P e) :
    Lockstep loose R S P (map ev args) (map ev' args) := by
  unfold map
  split
  · simp only [List.forall_mem_cons] at hargs
    exact lockstep_mapOver A hev hargs.1 hargs.2.1
  · simp only [List.forall_mem_cons] at hargs
    exact lockstep_mapOver A hev hargs.1 hargs.2.1
  · simp only [List.forall_mem_cons] at hargs
    exact lockstep_fail A hargs.1
  · exact lockstep_fail A trivial

/-- The value belongs to the class, so it can be evaluated once more. -/
theorem lockstep_eval {args : List Expr} (hargs : ∀ e ∈ args, P e) :
    Lockstep loose R S P (eval ev args) (eval ev' args) := by
  unfold eval
  split
  · rw [List.forall_mem_singleton] at hargs
    exact lockstep_bind (hev hargs) fun value hvalue => hev hvalue
  · exact lockstep_fail A trivial

/-! ## Application and evaluation -/

/-- Every operator matches itself if the evaluations of its operands match. -/
theorem lockstep_builtin {op : Operator} (hop : P (.operator op)) {args : List Expr}
    (hargs : ∀ e ∈ args, P e) :
    Lockstep loose R S P (builtin ev op args) (builtin ev' op args) := by
  cases op with
  | add => exact lockstep_variadic A hev Computes.sum hargs
  | mul => exact lockstep_variadic A hev Computes.product hargs
  | sub => exact lockstep_binary A hev Computes.difference hargs
  | div => exact lockstep_binary A hev Computes.quotient hargs
  | rem => exact lockstep_binary A hev Computes.remainder hargs
  | defun => exact lockstep_defun A hop hargs
  | nth => exact lockstep_nth A hev hargs
  | list => exact lockstep_list A hev hargs
  | eval => exact lockstep_eval A hev hargs
  | car => exact lockstep_car A hev hargs
  | map => exact lockstep_map A hev hargs

/-- The body of a function belongs to the class, and so do its parameters and their values. -/
theorem lockstep_call {name : String} (hname : P (.name name)) {args : List Expr}
    (hargs : ∀ e ∈ args, P e) : Lockstep loose R S P (call ev name args) (call ev' name args) :=
  lockstep_bind (lockstep_lookupCall A hname args.length) fun _ hp =>
    lockstep_bind (lockstep_record _) fun _ _ => lockstep_bound A hp.params hargs (hev hp.body)

/-- Both sides take the head for the same function or operator, or refuse it alike. -/
theorem lockstep_apply (wired : Operator → Bool) {head : Expr} (hhead : P head) {args : List Expr}
    (hargs : ∀ e ∈ args, P e) :
    Lockstep loose R S P (apply wired ev head args) (apply wired ev' head args) := by
  unfold apply
  split
  · exact lockstep_call A hev hhead hargs
  · split
    · exact lockstep_builtin A hev hhead hargs
    · exact lockstep_fail A trivial
  · exact lockstep_fail A hhead

/-- One level matches if the levels inside do. -/
theorem lockstep_step (wired : Operator → Bool) {e : Expr} (he : P e) :
    Lockstep loose R S P (step wired ev e) (step wired ev' e) := by
  unfold step
  split
  · exact lockstep_bind (lockstep_lookupVariable A he) fun value hvalue => hev hvalue
  · exact lockstep_fail A trivial
  · next items => exact lockstep_pure ((A.form items).2 ((A.quoted items).1 he))
  · exact lockstep_pure A.nil
  · next head args =>
    rw [A.form, List.forall_mem_cons] at he
    exact lockstep_apply A hev wired he.1 he.2
  · exact lockstep_pure he

end Forms

/-- Evaluations within the same number of levels match, and loosely also if the second has more of
them: by induction on the levels of the first. -/
theorem lockstep_evalWithin (C : Coupling P R S) (wired : Operator → Bool) {n n' : Nat}
    (hn : n = n' ∨ loose ∧ n ≤ n') {e : Expr} (he : P e) :
    Lockstep loose R S P (evalWithin wired n e) (evalWithin wired n' e) := by
  induction n generalizing n' e with
  | zero =>
    rcases hn with rfl | ⟨hloose, -⟩
    · exact fun E F hR => .failure (C.limit hR) hR
    · exact fun E F hR => .cutOff hloose
  | succ n ih =>
    cases n' with
    | zero => omega
    | succ n' =>
      have hn : n = n' ∨ loose ∧ n ≤ n' := hn.imp (by omega) (And.imp_right (by omega))
      exact lockstep_within C (lockstep_step C.toAgreement (fun he => ih hn he) wired he)

/-- **Evaluations in environments that agree match**, if both have the same number of levels left,
and loosely also if the second has more. -/
theorem evaluate_lockstep (C : Coupling P R S) (M : Machine) {e : Expr} (he : P e) {E F : Env}
    (hR : R E F) (hlevels : levels M E = levels M F ∨ loose ∧ levels M E ≤ levels M F) :
    Matched loose R S P (evaluate M e E) (evaluate M e F) :=
  lockstep_evalWithin C M.wired hlevels he E F hR

/-! ## One run inside a class -/

/-- A run beside itself: the environment is the same and inside the class, and the functions satisfy
a condition that no definition inside the class breaks. -/
theorem coupling_inside (hP : Closed P) {T : Table Procedure → Prop}
    (hT : P (.operator .defun) → ∀ {t p}, T t → p.Inside P → T (t.insert p.name p)) :
    Coupling P (fun E F => E = F ∧ E.Inside P ∧ T E.functions)
      (fun err err' => err = err' ∧ (err.RaisedOver P ∨ ∃ limit, err = .tooDeep limit)) where
  toClosed := hP
  vars := by
    rintro E F id ⟨rfl, hE, -⟩ -
    exact ⟨rfl, hE.vars⟩
  functions := by
    rintro E F id ⟨rfl, hE, -⟩ -
    exact ⟨rfl, hE.functions⟩
  define := by
    rintro E F p ⟨rfl, hE, ht⟩ hop hp
    exact ⟨rfl, hE.define hp, hT hop ht hp⟩
  bind := by
    rintro E F names values ⟨rfl, hE, ht⟩ - hvalues
    exact ⟨rfl, hE.bind names hvalues, ht⟩
  restore := by
    rintro E F E' F' names ⟨rfl, hE, -⟩ - ⟨rfl, hE', ht⟩
    exact ⟨rfl, hE.restore hE' names, ht⟩
  deeper := by
    rintro E F ⟨rfl, hE, ht⟩
    exact ⟨rfl, ⟨hE.vars, hE.functions⟩, ht⟩
  leave := by
    rintro E F ⟨rfl, hE, ht⟩
    exact ⟨rfl, ⟨hE.vars, hE.functions⟩, ht⟩
  raised h := ⟨rfl, .inl h⟩
  limit := by
    rintro E F ⟨rfl, -, -⟩
    exact ⟨rfl, .inr ⟨E.maxDepth, rfl⟩⟩

/-- **Evaluation does not leave a closed class.** Inside of it, the value belongs to it, an error is
that of the limit or names nothing outside of it, and the environment afterwards holds nothing
outside of it. -/
theorem evaluate_inside (hP : Closed P) {T : Table Procedure → Prop}
    (hT : P (.operator .defun) → ∀ {t p}, T t → p.Inside P → T (t.insert p.name p)) (M : Machine)
    {e : Expr} (he : P e) {E : Env} (hE : E.Inside P) (ht : T E.functions) :
    (∀ value, (evaluate M e E).result = .ok value → P value) ∧
      (∀ err, (evaluate M e E).result = .error err →
        err.RaisedOver P ∨ ∃ limit, err = .tooDeep limit) ∧
      (evaluate M e E).env.Inside P ∧ T (evaluate M e E).env.functions := by
  have h : Matched False _ _ P (evaluate M e E) (evaluate M e E) :=
    evaluate_lockstep (coupling_inside hP hT) M he ⟨rfl, hE, ht⟩ (.inl rfl)
  generalize evaluate M e E = o at h ⊢
  cases h with
  | value hvalue hR => exact ⟨by rintro _ ⟨⟩; exact hvalue, nofun, hR.2⟩
  | failure herr hR => exact ⟨nofun, by rintro _ ⟨⟩; exact herr.2, hR.2⟩
  | cutOff hloose => exact hloose.elim

end Lisp.Eval
