/-
# The limit only cuts off

Evaluation counts the levels that it has left, which comes to the same as asking the environment
before each of them.  How many there are decides whether it comes to an end, and never which end:
two evaluations that differ in their limits and in the depths that they start from go through the
same steps until one of them is cut off, and the one with fewer levels left is cut off first.

* `evaluate_enter` : an evaluation enters a level, takes a step and leaves the level;
* `SameBindings` : environments that hold the same under every name;
* `Alongside` : the agreement that two such evaluations keep, whatever their limits;
* `SameError` : errors that are the same but for the limit that they name;
* `evaluate_alongside` : the two evaluations match;
* `evaluate_limit_cuts_off` : an end that is not the limit's is the end under every wider limit.
-/
import Lisp.Proofs.Effect
import Lisp.Proofs.Lockstep

namespace Lisp.Eval

/-! ## One level -/

/-- All expressions make a closed class. -/
theorem closed_all : Closed fun _ => True where
  form _ := by simp
  quoted _ := by simp
  nil := trivial
  number _ _ := trivial

/-- A run beside itself, in which every operator finds the depth where it left it. -/
theorem agreement_self (limit depth : Int) :
    Agreement (fun _ => True) (fun E F => E = F ∧ E.maxDepth = limit ∧ E.depth = depth) Eq where
  toClosed := closed_all
  vars := by
    rintro E F id ⟨rfl, -⟩ -
    exact ⟨rfl, fun _ => trivial⟩
  functions := by
    rintro E F id ⟨rfl, -⟩ -
    exact ⟨rfl, fun _ => ⟨trivial, fun _ _ => trivial, trivial⟩⟩
  define := by
    rintro E F p ⟨rfl, h⟩ - -
    exact ⟨rfl, h⟩
  bind := by
    rintro E F names values ⟨rfl, h⟩ - -
    exact ⟨rfl, h⟩
  restore := by
    rintro E F E' F' names ⟨rfl, -⟩ - ⟨rfl, h⟩
    exact ⟨rfl, h⟩
  raised _ := rfl

/-- Counting levels is the same as asking the environment: at every depth that has `n` levels left,
evaluation is evaluation within `n` levels, and it comes back to that depth. -/
theorem lockstep_evaluate (M : Machine) {n : Nat} {limit depth : Int}
    (hn : min (limit - depth).toNat M.room = n) (e : Expr) :
    Lockstep False (fun E F => E = F ∧ E.maxDepth = limit ∧ E.depth = depth) Eq (fun _ => True)
      (evalWithin M.wired n e) (evaluate M e) := by
  rintro E _ ⟨rfl, rfl, rfl⟩
  have hscope : SameScope E (evaluate M e E).env := evaluate_keeps sameScope_effect M e E
  have hlevels : evalWithin M.wired n e E = evaluate M e E := by rw [← hn]; rfl
  rw [hlevels]
  generalize evaluate M e E = o at hscope
  obtain ⟨result, env, events⟩ := o
  cases result with
  | ok value => exact .value trivial ⟨rfl, hscope.maxDepth, hscope.depth⟩
  | error err => exact .failure rfl ⟨rfl, hscope.maxDepth, hscope.depth⟩

/-- Without a level left, every evaluation ends at once. -/
theorem evaluate_of_levels_eq_zero {M : Machine} {E : Env} (h : levels M E = 0) (e : Expr) :
    evaluate M e E = ⟨.error (.tooDeep E.maxDepth), E, []⟩ := by
  rw [evaluate, h]
  rfl

/-- **One level of evaluation.** Where the limit allows no more levels than there is room for, an
evaluation enters a level, or fails to; takes one step, which evaluates every expression inside in
the environment that it finds; and leaves the level again. -/
theorem evaluate_enter (M : Machine) (e : Expr) {E : Env} (hroom : E.budget ≤ M.room) :
    match E.enter with
    | .error err => (evaluate M e E).result = .error err ∧ (evaluate M e E).env = E
    | .ok E' =>
      (evaluate M e E).result = (step M.wired (evaluate M) e E').result ∧
        (evaluate M e E).env = (step M.wired (evaluate M) e E').env.leave := by
  have hlevels : levels M E = (E.maxDepth - E.depth).toNat := Nat.min_eq_left hroom
  by_cases hdeep : E.maxDepth ≤ E.depth
  · rw [Env.enter, if_pos hdeep, evaluate_of_levels_eq_zero (by omega)]
    exact ⟨rfl, rfl⟩
  · obtain ⟨n, hn⟩ : ∃ n, (E.maxDepth - E.depth).toNat = n + 1 :=
      Nat.exists_eq_succ_of_ne_zero (by omega)
    have hinner : min (E.maxDepth - (E.depth + 1)).toNat M.room = n := by
      unfold Env.budget at hroom
      omega
    let E' : Env := { E with depth := E.depth + 1 }
    have hlevel : evaluate M e E = EvalM.within (step M.wired (evalWithin M.wired n) e) E := by
      rw [evaluate, hlevels, hn]
      rfl
    have hmatch : Matched False _ Eq _ (step M.wired (evalWithin M.wired n) e E')
        (step M.wired (evaluate M) e E') :=
      lockstep_step (agreement_self E.maxDepth (E.depth + 1))
        (fun {e} _ => lockstep_evaluate M hinner e) M.wired trivial E' E' ⟨rfl, rfl, rfl⟩
    rw [Env.enter, if_neg hdeep, hlevel]
    show (step M.wired (evalWithin M.wired n) e E').result = _ ∧
      (step M.wired (evalWithin M.wired n) e E').env.leave = _
    generalize step M.wired (evalWithin M.wired n) e E' = o,
      step M.wired (evaluate M) e E' = o' at hmatch
    cases hmatch with
    | value _ hsame => exact ⟨rfl, congrArg Env.leave hsame.1⟩
    | failure herr hsame => exact ⟨congrArg Except.error herr, congrArg Env.leave hsame.1⟩
    | cutOff hloose => exact hloose.elim

/-! ## The agreement -/

/-- Environments that hold the same under every name, in whatever order the names were bound. -/
structure SameBindings (E F : Env) : Prop where
  vars : ∀ k, E.vars.get? k = F.vars.get? k
  functions : ∀ k, E.functions.get? k = F.functions.get? k

/-- The agreement between two runs under limits of their own.  If the functions are ordered alike at
the beginning, they stay so. -/
structure Alongside (limit limit' : Int) (ordered : Prop) (E F : Env) : Prop
    extends SameBindings E F where
  left : E.maxDepth = limit
  right : F.maxDepth = limit'
  order : ordered → E.functions.keys = F.functions.keys

/-- Errors that are the same, or both report that a limit was reached, each its own. -/
inductive SameError (limit limit' : Int) : EvalError → EvalError → Prop
  | same {err : EvalError} : (∀ l, err ≠ .tooDeep l) → SameError limit limit' err err
  | atLimit : SameError limit limit' (.tooDeep limit) (.tooDeep limit')

/-- The limit plays no part in what an evaluation does to its environment. -/
theorem coupling_alongside (limit limit' : Int) (ordered : Prop) :
    Coupling (fun _ => True) (Alongside limit limit' ordered) (SameError limit limit') where
  toClosed := closed_all
  vars h _ := ⟨h.vars _, fun _ => trivial⟩
  functions h _ := ⟨h.functions _, fun _ => ⟨trivial, fun _ _ => trivial, trivial⟩⟩
  define := by
    intro E F p h _ _
    refine ⟨⟨h.vars, fun k => ?_⟩, h.left, h.right, fun hord => ?_⟩
    · rw [Env.get?_functions_define, Env.get?_functions_define, h.functions k]
    · rw [Env.keys_functions_define, Env.keys_functions_define, h.order hord]
  bind := by
    intro E F names values h _ _
    exact ⟨⟨Env.get?_bindPairs_congr h.vars _, h.functions⟩, h.left, h.right, h.order⟩
  restore := by
    intro E F E' F' names h _ h'
    refine ⟨⟨fun k => ?_, h'.functions⟩, h'.left, h'.right, h'.order⟩
    rw [Env.get?_restore_save, Env.get?_restore_save, h.vars k, h'.vars k]
  deeper h := ⟨⟨h.vars, h.functions⟩, h.left, h.right, h.order⟩
  leave h := ⟨⟨h.vars, h.functions⟩, h.left, h.right, h.order⟩
  raised := by
    intro err h
    refine .same fun l hl => ?_
    rw [hl] at h
    exact h
  limit := by
    intro E F h
    rw [h.left, h.right]
    exact .atLimit

/-- Runs that agree at their end leave the same bindings, and the same functions in the same order
if they began with them. -/
theorem Alongside.leaves {limit limit' : Int} {E F E' F' : Env}
    (h : Alongside limit limit' (E.functions = F.functions) E' F') :
    SameBindings E' F' ∧ (E.functions = F.functions → E'.functions = F'.functions) :=
  ⟨h.toSameBindings, fun heq => Table.eq_of_keys_of_get? (h.order heq) h.functions⟩

/-! ## Evaluations under two limits -/

/-- An environment that allows fewer levels has fewer of them left. -/
theorem levels_le_levels (M : Machine) {E F : Env}
    (h : E.maxDepth - E.depth ≤ F.maxDepth - F.depth) : levels M E ≤ levels M F := by
  have hbudget : E.budget ≤ F.budget := Int.toNat_le_toNat h
  unfold levels
  omega

/-- Two evaluations with the same bindings match, if both have the same number of levels left, and
loosely also if the second has more. -/
theorem evaluate_alongside {loose : Prop} (M : Machine) (e : Expr) {E F : Env}
    (h : SameBindings E F) (hlevels : levels M E = levels M F ∨ loose ∧ levels M E ≤ levels M F) :
    Matched loose (Alongside E.maxDepth F.maxDepth (E.functions = F.functions))
      (SameError E.maxDepth F.maxDepth) (fun _ => True) (evaluate M e E) (evaluate M e F) :=
  evaluate_lockstep (coupling_alongside _ _ _) M trivial
    ⟨h, rfl, rfl, fun heq => congrArg Table.keys heq⟩ hlevels

/-- **The limit only cuts off.** With the same bindings and at least as many levels left, an
evaluation that does not reach the limit ends in the same value or the same error and leaves the
same bindings, with the functions in the same order if they were so before.  With equally many
levels left, the ends are the same in every case, but that each limit error names its own limit. -/
theorem evaluate_limit_cuts_off (M : Machine) (e : Expr) {E F : Env} (h : SameBindings E F) :
    let o := evaluate M e E
    let o' := evaluate M e F
    (E.maxDepth - E.depth ≤ F.maxDepth - F.depth →
      (∀ limit, o.result ≠ .error (.tooDeep limit)) →
        o'.result = o.result ∧ SameBindings o.env o'.env ∧
          (E.functions = F.functions → o.env.functions = o'.env.functions)) ∧
    (E.maxDepth - E.depth = F.maxDepth - F.depth →
      ((∀ limit, o.result ≠ .error (.tooDeep limit)) ∧ o'.result = o.result ∨
        o.result = .error (.tooDeep E.maxDepth) ∧ o'.result = .error (.tooDeep F.maxDepth)) ∧
      SameBindings o.env o'.env ∧
        (E.functions = F.functions → o.env.functions = o'.env.functions)) := by
  intro o o'
  constructor
  · intro hle hfar
    have hmatch : Matched True _ _ _ o o' :=
      evaluate_alongside M e h (.inr ⟨trivial, levels_le_levels M hle⟩)
    revert hfar hmatch
    generalize o = first, o' = second
    intro hfar hmatch
    cases hmatch with
    | value _ hR => exact ⟨rfl, hR.leaves⟩
    | failure herr hR =>
      cases herr with
      | same _ => exact ⟨rfl, hR.leaves⟩
      | atLimit => exact absurd rfl (hfar _)
    | cutOff _ => exact absurd rfl (hfar _)
  · intro heq
    have hlevels : levels M E = levels M F :=
      Nat.le_antisymm (levels_le_levels M (Int.le_of_eq heq))
        (levels_le_levels M (Int.le_of_eq heq.symm))
    have hmatch : Matched False _ _ _ o o' := evaluate_alongside M e h (.inl hlevels)
    revert hmatch
    generalize o = first, o' = second
    intro hmatch
    cases hmatch with
    | value _ hR => exact ⟨.inl ⟨nofun, rfl⟩, hR.leaves⟩
    | failure herr hR =>
      cases herr with
      | same hfar =>
        refine ⟨.inl ⟨fun limit hlimit => hfar limit ?_, rfl⟩, hR.leaves⟩
        exact Except.error.inj hlimit
      | atLimit => exact ⟨.inr ⟨rfl, rfl⟩, hR.leaves⟩
    | cutOff hloose => exact hloose.elim

/-- A function that adds one to its argument, in an environment that is `depth` deep already. -/
def successor (limit depth : Int) : Env :=
  let body : Expr := .form [.operator .add, .name "n", .int 1]
  { (Env.fresh limit).define ⟨"next", ["n"], body⟩ with depth }

/-- Four levels are enough for a call, so it ends alike where more of them are left.  Where there
are three, it is cut off at the same place under every limit. -/
theorem successor_limit_cuts_off :
    let call : Expr := .form [.name "next", .int 2]
    SameBindings (successor 4 0) (successor 90 7) ∧
      (evaluate {} call (successor 4 0)).result = .ok (.int 3) ∧
      (evaluate {} call (successor 90 7)).result = .ok (.int 3) ∧
      (evaluate {} call (successor 3 0)).result = .error (.tooDeep 3) ∧
      (evaluate {} call (successor 90 87)).result = .error (.tooDeep 90) := by
  intro call
  have hsame : ∀ l d l' d', SameBindings (successor l d) (successor l' d') :=
    fun _ _ _ _ => ⟨fun _ => rfl, fun _ => rfl⟩
  have hthree : (evaluate {} call (successor 4 0)).result = .ok (.int 3) := by rfl
  have hcut : (evaluate {} call (successor 3 0)).result = .error (.tooDeep 3) := by rfl
  have hfar : ∀ limit, (evaluate {} call (successor 4 0)).result ≠ .error (.tooDeep limit) := by
    intro limit hlimit
    rw [hthree] at hlimit
    exact absurd hlimit nofun
  have hwider := (evaluate_limit_cuts_off {} call (hsame 4 0 90 7)).1 (by decide) hfar
  have hequal := (evaluate_limit_cuts_off {} call (hsame 3 0 90 87)).2 (by decide)
  have hboth := hequal.1.resolve_left fun h => h.1 3 hcut
  exact ⟨hsame 4 0 90 7, hthree, hwider.1.trans hthree, hboth⟩

end Lisp.Eval
