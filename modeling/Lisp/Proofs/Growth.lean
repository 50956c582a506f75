/-
# How functions come and stay

Functions are defined by one operator, and nothing removes them.  So the functions after an
evaluation are those from before in their old order, some of them replaced, and new ones behind
them.  Without that operator at hand, in the expression or in anything it can reach, an evaluation
leaves its environment exactly as it was: no operator appears that was not there before.

* `Env.OwnNames` : every function is stored under its own name;
* `Grows`, `grows_effect` : what a definition does to the functions, and so an evaluation;
* `evaluate_without_defun` : without definitions the whole environment stays;
* `evaluate_functions_grow` : both together.
-/
import Lisp.Proofs.Effect
import Lisp.Proofs.Lockstep

namespace Lisp

/-- Every function is stored under its own name. -/
def Env.OwnNames (E : Env) : Prop := ∀ k p, E.functions.get? k = some p → p.name = k

namespace Eval

/-! ## Growth -/

/-- The functions of `F` are those of `E` in their order with new ones behind them, and those that
are new or replaced have a form as their body. -/
structure Grows (E F : Env) : Prop where
  keys : E.functions.keys <+: F.functions.keys
  ownNames : E.OwnNames → F.OwnNames
  body : ∀ {k p}, F.functions.get? k = some p →
    E.functions.get? k = some p ∨ ∃ items, p.body = .form items

/-- Defining a function replaces that of its name or puts it behind all others. -/
theorem grows_define (E : Env) (name : String) (params : List String) (body : List Expr) :
    Grows E (E.define ⟨name, params, .form body⟩) where
  keys := by
    rw [Env.keys_functions_define]
    split
    · exact List.prefix_refl _
    · exact List.prefix_append _ _
  ownNames hown := by
    intro k p h
    rw [Env.get?_functions_define] at h
    split at h
    · next hk =>
      obtain rfl := Option.some.inj h
      exact hk.symm
    · exact hown k p h
  body := by
    intro k p h
    rw [Env.get?_functions_define] at h
    split at h
    · obtain rfl := Option.some.inj h
      exact .inr ⟨body, rfl⟩
    · exact .inl h

/-- Of the four effects only definitions concern the functions, and they make them grow. -/
theorem grows_effect : Effect Grows where
  refl E := ⟨List.prefix_refl _, id, .inl⟩
  trans := by
    intro E F G h k
    refine ⟨h.keys.trans k.keys, fun hown => k.ownNames (h.ownNames hown), fun hp => ?_⟩
    rcases k.body hp with hp | hform
    · exact h.body hp
    · exact .inr hform
  define := grows_define
  bound _ _ h := ⟨h.keys, h.ownNames, h.body⟩
  within h := ⟨h.keys, h.ownNames, h.body⟩

/-- A function of old is never removed. -/
theorem Grows.isSome {E F : Env} (h : Grows E F) {k : String}
    (hk : (E.functions.get? k).isSome = true) : (F.functions.get? k).isSome = true := by
  obtain ⟨p, hp⟩ := Option.isSome_iff_exists.1 hk
  have hmem : k ∈ F.functions.keys := h.keys.subset (Table.mem_keys_of_get?_eq_some hp)
  rw [Option.isSome_iff_ne_none, ne_eq, Table.get?_eq_none_iff]
  exact fun hnot => hnot hmem

/-! ## Without definitions -/

/-- An expression in which nothing can be defined: the operator for it occurs nowhere in it, also
not inside quoted data. -/
def DefinesNothing (e : Expr) : Prop := e.Every (· ≠ .operator .defun)

/-- Evaluation never makes an operator that was not there before. -/
theorem closed_definesNothing : Closed DefinesNothing := closed_every nofun fun _ _ => nofun

/-- Where nothing can be defined, neither by the expression nor by what it can look up, the whole
environment stays as it was. -/
theorem evaluate_without_defun (M : Machine) {e : Expr} {E : Env} (he : DefinesNothing e)
    (hvars : ∀ k v, E.vars.get? k = some v → DefinesNothing v)
    (hbodies : ∀ k p, E.functions.get? k = some p → DefinesNothing p.body) :
    (evaluate M e E).env = E := by
  have hE : E.Inside DefinesNothing :=
    ⟨fun h => hvars _ _ h, fun h => ⟨nofun, fun _ _ => nofun, hbodies _ _ h⟩⟩
  have hdefun : ¬ DefinesNothing (.operator .defun) := fun h => h rfl
  obtain ⟨-, -, -, hfunctions⟩ := evaluate_inside closed_definesNothing
    (T := fun t => t = E.functions) (fun h => absurd h hdefun) M he hE rfl
  exact (evaluate_keeps sameScope_effect M e E).eq_of_functions hfunctions

/-- **Functions change by definitions only, and only by growing.** If every function is stored under
its own name, then after an evaluation, however it ends, it still is, the old names come first in
their old order and none is missing, and every function that is new or not the one from before has a
form as its body.  If moreover nothing can be defined by the expression, the variables and the
bodies of the functions, the whole environment is unchanged. -/
theorem evaluate_functions_grow (M : Machine) (e : Expr) (E : Env) :
    let F := (evaluate M e E).env
    (E.OwnNames →
      E.functions.keys <+: F.functions.keys ∧
      (∀ k, (E.functions.get? k).isSome = true → (F.functions.get? k).isSome = true) ∧
      F.OwnNames ∧
      ∀ k p, F.functions.get? k = some p → E.functions.get? k ≠ some p →
        ∃ items, p.body = .form items) ∧
    (DefinesNothing e →
      (∀ k v, E.vars.get? k = some v → DefinesNothing v) →
      (∀ k p, E.functions.get? k = some p → DefinesNothing p.body) → F = E) := by
  intro F
  have hgrows : Grows E F := evaluate_keeps grows_effect M e E
  refine ⟨fun hown => ⟨hgrows.keys, fun _ => hgrows.isSome, hgrows.ownNames hown, ?_⟩,
    evaluate_without_defun M⟩
  intro k p hp hnew
  exact (hgrows.body hp).resolve_left hnew

/-- A list of which the second element fails leaves what the first one defined, and a call of the
old function leaves nothing. -/
theorem next_functions_grow :
    let E := (Env.fresh 9).define ⟨"next", ["n"], .form [.operator .add, .name "n", .int 1]⟩
    let twice : Expr := .form [.operator .defun, .name "twice", .form [.name "n"],
      .form [.operator .add, .name "n", .name "n"]]
    let e : Expr := .form [.operator .list, twice, .form [.operator .car, .int 1]]
    let F := (evaluate {} e E).env
    E.OwnNames ∧ F.functions.keys = ["next", "twice"] ∧ F.OwnNames ∧
      (evaluate {} (.form [.name "next", .int 2]) E).env = E := by
  intro E twice e F
  have hown : E.OwnNames := (grows_define (Env.fresh 9) _ _ _).ownNames nofun
  have hcall : DefinesNothing (.form [.name "next", .int 2]) := ⟨nofun, nofun, trivial⟩
  have hbodies : ∀ k p, E.functions.get? k = some p → DefinesNothing p.body := by
    intro k p h
    rw [Env.get?_functions_define] at h
    split at h
    · obtain rfl := Option.some.inj h
      exact ⟨nofun, nofun, nofun, trivial⟩
    · exact absurd h nofun
  refine ⟨hown, rfl, ((evaluate_functions_grow {} e E).1 hown).2.2.1, ?_⟩
  exact (evaluate_functions_grow {} _ E).2 hcall nofun hbodies

end Eval

end Lisp
