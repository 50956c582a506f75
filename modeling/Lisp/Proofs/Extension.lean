/-
# Bindings that nothing mentions

Variables are evaluated at every use and functions see their caller's variables, so any name might
be looked up later on.  But evaluation makes up no names: whatever it looks up, binds or defines was
mentioned by the expression or by the environment at the beginning.  Further variables and functions
under other names therefore make no difference to an evaluation, and it makes none to them.

* `Table.IsUnion` : a table that holds the bindings of two others, which have no name in common;
* `Extension`, `Extension.Extends` : further bindings, and an environment with them;
* `Eval.Avoids`, `Eval.closed_avoids` : the expressions without certain names, a closed class;
* `Eval.coupling_extends` : the agreement between a run with the bindings and one without;
* `Eval.evaluate_extension` : both runs end alike, and the bindings are still there.
-/
import Lisp.Proofs.Lockstep

namespace Lisp

/-! ## Unions of tables -/

namespace Table

variable {α : Type} {s t x : Table α}

/-- The bindings of `t` are those of `s` and those of `x`, which have no name in common.  How they
are ordered is left open. -/
structure IsUnion (s x t : Table α) : Prop where
  disjoint : ∀ k ∈ x.keys, k ∉ s.keys
  get? : ∀ k, t.get? k = (s.get? k).or (x.get? k)

namespace IsUnion

/-- A name that `x` does not bind is looked up in `s`. -/
theorem get?_eq (h : IsUnion s x t) {k : String} (hk : k ∉ x.keys) : s.get? k = t.get? k := by
  rw [h.get?, (get?_eq_none_iff x k).2 hk, Option.or_none]

/-- A name that `x` binds is not bound in `s`. -/
theorem get?_eq_none (h : IsUnion s x t) {k : String} (hk : k ∈ x.keys) : s.get? k = none :=
  (get?_eq_none_iff s k).2 (h.disjoint k hk)

/-- Unions are determined by the look-ups: those under the names of `x`, and those under others. -/
theorem of_get? (hx : ∀ k ∈ x.keys, s.get? k = none ∧ t.get? k = x.get? k)
    (hs : ∀ k, k ∉ x.keys → s.get? k = t.get? k) : IsUnion s x t where
  disjoint k hk := (get?_eq_none_iff s k).1 (hx k hk).1
  get? k := by
    by_cases hk : k ∈ x.keys
    · rw [(hx k hk).1, (hx k hk).2, Option.none_or]
    · rw [(get?_eq_none_iff x k).2 hk, Option.or_none, hs k hk]

/-- A table with a name that was not bound in it. -/
theorem of_insert {name : String} (hname : name ∉ s.keys) (v : α) :
    IsUnion s (empty.insert name v) (s.insert name v) := by
  have hkeys : (empty.insert name v).keys = [name] := rfl
  refine of_get? (fun k hk => ?_) fun k hk => ?_
  · rw [hkeys, List.mem_singleton] at hk
    subst hk
    rw [get?_insert, get?_insert, if_pos rfl, if_pos rfl]
    exact ⟨(get?_eq_none_iff s k).2 hname, rfl⟩
  · rw [hkeys, List.mem_singleton] at hk
    rw [get?_insert, if_neg hk]

/-- Binding a name that `x` does not bind keeps the union. -/
theorem insert (h : IsUnion s x t) {name : String} (hname : name ∉ x.keys) (v : α) :
    IsUnion (s.insert name v) x (t.insert name v) := by
  refine of_get? (fun k hk => ?_) fun k hk => ?_
  · have hne : k ≠ name := fun e => hname (e ▸ hk)
    rw [get?_insert, get?_insert, if_neg hne, if_neg hne, h.get? k, h.get?_eq_none hk]
    exact ⟨rfl, Option.none_or⟩
  · rw [get?_insert, get?_insert, h.get?_eq hk]

end IsUnion

end Table

namespace Env

/-- Binding names that `x` does not bind keeps the union. -/
theorem isUnion_bindPairs {s t x : Table Expr} (h : Table.IsUnion s x t)
    {pairs : List (String × Expr)} (hpairs : ∀ p ∈ pairs, p.1 ∉ x.keys) :
    Table.IsUnion (bindPairs s pairs) x (bindPairs t pairs) := by
  induction pairs generalizing s t with
  | nil => exact h
  | cons pair rest ih =>
    rw [List.forall_mem_cons] at hpairs
    exact ih (h.insert hpairs.1 pair.2) hpairs.2

/-- Putting back names that `x` does not bind keeps the union. -/
theorem isUnion_restore {E F E' F' : Env} {x : Table Expr} {names : List String}
    (h : Table.IsUnion E.vars x F.vars) (hnames : ∀ k ∈ names, k ∉ x.keys)
    (h' : Table.IsUnion E'.vars x F'.vars) :
    Table.IsUnion (E'.restore (E.save names)).vars x (F'.restore (F.save names)).vars := by
  refine .of_get? (fun k hk => ?_) fun k hk => ?_
  · have hnot : k ∉ names := fun hmem => hnames k hmem hk
    rw [get?_restore_save, get?_restore_save, if_neg hnot, if_neg hnot, h'.get? k,
      h'.get?_eq_none hk]
    exact ⟨rfl, Option.none_or⟩
  · rw [get?_restore_save, get?_restore_save, h.get?_eq hk, h'.get?_eq hk]

end Env

/-! ## Further bindings -/

/-- Further variables and functions, whatever they hold. -/
structure Extension where
  vars : Table Expr
  functions : Table Procedure

namespace Extension

/-- The names that are bound, as a variable or as a function. -/
def names (X : Extension) : List String := X.vars.keys ++ X.functions.keys

/-- The environment `F` is `E` with the further bindings, none of which was bound in `E`. -/
structure Extends (X : Extension) (E F : Env) : Prop where
  vars : Table.IsUnion E.vars X.vars F.vars
  functions : Table.IsUnion E.functions X.functions F.functions
  maxDepth : F.maxDepth = E.maxDepth
  depth : F.depth = E.depth

end Extension

namespace Eval

open Extension (Extends)

/-! ## The agreement -/

/-- An expression in which none of the names occurs, also not inside quoted data. -/
def Avoids (names : List String) (e : Expr) : Prop := e.Every fun a => ∀ x ∈ names, a ≠ .name x

instance (names : List String) : DecidablePred (Avoids names) :=
  inferInstanceAs (DecidablePred (Expr.Every fun a => ∀ x ∈ names, a ≠ .name x))

/-- Evaluation never makes up a name. -/
theorem closed_avoids (names : List String) : Closed (Avoids names) :=
  closed_every (fun _ _ => nofun) fun _ _ _ _ => nofun

variable {X : Extension} {name : String}

/-- A name that is avoided is neither a further variable nor a further function. -/
theorem notMem_names (h : Avoids X.names (.name name)) :
    name ∉ X.vars.keys ∧ name ∉ X.functions.keys := by
  have hnot : name ∉ X.names := fun hmem => h name hmem rfl
  rwa [Extension.names, List.mem_append, not_or] at hnot

/-- Two runs, one of them with further bindings, that mention none of the names of these. -/
theorem coupling_extends (X : Extension) :
    Coupling (Avoids X.names) (fun E F => X.Extends E F ∧ E.Inside (Avoids X.names)) Eq where
  toClosed := closed_avoids X.names
  vars := by
    rintro E F id ⟨h, hE⟩ hid
    exact ⟨h.vars.get?_eq (notMem_names hid).1, hE.vars⟩
  functions := by
    rintro E F id ⟨h, hE⟩ hid
    exact ⟨h.functions.get?_eq (notMem_names hid).2, hE.functions⟩
  define := by
    rintro E F p ⟨h, hE⟩ - hp
    have hfunctions := h.functions.insert (notMem_names hp.name).2 p
    exact ⟨⟨h.vars, hfunctions, h.maxDepth, h.depth⟩, hE.define hp⟩
  bind := by
    rintro E F names values ⟨h, hE⟩ hnames hvalues
    have hpairs : ∀ p ∈ names.zip values, p.1 ∉ X.vars.keys :=
      fun p hp => (notMem_names (hnames p.1 (List.of_mem_zip hp).1)).1
    have hvars := Env.isUnion_bindPairs h.vars hpairs
    exact ⟨⟨hvars, h.functions, h.maxDepth, h.depth⟩, hE.bind names hvalues⟩
  restore := by
    rintro E F E' F' names ⟨h, hE⟩ hnames ⟨h', hE'⟩
    have hvars := Env.isUnion_restore h.vars (fun k hk => (notMem_names (hnames k hk)).1) h'.vars
    exact ⟨⟨hvars, h'.functions, h'.maxDepth, h'.depth⟩, hE.restore hE' names⟩
  raised _ := rfl
  deeper := by
    rintro E F ⟨h, hE⟩
    exact ⟨⟨h.vars, h.functions, h.maxDepth, congrArg (· + 1) h.depth⟩, hE.vars, hE.functions⟩
  leave := by
    rintro E F ⟨h, hE⟩
    exact ⟨⟨h.vars, h.functions, h.maxDepth, congrArg (· - 1) h.depth⟩, hE.vars, hE.functions⟩
  limit := by
    rintro E F ⟨h, -⟩
    exact congrArg EvalError.tooDeep h.maxDepth.symm

/-- **Bindings that nothing mentions make no difference.** If none of their names is bound in the
environment or occurs in the expression, in a variable's value or in a function's name, parameters
or body, an evaluation with them ends in the same value or the same error as one without them, and
in the environment of the latter with the same further bindings. -/
theorem evaluate_extension (M : Machine) {X : Extension} {e : Expr} {E F : Env}
    (hX : X.Extends E F) (he : Avoids X.names e) (hE : E.Inside (Avoids X.names)) :
    (evaluate M e F).result = (evaluate M e E).result ∧
      X.Extends (evaluate M e E).env (evaluate M e F).env := by
  have hlevels : levels M E = levels M F := by
    rw [levels, levels, Env.budget, Env.budget, hX.maxDepth, hX.depth]
  have hmatch : Matched False _ Eq _ (evaluate M e E) (evaluate M e F) :=
    evaluate_lockstep (coupling_extends X) M he ⟨hX, hE⟩ (.inl hlevels)
  generalize evaluate M e E = o, evaluate M e F = o' at hmatch
  cases hmatch with
  | value _ hR => exact ⟨rfl, hR.1⟩
  | failure herr hR => exact ⟨congrArg Except.error herr.symm, hR.1⟩
  | cutOff hloose => exact hloose.elim

/-- A variable and a function that use the names of other bindings are not used themselves: calls of
an old and of a new function give the same with them and without, and the new one is defined beside
them. -/
theorem evaluate_ghost_extension :
    let double : Expr := .form [.operator .add, .name "n", .name "n"]
    let E := ((Env.fresh 20).bind ["m"] [.int 4]).define ⟨"twice", ["n"], double⟩
    let phantom : Procedure := ⟨"twice", ["m"], .form [.name "ghost"]⟩
    let X : Extension :=
      ⟨Table.empty.insert "ghost" (.name "m"), Table.empty.insert "phantom" phantom⟩
    let F : Env := { E with
      vars := E.vars.insert "ghost" (.name "m"), functions := E.functions.insert "phantom" phantom }
    let next : Expr := .form [.operator .defun, .name "next", .form [.name "n"],
      .form [.operator .add, .name "n", .int 1]]
    let e : Expr := .form [.operator .list, .form [.name "twice", .name "m"], next,
      .form [.name "next", .name "m"]]
    X.Extends E F ∧ Avoids X.names e ∧ E.Inside (Avoids X.names) ∧
      (evaluate {} e F).result = .ok (.quoted [.int 8, .name "next", .int 5]) ∧
      X.Extends (evaluate {} e E).env (evaluate {} e F).env := by
  intro double E phantom X F next e
  have hX : X.Extends E F :=
    ⟨.of_insert (by decide) _, .of_insert (by decide) _, rfl, rfl⟩
  have he : Avoids X.names e := by decide
  have hvalues : ∀ v ∈ [Expr.int 4], Avoids X.names v := by decide
  have hE : E.Inside (Avoids X.names) :=
    ((Env.inside_fresh 20).bind ["m"] hvalues).define ⟨by decide, by decide, by decide⟩
  have halone : (evaluate {} e E).result = .ok (.quoted [.int 8, .name "next", .int 5]) := by rfl
  obtain ⟨hresult, hafter⟩ := evaluate_extension {} hX he hE
  exact ⟨hX, he, hE, hresult.trans halone, hafter⟩

end Eval

end Lisp
