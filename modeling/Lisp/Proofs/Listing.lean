/-
# Functions written out and read back

The text of a function is put together by hand, and is nevertheless the canonical source of the form
that defines the function.  So the texts of all functions of an environment, given to a new session
one after another, define the same functions again, in the same order.

* `Procedure.Readable` : the functions whose definition has a text;
* `Procedure.render_eq` : the text of a function is the canonical source of its definition;
* `Eval.evaluate_definition`, `Session.eval_render` : evaluating a definition, and reading one;
* `Session.evalLines` : the values of some lines, one after another;
* `Session.evalLines_render` : some definitions, given as lines;
* `Env.foldl_define` : functions that are defined in the order of a table make up that table;
* `Session.evalLines_functions` : the functions of an environment, written out and read back.
-/
import Lisp.Proofs.Growth
import Lisp.Proofs.RoundTrip
import Lisp.Proofs.Transcript

namespace Lisp

/-! ## The text of a function -/

namespace Expr

/-- Names are written with a space between each two. -/
theorem charsAll_map_name (names : List String) :
    charsAll (names.map name) = (" ".intercalate names).toList := by
  rw [String.toList_intercalate]
  induction names with
  | nil => rfl
  | cons id rest ih =>
    cases rest with
    | nil => simp [charsAll, charsMore, chars]
    | cons next more =>
      have hmore : charsAll ((id :: next :: more).map name) =
          id.toList ++ ' ' :: charsAll ((next :: more).map name) := rfl
      rw [hmore, ih]
      simp only [List.map_cons, List.intercalate_cons_cons, List.append_assoc]
      rfl

end Expr

namespace Procedure

/-- The functions whose definition has a text: name and parameters are identifiers and no keywords,
and the body has a text and is a form. -/
structure Readable (p : Procedure) : Prop extends Inside Expr.Readable p where
  form : ∃ items, p.body = .form items

/-- **The text of a function is the canonical source of its definition.** -/
theorem render_eq (p : Procedure) : p.render = p.definition.render := by
  apply String.toList_inj.1
  have hdefun : "(defun ".toList = '(' :: (Operator.defun.chars ++ [' ']) := by decide
  have hopen : " (".toList = [' ', '('] := by decide
  have hclose : ") ".toList = [')', ' '] := by decide
  have hend : ")".toList = [')'] := by decide
  unfold render definition
  simp only [Expr.render, String.toList_append, String.toList_ofList, Expr.chars, Expr.charsAll,
    Expr.charsMore, Expr.charsAll_map_name, hdefun, hopen, hclose, hend, List.append_assoc,
    List.cons_append, List.nil_append]

theorem Readable.definition {p : Procedure} (h : p.Readable) : p.definition.Readable := by
  refine ⟨trivial, h.name, ?_, h.body, trivial⟩
  show Expr.ReadableAll (p.params.map .name)
  rw [Expr.readableAll_iff, List.forall_mem_map]
  exact h.params

end Procedure

/-! ## Evaluating a definition -/

namespace Eval

open EvalM

/-- A definition takes one level, in which nothing but the function changes. -/
theorem evaluate_definition {M : Machine} {E : Env} {p : Procedure}
    (hdefun : M.wired .defun = true) (hlevels : 0 < levels M E)
    (hform : ∃ items, p.body = .form items) :
    (evaluate M p.definition E).result = .ok (.name p.name) ∧
      (evaluate M p.definition E).env = E.define p := by
  obtain ⟨n, hn⟩ : ∃ n, levels M E = n + 1 := Nat.exists_eq_succ_of_ne_zero (by omega)
  obtain ⟨name, params, body⟩ := p
  obtain ⟨items, rfl⟩ := hform
  have hstep : evaluate M (Procedure.definition ⟨name, params, .form items⟩) E =
      within (do define ⟨name, params, .form items⟩; pure (.name name)) E := by
    rw [evaluate, hn]
    simp only [evalWithin, Procedure.definition, step, apply, hdefun, if_true, builtin, defun,
      names?_map_name]
  rw [hstep]
  refine ⟨rfl, ?_⟩
  -- Only the depth is counted up and down again around the definition.
  show (Env.define { E with depth := E.depth + 1 } _).leave = E.define _
  simp only [Env.leave, Env.define, Int.add_sub_cancel]

end Eval

/-! ## Reading the texts back -/

namespace Session

open Eval (levels)

variable {M : Machine} {E : Env}

/-- The canonical source of an expression, as a line, is that expression. -/
theorem eval_render {e : Expr} (h : e.Readable) (hdepth : e.depth ≤ Reader.maxNesting) (M : Machine)
    (E : Env) : eval M e.render E = answer M e E := by
  have hparse : parse e.render = .ok e := Reader.parseWithin_render h hdepth
  have hblank : Text.isBlankText e.render.toList = false := by
    obtain ⟨c, r, hchars, hc, -⟩ := Reader.begins_of_derives (Expr.derives_chars e h)
    rw [Expr.render, String.toList_ofList, hchars, Text.isBlankText_cons, hc, Bool.false_and]
  unfold eval
  rw [hblank, hparse]
  rfl

/-- The values of some lines, each in the environment that the one before left, and the environment
that the last one leaves. -/
def evalLines (M : Machine) (E : Env) : List String → List (Except Failure (Option Expr)) × Env
  | [] => ([], E)
  | line :: rest =>
    let first := eval M line E
    let others := evalLines M first.env rest
    (first.result :: others.1, others.2)

/-- A line with the text of a function defines that function, and its value is the name. -/
theorem eval_procedure {p : Procedure} (hdefun : M.wired .defun = true) (hlevels : 0 < levels M E)
    (h : p.Readable) (hdepth : p.definition.depth ≤ Reader.maxNesting) :
    (eval M p.render E).result = .ok (some (.name p.name)) ∧
      (eval M p.render E).env = E.define p := by
  obtain ⟨hresult, henv⟩ := Eval.evaluate_definition hdefun hlevels h.form
  rw [Procedure.render_eq, eval_render h.definition hdepth]
  refine ⟨?_, henv⟩
  simp only [answer, hresult]

/-- Lines with the texts of functions define these functions one after another. -/
theorem evalLines_render {ps : List Procedure} (hdefun : M.wired .defun = true)
    (hlevels : 0 < levels M E) (h : ∀ p ∈ ps, p.Readable)
    (hdepth : ∀ p ∈ ps, p.definition.depth ≤ Reader.maxNesting) :
    evalLines M E (ps.map Procedure.render) =
      (ps.map fun p => .ok (some (.name p.name)), ps.foldl Env.define E) := by
  induction ps generalizing E with
  | nil => rfl
  | cons p rest ih =>
    rw [List.forall_mem_cons] at h hdepth
    obtain ⟨hresult, henv⟩ := eval_procedure hdefun hlevels h.1 hdepth.1
    have hrest := ih (E := E.define p) hlevels h.2 hdepth.2
    simp only [List.map_cons, List.foldl_cons, evalLines, hresult, henv, hrest]

end Session

/-! ## Rebuilding a table -/

/-- A name that is not bound yet is bound behind all others. -/
theorem Table.put_of_notMem {α : Type} {k : String} {l : List (String × α)}
    (h : k ∉ l.map Prod.fst) (v : α) : put k v l = l ++ [(k, v)] := by
  induction l with
  | nil => rfl
  | cons entry rest ih =>
    obtain ⟨a, b⟩ := entry
    rw [List.map_cons, List.mem_cons, not_or] at h
    rw [put, if_neg (Ne.symm h.1), ih h.2, List.cons_append]

namespace Env

/-- Functions that are stored under their own names are listed with these names. -/
theorem OwnNames.entries_eq {E : Env} (h : E.OwnNames) :
    E.functions.entries = E.functions.values.map fun p => (p.name, p) := by
  rw [Table.values, List.map_map]
  refine (List.map_id _).symm.trans (List.map_congr_left fun entry hentry => ?_)
  obtain ⟨k, p⟩ := entry
  have hname : p.name = k := h k p (Table.get?_of_mem_entries _ hentry)
  show (k, p) = (p.name, p)
  rw [hname]

/-- **Rebuilding a table.** By induction on the functions that are still to be defined: those that
are defined already come first in the table. -/
theorem foldl_define {ps : List Procedure} {E : Env} {T : Table Procedure}
    (h : T.entries = E.functions.entries ++ ps.map fun p => (p.name, p)) :
    ps.foldl Env.define E = { E with functions := T } := by
  induction ps generalizing E with
  | nil =>
    rw [List.map_nil, List.append_nil] at h
    rw [Table.ext h]
    rfl
  | cons p rest ih =>
    -- The table has the name behind those that are defined, and no name twice.
    have hnew : p.name ∉ E.functions.entries.map Prod.fst := by
      have hdistinct := T.distinct
      rw [h, List.map_append, List.map_cons, List.map_cons] at hdistinct
      exact fun hmem => (List.nodup_append.1 hdistinct).2.2 _ hmem _ List.mem_cons_self rfl
    have hput : (E.define p).functions.entries = E.functions.entries ++ [(p.name, p)] :=
      Table.put_of_notMem hnew p
    have hrest : T.entries = (E.define p).functions.entries ++ rest.map fun p => (p.name, p) := by
      rw [h, hput, List.append_assoc]
      rfl
    exact ih hrest

end Env

namespace Session

/-- **The functions of an environment can be written out and read back.** Let every function be
stored under its own name, with identifiers for names and a form that has a text for a body, nested
no deeper than there is room for.  The text of each function is the canonical source of the form
that defines it.  A session that begins afresh, with any limit of one or more, answers each of these
texts with the name of the function, and ends with the same functions in the same order and nothing
else. -/
theorem evalLines_functions {M : Machine} (hdefun : M.wired .defun = true) (hroom : 0 < M.room)
    (limit : Int) (hlimit : 1 ≤ limit) {E : Env} (hown : E.OwnNames)
    (h : ∀ p ∈ E.functions.values, p.Readable)
    (hdepth : ∀ p ∈ E.functions.values, p.definition.depth ≤ Reader.maxNesting) :
    (∀ p ∈ E.functions.values, p.render = p.definition.render) ∧
    evalLines M (Env.fresh limit) (E.functions.values.map Procedure.render) =
      (E.functions.values.map fun p => .ok (some (.name p.name)),
        { Env.fresh limit with functions := E.functions }) := by
  have hlevels : 0 < Eval.levels M (Env.fresh limit) := by
    simp only [Eval.levels, Env.budget, Env.fresh]
    omega
  have htable : E.functions.entries =
      (Env.fresh limit).functions.entries ++ E.functions.values.map fun p => (p.name, p) :=
    hown.entries_eq
  refine ⟨fun p _ => p.render_eq, ?_⟩
  rw [evalLines_render hdefun hlevels h hdepth, Env.foldl_define htable]

/-- A function without parameters and with an empty body, and one with the same parameter twice and
a text, an infinite double and a quoted list in its body, under the least limit. -/
theorem evalLines_functions_pair :
    let empty : Procedure := ⟨"empty", [], .form []⟩
    let pair : Procedure := ⟨"pair", ["x", "x"], .form [.operator .list, .name "x", .text "a\n",
      .float (Binary.toFloat false Binary.infinity), .quoted [.int 7]]⟩
    let E := ((Env.fresh 9).define empty).define pair
    let texts := ["(defun empty () ())", "(defun pair (x x) (list x \"a\\n\" 1e999 '(7)))"]
    E.OwnNames ∧ (∀ p ∈ E.functions.values, p.Readable) ∧
      E.functions.values.map Procedure.render = texts ∧
      evalLines {} (Env.fresh 1) texts =
        ([.ok (some (.name "empty")), .ok (some (.name "pair"))],
          { Env.fresh 1 with functions := E.functions }) := by
  intro empty pair E texts
  have hvalues : E.functions.values = [empty, pair] := rfl
  have hown : E.OwnNames :=
    (Eval.grows_define _ _ _ _).ownNames ((Eval.grows_define _ _ _ _).ownNames nofun)
  have hread : ∀ p ∈ E.functions.values, p.Readable := by
    rw [hvalues, List.forall_mem_cons, List.forall_mem_singleton]
    exact ⟨⟨⟨by decide, by decide, by decide⟩, _, rfl⟩, ⟨⟨by decide, by decide, by decide⟩, _, rfl⟩⟩
  have hdepth : ∀ p ∈ E.functions.values, p.definition.depth ≤ Reader.maxNesting := by
    rw [hvalues]
    decide
  have htexts : E.functions.values.map Procedure.render = texts := by decide +kernel
  obtain ⟨-, hlines⟩ := evalLines_functions (M := {}) rfl (by decide) 1 (Int.le_refl 1) hown hread
    hdepth
  rw [htexts] at hlines
  exact ⟨hown, hread, htexts, hlines⟩

end Session

end Lisp
