/-
# Sessions line by line

A session is answered line by line, each line in the environment that the lines before it left.
Between two lines nothing is bound but functions, and the nesting is back at its start.  A line that
leaves the functions as they were therefore leaves everything as it was, and the rest of the session
cannot tell whether it was there.

* `Session.after` : the environment after some lines;
* `Session.getElem?_run` : a line is answered in the environment after the lines before it;
* `Session.eval_cases` : what becomes of a line that is evaluated;
* `Session.respond_scope`, `Session.after_scope` : one line, and some lines, change functions only;
* `Session.without` : a list without the elements at some positions;
* `Session.run_without_idle` : lines that define nothing do not influence the others.
-/
import Mathlib.Data.Finset.Basic
import Lisp.Session
import Lisp.Proofs.Effect

namespace Lisp.Session

open Eval (SameScope)

/-! ## The environment between two lines -/

/-- The environment that some lines leave. -/
def after (M : Machine) (E : Env) (lines : List String) : Env :=
  lines.foldl (fun E line => (respond M line E).env) E

@[simp] theorem after_cons (M : Machine) (E : Env) (line : String) (rest : List String) :
    after M E (line :: rest) = after M (respond M line E).env rest := rfl

@[simp] theorem run_cons (M : Machine) (E : Env) (line : String) (rest : List String) :
    run M E (line :: rest) = respond M line E :: run M (respond M line E).env rest := rfl

/-- There are as many replies as lines. -/
@[simp] theorem length_run (M : Machine) (E : Env) (lines : List String) :
    (run M E lines).length = lines.length := by
  induction lines generalizing E with
  | nil => rfl
  | cons line rest ih => rw [run_cons, List.length_cons, ih, List.length_cons]

/-- Every line has one reply, given in the environment that the lines before it left. -/
theorem getElem?_run (M : Machine) (E : Env) (lines : List String) (i : ℕ) :
    (run M E lines)[i]? = lines[i]?.map fun line => respond M line (after M E (lines.take i)) := by
  induction lines generalizing E i with
  | nil => rfl
  | cons line rest ih =>
    cases i with
    | zero => rfl
    | succ i => exact ih (respond M line E).env i

/-! ## What a line can change -/

/-- What becomes of a line that is evaluated: it is blank, it cannot be read, or it has an
expression. -/
theorem eval_cases (M : Machine) (line : String) (E : Env) :
    (Text.isBlankText line.toList = true ∧ eval M line E = ⟨.ok none, E, []⟩) ∨
      (Text.isBlankText line.toList = false ∧ ∃ cause events, parse line = .error cause ∧
        eval M line E = ⟨.error (.reading cause), E, events⟩) ∨
      (Text.isBlankText line.toList = false ∧ ∃ e, parse line = .ok e ∧
        eval M line E = answer M e E) := by
  unfold eval
  split
  · next hblank => exact .inl ⟨hblank, rfl⟩
  · next hblank =>
    rw [Bool.not_eq_true] at hblank
    cases hparse : parse line with
    | ok e => exact .inr (.inr ⟨hblank, e, rfl, rfl⟩)
    | error cause => cases cause <;> exact .inr (.inl ⟨hblank, _, _, rfl, rfl⟩)

/-- A line changes functions at most, whatever it is and however it ends. -/
theorem respond_scope (M : Machine) (line : String) (E : Env) :
    SameScope E (respond M line E).env := by
  have hrefl : SameScope E E := Eval.sameScope_effect.refl E
  unfold respond
  split
  · exact hrefl
  · show SameScope E (eval M line E).env
    rcases eval_cases M line E with ⟨-, h⟩ | ⟨-, cause, events, -, h⟩ | ⟨-, e, -, h⟩
    · rw [h]
      exact hrefl
    · rw [h]
      exact hrefl
    · rw [h]
      exact Eval.evaluate_keeps Eval.sameScope_effect M e E

/-- Some lines change functions at most. -/
theorem after_scope (M : Machine) (E : Env) (lines : List String) :
    SameScope E (after M E lines) := by
  induction lines generalizing E with
  | nil => exact Eval.sameScope_effect.refl E
  | cons line rest ih => exact Eval.sameScope_effect.trans (respond_scope M line E) (ih _)

/-! ## Lines that define nothing -/

section Without

variable {α : Type} (D : Finset ℕ)

/-- The elements of a list whose positions, counted from `start`, are not in `D`. -/
def without (l : List α) (start : ℕ) : List α :=
  ((l.zipIdx start).filter fun p => p.2 ∉ D).map Prod.fst

variable {D}

theorem without_cons_of_mem {start : ℕ} (h : start ∈ D) (a : α) (l : List α) :
    without D (a :: l) start = without D l (start + 1) := by
  simp [without, List.zipIdx_cons, h]

theorem without_cons_of_notMem {start : ℕ} (h : start ∉ D) (a : α) (l : List α) :
    without D (a :: l) start = a :: without D l (start + 1) := by
  simp [without, List.zipIdx_cons, h]

/-- What is left out depends on the positions only. -/
theorem without_map {β : Type} (f : α → β) (l : List α) (start : ℕ) :
    without D (l.map f) start = (without D l start).map f := by
  induction l generalizing start with
  | nil => rfl
  | cons a l ih =>
    rw [List.map_cons]
    by_cases h : start ∈ D
    · rw [without_cons_of_mem h, without_cons_of_mem h, ih]
    · rw [without_cons_of_notMem h, without_cons_of_notMem h, ih, List.map_cons]

end Without

/-- Lines that leave the functions as they were can be left out: by induction on the lines, of which
those that stay meet the environments that they met before. -/
theorem run_without {M : Machine} {D : Finset ℕ} {lines : List String} {E : Env} {start : ℕ}
    (hD : ∀ i, start + i ∈ D →
      (after M E (lines.take (i + 1))).functions = (after M E (lines.take i)).functions) :
    run M E (without D lines start) = without D (run M E lines) start ∧
      after M E (without D lines start) = after M E lines := by
  induction lines generalizing E start with
  | nil => exact ⟨rfl, rfl⟩
  | cons line rest ih =>
    have hrest : ∀ i, start + 1 + i ∈ D →
        (after M (respond M line E).env (rest.take (i + 1))).functions =
          (after M (respond M line E).env (rest.take i)).functions := by
      intro i hi
      exact hD (i + 1) (by rwa [show start + (i + 1) = start + 1 + i by omega])
    obtain ⟨hrun, hafter⟩ := ih hrest
    by_cases hmem : start ∈ D
    · have hfunctions : (respond M line E).env.functions = E.functions := hD 0 hmem
      have hsame : (respond M line E).env = E :=
        (respond_scope M line E).eq_of_functions hfunctions
      rw [hsame] at hrun hafter
      rw [run_cons, after_cons, hsame, without_cons_of_mem hmem, without_cons_of_mem hmem]
      exact ⟨hrun, hafter⟩
    · rw [run_cons, after_cons, without_cons_of_notMem hmem, without_cons_of_notMem hmem, run_cons,
        after_cons, hrun]
      exact ⟨rfl, hafter⟩

/-- **Lines that define nothing do not influence a session.** In a session that begins afresh, leave
out any lines that left the functions as they were.  The remaining lines get the same replies, with
the same text on both streams, and the session ends in the same environment, which has no variables
and is outside of all nesting. -/
theorem run_without_idle (M : Machine) (limit : Int) (lines : List String) (D : Finset ℕ)
    (hD : ∀ i ∈ D, (after M (Env.fresh limit) (lines.take (i + 1))).functions =
      (after M (Env.fresh limit) (lines.take i)).functions) :
    let turns := run M (Env.fresh limit) lines
    let kept := run M (Env.fresh limit) (without D lines 0)
    let texts := fun turn : Turn => (turn.reply.out, turn.reply.err)
    let last := after M (Env.fresh limit) lines
    kept = without D turns 0 ∧ kept.map texts = without D (turns.map texts) 0 ∧
      after M (Env.fresh limit) (without D lines 0) = last ∧
      last.vars = .empty ∧ last.depth = 0 ∧ last.maxDepth = limit := by
  intro turns kept texts last
  have hzero : ∀ i, 0 + i ∈ D → (after M (Env.fresh limit) (lines.take (i + 1))).functions =
      (after M (Env.fresh limit) (lines.take i)).functions := by
    intro i hi
    rw [Nat.zero_add] at hi
    exact hD i hi
  obtain ⟨hrun, hafter⟩ := run_without hzero
  have hscope : SameScope (Env.fresh limit) last := after_scope M _ lines
  refine ⟨hrun, ?_, hafter, hscope.vars, hscope.depth, hscope.maxDepth⟩
  rw [without_map]
  exact congrArg (List.map texts) hrun

/-- A failing line and a look at the environment, between a definition and its use, can be left
out. -/
theorem run_without_idle_sample :
    let lines := ["(defun f (x) (add x 1))", "(list x (car 1))", "?ctx", "(f 2)"]
    let texts := fun turn : Turn => (turn.reply.out, turn.reply.err)
    (∀ i ∈ ({1, 2} : Finset ℕ), (after {} (Env.fresh 9) (lines.take (i + 1))).functions =
      (after {} (Env.fresh 9) (lines.take i)).functions) ∧
    (run {} (Env.fresh 9) [lines[0], lines[3]]).map texts =
      without {1, 2} ((run {} (Env.fresh 9) lines).map texts) 0 := by
  intro lines texts
  have hidle : ∀ i ∈ ({1, 2} : Finset ℕ),
      (after {} (Env.fresh 9) (lines.take (i + 1))).functions =
        (after {} (Env.fresh 9) (lines.take i)).functions := by
    intro i hi
    apply Table.ext
    rcases Finset.mem_insert.1 hi with rfl | hi
    · decide +kernel
    · rw [Finset.mem_singleton.1 hi]
      decide +kernel
  exact ⟨hidle, (run_without_idle {} 9 lines {1, 2} hidle).2.1⟩

end Lisp.Session
