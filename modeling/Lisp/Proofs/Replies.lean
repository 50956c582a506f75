/-
# One line in, at most one line out

A session never has a name that breaks a line: the reader yields none, and evaluation forges none.
So every reply is one line, a result on the standard output or a complaint on the standard error.
Nor does a session ever have to make a number of an integer out of range, a failure that it does not
catch and that would end it.

* `oneLine_of_parse`, `unbroken_of_parse` : what the reader yields, and complains about, fits on a
  line;
* `Session.respond_inside`, `Session.after_inside` : a session does not leave a closed class;
* `Session.Failure.Caught`, `Session.caught_of_eval` : the failures that it reports, and no others;
* `Session.Replies`, `Session.respond_replies` : what one line writes;
* `Session.run_replies` : what every line of a session writes.
-/
import Lisp.Proofs.Completion
import Lisp.Proofs.Overflow
import Lisp.Proofs.Transcript
import Lisp.Proofs.Unbroken

namespace Lisp

open Text (Unbroken)

/-! ## Names and faults that fit on a line -/

namespace Literal

/-- White space is never an unknown escape, so the character that a fault repeats ends no line. -/
theorem oneLine_of_escape {pos : Nat} {c : Char} {more : List Char} {fault : Fault}
    (h : escape pos c more = .error fault) : fault.OneLine := by
  unfold escape at h
  split at h
  · simp at h
  split at h
  · split at h
    · obtain rfl := Except.error.inj h
      trivial
    · split at h
      · simp at h
      · obtain rfl := Except.error.inj h
        trivial
  · split at h
    · simp at h
    · next hblank =>
      obtain rfl := Except.error.inj h
      exact Text.isLineBreak_of_not_isBlank (Bool.not_eq_true _ ▸ hblank)

/-- The fault of a literal is the one of an escape in it, or repeats no character. -/
theorem oneLine_of_decodeFrom {start pos : Nat} {s : List Char} {fault : Fault}
    (h : decodeFrom start pos s = .error fault) : fault.OneLine := by
  fun_induction decodeFrom start pos s with
  | case1 | case4 =>
    obtain rfl := Except.error.inj h
    trivial
  | case2 => simp at h
  | case3 => next ih => exact ih (eq_error_of_map_eq_error h)
  | case5 pos _ _ _ c more _ hescape =>
    obtain rfl := Except.error.inj h
    exact oneLine_of_escape hescape
  | case6 => next ih => exact ih (eq_error_of_map_eq_error h)

theorem oneLine_of_decode {c : Cursor} {fault : Fault} (h : decode c = .error fault) :
    fault.OneLine := by
  unfold decode at h
  split at h
  · exact oneLine_of_decodeFrom h
  · obtain rfl := Except.error.inj h
    trivial

end Literal

namespace Expr

/-- No character of an identifier ends a line. -/
theorem unbroken_of_isIdentifier {t : List Char} (h : Grammar.IsIdentifier t) : Unbroken t := by
  intro c hc
  have hname := Token.forall_isNameChar_of_isIdentifier h c hc
  rw [Token.isNameChar_iff] at hname
  rw [← Bool.not_eq_true, Text.isLineBreak_iff]
  omega

/-- The names of a readable expression are identifiers. -/
theorem oneLine_of_readable (e : Expr) (h : e.Readable) : e.OneLine := by
  refine every_of_readable (fun a hatom ha => ?_) e h
  cases a with
  | name id => exact unbroken_of_isIdentifier ha.1
  | quoted | form => exact absurd hatom nofun
  | _ => trivial

/-- No operator makes up a name. -/
theorem closed_oneLine : Eval.Closed OneLine := Eval.closed_every trivial fun _ _ => trivial

end Expr

/-- What the reader yields has no integer out of range. -/
theorem fits_of_parse {source : String} {e : Expr} (h : parse source = .ok e) : e.Fits :=
  Eval.fits_of_readable (Reader.readable_of_parseWithin h).1

/-- What the reader yields has no broken name. -/
theorem oneLine_of_parse {source : String} {e : Expr} (h : parse source = .ok e) : e.OneLine :=
  e.oneLine_of_readable (Reader.readable_of_parseWithin h).1

/-- The reader's complaint about a source fits on a line, whatever the source is. -/
theorem unbroken_of_parse {source : String} {cause : ReadError} (h : parse source = .error cause) :
    Unbroken cause.message.toList := by
  cases cause with
  | malformed fault =>
    have hfault : fault.OneLine := by
      by_cases hdeep : fault = .tooDeep
      · subst hdeep
        trivial
      · obtain ⟨p, hread⟩ := Reader.readSource_of_parseWithin h
        obtain ⟨-, c, -, -, hshows, -⟩ := Reader.completes_expression _ hread hdeep
        cases hshows with
        | expected => trivial
        | literal _ hdecode => exact Literal.oneLine_of_decode hdecode
    exact .concat (Text.unbroken_ofList (by decide)) (Fault.unbroken_message hfault)
  | trailing rest => exact Text.unbroken_ofList (by decide)

/-! ## Replies -/

namespace Session

open Eval (SameScope)

variable {M : Machine} {line : String} {E : Env}

/-! ### Classes that a session does not leave -/

section Inside

variable {P : Expr → Prop}

/-- Where the expression of a line belongs to a closed class, so does its value, an error is that of
the limit or was raised over the class, and the environment afterwards holds nothing outside. -/
theorem eval_inside (hP : Eval.Closed P) (hread : ∀ {source e}, parse source = .ok e → P e)
    (M : Machine) (line : String) (hE : E.Inside P) :
    (∀ value, (eval M line E).result = .ok (some value) → P value) ∧
      (∀ cause, (eval M line E).result = .error (.evaluating cause) →
        cause.RaisedOver P ∨ ∃ limit, cause = .tooDeep limit) ∧
      (eval M line E).env.Inside P := by
  rcases eval_cases M line E with ⟨-, h⟩ | ⟨-, cause, events, -, h⟩ | ⟨-, e, hparse, h⟩
  · rw [h]
    exact ⟨nofun, nofun, hE⟩
  · rw [h]
    exact ⟨nofun, nofun, hE⟩
  · obtain ⟨hvalue, herror, henv, -⟩ := Eval.evaluate_inside (T := fun _ => True) hP
      (fun _ _ _ _ _ => trivial) M (hread hparse) hE trivial
    rw [h]
    refine ⟨?_, ?_, henv⟩
    all_goals
      simp only [answer]
      generalize evaluate M e E = outcome at hvalue herror
      cases hresult : outcome.result
    · nofun
    · rintro _ ⟨⟩
      exact hvalue _ hresult
    · rintro _ ⟨⟩
      exact herror _ hresult
    · nofun

/-- A line brings nothing into a session from outside of a closed class. -/
theorem respond_inside (hP : Eval.Closed P) (hread : ∀ {source e}, parse source = .ok e → P e)
    (hE : E.Inside P) : (respond M line E).env.Inside P := by
  unfold respond
  split
  · exact hE
  · exact (eval_inside hP hread M line hE).2.2

/-- Some lines bring nothing into a session from outside of a closed class. -/
theorem after_inside (hP : Eval.Closed P) (hread : ∀ {source e}, parse source = .ok e → P e)
    (lines : List String) (hE : E.Inside P) : (after M E lines).Inside P := by
  induction lines generalizing E with
  | nil => exact hE
  | cons line rest ih => exact ih (respond_inside hP hread hE)

end Inside

/-! ### What a failure is and says -/

/-- A line that cannot be read is complained about as the reader does. -/
theorem parse_of_eval {cause : ReadError} (h : (eval M line E).result = .error (.reading cause)) :
    parse line = .error cause := by
  rcases eval_cases M line E with ⟨-, heval⟩ | ⟨-, other, events, hparse, heval⟩ | ⟨-, e, -, heval⟩
  · rw [heval] at h
    exact absurd h nofun
  · rw [heval] at h
    obtain rfl := Failure.reading.inj (Except.error.inj h)
    exact hparse
  · rw [heval] at h
    simp only [answer] at h
    split at h <;> exact absurd h nofun

/-- In an environment without broken names, a failure is reported on one line. -/
theorem unbroken_of_eval (hE : E.Inside Expr.OneLine) {failure : Failure}
    (h : (eval M line E).result = .error failure) : Unbroken failure.message.toList := by
  cases failure with
  | reading cause => exact unbroken_of_parse (parse_of_eval h)
  | evaluating cause =>
    have hraised := (eval_inside Expr.closed_oneLine oneLine_of_parse M line hE).2.1 cause h
    exact .concat (Text.unbroken_ofList (by decide)) (EvalError.unbroken_message hraised)

/-- The failures that a session catches and reports: all but that of making a number of something
that is none, which ends the session. -/
def Failure.Caught : Failure → Prop
  | .evaluating (.arithmetic (.unrepresentable _)) => False
  | _ => True

/-- In an environment without integers out of range, every failure is one that is caught. -/
theorem caught_of_eval (hE : E.Inside Expr.Fits) {failure : Failure}
    (h : (eval M line E).result = .error failure) : failure.Caught := by
  unfold Failure.Caught
  split
  · next cause =>
    rcases (eval_inside Eval.closed_fits fits_of_parse M line hE).2.1 _ h with
      hraised | ⟨limit, hlimit⟩
    · exact absurd rfl (hraised.ne_unrepresentable cause)
    · exact absurd hlimit nofun
  · trivial

/-! ### What a line writes -/

/-- A line that has something to show: it asks for the environment or has a value. -/
def Succeeds (M : Machine) (line : String) (E : Env) : Prop :=
  Text.trim line.toList = contextCommand ∨ ∃ value, (eval M line E).result = .ok (some value)

/-- A line that is complained about. -/
def Fails (M : Machine) (line : String) (E : Env) : Prop :=
  Text.trim line.toList ≠ contextCommand ∧ ∃ failure, (eval M line E).result = .error failure

/-- A text that is one line, with its end. -/
def IsLine (s : String) : Prop := ∃ text, s = text ++ "\n" ∧ Unbroken text.toList

/-- What a line writes: nothing if it is blank, one line on the standard output if it succeeds, and
one line on the standard error if it fails.  No failure ends the session. -/
structure Replies (M : Machine) (line : String) (E : Env) (reply : Reply) : Prop where
  blank : Text.isBlankText line.toList = true → reply.out = "" ∧ reply.err = ""
  success : Succeeds M line E → IsLine reply.out ∧ reply.err = ""
  failure : Fails M line E → reply.out = "" ∧ IsLine reply.err
  kind : Text.isBlankText line.toList = true ∨ Succeeds M line E ∨ Fails M line E
  caught : ∀ failure, (eval M line E).result = .error failure → failure.Caught

/-- A line has neither a value nor a failure exactly if it is blank. -/
theorem result_eval_eq_none_iff (M : Machine) (line : String) (E : Env) :
    (eval M line E).result = .ok none ↔ Text.isBlankText line.toList = true := by
  rcases eval_cases M line E with ⟨hblank, h⟩ | ⟨hblank, cause, events, -, h⟩ | ⟨hblank, e, -, h⟩
  · simp [h, hblank]
  · simp [h, hblank]
  · rw [h, hblank]
    simp only [answer]
    split <;> simp

/-- One line writes at most one line, in an environment without variables, broken names and integers
out of range. -/
theorem respond_replies (hE : E.Inside Expr.OneLine) (hfits : E.Inside Expr.Fits)
    (hvars : E.vars = .empty) : Replies M line E (respond M line E).reply := by
  have hcaught : ∀ failure, (eval M line E).result = .error failure → failure.Caught :=
    fun _ => caught_of_eval hfits
  by_cases hcontext : Text.trim line.toList = contextCommand
  · have hblank : Text.isBlankText line.toList ≠ true := by
      rw [Ne, ← Text.trim_eq_nil_iff, hcontext]
      decide
    have htext : Unbroken E.describe.toList := by
      apply Env.unbroken_describe hE
      rw [hvars]
      exact List.forall_mem_nil _
    rw [respond, if_pos hcontext]
    exact {
      blank := fun h => absurd h hblank
      success := fun _ => ⟨⟨_, rfl, htext⟩, rfl⟩
      failure := fun h => absurd hcontext h.1
      kind := .inr (.inl (.inl hcontext))
      caught := hcaught }
  · obtain ⟨hvalue, -⟩ := eval_inside Expr.closed_oneLine oneLine_of_parse M line hE
    have hblank := result_eval_eq_none_iff M line E
    have hsuccess : Succeeds M line E → ∃ value, (eval M line E).result = .ok (some value) :=
      fun h => h.resolve_left hcontext
    rw [respond, if_neg hcontext]
    show Replies M line E (eval M line E).reply
    -- The answer determines what kind of line it was, so two of the three promises are empty.
    rw [Answer.reply]
    cases hresult : (eval M line E).result with
    | error failure =>
      rw [hresult] at hblank hsuccess
      exact {
        blank := fun h => nomatch hblank.2 h
        success := fun h => nomatch hsuccess h
        failure := fun _ => ⟨rfl, _, rfl, unbroken_of_eval hE hresult⟩
        kind := .inr (.inr ⟨hcontext, failure, hresult⟩)
        caught := hcaught }
    | ok value =>
      have hfails : ¬ Fails M line E := by
        rintro ⟨-, failure, h⟩
        rw [hresult] at h
        nomatch h
      rw [hresult] at hblank hsuccess
      cases value with
      | none =>
        exact {
          blank := fun _ => ⟨rfl, rfl⟩
          success := fun h => nomatch hsuccess h
          failure := fun h => absurd h hfails
          kind := .inl (hblank.1 rfl)
          caught := hcaught }
      | some value =>
        have htext := Expr.unbroken_render (hvalue value hresult)
        exact {
          blank := fun h => nomatch hblank.2 h
          success := fun _ => ⟨⟨_, rfl, htext⟩, rfl⟩
          failure := fun h => absurd h hfails
          kind := .inr (.inl (.inr ⟨value, hresult⟩))
          caught := hcaught }

/-- A reply is a complaint exactly if it writes to the standard error. -/
theorem isFailure_iff (reply : Reply) : reply.isFailure = true ↔ reply.err ≠ "" := by
  cases reply with
  | failed text => simp [Reply.isFailure, Reply.err]
  | _ => simp [Reply.isFailure, Reply.err]

/-- **One line in, at most one line out.** In a session that begins afresh, every line has one
reply: a blank line writes nothing, a line that succeeds writes one line on the standard output and
nothing on the standard error, and a line that fails the other way round.  The lines that are
written have no break before their end, no failure ends the session, and as many lines fail as there
are texts on the standard error. -/
theorem run_replies (M : Machine) (limit : Int) (lines : List String) :
    let turns := run M (Env.fresh limit) lines
    turns.length = lines.length ∧
      (∀ i line turn, lines[i]? = some line → turns[i]? = some turn →
        Replies M line (after M (Env.fresh limit) (lines.take i)) turn.reply) ∧
      failures turns = turns.countP fun turn => turn.reply.err ≠ "" := by
  intro turns
  refine ⟨length_run M _ lines, ?_, ?_⟩
  · intro i line turn hline hturn
    have hscope : SameScope (Env.fresh limit) (after M (Env.fresh limit) (lines.take i)) :=
      after_scope M _ _
    obtain rfl : respond M line (after M (Env.fresh limit) (lines.take i)) = turn := by
      rw [getElem?_run, hline] at hturn
      exact Option.some.inj hturn
    have honeLine : (after M (Env.fresh limit) (lines.take i)).Inside Expr.OneLine :=
      after_inside Expr.closed_oneLine oneLine_of_parse _ (Env.inside_fresh limit)
    have hfits : (after M (Env.fresh limit) (lines.take i)).Inside Expr.Fits :=
      after_inside Eval.closed_fits fits_of_parse _ (Env.inside_fresh limit)
    exact respond_replies honeLine hfits hscope.vars
  · apply List.countP_congr
    intro turn _
    rw [isFailure_iff, decide_eq_true_iff]

/-- A line with breaks in it, one in a string literal and one that the reader complains about, is
answered with one line. -/
theorem run_replies_sample :
    let lines := ["(defun f (x) x)", "(f \"\u2028\"\u0085)"]
    let E := after {} (Env.fresh 9) (lines.take 1)
    let turn := respond {} lines[1] E
    Fails {} lines[1] E ∧ turn.reply.out = "" ∧ IsLine turn.reply.err := by
  intro lines E turn
  have hfails : Fails {} lines[1] E := by
    have herror : (eval {} lines[1] E).result.isOk = false := by decide +kernel
    refine ⟨by decide +kernel, ?_⟩
    cases hresult : (eval {} lines[1] E).result with
    | ok value =>
      rw [hresult] at herror
      nomatch herror
    | error failure => exact ⟨failure, rfl⟩
  have hturn : (run {} (Env.fresh 9) lines)[1]? = some turn := by rw [getElem?_run]; rfl
  obtain ⟨-, hreplies, -⟩ := run_replies {} 9 lines
  exact ⟨hfails, (hreplies 1 lines[1] turn rfl hturn).failure hfails⟩

end Session

end Lisp
