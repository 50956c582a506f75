/-
# Texts that fit on one line

Whatever is shown on a line must not break it.  Numbers, keywords and the fixed parts of a message
are made of plain characters; a string literal escapes every white space but the plain space, and
quoted input whatever is not printable, so the characters that end a line appear in neither.  What
remains are names, and the one character that a message repeats as it was typed.

* `Text.Unbroken` : texts without a character that ends a line;
* `Number.unbroken_chars`, `Literal.unbroken_encode`, `Text.unbroken_quoted` : numbers, string
  literals and quoted input;
* `Expr.OneLine`, `Expr.unbroken_chars` : an expression whose names are unbroken, and its source;
* `Env.unbroken_describe` : the text of an environment that holds such expressions;
* `EvalError.unbroken_message`, `Fault.unbroken_message` : the wording of errors.
-/
import Lisp.Proofs.Closure
import Lisp.Proofs.Literal
import Lisp.Reader.Fault
import Lisp.Text.Class

namespace Lisp

/-! ## Characters -/

namespace Text

/-- A text without a character that ends a line. -/
def Unbroken (s : List Char) : Prop := ∀ c ∈ s, isLineBreak c = false

instance (s : List Char) : Decidable (Unbroken s) :=
  List.decidableBAll (fun c => isLineBreak c = false) s

/-- The characters that end a line, by their code points. -/
theorem isLineBreak_iff (c : Char) : isLineBreak c = true ↔
    10 ≤ c.toNat ∧ c.toNat ≤ 13 ∨ 28 ≤ c.toNat ∧ c.toNat ≤ 30 ∨ c.toNat = 133 ∨
      8232 ≤ c.toNat ∧ c.toNat ≤ 8233 := by
  simp [isLineBreak, lineBreakRanges, Range.holds]
  omega

/-- Only white space ends a line. -/
theorem isLineBreak_of_not_isBlank {c : Char} (h : isBlank c = false) : isLineBreak c = false := by
  rw [← Bool.not_eq_true, isLineBreak_iff]
  simp [isBlank, blankRanges, Range.holds] at h
  omega

/-- Nothing that is printable ends a line. -/
theorem isLineBreak_of_isPrintable {c : Char} (h : isPrintable c = true) :
    isLineBreak c = false := by
  have hbreaks : ∀ n ∈ [10, 11, 12, 13, 28, 29, 30, 133, 8232, 8233],
      isPrintable (Char.ofNat n) = false := by decide +kernel
  rw [← Bool.not_eq_true, isLineBreak_iff]
  intro hbreak
  have hmem : c.toNat ∈ [10, 11, 12, 13, 28, 29, 30, 133, 8232, 8233] := by
    simp only [List.mem_cons, List.not_mem_nil, or_false]
    omega
  have hnot : isPrintable c = false := by simpa only [Char.ofNat_toNat] using hbreaks _ hmem
  exact Bool.false_ne_true (hnot.symm.trans h)

/-! ## Putting texts together -/

@[simp] theorem unbroken_nil : Unbroken [] := List.forall_mem_nil _

@[simp] theorem unbroken_cons (c : Char) (s : List Char) :
    Unbroken (c :: s) ↔ isLineBreak c = false ∧ Unbroken s := List.forall_mem_cons

@[simp] theorem unbroken_append (s t : List Char) :
    Unbroken (s ++ t) ↔ Unbroken s ∧ Unbroken t := List.forall_mem_append

/-- A text made of characters of an unbroken one is unbroken. -/
theorem Unbroken.subset {s t : List Char} (ht : Unbroken t) (h : s ⊆ t) : Unbroken s :=
  fun c hc => ht c (h hc)

theorem unbroken_replicate (n : Nat) {c : Char} (h : isLineBreak c = false) :
    Unbroken (List.replicate n c) := by
  intro x hx
  rw [(List.mem_replicate.1 hx).2]
  exact h

/-- A text is unbroken if each of its characters was replaced by an unbroken one. -/
theorem unbroken_flatMap {s : List Char} {f : Char → List Char} (h : ∀ c ∈ s, Unbroken (f c)) :
    Unbroken (s.flatMap f) := by
  intro x hx
  obtain ⟨c, hc, hxc⟩ := List.mem_flatMap.1 hx
  exact h c hc x hxc

/-- A text that is given by its characters, as the fixed parts of a message are. -/
theorem unbroken_ofList {s : List Char} (h : Unbroken s) : Unbroken (String.ofList s).toList := by
  rw [String.toList_ofList]
  exact h

/-- Unbroken texts in a row, as the wording of a message is put together. -/
theorem Unbroken.concat {s t : String} (hs : Unbroken s.toList) (ht : Unbroken t.toList) :
    Unbroken (s ++ t).toList := by
  rw [String.toList_append, unbroken_append]
  exact ⟨hs, ht⟩

/-- Texts with a separator between each two. -/
theorem unbroken_intercalate {sep : String} (hsep : Unbroken sep.toList) {texts : List String}
    (h : ∀ t ∈ texts, Unbroken t.toList) : Unbroken (sep.intercalate texts).toList := by
  rw [String.toList_intercalate]
  induction texts with
  | nil => exact unbroken_nil
  | cons t rest ih =>
    rw [List.forall_mem_cons] at h
    cases rest with
    | nil => simpa using h.1
    | cons u more =>
      rw [List.map_cons, List.map_cons, List.intercalate_cons_cons, unbroken_append,
        unbroken_append]
      exact ⟨⟨h.1, hsep⟩, ih h.2⟩

/-! ## Digits and quoted input -/

/-- No digit ends a line, in any base up to sixteen. -/
theorem unbroken_toDigits {b : Nat} (hb : 1 < b) (hle : b ≤ 16) (n : Nat) :
    Unbroken (Nat.toDigits b n) := by
  have hdigit : ∀ k < 16, isLineBreak (Nat.digitChar k) = false := by decide
  intro c hc
  obtain ⟨k, hk, rfl⟩ := exists_of_mem_toDigits hb hc
  exact hdigit k (by omega)

theorem unbroken_hexDigits (width n : Nat) : Unbroken (hexDigits width n) := by
  rw [hexDigits, unbroken_append]
  exact ⟨unbroken_replicate _ rfl, unbroken_toDigits (by decide) (by decide) n⟩

/-- A character in quoted input stands for itself only if it can be printed. -/
theorem unbroken_quoteChar {mark : Char} (hmark : isLineBreak mark = false) (c : Char) :
    Unbroken (quoteChar mark c) := by
  have hcode : ∀ x width, isLineBreak x = false →
      Unbroken ('\\' :: x :: hexDigits width c.toNat) := by
    intro x width hx
    rw [unbroken_cons, unbroken_cons]
    exact ⟨rfl, hx, unbroken_hexDigits width _⟩
  unfold quoteChar
  split
  · next h =>
    rcases h with rfl | rfl
    · simpa using ⟨rfl, hmark⟩
    · decide
  split
  · decide
  split
  · decide
  split
  · decide
  split
  · next h => simpa using isLineBreak_of_isPrintable h
  split
  · exact hcode 'x' 2 rfl
  split
  · exact hcode 'u' 4 rfl
  · exact hcode 'U' 8 rfl

/-- Quoted input fits on a line, whatever it is. -/
theorem unbroken_quoted (s : List Char) : Unbroken (quoted s) := by
  have hmark : isLineBreak (quoteMark s) = false := by
    unfold quoteMark
    split <;> rfl
  simpa [quoted, hmark] using unbroken_flatMap fun c _ => unbroken_quoteChar hmark c

end Text

open Text

/-! ## Numbers -/

namespace Layout

/-- The digits of an integer fit on a line, with its sign. -/
theorem unbroken_integer (n : Int) : Unbroken (integer n) := by
  have hdigits := unbroken_toDigits (b := 10) (by decide) (by decide)
  unfold integer
  split
  · exact (unbroken_cons _ _).2 ⟨rfl, hdigits _⟩
  · exact hdigits _

theorem unbroken_twoDigits (n : Nat) : Unbroken (twoDigits n) := by
  have hdigit : ∀ k < 10, Unbroken ['0', Nat.digitChar k] := by decide
  unfold twoDigits
  split
  · next h => exact hdigit n h
  · exact unbroken_toDigits (by decide) (by decide) n

variable {ds : List Char}

/-- The digits of a decimal fit on a line with a point, and with zeros before or behind them. -/
theorem unbroken_positional (hds : Unbroken ds) (point : Int) :
    Unbroken (positional ds point) := by
  have hzeros : ∀ n, Unbroken (List.replicate n '0') := fun n => unbroken_replicate n rfl
  unfold positional
  split
  · simp only [unbroken_cons, unbroken_append]
    exact ⟨rfl, rfl, hzeros _, hds⟩
  split
  · simp only [unbroken_append]
    exact ⟨⟨hds, hzeros _⟩, by decide⟩
  · simp only [unbroken_append, unbroken_cons]
    exact ⟨hds.subset (List.take_subset _ _), rfl, hds.subset (List.drop_subset _ _)⟩

/-- They fit on a line with an exponent, too. -/
theorem unbroken_scientific (hds : Unbroken ds) (power : Int) :
    Unbroken (scientific ds power) := by
  have hsign : isLineBreak (if power < 0 then '-' else '+') = false := by split <;> rfl
  unfold scientific
  simp only [unbroken_append, unbroken_cons]
  refine ⟨?_, rfl, hsign, unbroken_twoDigits _⟩
  split
  · simp only [unbroken_cons] at hds ⊢
    exact ⟨hds.1, rfl, hds.2⟩
  · exact hds

/-- The text of a decimal fits on a line in either form. -/
theorem unbroken_numeral (d : Decimal) : Unbroken (numeral d) := by
  have hds : Unbroken (dropTrailingZeros (Nat.toDigits 10 d.digits)) := by
    have hall : Unbroken (Nat.toDigits 10 d.digits) :=
      unbroken_toDigits (by decide) (by decide) d.digits
    refine hall.subset fun c hc => ?_
    have hmem := (List.dropWhile_sublist _).subset (List.mem_reverse.1 hc)
    exact List.mem_reverse.1 hmem
  simp only [numeral]
  split
  · exact unbroken_positional hds _
  · exact unbroken_scientific hds _

/-- The text of a finite double fits on a line, with its sign. -/
theorem unbroken_finite (x : Float) : Unbroken (finite x) := by
  have htext : Unbroken (if Binary.magnitude x = 0 then ['0', '.', '0']
      else numeral (Decimal.shortest (Binary.magnitude x))) := by
    split
    · decide
    · exact unbroken_numeral _
  unfold finite
  split
  · exact (unbroken_cons _ _).2 ⟨rfl, htext⟩
  · exact htext

end Layout

/-- The text of a number fits on a line, whatever the number is. -/
theorem Number.unbroken_chars (n : Number) : Unbroken n.chars := by
  cases n with
  | int n => exact Layout.unbroken_integer n
  | float x =>
    simp only [chars]
    split
    · decide
    split
    · split <;> decide
    · exact Layout.unbroken_finite x

/-- An integer in a message fits on a line. -/
theorem unbroken_integerText (n : Int) : Unbroken (integerText n).toList :=
  unbroken_ofList (Layout.unbroken_integer n)

/-! ## Literals, keywords and expressions -/

/-- A string literal fits on a line, whatever it denotes. -/
theorem Literal.unbroken_encode (s : List Char) : Unbroken (encode s) := by
  intro c hc
  by_cases hblank : isBlank c = true
  · obtain rfl := (visible_of_mem_encode hc).1 hblank
    rfl
  · exact isLineBreak_of_not_isBlank (Bool.not_eq_true _ ▸ hblank)

theorem Operator.unbroken_chars (op : Operator) : Unbroken op.chars := by cases op <;> decide

namespace Expr

/-- The condition on names to be unbroken, which other atoms satisfy anyway. -/
def NameUnbroken : Expr → Prop
  | name id => Unbroken id.toList
  | _ => True

/-- The expressions whose names are unbroken, also inside quoted data. -/
def OneLine : Expr → Prop := Every NameUnbroken

mutual

/-- The source of an expression fits on a line if the names in it do. -/
theorem unbroken_chars (e : Expr) (h : e.OneLine) : Unbroken e.chars :=
  match e, h with
  | name _, h => h
  | text value, _ => Literal.unbroken_encode value.toList
  | operator op, _ => op.unbroken_chars
  | number n, _ => n.unbroken_chars
  | boolean true, _ => by decide
  | boolean false, _ => by decide
  | quoted items, h => by
    simp only [chars, unbroken_cons, unbroken_append]
    exact ⟨rfl, rfl, unbroken_charsAll items h, rfl, unbroken_nil⟩
  | form items, h => by
    simp only [chars, unbroken_cons, unbroken_append]
    exact ⟨rfl, unbroken_charsAll items h, rfl, unbroken_nil⟩

/-- The elements of a list fit on a line with spaces between them. -/
theorem unbroken_charsAll (es : List Expr) (h : EveryAll NameUnbroken es) :
    Unbroken (charsAll es) :=
  match es, h with
  | [], _ => unbroken_nil
  | e :: rest, h => by
    rw [charsAll, unbroken_append]
    exact ⟨unbroken_chars e h.1, unbroken_charsMore rest h.2⟩

/-- So do the elements behind the first one, each with a space in front. -/
theorem unbroken_charsMore (es : List Expr) (h : EveryAll NameUnbroken es) :
    Unbroken (charsMore es) :=
  match es, h with
  | [], _ => unbroken_nil
  | e :: rest, h => by
    rw [charsMore, unbroken_cons, unbroken_append]
    exact ⟨rfl, unbroken_chars e h.1, unbroken_charsMore rest h.2⟩

end

theorem unbroken_render {e : Expr} (h : e.OneLine) : Unbroken e.render.toList :=
  unbroken_ofList (e.unbroken_chars h)

end Expr

/-! ## Functions and environments -/

/-- The text of a function fits on a line if its name, its parameters and its body do. -/
theorem Procedure.unbroken_render {p : Procedure} (h : p.Inside Expr.OneLine) :
    Unbroken p.render.toList := by
  have hparams : Unbroken (" ".intercalate p.params).toList :=
    unbroken_intercalate (unbroken_ofList (by decide)) h.params
  have hbody := Expr.unbroken_render h.body
  unfold render
  refine .concat (.concat (.concat (.concat (.concat (.concat ?_ h.name) ?_) hparams) ?_) hbody) ?_
  all_goals exact unbroken_ofList (by decide)

/-- The text of an environment fits on a line if all names in it do. -/
theorem Env.unbroken_describe {E : Env} (hE : E.Inside Expr.OneLine)
    (hnames : ∀ k ∈ E.vars.keys, Unbroken k.toList) : Unbroken E.describe.toList := by
  have hvars : Unbroken (", ".intercalate
      (E.vars.entries.map fun entry => entry.1 ++ ": " ++ entry.2.render)).toList := by
    apply unbroken_intercalate (unbroken_ofList (by decide))
    intro t ht
    obtain ⟨⟨name, e⟩, hmem, rfl⟩ := List.mem_map.1 ht
    have hname : name ∈ E.vars.keys := List.mem_map.2 ⟨_, hmem, rfl⟩
    have he : e.OneLine := hE.vars (Table.get?_of_mem_entries _ hmem)
    refine .concat (.concat (hnames name hname) ?_) (Expr.unbroken_render he)
    exact unbroken_ofList (by decide)
  have hfunctions : Unbroken (", ".intercalate
      (E.functions.values.map Procedure.render)).toList := by
    apply unbroken_intercalate (unbroken_ofList (by decide))
    intro t ht
    obtain ⟨p, hp, rfl⟩ := List.mem_map.1 ht
    obtain ⟨⟨name, p⟩, hmem, rfl⟩ := List.mem_map.1 hp
    exact Procedure.unbroken_render (hE.functions (Table.get?_of_mem_entries _ hmem))
  have hsummary : Unbroken E.summary.toList := by
    unfold summary
    refine .concat (.concat (.concat (.concat ?_ hvars) ?_) hfunctions) ?_
    all_goals exact unbroken_ofList (by decide)
  have hint := unbroken_integerText
  unfold describe describeWith
  refine .concat (.concat (.concat (.concat (.concat (.concat ?_ hsummary) ?_) (hint _)) ?_)
    (hint _)) ?_
  all_goals exact unbroken_ofList (by decide)

/-! ## Errors -/

/-- The wording of what is no number fits on a line. -/
theorem Unrepresentable.unbroken_message (cause : Unrepresentable) :
    Unbroken cause.message.toList := by
  cases cause with
  | integer n => exact .concat (unbroken_integerText n) (unbroken_ofList (by decide))
  | quotient => exact unbroken_ofList (by decide)
  | remainder => exact unbroken_ofList (by decide)

/-- The wording of a number error fits on a line. -/
theorem NumberError.unbroken_message (cause : NumberError) : Unbroken cause.message.toList := by
  cases cause with
  | overflow => exact unbroken_ofList (by decide)
  | divisionByZero => exact unbroken_ofList (by decide)
  | unrepresentable cause => exact cause.unbroken_message

/-- The wording of an evaluation error fits on a line if the names that it mentions do. -/
theorem EvalError.unbroken_message {err : EvalError}
    (h : err.RaisedOver Expr.OneLine ∨ ∃ limit, err = .tooDeep limit) :
    Unbroken err.message.toList := by
  have hint := unbroken_integerText
  rcases h with h | ⟨limit, rfl⟩
  · cases err with
    | argumentCount expected got =>
      refine .concat (.concat (.concat ?_ (hint expected)) ?_) (hint got)
      all_goals exact unbroken_ofList (by decide)
    | invalidArguments args => exact .concat (unbroken_ofList (by decide)) (Expr.unbroken_render h)
    | unknownFunction name =>
      refine .concat (.concat ?_ h) ?_
      all_goals exact unbroken_ofList (by decide)
    | unknownVariable name =>
      refine .concat (.concat ?_ h) ?_
      all_goals exact unbroken_ofList (by decide)
    | notANumber => exact unbroken_ofList (by decide)
    | operatorAsValue => exact unbroken_ofList (by decide)
    | unwired op =>
      have hop : Unbroken op.keyword.toList := unbroken_ofList op.unbroken_chars
      refine .concat (.concat ?_ hop) ?_
      all_goals exact unbroken_ofList (by decide)
    | notAFunction head =>
      refine .concat (.concat ?_ (Expr.unbroken_render h)) ?_
      all_goals exact unbroken_ofList (by decide)
    | arithmetic cause => exact cause.unbroken_message
    | malformedDefinition => exact unbroken_ofList (by decide)
    | notAList => exact unbroken_ofList (by decide)
    | indexOutOfRange index length =>
      refine .concat (.concat (.concat ?_ (hint index)) ?_) (hint length)
      all_goals exact unbroken_ofList (by decide)
    | tooDeep limit => exact h.elim
  · refine .concat (.concat ?_ (hint limit)) ?_
    all_goals exact unbroken_ofList (by decide)

/-- A fault that does not repeat a character that ends a line. -/
def Fault.OneLine : Fault → Prop
  | unknownEscape _ c => isLineBreak c = false
  | _ => True

/-- The wording of a fault fits on a line unless the fault repeats a character that ends one. -/
theorem Fault.unbroken_message {fault : Fault} (h : fault.OneLine) :
    Unbroken fault.message.toList := by
  have hpos : ∀ pos, Unbroken (positionText pos).toList := fun pos => unbroken_integerText pos
  have hquoted : ∀ s, Unbroken (String.ofList (quoted s)).toList :=
    fun s => unbroken_ofList (unbroken_quoted s)
  cases fault with
  | expected what pos found =>
    have hfound : Unbroken (foundText found).toList := by
      cases found with
      | none => exact unbroken_ofList (by decide)
      | some c => exact hquoted [c]
    have hwhat : Unbroken what.phrase.toList := by
      cases what <;> exact unbroken_ofList (by decide)
    refine .concat (.concat (.concat (.concat (.concat ?_ hwhat) ?_) (hpos pos)) ?_) hfound
    all_goals exact unbroken_ofList (by decide)
  | missingQuote pos => exact .concat (unbroken_ofList (by decide)) (hpos pos)
  | unterminated start => exact .concat (unbroken_ofList (by decide)) (hpos start)
  | unknownEscape pos c =>
    have hc : Unbroken (String.ofList [c]).toList :=
      unbroken_ofList ((unbroken_cons c []).2 ⟨h, unbroken_nil⟩)
    refine .concat (.concat (.concat ?_ hc) ?_) (hpos pos)
    all_goals exact unbroken_ofList (by decide)
  | malformedCodePoint pos => exact .concat (unbroken_ofList (by decide)) (hpos pos)
  | invalidCodePoint pos digits =>
    refine .concat (.concat (.concat ?_ (hpos pos)) ?_) (hquoted digits)
    all_goals exact unbroken_ofList (by decide)
  | tooDeep => exact unbroken_ofList (by decide)

end Lisp
