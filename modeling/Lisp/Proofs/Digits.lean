/-
# Digits at any place of a source

Digits with underscores among them are an integer if their value fits in 64 bits, however many they
are.  If it does not, the digits before the first underscore are a numeral by themselves, and
whatever comes behind them is left to be read next.

* `Token.beforeMark` : the digits before the first underscore;
* `Token.decimal?_of_isInteger` : these are the numeral that such a text begins with;
* `Reader.run_of_isInteger` : what the reader makes of digits;
* `Reader.integer_by_value` : the rule for integers, and what becomes of digits that it declines.
-/
import Lisp.Proofs.Parsing

namespace Lisp

open Grammar Token

variable {t q : List Char}

/-! ## Up to the first underscore -/

namespace Token

/-- The characters before the first underscore. -/
def beforeMark (t : List Char) : List Char := t.takeWhile (· ≠ '_')

theorem beforeMark_append (t q : List Char) :
    t ++ q = beforeMark t ++ (t.dropWhile (· ≠ '_') ++ q) := by
  rw [← List.append_assoc, beforeMark, List.takeWhile_append_dropWhile]

/-- Before the first underscore of an integer there are digits only, and one at least. -/
theorem beforeMark_of_isInteger (h : IsInteger t) :
    beforeMark t ≠ [] ∧ AllDigits (beforeMark t) := by
  cases t with
  | nil => exact h.elim
  | cons c r =>
    constructor
    · have hc : c ≠ '_' := by
        rintro rfl
        exact absurd h.1 (by decide)
      rw [beforeMark, List.takeWhile_cons, if_pos (by simpa using hc)]
      exact List.cons_ne_nil _ _
    · intro x hx
      have hmem : x ∈ c :: r := (List.takeWhile_sublist _).subset hx
      have hmark : x ≠ '_' := by simpa using forall_mem_takeWhile _ _ x hx
      have hclass := forall_isDigitOrMark_of_isInteger h x hmem
      simp only [isDigitOrMark, Bool.or_eq_true, decide_eq_true_eq] at hclass
      exact hclass.resolve_right hmark

/-- Behind these digits stands an underscore, or what stands behind the integer. -/
theorem stops_dropWhile_mark {p : Char → Bool} (hp : p '_' = false) (hq : Stops p q) :
    Stops p (t.dropWhile (· ≠ '_') ++ q) := by
  cases hrest : t.dropWhile (· ≠ '_') with
  | nil => exact hq
  | cons c r =>
    have hc : c = '_' := by
      have := stops_dropWhile (· ≠ '_') t c (by rw [hrest]; rfl)
      simpa using this
    rw [List.cons_append, hc]
    exact stops_cons hp

/-- The digits before the first underscore are the numeral that an integer begins with. -/
theorem decimal?_of_isInteger (h : IsInteger t) (hq : Stops isDigitOrMark q)
    (hc : Stops continuesNumeral q) :
    decimal? (t ++ q) = some (⟨natValue (beforeMark t), 0⟩, (beforeMark t).length) := by
  obtain ⟨hne, hdigits⟩ := beforeMark_of_isInteger h
  have hdigit : Stops Char.isDigit q := by
    intro c hhead
    have hclass := hq c hhead
    rw [isDigitOrMark, Bool.or_eq_false_iff] at hclass
    exact hclass.1
  rw [beforeMark_append]
  exact decimal?_append_digits hne hdigits (stops_dropWhile_mark (by decide) hdigit)
    (stops_dropWhile_mark (by decide) hc)

end Token

/-! ## What the reader makes of them -/

namespace Reader

variable {source : List Char} {pos : Nat}

/-- Moving ahead from a place of a source leads to a place of that source. -/
theorem skip_ofSource (h : source.drop pos = t ++ q) :
    (Cursor.ofSource source pos).skip t.length = Cursor.ofSource source (pos + t.length) := by
  rw [Cursor.ofSource, h, skip_append, Cursor.ofSource, ← List.drop_drop, h, List.drop_left' rfl]

/-- At digits the reader takes the integer, unless that rule declines, and then the numeral. -/
theorem run_of_isInteger (h : IsInteger t) (hrest : source.drop pos = t ++ q)
    (hq : Stops isDigitOrMark q) (hc : Stops continuesNumeral q) (levels : Nat) :
    (expression levels).run (Cursor.ofSource source pos) =
      if (integerValue t : Int) ≤ maxInt then
        .ok (.int (integerValue t), (Cursor.ofSource source pos).skip t.length)
      else
        .ok (.float (Decimal.mk (natValue (beforeMark t)) 0).toFloat,
          (Cursor.ofSource source pos).skip (beforeMark t).length) := by
  have hplace : (Cursor.ofSource source pos).rest = t ++ q := hrest
  obtain ⟨hop, hquote, hname⟩ : operator? (t ++ q) = none ∧
      (Cursor.ofSource source pos).peek? ≠ some '"' ∧ name? (t ++ q) = none := by
    rw [Cursor.ofSource, hrest]
    cases t with
    | nil => exact h.elim
    | cons c r => exact tokens_of_number (Or.inl h.1) pos (r ++ q)
  have hint := integer?_append h hq hc
  rw [expression_run]
  rw [← hplace] at hop hname hint
  -- The rules before that for integers have declined, and that one decides by the value.
  by_cases hle : (integerValue t : Int) ≤ maxInt
  · rw [if_pos hle] at hint ⊢
    exact readWith_integer hop hquote hname hint
  · rw [if_neg hle] at hint ⊢
    refine readWith_float hop hquote hname hint ?_
    rw [hplace]
    exact decimal?_of_isInteger h hq hc

/-- **Integers are read exactly, at any length.** Let the longest run of digits and underscores that
begins with a digit be `t` at a place of a source, with no point and no exponent behind it.  The
rule for integers reads its value, and stops behind it, if that value fits in 64 bits, and declines
otherwise.  More than nineteen significant digits never fit, so counting them first changes nothing.
An expression at that place is the integer; where the rule declines, it is the double of the digits
before the first underscore, and stops there. -/
theorem integer_by_value (source : List Char) (pos : Nat) (h : IsInteger t)
    (hrest : source.drop pos = t ++ q) (hq : Stops isDigitOrMark q)
    (hc : Stops continuesNumeral q) :
    let here := Cursor.ofSource source pos
    let behind := Cursor.ofSource source (pos + t.length)
    let behindDigits := Cursor.ofSource source (pos + (beforeMark t).length)
    let double := (Decimal.mk (natValue (beforeMark t)) 0).toFloat
    ((integerValue t : Int) ≤ maxInt →
      integer here = .ok (some (.int (integerValue t), behind)) ∧
      ∀ levels, (expression levels).run here = .ok (.int (integerValue t), behind)) ∧
    (maxInt < (integerValue t : Int) →
      integer here = .ok none ∧
      ∀ levels, (expression levels).run here = .ok (.float double, behindDigits)) ∧
    (19 < (significantDigits t).length → maxInt < (integerValue t : Int)) := by
  intro here behind behindDigits double
  have hplace : here.rest = t ++ q := hrest
  have hint := integer?_append h hq hc
  have hrun := run_of_isInteger h hrest hq hc
  have hbehind : here.skip t.length = behind := skip_ofSource hrest
  have hdigits : here.skip (beforeMark t).length = behindDigits :=
    skip_ofSource (hrest.trans (beforeMark_append t q))
  rw [← hplace] at hint
  refine ⟨fun hle => ?_, fun hgt => ?_,
    maxInt_lt_integerValue (forall_isDigitOrMark_of_isInteger h)⟩
  · rw [if_pos hle] at hint
    refine ⟨hbehind ▸ ofToken_of_some hint, fun levels => ?_⟩
    rw [hrun levels, if_pos hle, hbehind]
  · have hle : ¬ (integerValue t : Int) ≤ maxInt := by omega
    rw [if_neg hle] at hint
    refine ⟨integer_of_none hint, fun levels => ?_⟩
    rw [hrun levels, if_neg hle, hdigits]

/-- The largest integer of 64 bits, with zeros in front and an underscore among them, and the number
above it, of which only the first digit is left. -/
theorem integer_by_value_limit :
    let source := "(000_9223372036854775807 9_223372036854775808)".toList
    let largest := "000_9223372036854775807".toList
    let above := "9_223372036854775808".toList
    (integerValue largest : Int) ≤ maxInt ∧ maxInt < (integerValue above : Int) ∧
      integer (Cursor.ofSource source 1) =
        .ok (some (.int 9223372036854775807, Cursor.ofSource source 24)) ∧
      integer (Cursor.ofSource source 25) = .ok none ∧
      (expression 0).run (Cursor.ofSource source 25) =
        .ok (.float (Decimal.mk 9 0).toFloat, Cursor.ofSource source 26) := by
  intro source largest above
  have hle : (integerValue largest : Int) ≤ maxInt := by decide +kernel
  have hgt : maxInt < (integerValue above : Int) := by decide +kernel
  obtain ⟨hread, -, -⟩ := integer_by_value source 1 (t := largest)
    (q := " 9_223372036854775808)".toList) (by decide +kernel) (by decide +kernel)
    (stops_cons (by decide)) (stops_cons (by decide))
  obtain ⟨-, hdeclined, -⟩ := integer_by_value source 25 (t := above) (q := [')'])
    (by decide +kernel) (by decide +kernel) (stops_cons (by decide)) (stops_cons (by decide))
  exact ⟨hle, hgt, (hread hle).1, (hdeclined hgt).1, (hdeclined hgt).2 0⟩

end Reader

end Lisp
