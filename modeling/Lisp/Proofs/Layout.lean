/-
# The text of a number is a text of the grammar

A positive numeral is written with zeros dropped from its digits or added to them, with a point
among them or behind them, or with an exponent.  However it is written, the text is a numeral of
the same value that cannot be taken for an integer.

* `Layout.numeral_positional`, `Layout.numeral_scientific` : the two ways to write digits;
* `Layout.numeral_text` : the text of a numeral denotes the same double;
* `Number.derives_int`, `Number.derives_float` : the text of a number is a text of that number.
-/
import Lisp.Proofs.Shortest
import Lisp.Proofs.Double
import Lisp.Proofs.Numeral

namespace Lisp.Layout

open Grammar

/-! ## Digits -/

theorem allDigits_toDigits (n : Nat) : AllDigits (Nat.toDigits 10 n) :=
  fun _ hx => Nat.isDigit_of_mem_toDigits (by decide) (by decide) hx

/-- The decimal digits of a number denote it. -/
theorem natValue_toDigits (n : Nat) : natValue (Nat.toDigits 10 n) = n :=
  Nat.ofDigitChars_ten_toDigits

/-- Each zero behind digits multiplies what they denote by ten. -/
theorem natValue_append_zeros (ds : List Char) (k : Nat) :
    natValue (ds ++ List.replicate k '0') = natValue ds * 10 ^ k := by
  rw [natValue, Nat.ofDigitChars_append, Nat.ofDigitChars_replicate_zero, Nat.mul_comm, natValue]

/-- Zeros in front of digits change nothing. -/
theorem natValue_zeros_append (ds : List Char) (k : Nat) :
    natValue (List.replicate k '0' ++ ds) = natValue ds := by
  rw [natValue, Nat.ofDigitChars_append, Nat.ofDigitChars_replicate_zero, Nat.mul_zero, natValue]

theorem allDigits_zeros (k : Nat) : AllDigits (List.replicate k '0') := by
  intro x hx
  rw [(List.mem_replicate.1 hx).2]
  rfl

theorem allDigits_append {s t : List Char} (hs : AllDigits s) (ht : AllDigits t) :
    AllDigits (s ++ t) := by
  intro x hx
  rcases List.mem_append.1 hx with hx | hx
  · exact hs x hx
  · exact ht x hx

/-- Digits are those without the zeros at their end and these zeros. -/
theorem exists_eq_dropTrailingZeros_append (ds : List Char) :
    ∃ k, ds = dropTrailingZeros ds ++ List.replicate k '0' := by
  have hzeros : ds.reverse.takeWhile (· = '0') =
      List.replicate (ds.reverse.takeWhile (· = '0')).length '0' := by
    refine List.eq_replicate_iff.2 ⟨rfl, fun x hx => ?_⟩
    simpa using Token.forall_mem_takeWhile _ ds.reverse x hx
  refine ⟨(ds.reverse.takeWhile (· = '0')).length, ?_⟩
  apply List.reverse_injective
  rw [List.reverse_append, List.reverse_replicate, ← hzeros, dropTrailingZeros,
    List.reverse_reverse, List.takeWhile_append_dropWhile]

/-- A power has digits, and they denote it. -/
theorem twoDigits_spec (n : Nat) :
    twoDigits n ≠ [] ∧ AllDigits (twoDigits n) ∧ natValue (twoDigits n) = n := by
  have hall : AllDigits (twoDigits n) ∧ natValue (twoDigits n) = n := by
    unfold twoDigits
    split
    · next h =>
      rw [← Nat.toDigits_of_lt_base h]
      exact ⟨allDigits_append (allDigits_zeros 1) (allDigits_toDigits n),
        (natValue_zeros_append _ 1).trans (natValue_toDigits n)⟩
    · exact ⟨allDigits_toDigits n, natValue_toDigits n⟩
  refine ⟨?_, hall⟩
  unfold twoDigits
  split
  · simp
  · exact Nat.toDigits_ne_nil

/-! ## Two ways to write digits -/

/-- Digits, a point and digits make a numeral. -/
theorem numeral_point {w p : List Char} (hne : w ≠ []) (hw : AllDigits w) (hp : AllDigits p) :
    Numeral (w ++ '.' :: p) ⟨natValue (w ++ p), -p.length⟩ := by
  have h := Numeral.mk (Mantissa.point hne hw hp) Exponent.absent
  rwa [List.append_nil, Int.zero_sub] at h

/-- Digits with a point among them. -/
theorem numeral_positional {ds : List Char} (hne : ds ≠ []) (hds : AllDigits ds) (point : Int) :
    ∃ d, Numeral (positional ds point) d ∧
      d.pattern = Decimal.pattern ⟨natValue ds, point - ds.length⟩ ∧ '.' ∈ positional ds point := by
  have hzero : AllDigits ['0'] := allDigits_zeros 1
  unfold positional
  split
  · next h =>
    -- Below one, the zeros behind the point fill the places in front of the digits.
    have hfraction := allDigits_append (allDigits_zeros (-point).toNat) hds
    refine ⟨_, numeral_point (by simp) hzero hfraction, congrArg _ ?_, by simp⟩
    rw [← List.append_assoc]
    have hvalue : natValue (['0'] ++ List.replicate (-point).toNat '0' ++ ds) = natValue ds :=
      natValue_zeros_append ds ((-point).toNat + 1)
    rw [hvalue, List.length_append, List.length_replicate]
    congr 1
    omega
  split
  · next h =>
    -- The zero behind the point is one more digit of a number that is ten times as large.
    have hwhole := allDigits_append hds (allDigits_zeros (point.toNat - ds.length))
    refine ⟨_, numeral_point (by simp [hne]) hwhole hzero, ?_, by simp⟩
    have hvalue : natValue (ds ++ List.replicate (point.toNat - ds.length) '0' ++ ['0']) =
        natValue ds * 10 ^ (point.toNat - ds.length + 1) := by
      rw [← natValue_append_zeros, List.replicate_succ', List.append_assoc]
    rw [hvalue, Decimal.pattern_mul_pow, List.length_singleton]
    congr 2
    omega
  · next h =>
    have htake : AllDigits (ds.take point.toNat) := fun x hx => hds x (List.mem_of_mem_take hx)
    have hdrop : AllDigits (ds.drop point.toNat) := fun x hx => hds x (List.mem_of_mem_drop hx)
    have hfirst : ds.take point.toNat ≠ [] := by
      rw [Ne, List.take_eq_nil_iff]
      rintro (hpoint | hnil)
      · omega
      · exact hne hnil
    refine ⟨_, numeral_point hfirst htake hdrop, congrArg _ ?_, by simp⟩
    rw [List.take_append_drop, List.length_drop]
    congr 1
    omega

/-- Digits with a point behind the first of them, and an exponent. -/
theorem numeral_scientific {ds : List Char} (hne : ds ≠ []) (hds : AllDigits ds) (power : Int) :
    Numeral (scientific ds power) ⟨natValue ds, power - (ds.length - 1)⟩ := by
  obtain ⟨hpowne, hpow, hvalue⟩ := twoDigits_spec power.natAbs
  have hexp : Exponent ('e' :: (if power < 0 then '-' else '+') :: twoDigits power.natAbs)
      power := by
    split
    · next h =>
      have hminus := Exponent.minus (c := 'e') (Or.inl rfl) hpowne hpow
      rwa [hvalue, show -((power.natAbs : Nat) : Int) = power by omega] at hminus
    · next h =>
      have hplus := Exponent.plus (c := 'e') (Or.inl rfl) hpowne hpow
      rwa [hvalue, show ((power.natAbs : Nat) : Int) = power by omega] at hplus
  match ds, hne with
  | [d], _ =>
    have h := Numeral.mk (Mantissa.whole (by simp) hds) hexp
    simpa [scientific] using h
  | d :: e :: rest, _ =>
    have hd : AllDigits [d] := fun x hx => hds x (by simp_all)
    have hrest : AllDigits (e :: rest) := fun x hx => hds x (List.mem_cons_of_mem _ hx)
    have h := Numeral.mk (Mantissa.point (by simp) hd hrest) hexp
    simpa [scientific] using h

/-! ## Numerals -/

/-- An integer has neither a point nor the letter of an exponent. -/
theorem not_isInteger_of_mem {t : List Char} {c : Char} (hc : Token.isDigitOrMark c = false)
    (hmem : c ∈ t) : ¬ IsInteger t := by
  intro h
  have hall := Token.forall_isDigitOrMark_of_isInteger h c hmem
  rw [hc] at hall
  exact absurd hall (by decide)

/-- **The text of a positive numeral denotes the same double**, and is not that of an integer. -/
theorem numeral_text {d : Decimal} (h : d.digits ≠ 0) :
    ∃ d', Numeral (numeral d) d' ∧ d'.pattern = d.pattern ∧ ¬ IsInteger (numeral d) := by
  obtain ⟨k, hk⟩ := exists_eq_dropTrailingZeros_append (Nat.toDigits 10 d.digits)
  have hvalue := natValue_toDigits d.digits
  have hds : AllDigits (dropTrailingZeros (Nat.toDigits 10 d.digits)) := by
    intro x hx
    apply allDigits_toDigits d.digits
    rw [hk]
    exact List.mem_append_left _ hx
  simp only [numeral]
  generalize dropTrailingZeros (Nat.toDigits 10 d.digits) = ds at hk hds ⊢
  rw [hk, natValue_append_zeros] at hvalue
  have hne : ds ≠ [] := by
    rintro rfl
    exact h (hvalue.symm.trans (Nat.zero_mul _))
  have hlen : (Nat.toDigits 10 d.digits).length = ds.length + k := by
    rw [hk, List.length_append, List.length_replicate]
  -- The zeros that were dropped are counted in the power of ten.
  have hpattern : d.pattern = Decimal.pattern ⟨natValue ds, d.exponent + k⟩ := by
    rw [← Decimal.pattern_mul_pow, hvalue]
  rw [hlen]
  split
  · obtain ⟨d', hnum, hd', hpoint⟩ :=
      numeral_positional hne hds ((ds.length + k : Nat) + d.exponent)
    refine ⟨d', hnum, ?_, not_isInteger_of_mem (by decide) hpoint⟩
    rw [hd', hpattern]
    congr 2
    omega
  · refine ⟨_, numeral_scientific hne hds _, ?_, not_isInteger_of_mem (c := 'e') (by decide) ?_⟩
    · rw [hpattern]
      congr 2
      omega
    · simp [scientific]

end Lisp.Layout

namespace Lisp.Number

open Grammar Layout

/-! ## Numbers -/

/-- The text of a natural number of 64 bits is a text of it. -/
theorem derives_int {n : Int} (hn : 0 ≤ n) (h : n ≤ maxInt) :
    Derives (Number.int n).chars (.int n) := by
  have hchars : (Number.int n).chars = Nat.toDigits 10 n.toNat := if_neg (Int.not_lt.2 hn)
  have hdigits := allDigits_toDigits n.toNat
  have hvalue : integerValue (Nat.toDigits 10 n.toNat) = n.toNat := by
    have hfilter : (Nat.toDigits 10 n.toNat).filter (· ≠ '_') = Nat.toDigits 10 n.toNat := by
      rw [List.filter_eq_self]
      intro x hx
      have hne : x ≠ '_' := by
        rintro rfl
        exact absurd (hdigits _ hx) (by decide)
      simpa using hne
    rw [integerValue, hfilter, natValue_toDigits]
  have hshort : IsShortInteger (Nat.toDigits 10 n.toNat) := by
    refine ⟨Token.isInteger_of_allDigits Nat.toDigits_ne_nil hdigits, ?_⟩
    rw [hvalue]
    omega
  have hderives := Derives.integer hshort
  rw [hvalue, Int.toNat_of_nonneg hn] at hderives
  rwa [hchars]

/-- The text of a double that is not negative and not a NaN is a numeral of it. -/
theorem exists_numeral_chars {x : Float} (hnan : x.isNaN = false)
    (hneg : Binary.isNegative x = false) :
    ∃ d, Numeral (Number.float x).chars d ∧ d.pattern = Binary.magnitude x ∧
      ¬ IsInteger (Number.float x).chars := by
  have hle : Binary.magnitude x ≤ Binary.infinity := by
    rw [← Nat.not_lt, ← Binary.isNaN_iff, hnan]
    exact Bool.false_ne_true
  simp only [chars, hnan, Bool.false_eq_true, if_false, hneg, List.nil_append]
  split
  · next hinf =>
    have hten : Exponent ['e', '9', '9', '9'] 999 :=
      Exponent.unsigned (Or.inl rfl) (by simp) (by decide : AllDigits ['9', '9', '9'])
    refine ⟨⟨1, 999⟩, ?_, ?_, not_isInteger_of_mem (c := 'e') (by decide) (by simp)⟩
    · exact Numeral.mk (Mantissa.whole (w := ['1']) (by simp) (by decide)) hten
    · rw [hinf]
      rfl
  · next hfin =>
    have hlt : Binary.magnitude x < Binary.infinity := Nat.lt_of_le_of_ne hle hfin
    simp only [Layout.finite, hneg, Bool.false_eq_true, if_false]
    split
    · next hzero =>
      refine ⟨_, numeral_point (w := ['0']) (by simp) (allDigits_zeros 1) (allDigits_zeros 1), ?_,
        not_isInteger_of_mem (c := '.') (by decide) (by simp)⟩
      rw [hzero]
      rfl
    · next hzero =>
      have hpos : 0 < Binary.magnitude x := Nat.pos_of_ne_zero hzero
      have hshortest := Decimal.pattern_shortest hpos hlt
      have hdigits : (Decimal.shortest (Binary.magnitude x)).digits ≠ 0 := by
        intro hdigits
        rw [Decimal.pattern, if_pos (Or.inl hdigits)] at hshortest
        exact hzero hshortest.symm
      obtain ⟨d, hnum, hd, hint⟩ := numeral_text hdigits
      exact ⟨d, hnum, hd.trans hshortest, hint⟩

/-- The text of a double that is not negative and not a NaN is a text of it. -/
theorem derives_float {x : Float} (hnan : x.isNaN = false) (hneg : Binary.isNegative x = false) :
    Derives (Number.float x).chars (.float x) := by
  obtain ⟨d, hnum, hpattern, hint⟩ := exists_numeral_chars hnan hneg
  have hderives := Derives.float hnum fun h => hint h.1
  have hx : d.toFloat = x := by
    rw [Decimal.toFloat, hpattern, ← hneg, Binary.toFloat_magnitude]
  rwa [hx] at hderives

end Lisp.Number
