/-
# Integers and numerals with fraction or exponent

The reader prefers an integer, unless the digits go on as a numeral or need more than 64 bits; the
grammar says of each text which of the two it is.

* `Token.integer?_append` : whether digits are an integer is decided by their value, however many
  there are;
* `Token.decimal?_append` : a numeral of the grammar is read with its digits and its power of ten;
* `Token.derives_of_integer?`, `Token.derives_of_decimal?` : what is read is a number of the
  grammar.
-/
import Mathlib.Tactic.Ring
import Lisp.Proofs.Word

namespace Lisp.Token

open Grammar

variable {t q : List Char}

/-! ## Integers -/

/-- Zeros in front do not count. -/
theorem natValue_dropWhile_zero (ds : List Char) :
    natValue (ds.dropWhile (· = '0')) = natValue ds := by
  induction ds with
  | nil => rfl
  | cons d ds ih =>
    rw [List.dropWhile_cons]
    by_cases h : d = '0'
    · rw [if_pos (by simp [h]), ih, natValue, natValue, Nat.ofDigitChars_cons, h]
      rfl
    · rw [if_neg (by simp [h])]

/-- A numeral that does not begin with a zero is at least as large as the power of ten of its
length. -/
theorem pow_le_natValue_cons {d : Char} {ds : List Char} (hd : d.isDigit = true) (hz : d ≠ '0') :
    10 ^ ds.length ≤ natValue (d :: ds) := by
  have hne : d.toNat ≠ 48 := fun h => hz (Char.toNat_inj.1 h)
  rw [isDigit_iff] at hd
  have hone : 1 ≤ d.toNat - '0'.toNat := by
    have : '0'.toNat = 48 := rfl
    omega
  calc 10 ^ ds.length = 10 ^ ds.length * 1 := (Nat.mul_one _).symm
    _ ≤ 10 ^ ds.length * (10 * 0 + (d.toNat - '0'.toNat)) := Nat.mul_le_mul_left _ (by omega)
    _ ≤ natValue (d :: ds) := by
      rw [natValue, Nat.ofDigitChars_cons, Nat.ofDigitChars_eq_ofDigitChars_zero]
      exact Nat.le_add_right _ _

/-- More than nineteen significant digits are too many for 64 bits. -/
theorem maxInt_lt_natValue {ds : List Char} (hds : AllDigits ds) (hz : Stops (· = '0') ds)
    (hlen : 19 < ds.length) : maxInt < (natValue ds : Int) := by
  cases ds with
  | nil => simp at hlen
  | cons d r =>
    have hd : d ≠ '0' := by simpa using hz d rfl
    have hbig : 10 ^ r.length ≤ natValue (d :: r) :=
      pow_le_natValue_cons (hds d List.mem_cons_self) hd
    have hpow : 10 ^ 19 ≤ 10 ^ r.length := by
      refine Nat.pow_le_pow_right (by decide) ?_
      rw [List.length_cons] at hlen
      omega
    have hmax : maxInt = 9223372036854775807 := rfl
    omega

/-- Only the digits of an integer count, not its underscores. -/
theorem allDigits_filter (h : ∀ x ∈ t, isDigitOrMark x = true) :
    AllDigits (t.filter (· ≠ '_')) := by
  intro x hx
  obtain ⟨hmem, hne⟩ := List.mem_filter.1 hx
  have hx := h x hmem
  simp only [isDigitOrMark, Bool.or_eq_true, decide_eq_true_eq] at hx
  exact hx.resolve_right (by simpa using hne)

/-- An integer consists of digits and underscores. -/
theorem forall_isDigitOrMark_of_isInteger (h : IsInteger t) :
    ∀ x ∈ t, isDigitOrMark x = true := by
  cases t with
  | nil => simp
  | cons c r =>
    intro x hx
    rcases List.mem_cons.1 hx with rfl | hx
    · exact isDigitOrMark_of_isDigit h.1
    · exact h.2 x hx

/-- The significant digits of a run are those behind its zeros, or a zero in place of none. -/
theorem significantDigits_cases (t : List Char) :
    (t.filter (· ≠ '_')).dropWhile (· = '0') = [] ∧ significantDigits t = ['0'] ∨
      significantDigits t = (t.filter (· ≠ '_')).dropWhile (· = '0') := by
  unfold significantDigits
  split
  · next h => exact .inl ⟨h, rfl⟩
  · exact .inr rfl

/-- What is not significant does not change the value. -/
theorem natValue_significantDigits (t : List Char) :
    natValue (significantDigits t) = integerValue t := by
  have hvalue := natValue_dropWhile_zero (t.filter (· ≠ '_'))
  rw [integerValue, ← hvalue]
  rcases significantDigits_cases t with ⟨hnil, hzero⟩ | heq
  · rw [hnil, hzero]
    rfl
  · rw [heq]

/-- More than nineteen significant digits are too many for 64 bits, however many zeros stand before
them and wherever underscores stand among them. -/
theorem maxInt_lt_integerValue (h : ∀ x ∈ t, isDigitOrMark x = true)
    (hlen : 19 < (significantDigits t).length) : maxInt < (integerValue t : Int) := by
  rcases significantDigits_cases t with ⟨-, hzero⟩ | heq
  · rw [hzero] at hlen
    exact absurd hlen (by decide)
  · have hdigits : AllDigits (significantDigits t) := by
      rw [heq]
      exact fun x hx => allDigits_filter h x ((List.dropWhile_sublist _).subset hx)
    have hstop : Stops (· = '0') (significantDigits t) := by
      rw [heq]
      exact stops_dropWhile _ _
    rw [← natValue_significantDigits]
    exact maxInt_lt_natValue hdigits hstop hlen

/-- **Integers are compared by value.** Behind an integer that is not part of a longer numeral, the
reader takes exactly the integers of 64 bits; that it does not compute the value of long ones makes
no difference. -/
theorem integer?_append (h : IsInteger t) (hq : Stops isDigitOrMark q)
    (hc : Stops continuesNumeral q) :
    integer? (t ++ q) =
      if (integerValue t : Int) ≤ maxInt then some (integerValue t, t.length) else none := by
  have hall := forall_isDigitOrMark_of_isInteger h
  have hrun : digitRun (t ++ q) = t := takeWhile_append hall hq
  have hdrop : (t ++ q).drop t.length = q := List.drop_left' rfl
  have hcont : q.head?.any continuesNumeral = false := by
    cases hq : q.head? with
    | none => rfl
    | some c => simpa using hc c hq
  have hvalue := natValue_significantDigits t
  cases t with
  | nil => exact h.elim
  | cons c r =>
    simp only [List.cons_append] at hrun hdrop ⊢
    simp only [integer?, h.1, if_true, hrun, hdrop, hcont, Bool.false_eq_true, if_false]
    rw [← natValue, hvalue]
    -- The length is looked at first, and a length that decides does so as the value would.
    by_cases hlen : 19 < (significantDigits (c :: r)).length
    · have := maxInt_lt_integerValue hall hlen
      rw [if_pos hlen, if_neg (by omega)]
    · rw [if_neg hlen]
      by_cases hle : (integerValue (c :: r) : Int) ≤ maxInt
      · rw [if_neg (by omega), if_pos hle]
      · rw [if_pos (by omega), if_neg hle]

/-- Digits before a point or an exponent are not read as an integer. -/
theorem integer?_append_eq_none {c : Char} (h : IsInteger t) (hc : continuesNumeral c = true)
    (r : List Char) : integer? (t ++ c :: r) = none := by
  have hstop : Stops isDigitOrMark (c :: r) := by
    apply stops_cons
    rw [continuesNumeral_iff] at hc
    rcases hc with rfl | rfl | rfl <;> decide
  have hrun : digitRun (t ++ c :: r) = t :=
    takeWhile_append (forall_isDigitOrMark_of_isInteger h) hstop
  cases t with
  | nil => exact h.elim
  | cons d ds =>
    simp only [List.cons_append] at hrun ⊢
    simp [integer?, h.1, hrun, hc]

theorem integer?_cons_eq_none {c : Char} (hc : c.isDigit = false) (r : List Char) :
    integer? (c :: r) = none := by
  simp [integer?, hc]

/-- What is read as an integer is an integer of 64 bits with its value. -/
theorem derives_of_integer? {s : List Char} {v n : Nat} (h : integer? s = some (v, n)) :
    Derives (s.take n) (.int v) := by
  cases s with
  | nil => simp [integer?] at h
  | cons c r =>
    by_cases hc : c.isDigit = true
    · -- The text is its longest run of digits and underscores and the rest behind it.
      have hrun : (c :: r).takeWhile isDigitOrMark = c :: r.takeWhile isDigitOrMark := by
        rw [List.takeWhile_cons, if_pos (isDigitOrMark_of_isDigit hc)]
      have hint : IsInteger ((c :: r).takeWhile isDigitOrMark) := by
        rw [hrun]
        exact ⟨hc, forall_mem_takeWhile isDigitOrMark r⟩
      have hstop := stops_dropWhile isDigitOrMark (c :: r)
      rw [← List.takeWhile_append_dropWhile (p := isDigitOrMark) (l := c :: r)] at h ⊢
      by_cases hnum : Stops continuesNumeral ((c :: r).dropWhile isDigitOrMark)
      · rw [integer?_append hint hstop hnum] at h
        split at h
        · next hle =>
          obtain ⟨rfl, rfl⟩ := Prod.mk.inj (Option.some.inj h)
          rw [List.take_left' rfl]
          exact Derives.integer ⟨hint, hle⟩
        · simp at h
      · cases hrest : (c :: r).dropWhile isDigitOrMark with
        | nil => exact absurd (hrest ▸ stops_nil continuesNumeral) hnum
        | cons x rest =>
          have hx : continuesNumeral x = true := by
            cases hx : continuesNumeral x with
            | true => rfl
            | false => exact absurd (hrest ▸ stops_cons hx) hnum
          rw [hrest, integer?_append_eq_none hint hx] at h
          exact absurd h (by simp)
    · rw [integer?_cons_eq_none (Bool.eq_false_iff.2 hc)] at h
      exact absurd h (by simp)

/-! ## Numerals -/

theorem digits_append (h : AllDigits t) (hq : Stops Char.isDigit q) : digits (t ++ q) = t :=
  takeWhile_append h hq

/-- The first of some digits is no sign. -/
theorem head?_append_ne_of_allDigits {x : Char} (hne : t ≠ []) (h : AllDigits t)
    (hx : x.isDigit = false) (q : List Char) : (t ++ q).head? ≠ some x := by
  cases t with
  | nil => exact absurd rfl hne
  | cons d ds =>
    rintro hhead
    obtain rfl : d = x := by simpa using hhead
    rw [h d List.mem_cons_self] at hx
    exact absurd hx (by simp)

theorem exponent_of_not_mark {c : Char} (hc : ¬ IsExponentMark c) (r : List Char) :
    exponent (c :: r) = (0, 0) :=
  if_neg hc

/-- Behind the mark of an exponent there has to be a digit. -/
theorem exponent_cons_unsigned {c : Char} {r : List Char} (hc : IsExponentMark c)
    (hminus : r.head? ≠ some '-') (hplus : r.head? ≠ some '+') :
    exponent (c :: r) =
      if digits r = [] then (0, 0) else ((natValue (digits r) : Int), 1 + (digits r).length) := by
  have hc : c = 'e' ∨ c = 'E' := hc
  simp only [exponent, if_pos hc, hminus, hplus, or_self, if_false, List.isEmpty_iff, natValue]

/-- A plus before the digits changes nothing but the length. -/
theorem exponent_cons_plus {c : Char} (hc : IsExponentMark c) (r : List Char) :
    exponent (c :: '+' :: r) =
      if digits r = [] then (0, 0) else ((natValue (digits r) : Int), 2 + (digits r).length) := by
  have hc : c = 'e' ∨ c = 'E' := hc
  simp [exponent, hc, natValue]

/-- A minus before the digits makes the exponent negative. -/
theorem exponent_cons_minus {c : Char} (hc : IsExponentMark c) (r : List Char) :
    exponent (c :: '-' :: r) =
      if digits r = [] then (0, 0) else (-(natValue (digits r) : Int), 2 + (digits r).length) := by
  have hc : c = 'e' ∨ c = 'E' := hc
  simp [exponent, hc, natValue]

/-- A text that does not go on as a numeral has no exponent in front. -/
theorem exponent_of_stops (hq : Stops continuesNumeral q) : exponent q = (0, 0) := by
  cases q with
  | nil => rfl
  | cons c r =>
    have hc := hq c rfl
    rw [Bool.eq_false_iff, ne_eq, continuesNumeral_iff, not_or] at hc
    exact exponent_of_not_mark hc.2 r

/-- An exponent is read with its power of ten. -/
theorem exponent_append {power : Int} (h : Exponent t power) (hq : Ends q) :
    exponent (t ++ q) = (power, t.length) := by
  have hstop := hq.stops_isDigit
  cases h with
  | absent => exact exponent_of_stops hq.stops_continuesNumeral
  | @unsigned c ds hc hne hds =>
    have hminus := head?_append_ne_of_allDigits (x := '-') hne hds (by decide) q
    have hplus := head?_append_ne_of_allDigits (x := '+') hne hds (by decide) q
    rw [List.cons_append, exponent_cons_unsigned hc hminus hplus, digits_append hds hstop,
      if_neg hne, List.length_cons, Nat.add_comm]
  | @plus c ds hc hne hds =>
    rw [List.cons_append, List.cons_append, exponent_cons_plus hc, digits_append hds hstop,
      if_neg hne, List.length_cons, List.length_cons, Nat.add_comm]
  | @minus c ds hc hne hds =>
    rw [List.cons_append, List.cons_append, exponent_cons_minus hc, digits_append hds hstop,
      if_neg hne, List.length_cons, List.length_cons, Nat.add_comm]

/-- A mantissa is read as far as it goes. -/
theorem mantissa?_append {w p : List Char} (h : Mantissa t w p) (hq : Stops Char.isDigit q)
    (hp : q.head? ≠ some '.') : mantissa? (t ++ q) = some (w, p, t.length) := by
  cases h with
  | whole hne hw =>
    have hrun := digits_append hw hq
    have hdrop : (t ++ q).drop t.length = q := List.drop_left' rfl
    simp only [mantissa?, hrun, hdrop]
    split
    · exact absurd rfl hp
    · rw [if_neg (by simpa using hne)]
  | point hne hw hplaces =>
    have hpoint : Stops Char.isDigit ('.' :: (p ++ q)) := stops_cons (by decide)
    have hrun : digits (w ++ '.' :: p ++ q) = w := by
      rw [List.append_assoc, List.cons_append]
      exact digits_append hw hpoint
    have hdrop : (w ++ '.' :: p ++ q).drop w.length = '.' :: (p ++ q) := by
      rw [List.append_assoc, List.cons_append]
      exact List.drop_left' rfl
    simp only [mantissa?, hrun, hdrop, digits_append hplaces hq]
    rw [if_neg (by simp [hne])]
    simp [Nat.add_comm, Nat.add_left_comm]
  | fraction hne hplaces =>
    have hrun : digits ('.' :: (p ++ q)) = [] := by
      rw [digits, List.takeWhile_cons]
      rfl
    rw [List.cons_append]
    simp only [mantissa?, hrun, List.length_nil, List.drop_zero, digits_append hplaces hq]
    rw [if_neg (by simp [hne])]
    simp [Nat.add_comm]

/-- What stands behind a mantissa is no further digit and no point. -/
theorem stops_exponent_append {power : Int} (h : Exponent t power) (hq : Ends q) :
    Stops Char.isDigit (t ++ q) ∧ (t ++ q).head? ≠ some '.' := by
  have hmark : ∀ {c : Char}, IsExponentMark c → ∀ r : List Char,
      Stops Char.isDigit (c :: r) ∧ (c :: r).head? ≠ some '.' := by
    intro c hc r
    rcases hc with rfl | rfl
    · exact ⟨stops_cons (by decide), by simp⟩
    · exact ⟨stops_cons (by decide), by simp⟩
  cases h with
  | absent =>
    refine ⟨hq.stops_isDigit, fun hdot => ?_⟩
    exact absurd (hq.stops_continuesNumeral '.' hdot) (by decide)
  | unsigned hc _ _ => exact hmark hc _
  | plus hc _ _ => exact hmark hc _
  | minus hc _ _ => exact hmark hc _

/-- A numeral is read with its digits and its power of ten. -/
theorem decimal?_append {d : Decimal} (h : Numeral t d) (hq : Ends q) :
    decimal? (t ++ q) = some (d, t.length) := by
  obtain @⟨m, w, p, x, power, hm, hx⟩ := h
  obtain ⟨hstop, hdot⟩ := stops_exponent_append hx hq
  have hdrop : (m ++ (x ++ q)).drop m.length = x ++ q := List.drop_left' rfl
  rw [List.append_assoc, decimal?, mantissa?_append hm hstop hdot, Option.map_some]
  simp only [hdrop, exponent_append hx hq, natValue, List.length_append]

/-- Digits that do not go on as a numeral are read as one by themselves. -/
theorem decimal?_append_digits (hne : t ≠ []) (ht : AllDigits t) (hq : Stops Char.isDigit q)
    (hc : Stops continuesNumeral q) : decimal? (t ++ q) = some (⟨natValue t, 0⟩, t.length) := by
  have hdot : q.head? ≠ some '.' := fun h => absurd (hc '.' h) (by decide)
  have hdrop : (t ++ q).drop t.length = q := List.drop_left' rfl
  rw [decimal?, mantissa?_append (Mantissa.whole hne ht) hq hdot, Option.map_some]
  simp only [hdrop, exponent_of_stops hc, List.append_nil, natValue, List.length_nil,
    Nat.add_zero, Int.natCast_zero, Int.sub_zero]

theorem allDigits_digits (s : List Char) : AllDigits (digits s) :=
  forall_mem_takeWhile Char.isDigit s

theorem take_length_digits (s : List Char) : s.take (digits s).length = digits s :=
  take_length_takeWhile Char.isDigit s

/-- What is read as an exponent is one. -/
theorem exponent_take (s : List Char) :
    Exponent (s.take (exponent s).2) (exponent s).1 := by
  cases s with
  | nil => exact Exponent.absent
  | cons c r =>
    by_cases hc : IsExponentMark c
    · have hds := allDigits_digits
      -- A mark with no digits behind it and its sign is left to what follows.
      rcases Classical.em (r.head? = some '-') with hm | hm
      · obtain ⟨u, rfl⟩ := List.head?_eq_some_iff.1 hm
        rw [exponent_cons_minus hc]
        by_cases hne : digits u = []
        · rw [if_pos hne]; exact Exponent.absent
        · rw [if_neg hne, Nat.add_comm, List.take_succ_cons, List.take_succ_cons,
            take_length_digits]
          exact Exponent.minus hc hne (hds u)
      · rcases Classical.em (r.head? = some '+') with hp | hp
        · obtain ⟨u, rfl⟩ := List.head?_eq_some_iff.1 hp
          rw [exponent_cons_plus hc]
          by_cases hne : digits u = []
          · rw [if_pos hne]; exact Exponent.absent
          · rw [if_neg hne, Nat.add_comm, List.take_succ_cons, List.take_succ_cons,
              take_length_digits]
            exact Exponent.plus hc hne (hds u)
        · rw [exponent_cons_unsigned hc hm hp]
          by_cases hne : digits r = []
          · rw [if_pos hne]; exact Exponent.absent
          · rw [if_neg hne, Nat.add_comm, List.take_succ_cons, take_length_digits]
            exact Exponent.unsigned hc hne (hds r)
    · rw [exponent_of_not_mark hc]
      exact Exponent.absent

/-- What is read as a mantissa is one. -/
theorem mantissa_of_mantissa? {s w p : List Char} {n : Nat}
    (h : mantissa? s = some (w, p, n)) : Mantissa (s.take n) w p := by
  have hs : digits s ++ s.drop (digits s).length = s := by
    rw [digits, drop_length_takeWhile, List.takeWhile_append_dropWhile]
  simp only [mantissa?] at h
  split at h
  · next rest hrest =>
    split at h
    · simp at h
    · next hne =>
      obtain ⟨rfl, rfl, rfl⟩ : digits s = w ∧ digits rest = p ∧ _ = n := by simpa using h
      have htake : s.take ((digits s).length + 1 + (digits rest).length) =
          digits s ++ '.' :: digits rest := by
        rw [Nat.add_assoc, List.take_add, take_length_digits, hrest, Nat.add_comm,
          List.take_succ_cons, take_length_digits]
      rw [htake]
      by_cases hw : digits s = []
      · rw [hw] at hne ⊢
        exact Mantissa.fraction (by simpa using hne) (allDigits_digits rest)
      · exact Mantissa.point hw (allDigits_digits s) (allDigits_digits rest)
  · split at h
    · simp at h
    · next hne =>
      obtain ⟨rfl, rfl, rfl⟩ : digits s = w ∧ [] = p ∧ _ = n := by simpa using h
      rw [take_length_digits]
      exact Mantissa.whole (by simpa using hne) (allDigits_digits s)

/-- What is read as a numeral is one. -/
theorem numeral_of_decimal? {s : List Char} {d : Decimal} {n : Nat}
    (h : decimal? s = some (d, n)) : Numeral (s.take n) d := by
  obtain ⟨⟨w, p, k⟩, hm, heq⟩ := Option.map_eq_some_iff.1 h
  obtain ⟨rfl, rfl⟩ := Prod.mk.inj heq
  have hx := exponent_take (s.drop k)
  rw [List.take_add]
  exact Numeral.mk (mantissa_of_mantissa? hm) hx

/-! ## Integers among the numerals -/

theorem isInteger_of_allDigits (hne : t ≠ []) (h : AllDigits t) : IsInteger t := by
  cases t with
  | nil => exact absurd rfl hne
  | cons c r =>
    refine ⟨h c List.mem_cons_self, fun x hx => ?_⟩
    exact isDigitOrMark_of_isDigit (h x (List.mem_cons_of_mem _ hx))

/-- A numeral that is no integer of 64 bits is not read as an integer. -/
theorem integer?_append_numeral {d : Decimal} (h : Numeral t d) (hlong : ¬ IsShortInteger t)
    (hq : Ends q) : integer? (t ++ q) = none := by
  obtain @⟨m, w, p, x, power, hm, hx⟩ := h
  cases hm with
  | whole hne hw =>
    have hint := isInteger_of_allDigits hne hw
    have hmark : ∀ {c : Char} (r : List Char), IsExponentMark c →
        integer? (m ++ c :: r ++ q) = none := by
      intro c r hc
      rw [List.append_assoc, List.cons_append]
      exact integer?_append_eq_none hint ((continuesNumeral_iff c).2 (Or.inr hc)) _
    cases hx with
    | absent =>
      -- Digits alone are an integer, which is too large by assumption.
      rw [List.append_nil] at hlong ⊢
      rw [integer?_append hint hq.stops_isDigitOrMark hq.stops_continuesNumeral]
      exact if_neg fun hle => hlong ⟨hint, hle⟩
    | unsigned hc _ _ => exact hmark _ hc
    | plus hc _ _ => exact hmark _ hc
    | minus hc _ _ => exact hmark _ hc
  | point hne hw _ =>
    rw [List.append_assoc, List.append_assoc, List.cons_append]
    exact integer?_append_eq_none (isInteger_of_allDigits hne hw) (by decide) _
  | fraction _ _ => exact integer?_cons_eq_none (by decide) _

/-- What is read as a numeral, where no integer is read, is a number of the grammar.  It is that
numeral if the end of a word follows, and else its digits alone may be an integer of 64 bits. -/
theorem derives_of_decimal? {s : List Char} {d : Decimal} {n : Nat}
    (h : decimal? s = some (d, n)) (hint : integer? s = none) :
    ∃ e : Expr, e.depth = 0 ∧ Derives (s.take n) e ∧ (Ends (s.drop n) → e = .float d.toFloat) := by
  by_cases hshort : IsShortInteger (s.take n)
  · refine ⟨_, rfl, Derives.integer hshort, fun hend => ?_⟩
    have hread := integer?_append hshort.1 hend.stops_isDigitOrMark hend.stops_continuesNumeral
    rw [List.take_append_drop, hint, if_pos hshort.2] at hread
    exact absurd hread (by simp)
  · exact ⟨_, rfl, Derives.float (numeral_of_decimal? h) hshort, fun _ => rfl⟩

/-- A numeral begins with a digit or a point. -/
theorem head_of_numeral {d : Decimal} (h : Numeral t d) :
    ∃ c r, t = c :: r ∧ (c.isDigit = true ∨ c = '.') := by
  have hdigit : ∀ {w : List Char}, w ≠ [] → AllDigits w → ∀ u : List Char,
      ∃ c r, w ++ u = c :: r ∧ (c.isDigit = true ∨ c = '.') := by
    intro w hne hw u
    cases w with
    | nil => exact absurd rfl hne
    | cons c r => exact ⟨c, r ++ u, rfl, Or.inl (hw c List.mem_cons_self)⟩
  obtain @⟨m, w, p, x, power, hm, hx⟩ := h
  cases hm with
  | whole hne hw => exact hdigit hne hw x
  | point hne hw _ =>
    rw [List.append_assoc]
    exact hdigit hne hw _
  | fraction _ _ => exact ⟨'.', p ++ x, rfl, Or.inr rfl⟩

end Lisp.Token
