/-
# String literals and their grammar

The reader decodes a literal escape by escape; the grammar says which texts between two quotes
denote which text.

* `Literal.simpleEscape?_eq_some_iff`, `Literal.hexNumber_iff` : the tables of the decoder are those
  of the grammar;
* `Literal.escape_append`, `Literal.escape_eq_ok` : one escape is read as the grammar says;
* `Literal.decodeFrom_append` : a text of the grammar is decoded to what it denotes;
* `Literal.items_of_decodeFrom` : what is decoded is a text of the grammar;
* `Literal.items_encode` : the literal of a text is a text of the grammar that denotes it;
* `Literal.visible_of_mem_encode` : it has no white space but the plain space.
-/
import Mathlib.Data.List.Induction
import Lisp.Literal
import Lisp.Proofs.Word

namespace Lisp

/-- The digits of a number are digits of the base. -/
theorem Text.exists_of_mem_toDigits {b n : Nat} {c : Char} (hb : 1 < b)
    (h : c ∈ Nat.toDigits b n) : ∃ k < b, c = Nat.digitChar k := by
  induction n using Nat.strongRecOn with
  | _ n ih =>
    rw [Nat.toDigits_eq_if hb] at h
    split at h
    · next hlt => exact ⟨n, hlt, List.mem_singleton.1 h⟩
    · next hge =>
      rcases List.mem_append.1 h with h | h
      · exact ih (n / b) (Nat.div_lt_self (by omega) hb) h
      · exact ⟨n % b, Nat.mod_lt n (by omega), List.mem_singleton.1 h⟩

namespace Literal

open Grammar Token

/-! ## Characters of escapes -/

/-- The single characters that are read as escapes are those of the grammar. -/
theorem simpleEscape?_eq_some_iff {c x : Char} : simpleEscape? c = some x ↔ (c, x) ∈ escapes := by
  constructor
  · intro h
    unfold simpleEscape? at h
    split at h <;> cases h <;> decide
  · intro h
    have hall : ∀ p ∈ escapes, simpleEscape? p.1 = some p.2 := by decide
    exact hall _ h

/-- White space is none of the characters that make an escape of their own. -/
theorem simpleEscape?_of_isBlank {c : Char} (h : Text.isBlank c = true) :
    simpleEscape? c = none := by
  have hall : ∀ p ∈ escapes, Text.isBlank p.1 = false := by decide
  refine Option.eq_none_iff_forall_ne_some.2 fun x hx => ?_
  have hnot := hall _ (simpleEscape?_eq_some_iff.1 hx)
  rw [h] at hnot
  exact absurd hnot (by simp)

/-- The character after the backslash of a code point is no simple escape. -/
theorem simpleEscape?_u : simpleEscape? 'u' = none := rfl

/-! ## Digits of code points -/

/-- A digit of base sixteen is a character of seven bits. -/
theorem toNat_lt_of_isHexDigit {d : Char} (h : isHexDigit d = true) : d.toNat < 128 := by
  simp [isHexDigit, Char.isDigit, Char.le_def, UInt32.le_iff_toNat_le] at h
  omega

/-- The digits that are read are those of the grammar, with their values. -/
theorem mem_hexDigits_iff {d : Char} {value : Nat} :
    (d, value) ∈ hexDigits ↔ isHexDigit d = true ∧ hexValue d = value := by
  constructor
  · intro h
    have hall : ∀ p ∈ hexDigits, isHexDigit p.1 = true ∧ hexValue p.1 = p.2 := by decide
    exact hall _ h
  · rintro ⟨h, rfl⟩
    have hall : ∀ n < 128, isHexDigit (Char.ofNat n) = true →
        (Char.ofNat n, hexValue (Char.ofNat n)) ∈ hexDigits := by decide
    have hd := hall d.toNat (toNat_lt_of_isHexDigit h)
    rw [Char.ofNat_toNat] at hd
    exact hd h

theorem hexNumber_concat (ds : List Char) (d : Char) :
    hexNumber (ds ++ [d]) = 16 * hexNumber ds + hexValue d := by
  rw [hexNumber, List.foldl_append]
  rfl

/-- Digits are read as the number that they denote in the grammar.  By the last digit. -/
theorem hexNumber_iff {ds : List Char} {n : Nat} :
    HexNumber ds n ↔ (∀ d ∈ ds, isHexDigit d = true) ∧ hexNumber ds = n := by
  constructor
  · intro h
    induction h with
    | nil => exact ⟨by simp, rfl⟩
    | @concat ds n d value _ hd ih =>
      obtain ⟨hds, rfl⟩ := ih
      obtain ⟨hdigit, rfl⟩ := mem_hexDigits_iff.1 hd
      refine ⟨fun x hx => ?_, hexNumber_concat ds d⟩
      rcases List.mem_append.1 hx with hx | hx
      · exact hds x hx
      · rwa [List.mem_singleton.1 hx]
  · rintro ⟨hds, rfl⟩
    induction ds using List.reverseRecOn with
    | nil => exact .nil
    | append_singleton ds d ih =>
      rw [hexNumber_concat]
      have hfront := ih fun x hx => hds x (List.mem_append_left _ hx)
      exact .concat hfront (mem_hexDigits_iff.2 ⟨hds d (by simp), rfl⟩)

/-! ## One escape -/

/-- One to six digits in braces are read as such. -/
theorem codePointDigits?_braced {ds : List Char} (hpos : 1 ≤ ds.length) (hle : ds.length ≤ 6)
    (hds : ∀ d ∈ ds, isHexDigit d = true) (q : List Char) :
    codePointDigits? ('\x7b' :: (ds ++ '\x7d' :: q)) = some (ds, ds.length + 2) := by
  have hstop : Stops isHexDigit ('\x7d' :: q) := stops_cons (by decide)
  have hrun := takeWhile_append hds hstop
  have hdrop : (ds ++ '\x7d' :: q).drop ds.length = '\x7d' :: q := List.drop_left' rfl
  simp only [codePointDigits?, hrun, hdrop, List.head?_cons, and_true]
  rw [if_pos ⟨hpos, hle⟩]

/-- Four digits without braces are read as such. -/
theorem codePointDigits?_fixed {ds : List Char} (hlen : ds.length = 4)
    (hds : ∀ d ∈ ds, isHexDigit d = true) (q : List Char) :
    codePointDigits? (ds ++ q) = some (ds, 4) := by
  have htake : (ds ++ q).take 4 = ds := List.take_left' hlen
  unfold codePointDigits?
  split
  · next rest heq =>
    -- A brace is no digit.
    cases ds with
    | nil => simp at hlen
    | cons d r =>
      obtain ⟨rfl, -⟩ := List.cons.inj heq
      exact absurd (hds _ List.mem_cons_self) (by decide)
  · simp only [htake]
    rw [if_pos ⟨hlen, List.all_eq_true.2 hds⟩]

/-- The digits of a code point that are read stand in braces or are exactly four. -/
theorem codePointDigits?_eq_some {s ds : List Char} {n : Nat}
    (h : codePointDigits? s = some (ds, n)) :
    (∀ d ∈ ds, isHexDigit d = true) ∧
      (s.take n = '\x7b' :: (ds ++ ['\x7d']) ∧ n = ds.length + 2 ∧ 1 ≤ ds.length ∧ ds.length ≤ 6 ∨
        s.take n = ds ∧ n = 4 ∧ ds.length = 4) := by
  unfold codePointDigits? at h
  split at h
  · next rest =>
    simp only at h
    split at h
    · next hcond =>
      obtain ⟨rfl, rfl⟩ := Prod.mk.inj (Option.some.inj h)
      obtain ⟨hpos, hle, hbrace⟩ := hcond
      refine ⟨forall_mem_takeWhile isHexDigit rest, Or.inl ⟨?_, rfl, hpos, hle⟩⟩
      obtain ⟨u, hu⟩ := List.head?_eq_some_iff.1 hbrace
      rw [List.take_succ_cons, List.take_add, take_length_takeWhile, hu]
      rfl
    · simp at h
  · simp only at h
    split at h
    · next hcond =>
      obtain ⟨rfl, rfl⟩ := Prod.mk.inj (Option.some.inj h)
      exact ⟨List.all_eq_true.1 hcond.2, Or.inr ⟨rfl, rfl, hcond.1⟩⟩
    · simp at h

/-- Behind its backslash every escape has a character. -/
theorem eq_cons_of_escape {x v rest : List Char} (h : Escape x v rest) :
    ∃ c t, x = '\\' :: c :: t := by
  cases h with
  | simple | braced | fixed => exact ⟨_, _, rfl⟩
  | blank hne =>
    obtain ⟨c, t, rfl⟩ := List.exists_cons_of_ne_nil hne
    exact ⟨c, t, rfl⟩

/-- **Completeness for one escape.** An escape of the grammar is read as what it denotes. -/
theorem escape_append {c : Char} {t v rest : List Char} (h : Escape ('\\' :: c :: t) v rest)
    (pos : Nat) : escape pos c (t ++ rest) = .ok (v, t.length) := by
  cases h with
  | simple hx => simp only [escape, simpleEscape?_eq_some_iff.2 hx, List.length_nil]
  | @braced ds _ _ hpos hle hnum hvalid =>
    obtain ⟨hds, rfl⟩ := hexNumber_iff.1 hnum
    have hdigits : codePointDigits? ('\x7b' :: (ds ++ ['\x7d']) ++ rest) =
        some (ds, ds.length + 2) := by
      rw [List.cons_append, List.append_assoc]
      exact codePointDigits?_braced hpos hle hds rest
    simp only [escape, simpleEscape?_u, if_true, hdigits, if_pos hvalid]
    simp
  | fixed hlen hnum hvalid =>
    obtain ⟨hds, rfl⟩ := hexNumber_iff.1 hnum
    simp only [escape, simpleEscape?_u, if_true, codePointDigits?_fixed hlen hds, if_pos hvalid,
      hlen]
  | blank _ hws hstop =>
    rw [Text.isBlankText_cons, Bool.and_eq_true] at hws
    have hrun : (t ++ rest).takeWhile Text.isBlank = t :=
      takeWhile_append (List.all_eq_true.1 hws.2) hstop
    have hu : c ≠ 'u' := by
      rintro rfl
      exact absurd hws.1 (by decide)
    simp only [escape, simpleEscape?_of_isBlank hws.1, if_neg hu, hws.1, if_true, hrun]

/-- **Soundness for one escape.** An escape that is read is one of the grammar, in front of the rest
of the source. -/
theorem escape_eq_ok {pos n : Nat} {c : Char} {more v : List Char}
    (h : escape pos c more = .ok (v, n)) :
    n ≤ more.length ∧ Escape ('\\' :: c :: more.take n) v (more.drop n) := by
  unfold escape at h
  split at h
  · next x hx =>
    obtain ⟨rfl, rfl⟩ := Prod.mk.inj (Except.ok.inj h)
    exact ⟨Nat.zero_le _, .simple (simpleEscape?_eq_some_iff.1 hx)⟩
  split at h
  · next hu =>
    subst hu
    split at h
    · simp at h
    · next ds used hds =>
      split at h
      · next hvalid =>
        obtain ⟨rfl, rfl⟩ := Prod.mk.inj (Except.ok.inj h)
        obtain ⟨hhex, ⟨htake, hused, hpos, hle⟩ | ⟨htake, hused, hlen⟩⟩ :=
          codePointDigits?_eq_some hds
        all_goals have hnum : HexNumber ds (hexNumber ds) := hexNumber_iff.2 ⟨hhex, rfl⟩
        · have hlength := congrArg List.length htake
          simp only [List.length_take, List.length_cons, List.length_append] at hlength
          rw [htake]
          exact ⟨by simp at hlength; omega, .braced hpos hle hnum hvalid⟩
        · have hlength := congrArg List.length htake
          rw [List.length_take] at hlength
          rw [htake]
          exact ⟨by omega, .fixed hlen hnum hvalid⟩
      · simp at h
  · split at h
    · next hblank =>
      obtain ⟨rfl, rfl⟩ := Prod.mk.inj (Except.ok.inj h)
      rw [take_length_takeWhile, drop_length_takeWhile]
      refine ⟨(List.takeWhile_sublist _).length_le, .blank (by simp) ?_ (stops_dropWhile _ _)⟩
      simp [hblank, Text.isBlankText]
    · simp at h

/-- An escape in front of a text is one in front of the beginning of that text. -/
theorem escape_of_append {x v t rest : List Char} (h : Escape x v (t ++ rest)) : Escape x v t := by
  cases h with
  | simple hx => exact .simple hx
  | braced hpos hle hnum hvalid => exact .braced hpos hle hnum hvalid
  | fixed hlen hnum hvalid => exact .fixed hlen hnum hvalid
  | blank hne hws hstop =>
    refine .blank hne hws fun c hc => hstop c ?_
    rw [List.head?_append, hc]
    rfl

/-- An escape at the end of a text may be followed by a quote. -/
theorem escape_append_quote {x v t : List Char} (h : Escape x v t) (q : List Char) :
    Escape x v (t ++ '"' :: q) := by
  cases h with
  | simple hx => exact .simple hx
  | braced hpos hle hnum hvalid => exact .braced hpos hle hnum hvalid
  | fixed hlen hnum hvalid => exact .fixed hlen hnum hvalid
  | blank hne hws hstop =>
    refine .blank hne hws fun c hc => ?_
    cases t with
    | nil =>
      obtain rfl : '"' = c := by simpa using hc
      decide
    | cons y u => exact hstop c hc

/-! ## Plain characters -/

theorem isPlain_iff {c : Char} : isPlain c = true ↔ c ≠ '"' ∧ c ≠ '\\' := by simp [isPlain]

/-- Plain characters in front of a text of the grammar denote themselves. -/
theorem items_append {run t v : List Char} (hrun : ∀ c ∈ run, isPlain c = true)
    (ht : Items t v) : Items (run ++ t) (run ++ v) := by
  induction run with
  | nil => exact ht
  | cons c run ih =>
    obtain ⟨hq, hb⟩ := isPlain_iff.1 (hrun c List.mem_cons_self)
    exact .plain hq hb (ih fun x hx => hrun x (List.mem_cons_of_mem c hx))

/-- The plain characters that a text begins with denote themselves. -/
theorem items_plainRun (s : List Char) {t v : List Char} (ht : Items t v) :
    Items (plainRun s ++ t) (plainRun s ++ v) :=
  items_append (forall_mem_takeWhile isPlain s) ht

theorem plainRun_append_drop (s : List Char) : plainRun s ++ s.drop (plainRun s).length = s := by
  rw [plainRun, drop_length_takeWhile, List.takeWhile_append_dropWhile]

/-! ## Decoding -/

theorem decodeFrom_quote (start pos : Nat) (q : List Char) :
    decodeFrom start pos ('"' :: q) = .ok ([], ⟨pos + 1, q⟩) := by
  rw [decodeFrom.eq_def]
  rfl

/-- The plain characters that a text begins with, if any, are decoded to themselves. -/
theorem decodeFrom_plainRun (start pos : Nat) (s : List Char) :
    decodeFrom start pos s =
      (decodeFrom start (pos + (plainRun s).length) (s.drop (plainRun s).length)).map
        fun (v, d) => (plainRun s ++ v, d) := by
  have hnone : plainRun s = [] → decodeFrom start pos s =
      (decodeFrom start (pos + (plainRun s).length) (s.drop (plainRun s).length)).map
        fun (v, d) => (plainRun s ++ v, d) := by
    intro h
    rw [h]
    show _ = (decodeFrom start pos s).map id
    rw [Except.map_id, id]
  cases s with
  | nil => exact hnone rfl
  | cons c rest =>
    by_cases hc : isPlain c = true
    · obtain ⟨hq, hb⟩ := isPlain_iff.1 hc
      rw [decodeFrom.eq_def]
      simp only [if_neg hq, if_pos hb]
    · exact hnone (List.takeWhile_cons_of_neg hc)

/-- The characters of a run of plain characters may be taken one at a time. -/
theorem decodeFrom_plain {c : Char} (hq : c ≠ '"') (hb : c ≠ '\\') (start pos : Nat)
    (s : List Char) :
    decodeFrom start pos (c :: s) =
      (decodeFrom start (pos + 1) s).map fun (v, d) => (c :: v, d) := by
  have hrun : plainRun (c :: s) = c :: plainRun s :=
    List.takeWhile_cons_of_pos (isPlain_iff.2 ⟨hq, hb⟩)
  rw [decodeFrom_plainRun, decodeFrom_plainRun start (pos + 1) s, hrun, List.length_cons,
    List.drop_succ_cons, Nat.add_right_comm pos 1, Nat.add_assoc pos _ 1]
  cases decodeFrom start (pos + ((plainRun s).length + 1)) (s.drop (plainRun s).length) <;> rfl

/-- Decoding goes on behind an escape. -/
theorem decodeFrom_escape {x u rest : List Char} (h : Escape x u rest) (start pos : Nat) :
    decodeFrom start pos (x ++ rest) =
      (decodeFrom start (pos + x.length) rest).map fun (v, d) => (u ++ v, d) := by
  obtain ⟨c, t, rfl⟩ := eq_cons_of_escape h
  have hb : '\\' ≠ '"' := by decide
  have hlength : pos + ('\\' :: c :: t).length = pos + 2 + t.length := by
    rw [List.length_cons, List.length_cons]
    omega
  rw [hlength, List.cons_append, List.cons_append, decodeFrom.eq_def]
  simp only [if_neg hb, ne_eq, not_true_eq_false, if_false, escape_append h, List.drop_left]

/-- **Completeness.** A text of the grammar with a quote behind it is decoded to what it denotes,
and decoding stops behind the quote. -/
theorem decodeFrom_append {t v : List Char} (h : Items t v) (start pos : Nat) (q : List Char) :
    decodeFrom start pos (t ++ '"' :: q) = .ok (v, ⟨pos + t.length + 1, q⟩) := by
  induction h generalizing pos with
  | nil => exact decodeFrom_quote start pos q
  | @plain c t v hq hb _ ih =>
    rw [List.cons_append, decodeFrom_plain hq hb, ih, List.length_cons, Nat.add_right_comm pos 1]
    rfl
  | @escape x u t v hx _ ih =>
    rw [List.append_assoc, decodeFrom_escape (escape_append_quote hx q), ih, List.length_append,
      ← Nat.add_assoc]
    rfl

/-- **Soundness.** What is decoded is a text of the grammar up to the quote behind which decoding
stops. -/
theorem items_of_decodeFrom {start pos : Nat} {s v : List Char} {c : Cursor}
    (h : decodeFrom start pos s = .ok (v, c)) :
    ∃ t, Items t v ∧ s = t ++ '"' :: c.rest ∧ c.pos = pos + t.length + 1 := by
  fun_induction decodeFrom start pos s generalizing v c with
  | case1 => simp at h
  | case2 pos rest =>
    obtain ⟨rfl, rfl⟩ := Prod.mk.inj (Except.ok.inj h)
    exact ⟨[], Items.nil, rfl, rfl⟩
  | case3 pos x rest hq hb ih =>
    obtain ⟨⟨u, d⟩, hd, heq⟩ := exists_of_map_eq_ok h
    obtain ⟨rfl, rfl⟩ := Prod.mk.inj heq
    obtain ⟨t, ht, hrest, hpos⟩ := ih hd
    refine ⟨plainRun (x :: rest) ++ t, items_plainRun (x :: rest) ht, ?_, ?_⟩
    · rw [List.append_assoc, ← hrest, plainRun_append_drop]
    · rw [hpos, List.length_append]
      omega
  | case4 => simp at h
  | case5 => simp at h
  | case6 pos b _ hb x more value used hesc ih =>
    obtain rfl := Decidable.of_not_not hb
    obtain ⟨⟨u, d⟩, hd, heq⟩ := exists_of_map_eq_ok h
    obtain ⟨rfl, rfl⟩ := Prod.mk.inj heq
    obtain ⟨t, ht, hrest, hpos⟩ := ih hd
    obtain ⟨hused, hescape⟩ := escape_eq_ok hesc
    rw [hrest] at hescape
    refine ⟨'\\' :: x :: (more.take used ++ t), .escape (escape_of_append hescape) ht, ?_, ?_⟩
    · rw [List.cons_append, List.cons_append, List.append_assoc, ← hrest, List.take_append_drop]
    · rw [hpos, List.length_cons, List.length_cons, List.length_append,
        List.length_take_of_le hused]
      omega

theorem escape_ne_tooDeep (pos : Nat) (c : Char) (more : List Char) :
    escape pos c more ≠ .error .tooDeep := by
  unfold escape
  split
  · simp
  split
  · split
    · simp
    · split <;> simp
  · split <;> simp

/-- A string literal is refused for its text alone, never for the room that is left for lists. -/
theorem decodeFrom_ne_tooDeep (start pos : Nat) (s : List Char) :
    decodeFrom start pos s ≠ .error .tooDeep := by
  fun_induction decodeFrom start pos s with
  | case1 => simp
  | case2 => simp
  | case3 => next ih => exact fun h => ih (eq_error_of_map_eq_error h)
  | case4 => simp
  | case5 pos _ _ _ c more fault hescape =>
    have hfault : fault ≠ .tooDeep := by
      rintro rfl
      exact escape_ne_tooDeep _ _ _ hescape
    simpa using hfault
  | case6 => next ih => exact fun h => ih (eq_error_of_map_eq_error h)

/-! ## Encoding -/

/-- The digits of a number in upper case denote it. -/
theorem hexNumber_toDigits (n : Nat) :
    hexNumber ((Nat.toDigits 16 n).map Char.toUpper) = n := by
  induction n using Nat.strongRecOn with
  | _ n ih =>
    have hdigit : ∀ k, k < 16 → hexValue (Nat.digitChar k).toUpper = k := by decide
    rw [Nat.toDigits_eq_if (by decide)]
    split
    · next hlt =>
      show 16 * 0 + hexValue (Nat.digitChar n).toUpper = n
      rw [hdigit n hlt]
      omega
    · next hge =>
      rw [List.map_append, List.map_singleton, hexNumber_concat, ih (n / 16) (by omega),
        hdigit (n % 16) (by omega)]
      omega

theorem isHexDigit_of_mem_toDigits (n : Nat) :
    ∀ d ∈ (Nat.toDigits 16 n).map Char.toUpper, isHexDigit d = true := by
  have hdigit : ∀ k < 16, isHexDigit (Nat.digitChar k).toUpper = true := by decide
  intro d hd
  obtain ⟨x, hx, rfl⟩ := List.mem_map.1 hd
  obtain ⟨k, hk, rfl⟩ := Text.exists_of_mem_toDigits (by decide) hx
  exact hdigit k hk

/-- No code point needs more than six digits. -/
theorem length_toDigits_toNat_le (c : Char) : (Nat.toDigits 16 c.toNat).length ≤ 6 := by
  rw [Nat.length_toDigits_le_iff (by decide) (by decide)]
  have hmax : c.toNat < 1114112 := by
    rcases c.valid with h | h
    · exact Nat.lt_trans h (by decide)
    · exact h.2
  exact Nat.lt_trans hmax (by decide)

/-- The escape of a character by its code point denotes it. -/
theorem escape_codePointEscape (c : Char) (rest : List Char) :
    Escape (codePointEscape c) [c] rest := by
  have hlength : ((Nat.toDigits 16 c.toNat).map Char.toUpper).length =
      (Nat.toDigits 16 c.toNat).length := List.length_map _
  have hnum : HexNumber ((Nat.toDigits 16 c.toNat).map Char.toUpper) c.toNat :=
    hexNumber_iff.2 ⟨isHexDigit_of_mem_toDigits c.toNat, hexNumber_toDigits c.toNat⟩
  have h := @Escape.braced _ rest _ (hlength ▸ Nat.length_toDigits_pos)
    (hlength ▸ length_toDigits_toNat_le c) hnum c.valid
  rwa [Char.ofNat_toNat] at h

/-- An encoded character denotes the character. -/
theorem items_encodeChar {t v : List Char} (c : Char) (ht : Items t v) :
    Items (encodeChar c ++ t) (c :: v) := by
  have hsimple : ∀ {d : Char}, (d, c) ∈ escapes → Items (['\\', d] ++ t) (c :: v) :=
    fun hd => .escape (.simple hd) ht
  unfold encodeChar
  iterate 7
    split
    · next h => subst h; exact hsimple (by decide)
  split
  · exact .escape (escape_codePointEscape c t) ht
  · next hb hq _ _ _ _ _ _ => exact .plain hq hb ht

/-- **The literal of a text denotes it.** -/
theorem items_encode (s : List Char) : Items (s.flatMap encodeChar) s := by
  induction s with
  | nil => exact Items.nil
  | cons c s ih =>
    rw [List.flatMap_cons]
    exact items_encodeChar c ih

/-- A character that can be seen in a literal: no white space but the plain space, and no control
character. -/
def Visible (c : Char) : Prop := (Text.isBlank c = true → c = ' ') ∧ 0x20 ≤ c.toNat

instance : DecidablePred Visible := fun _ => inferInstanceAs (Decidable (_ ∧ _))

/-- An escape by code point consists of digits and of marks that can be seen. -/
theorem visible_of_mem_codePointEscape {c x : Char} (h : x ∈ codePointEscape c) : Visible x := by
  have hdigit : ∀ k < 16, Visible (Nat.digitChar k).toUpper := by decide
  simp only [codePointEscape, List.mem_cons, List.mem_append, List.not_mem_nil, or_false] at h
  rcases h with rfl | rfl | rfl | hx | rfl
  · decide
  · decide
  · decide
  · obtain ⟨d, hd, rfl⟩ := List.mem_map.1 hx
    obtain ⟨k, hk, rfl⟩ := Text.exists_of_mem_toDigits (by decide) hd
    exact hdigit k hk
  · decide

/-- A character that cannot be seen is encoded by some that can. -/
theorem visible_of_mem_encodeChar {c x : Char} (h : x ∈ encodeChar c) : Visible x := by
  have hsimple : ∀ {d : Char}, Visible d → x ∈ ['\\', d] → Visible x := by
    intro d hd hx
    rw [List.mem_cons, List.mem_singleton] at hx
    rcases hx with rfl | rfl
    · decide
    · exact hd
  unfold encodeChar at h
  iterate 7
    split at h
    · exact hsimple (by decide) h
  split at h
  · exact visible_of_mem_codePointEscape h
  · next hcode =>
    -- What stands for itself is no control character, and white space only if it is the space.
    obtain rfl := List.mem_singleton.1 h
    rw [not_or, Nat.not_lt] at hcode
    exact ⟨fun hblank => Decidable.byContradiction fun hne => hcode.2 ⟨hblank, hne⟩, hcode.1⟩

/-- All of a literal can be seen. -/
theorem visible_of_mem_encode {s : List Char} {x : Char} (h : x ∈ encode s) : Visible x := by
  have hquote : Visible '"' := by decide
  rw [encode, List.mem_cons, List.mem_append, List.mem_singleton] at h
  rcases h with rfl | h | rfl
  · exact hquote
  · obtain ⟨c, -, hc⟩ := List.mem_flatMap.1 h
    exact visible_of_mem_encodeChar hc
  · exact hquote

end Literal

end Lisp
