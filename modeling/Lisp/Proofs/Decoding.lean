/-
# String literals in a source

A string literal is decoded where it stands in a source, whatever comes before it and behind it.
Either the source has a literal of the grammar there, and the text and the end of it are found; or
the source ends before the literal does; or there is a backslash that begins no escape, and the
fault is reported at the first one.

* `Literal.decode_of_items`, `Literal.items_of_decode` : decoding finds the literals of the grammar;
* `Literal.decode_encode` : the literal of a text is decoded to that text at every place;
* `Literal.FaultAt`, `Literal.escape_eq_error` : the faults of an escape, at its backslash;
* `Literal.decodeFrom_eq_error` : what comes before the first fault of a literal;
* `Literal.decode_exact` : the literals that are decoded, and the fault of all others.
-/
import Lisp.Proofs.Literal

namespace Lisp.Literal

open Grammar

variable {source t v q : List Char} {pos : Nat}

/-! ## Places of a source -/

/-- A part of a source lies between two places if the source from the first one on is that part and
what comes from the second one on. -/
theorem extract_eq_iff {fin : Nat} (ht : t ≠ []) :
    fin ≤ source.length ∧ source.extract pos fin = t ↔
      fin = pos + t.length ∧ source.drop pos = t ++ source.drop fin := by
  have hpos := List.length_pos_iff.2 ht
  rw [List.extract_eq_take_drop]
  constructor
  · rintro ⟨hfin, heq⟩
    have hlength := congrArg List.length heq
    rw [List.length_take, List.length_drop] at hlength
    refine ⟨by omega, ?_⟩
    rw [← heq, show fin = pos + (fin - pos) by omega, ← List.drop_drop, Nat.add_sub_cancel_left,
      List.take_append_drop]
  · rintro ⟨rfl, heq⟩
    have hlength := congrArg List.length heq
    rw [List.length_append, List.length_drop, List.length_drop] at hlength
    refine ⟨by omega, ?_⟩
    rw [heq, Nat.add_sub_cancel_left, List.take_left]

/-- What is left of a source behind a part of it. -/
theorem drop_of_drop_eq (h : source.drop pos = t ++ q) : source.drop (pos + t.length) = q := by
  rw [← List.drop_drop, h, List.drop_left]

/-! ## Literals of the grammar -/

/-- Decoding begins behind the opening quote. -/
theorem decode_quote (h : source.drop pos = '"' :: q) :
    decode (Cursor.ofSource source pos) = decodeFrom pos (pos + 1) q := by
  simp only [decode, Cursor.ofSource, h]

/-- A literal of the grammar is decoded at every place of a source, up to its closing quote. -/
theorem decode_of_items (ht : Items t v) (h : source.drop pos = '"' :: (t ++ '"' :: q)) :
    decode (Cursor.ofSource source pos) =
      .ok (v, Cursor.ofSource source (pos + (t.length + 2))) := by
  have hrest : source.drop (pos + (t.length + 2)) = q := by
    have hsplit : source.drop pos = ('"' :: (t ++ ['"'])) ++ q := by rw [h]; simp
    have hdrop := drop_of_drop_eq hsplit
    rwa [List.length_cons, List.length_append, List.length_singleton] at hdrop
  rw [decode_quote h, decodeFrom_append ht, Cursor.ofSource, hrest,
    show pos + 1 + t.length + 1 = pos + (t.length + 2) by omega]

/-- What is decoded is a literal of the grammar, up to the place behind it. -/
theorem items_of_decode {c : Cursor} (h : source.drop pos = '"' :: q)
    (hdecode : decode (Cursor.ofSource source pos) = .ok (v, c)) :
    ∃ t, Items t v ∧ source.drop pos = '"' :: (t ++ '"' :: c.rest) ∧
      c = Cursor.ofSource source (pos + (t.length + 2)) := by
  rw [decode_quote h] at hdecode
  obtain ⟨t, ht, hq, -⟩ := items_of_decodeFrom hdecode
  have hdrop : source.drop pos = '"' :: (t ++ '"' :: c.rest) := by rw [h, hq]
  have hagain := decode_of_items ht hdrop
  rw [decode_quote h, hdecode] at hagain
  exact ⟨t, ht, hdrop, (Prod.mk.inj (Except.ok.inj hagain)).2⟩

/-- **Decoding undoes encoding.** At every place of a source the literal of a text is decoded to the
text, up to exactly its end.  In the literal there is no white space but the plain space, and no
control character. -/
theorem decode_encode (v p q : List Char) :
    let source := p ++ encode v ++ q
    decode (Cursor.ofSource source p.length) =
        .ok (v, Cursor.ofSource source (p.length + (encode v).length)) ∧
      ∀ c ∈ encode v, (Text.isBlank c = true → c = ' ') ∧ 0x20 ≤ c.toNat := by
  intro source
  have hdrop : source.drop p.length = '"' :: (v.flatMap encodeChar ++ '"' :: q) := by
    have hleft : source.drop p.length = encode v ++ q := by
      rw [show source = p ++ (encode v ++ q) from List.append_assoc p (encode v) q, List.drop_left]
    rw [hleft, encode, List.cons_append, List.append_assoc]
    rfl
  have hlength : (encode v).length = (v.flatMap encodeChar).length + 2 := by
    rw [encode, List.length_cons, List.length_append, List.length_singleton]
  refine ⟨?_, fun c hc => visible_of_mem_encode hc⟩
  rw [hlength]
  exact decode_of_items (items_encode v) hdrop

/-! ## Faults -/

/-- The faults of an escape, reported at the place of its backslash: the character behind it makes
no escape, the digits are not those of a code point, or they denote none. -/
inductive FaultAt (b : Nat) : Fault → Prop
  | unknown (c : Char) : FaultAt b (.unknownEscape b c)
  | malformed : FaultAt b (.malformedCodePoint b)
  | invalid (digits : List Char) : FaultAt b (.invalidCodePoint b digits)

/-- An escape that is refused is none of the grammar. -/
theorem escape_eq_error {b : Nat} {c : Char} {more : List Char} {fault : Fault}
    (h : escape b c more = .error fault) :
    FaultAt b fault ∧ ¬ BeginsEscape ('\\' :: c :: more) := by
  constructor
  · unfold escape at h
    split at h
    · simp at h
    split at h
    · split at h
      · obtain rfl := Except.error.inj h
        exact .malformed
      · split at h
        · simp at h
        · obtain rfl := Except.error.inj h
          exact .invalid _
    · split at h
      · simp at h
      · obtain rfl := Except.error.inj h
        exact .unknown c
  · rintro ⟨x, u, rest, hx, hescape⟩
    -- An escape of the grammar at this place would have been read.
    obtain ⟨d, t, rfl⟩ := eq_cons_of_escape hescape
    obtain ⟨rfl, rfl⟩ : c = d ∧ more = t ++ rest := by simpa using hx
    rw [escape_append hescape] at h
    exact absurd h nofun

/-- **The first fault.** Before a fault there is a text of the grammar.  Behind it the source ends,
but for a single backslash at most, or there is a backslash that begins no escape, at which the
fault is reported.  By the recursion of decoding. -/
theorem decodeFrom_eq_error {start pos : Nat} {s : List Char} {fault : Fault}
    (h : decodeFrom start pos s = .error fault) :
    ∃ t v rest, Items t v ∧ s = t ++ rest ∧
      (fault = .unterminated start ∧ (rest = [] ∨ rest = ['\\']) ∨
        FaultAt (pos + t.length) fault ∧ (∃ c more, rest = '\\' :: c :: more) ∧
          ¬ BeginsEscape rest) := by
  fun_induction decodeFrom start pos s with
  | case1 =>
    obtain rfl := Except.error.inj h
    exact ⟨[], [], [], .nil, rfl, .inl ⟨rfl, .inl rfl⟩⟩
  | case2 => simp at h
  | case3 pos c s hq hb ih =>
    obtain ⟨t, v, rest, ht, hs, hfault⟩ := ih (eq_error_of_map_eq_error h)
    refine ⟨plainRun (c :: s) ++ t, plainRun (c :: s) ++ v, rest, items_plainRun (c :: s) ht, ?_,
      ?_⟩
    · rw [List.append_assoc, ← hs, plainRun_append_drop]
    · rw [List.length_append, ← Nat.add_assoc]
      exact hfault
  | case4 pos b _ hb =>
    obtain rfl := Decidable.of_not_not hb
    obtain rfl := Except.error.inj h
    exact ⟨[], [], _, .nil, rfl, .inl ⟨rfl, .inr rfl⟩⟩
  | case5 pos b _ hb c more fault hescape =>
    obtain rfl := Decidable.of_not_not hb
    obtain rfl := Except.error.inj h
    obtain ⟨hat, hnone⟩ := escape_eq_error hescape
    exact ⟨[], [], _, .nil, rfl, .inr ⟨hat, ⟨c, more, rfl⟩, hnone⟩⟩
  | case6 pos b _ hb c more value used hok ih =>
    obtain rfl := Decidable.of_not_not hb
    obtain ⟨t, v, rest, ht, hmore, hfault⟩ := ih (eq_error_of_map_eq_error h)
    obtain ⟨hused, hescape⟩ := escape_eq_ok hok
    rw [hmore] at hescape
    have hlength : pos + ('\\' :: c :: (more.take used ++ t)).length =
        pos + 2 + used + t.length := by
      rw [List.length_cons, List.length_cons, List.length_append, List.length_take_of_le hused]
      omega
    refine ⟨'\\' :: c :: (more.take used ++ t), value ++ v, rest,
      .escape (escape_of_append hescape) ht, ?_, ?_⟩
    · rw [List.cons_append, List.cons_append, List.append_assoc, ← hmore, List.take_append_drop]
    · rw [hlength]
      exact hfault

/-! ## Acceptance -/

/-- A text of the grammar with quotes around it is a source of its own. -/
theorem decode_start (ht : Items t v) :
    decode (Cursor.start ('"' :: (t ++ ['"']))) = .ok (v, ⟨t.length + 2, []⟩) := by
  have h : decode (Cursor.ofSource ('"' :: (t ++ ['"'])) 0) = _ := decode_of_items ht rfl
  have hend : ('"' :: (t ++ ['"'])).drop (0 + (t.length + 2)) = [] := by simp
  rw [Cursor.ofSource, Cursor.ofSource, hend, Nat.zero_add] at h
  exact h

theorem exists_drop_eq (h : source[pos]? = some '"') : ∃ q, source.drop pos = '"' :: q := by
  obtain ⟨hlt, hget⟩ := List.getElem?_eq_some_iff.1 h
  exact ⟨source.drop (pos + 1), by rw [List.drop_eq_getElem_cons hlt, hget]⟩

/-- At a quote, decoding gives the literals of the grammar. -/
theorem decode_eq_ok_iff (hq : source.drop pos = '"' :: q) (v : List Char) (c : Cursor) :
    decode (Cursor.ofSource source pos) = .ok (v, c) ↔
      ∃ fin t, fin ≤ source.length ∧ source.extract pos fin = '"' :: (t ++ ['"']) ∧ Items t v ∧
        c = Cursor.ofSource source fin := by
  constructor
  · intro hdecode
    obtain ⟨t, ht, hdrop, rfl⟩ := items_of_decode hq hdecode
    have hsplit : source.drop pos =
        '"' :: (t ++ ['"']) ++ source.drop (pos + (t.length + 2)) := by
      rw [hdrop]
      simp [Cursor.ofSource]
    obtain ⟨hle, hextract⟩ := (extract_eq_iff (by simp)).2 ⟨by simp, hsplit⟩
    exact ⟨pos + (t.length + 2), t, hle, hextract, ht, rfl⟩
  · rintro ⟨fin, t, hle, hextract, ht, rfl⟩
    obtain ⟨hfin, hdrop⟩ := (extract_eq_iff (by simp)).1 ⟨hle, hextract⟩
    rw [List.length_cons, List.length_append, List.length_singleton] at hfin
    rw [hfin]
    exact decode_of_items ht (by simpa using hdrop)

/-- At a quote, decoding fails where the source ends in the literal, or at the first backslash that
begins no escape. -/
theorem decode_eq_error (hq : source.drop pos = '"' :: q) {fault : Fault}
    (hdecode : decode (Cursor.ofSource source pos) = .error fault) :
    (fault = .unterminated pos ∧ ∃ t v, Items t v ∧
      (source.drop pos = '"' :: t ∨ source.drop pos = '"' :: (t ++ ['\\']))) ∨
    ∃ b t v, FaultAt b fault ∧ source.extract pos b = '"' :: t ∧ Items t v ∧
      source[b]? = some '\\' ∧ b + 1 < source.length ∧ ¬ BeginsEscape (source.drop b) ∧
      decode (Cursor.start (source.extract pos b ++ ['"'])) = .ok (v, ⟨b - pos + 1, []⟩) := by
  rw [decode_quote hq] at hdecode
  obtain ⟨t, v, rest, ht, rfl, hfault⟩ := decodeFrom_eq_error hdecode
  rcases hfault with ⟨rfl, hrest⟩ | ⟨hat, ⟨c, more, rfl⟩, hnone⟩
  · refine .inl ⟨rfl, t, v, ht, hrest.imp ?_ ?_⟩
    · rintro rfl
      rw [hq, List.append_nil]
    · rintro rfl
      exact hq
  · -- The place of the backslash, as the end of the quote and of the text before it.
    have hplace : pos + 1 + t.length = pos + ('"' :: t).length := by
      rw [List.length_cons]
      omega
    have hb : source.drop (pos + 1 + t.length) = '\\' :: c :: more := by
      rw [hplace]
      exact drop_of_drop_eq hq
    have hsplit : source.drop pos = '"' :: t ++ source.drop (pos + 1 + t.length) := by
      rw [hq, hb, List.cons_append]
    obtain ⟨-, hextract⟩ := (extract_eq_iff (by simp)).2 ⟨hplace, hsplit⟩
    have hlength := congrArg List.length hb
    rw [List.length_drop, List.length_cons, List.length_cons] at hlength
    refine .inr ⟨pos + 1 + t.length, t, v, hat, hextract, ht, ?_, by omega, hb ▸ hnone, ?_⟩
    · rw [← List.head?_drop, hb]
      rfl
    · rw [hextract, show pos + 1 + t.length - pos + 1 = t.length + 2 by omega]
      exact decode_start ht

/-- **Decoding is exact.** At a quote, decoding gives a text and a place exactly if the source has a
literal of the grammar up to there that denotes the text.  Otherwise it fails at the quote, where
the source ends in the literal, with a single backslash left at most; or it fails at the first
backslash that begins no escape, and with a quote in place of that backslash there would be a
literal. -/
theorem decode_exact (h : source[pos]? = some '"') :
    (∀ v c, decode (Cursor.ofSource source pos) = .ok (v, c) ↔
      ∃ fin t, fin ≤ source.length ∧ source.extract pos fin = '"' :: (t ++ ['"']) ∧ Items t v ∧
        c = Cursor.ofSource source fin) ∧
    ∀ fault, decode (Cursor.ofSource source pos) = .error fault →
      (fault = .unterminated pos ∧ ∃ t v, Items t v ∧
        (source.drop pos = '"' :: t ∨ source.drop pos = '"' :: (t ++ ['\\']))) ∨
      ∃ b t v, FaultAt b fault ∧ source.extract pos b = '"' :: t ∧ Items t v ∧
        source[b]? = some '\\' ∧ b + 1 < source.length ∧ ¬ BeginsEscape (source.drop b) ∧
        decode (Cursor.start (source.extract pos b ++ ['"'])) = .ok (v, ⟨b - pos + 1, []⟩) := by
  obtain ⟨q, hq⟩ := exists_drop_eq h
  exact ⟨decode_eq_ok_iff hq, fun _ => decode_eq_error hq⟩

/-- A literal with white space that is left out and with a code point, and one with an unknown
escape in it, each behind another character. -/
theorem decode_exact_samples :
    let good := ['x', '"', 'a', '\\', ' ', '\n', '\\', 'u', '\x7b', '4', '1', '\x7d', '"', 'y']
    let bad := ['x', '"', 'a', '\\', 'q', '"']
    good[1]? = some '"' ∧ bad[1]? = some '"' ∧
      decode (Cursor.ofSource good 1) = .ok (['a', 'A'], ⟨13, ['y']⟩) ∧
      decode (Cursor.ofSource bad 1) = .error (.unknownEscape 3 'q') ∧
      ¬ BeginsEscape ['\\', 'q', '"'] ∧
      ∃ v, decode (Cursor.start ['"', 'a', '"']) = .ok (v, ⟨3, []⟩) := by
  intro good bad
  have hdigits : HexNumber ['4', '1'] 65 :=
    .concat (.concat .nil (by decide : ('4', 4) ∈ hexDigits)) (by decide : ('1', 1) ∈ hexDigits)
  have hcode : Items ['\\', 'u', '\x7b', '4', '1', '\x7d'] ['A'] :=
    .escape (.braced (by decide) (by decide) hdigits (by decide)) .nil
  have hblank : Items ['\\', ' ', '\n', '\\', 'u', '\x7b', '4', '1', '\x7d'] ['A'] :=
    .escape (@Escape.blank [' ', '\n'] _ (by decide) (by decide) (Token.stops_cons (by decide)))
      hcode
  have hitems := Items.plain (by decide : 'a' ≠ '"') (by decide) hblank
  have hquote : good[1]? = some '"' := rfl
  have hquote' : bad[1]? = some '"' := rfl
  have hgood := ((decode_exact hquote).1 _ _).2 ⟨13, _, by decide, rfl, hitems, rfl⟩
  have hunknown : escape 3 'q' ['"'] = .error (.unknownEscape 3 'q') := rfl
  have hbad : decode (Cursor.ofSource bad 1) = .error (.unknownEscape 3 'q') := by
    rw [decode_quote (q := ['a', '\\', 'q', '"']) rfl, decodeFrom_plain (by decide) (by decide)]
    simp [decodeFrom, hunknown, Except.map]
  rcases (decode_exact hquote').2 _ hbad with
    ⟨hnot, -⟩ | ⟨b, t, v, hat, -, -, -, -, hnone, hread⟩
  · cases hnot
  · cases hat with
    | unknown => exact ⟨hquote, hquote', hgood, hbad, hnone, v, hread⟩

end Lisp.Literal
