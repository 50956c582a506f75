/-
# The reader accepts exactly the grammar

What is read is a text of the grammar, and a text of the grammar is read up to the end of a word.
For a whole source, with white space around the expression, the two make an equivalence.

* `Reader.Passes` : the text between two places of a source;
* `Reader.derives_of_run` : soundness, for an expression at any place of a source;
* `Reader.roomy_expression` : lists are refused for their depth only in texts that are long enough;
* `Reader.parse_accepts_grammar` : soundness and completeness, for a whole source.
-/
import Lisp.Proofs.Parsing

namespace Lisp.Reader

open Grammar Token

/-! ## Places -/

/-- What lies between two places of a source. -/
structure Passes (c : Cursor) (t : List Char) (c' : Cursor) : Prop where
  rest : c.rest = t ++ c'.rest
  pos : c'.pos = c.pos + t.length

theorem Passes.refl (c : Cursor) : Passes c [] c := ⟨rfl, rfl⟩

/-- Texts that are passed one after another are passed together. -/
theorem Passes.trans {c c₁ c₂ : Cursor} {t u : List Char} (h : Passes c t c₁)
    (h' : Passes c₁ u c₂) : Passes c (t ++ u) c₂ where
  rest := by rw [h.rest, h'.rest, List.append_assoc]
  pos := by rw [h'.pos, h.pos, List.length_append, Nat.add_assoc]

/-- A move ahead passes the characters that it skips. -/
theorem passes_skip (c : Cursor) (n : Nat) : Passes c (c.rest.take n) (c.skip n) :=
  ⟨(List.take_append_drop n c.rest).symm, rfl⟩

/-- What lies ahead of a place begins with the character found there. -/
theorem rest_eq_of_peek? {c : Cursor} {x : Char} (h : c.peek? = some x) :
    c.rest = x :: c.next.rest := by
  obtain ⟨r, hr⟩ := List.head?_eq_some_iff.1 h
  rw [hr, Cursor.next, Cursor.rest_skip, hr]
  rfl

theorem passes_next {c : Cursor} {x : Char} (h : c.peek? = some x) : Passes c [x] c.next := by
  have hskip := passes_skip c 1
  rwa [rest_eq_of_peek? h] at hskip

theorem passes_skipSpaces (c : Cursor) : Passes c (spaces c.spaces) c.skipSpaces where
  rest := rest_eq_spaces_append c
  pos := by
    have hle : c.spaces ≤ c.rest.length := (List.takeWhile_sublist _).length_le
    rw [Cursor.skipSpaces, Cursor.skip, List.length_take_of_le hle, length_spaces]

/-- What is passed from a place of a source on leads to a place of that source. -/
theorem Passes.eq_ofSource {source t : List Char} {pos : Nat} {c : Cursor}
    (hpos : pos ≤ source.length) (h : Passes (Cursor.ofSource source pos) t c) :
    c = Cursor.ofSource source c.pos ∧ c.pos = pos + t.length ∧ c.pos ≤ source.length := by
  have hrest : source.drop pos = t ++ c.rest := h.rest
  have hfin : c.pos = pos + t.length := h.pos
  have hlength := congrArg List.length hrest
  rw [List.length_drop, List.length_append] at hlength
  refine ⟨?_, hfin, by omega⟩
  rw [hfin, Cursor.ofSource, ← List.drop_drop, hrest, List.drop_left, ← hfin]

/-! ## Soundness -/

/-- A reader that reads nothing but texts of the grammar.  They are texts of what it yields wherever
the end of a word follows, and else a number may have been taken for one of another kind. -/
def Sound (levels : Nat) (read : Cursor → Except Failure (Expr × Cursor)) : Prop :=
  ∀ ⦃c c' : Cursor⦄ ⦃e : Expr⦄, read c = .ok (e, c') →
    ∃ t e', Passes c t c' ∧ Derives t e' ∧ e'.depth ≤ levels ∧ (Ends c'.rest → e' = e)

/-- The elements that are read are separated texts of the grammar. -/
theorem separated_of_elements {levels : Nat} {item : Rule Expr} (hitem : Sound levels item.run)
    {c c' : Cursor} {es : List Expr} (h : elements item c = .ok (es, c')) :
    ∃ (parts : List (List Char × Expr)) (t : List Char), Passes c (t ++ [')']) c' ∧
      Separated (parts.map Prod.fst) t ∧ (∀ p ∈ parts, Derives p.1 p.2) ∧
      es = parts.map Prod.snd ∧ Expr.depthAll es ≤ levels := by
  fun_induction elements item c generalizing c' es with
  | case1 => simp at h
  | case2 c e c₁ hrun hclose =>
    obtain ⟨rfl, rfl⟩ := Prod.mk.inj (Except.ok.inj h)
    have hspaces := (passes_skipSpaces c₁).trans (passes_next hclose)
    obtain ⟨w, e', hw, hd, hdepth, hend⟩ := hitem hrun
    -- The closing bracket ends the word of the last element.
    obtain rfl := hend (by simpa [hspaces.rest] using ends_spaces _ _)
    refine ⟨[(w, e')], w ++ spaces c₁.spaces, ?_, Separated.last _, ?_, rfl, ?_⟩
    · rw [List.append_assoc]
      exact hw.trans hspaces
    · simpa using hd
    · simpa [Expr.depthAll] using hdepth
  | case3 => simp at h
  | case4 c e c₁ hrun hclose hgap ih =>
    obtain ⟨⟨others, c₂⟩, hmore, heq⟩ := Literal.exists_of_map_eq_ok h
    obtain ⟨rfl, rfl⟩ := Prod.mk.inj heq
    obtain ⟨parts, t, ht, hsep, hparts, rfl, hall⟩ := ih hmore
    -- Without a closing bracket behind it, the element needs a space, which ends its word.
    obtain ⟨n, hn⟩ := Nat.exists_eq_succ_of_ne_zero hgap
    have hspaces := passes_skipSpaces c₁
    rw [hn] at hspaces
    obtain ⟨w, e', hw, hd, hdepth, hend⟩ := hitem hrun
    obtain rfl := hend (hspaces.rest ▸ ends_spaces_succ n _)
    refine ⟨(w, e') :: parts, w ++ spaces (n + 1) ++ t, ?_, Separated.cons n hsep, ?_, rfl, ?_⟩
    · rw [List.append_assoc]
      exact (hw.trans hspaces).trans ht
    · exact List.forall_mem_cons.2 ⟨hd, hparts⟩
    · exact Nat.max_le.2 ⟨hdepth, hall⟩

/-- A list that is read is a text of the grammar between brackets. -/
theorem spaced_of_listReader {levels : Nat}
    (ih : ∀ n < levels, Sound n (expression n).run) {c c' : Cursor} {es : List Expr}
    (hopen : c.peek? = some '(') (h : listReader levels c = .ok (es, c')) :
    ∃ (parts : List (List Char × Expr)) (t : List Char), Passes c ('(' :: (t ++ [')'])) c' ∧
      Spaced (parts.map Prod.fst) t ∧ (∀ p ∈ parts, Derives p.1 p.2) ∧
      es = parts.map Prod.snd ∧ Expr.depthAll es + 1 ≤ levels := by
  cases levels with
  | zero => simp [listReader, refuse] at h
  | succ levels =>
    have hspaces := (passes_next hopen).trans (passes_skipSpaces c.next)
    simp only [listReader, sequence] at h
    split at h
    · next hclose =>
      obtain ⟨rfl, rfl⟩ := Prod.mk.inj (Except.ok.inj h)
      refine ⟨[], spaces c.next.spaces, hspaces.trans (passes_next hclose), Spaced.none _, by simp,
        rfl, ?_⟩
      exact Nat.succ_le_succ (Nat.zero_le _)
    · obtain ⟨parts, t, ht, hsep, hparts, hes, hall⟩ :=
        separated_of_elements (ih levels (Nat.lt_succ_self _)) h
      refine ⟨parts, spaces c.next.spaces ++ t, ?_, Spaced.some _ hsep, hparts, hes,
        Nat.succ_le_succ hall⟩
      rw [List.append_assoc]
      exact hspaces.trans ht

/-- A string literal that is read is a text of the grammar. -/
theorem derives_of_string {c c' : Cursor} {e : Expr} (h : string c = .ok (some (e, c'))) :
    ∃ t, Passes c t c' ∧ Derives t e ∧ e.depth = 0 := by
  unfold string at h
  split at h
  · next hquote =>
    split at h
    · simp at h
    · next v c₁ hdecode =>
      obtain ⟨rfl, rfl⟩ := Prod.mk.inj (Option.some.inj (Except.ok.inj h))
      have hrest := rest_eq_of_peek? hquote
      rw [Literal.decode, hrest] at hdecode
      obtain ⟨t, hitems, ht, hpos⟩ := Literal.items_of_decodeFrom hdecode
      refine ⟨'"' :: (t ++ ['"']), ⟨?_, ?_⟩, Derives.string hitems, rfl⟩
      · rw [hrest, ht, List.cons_append, List.append_assoc]
        rfl
      · rw [hpos, List.length_cons, List.length_append, List.length_singleton]
        omega
  · simp at h

/-- A list with a quote before it that is read is a text of the grammar. -/
theorem derives_of_quotedList {levels : Nat} (ih : ∀ n < levels, Sound n (expression n).run)
    {c c' : Cursor} {e : Expr} (h : quotedList (listReader levels) c = .ok (some (e, c'))) :
    ∃ t, Passes c t c' ∧ Derives t e ∧ e.depth ≤ levels := by
  unfold quotedList at h
  split at h
  · next hquote =>
    split at h
    · next hopen =>
      obtain ⟨⟨es, c₁⟩, hlist, heq⟩ := Literal.exists_of_map_eq_ok h
      obtain ⟨rfl, rfl⟩ := Prod.mk.inj (Option.some.inj heq)
      obtain ⟨parts, t, ht, hsp, hparts, rfl, hdepth⟩ := spaced_of_listReader ih hopen hlist
      exact ⟨'\x27' :: '(' :: (t ++ [')']), (passes_next hquote).trans ht,
        Derives.quoted hparts hsp, hdepth⟩
    · split at h <;> simp at h
  · simp at h

/-- A list that is read is a text of the grammar. -/
theorem derives_of_plainList {levels : Nat} (ih : ∀ n < levels, Sound n (expression n).run)
    {c c' : Cursor} {e : Expr} (h : plainList (listReader levels) c = .ok (some (e, c'))) :
    ∃ t, Passes c t c' ∧ Derives t e ∧ e.depth ≤ levels := by
  unfold plainList at h
  split at h
  · next hopen =>
    obtain ⟨⟨es, c₁⟩, hlist, heq⟩ := Literal.exists_of_map_eq_ok h
    obtain ⟨rfl, rfl⟩ := Prod.mk.inj (Option.some.inj heq)
    obtain ⟨parts, t, ht, hsp, hparts, rfl, hdepth⟩ := spaced_of_listReader ih hopen hlist
    exact ⟨'(' :: (t ++ [')']), ht, Derives.form hparts hsp, hdepth⟩
  · simp at h

/-- **Soundness.** What is read as an expression is a text of the grammar, and nests no deeper than
there is room for.  It is a text of that expression if the end of a word follows. -/
theorem derives_of_run (levels : Nat) : Sound levels (expression levels).run := by
  induction levels using Nat.strongRecOn with
  | _ levels ih =>
    intro c c' e h
    -- A token that is read makes up the text by itself.
    have htoken : ∀ {n : Nat} {x x' : Expr}, (e, c') = (x, c.skip n) → x'.depth = 0 →
        Derives (c.rest.take n) x' → (Ends (c.rest.drop n) → x' = x) →
        ∃ t e', Passes c t c' ∧ Derives t e' ∧ e'.depth ≤ levels ∧ (Ends c'.rest → e' = e) := by
      intro n x x' heq hdepth hderives hend
      obtain ⟨rfl, rfl⟩ := Prod.mk.inj heq
      exact ⟨c.rest.take n, x', passes_skip c n, hderives, hdepth ▸ Nat.zero_le _, hend⟩
    rw [expression_run] at h
    -- The alternatives in order: one that is taken knows that those before it declined.
    have hchoice := firstOf_of_readWith h
    rcases firstOf_cases hchoice with hread | ⟨hop, hchoice⟩
    · obtain ⟨op, n, htok, heq⟩ := token_of_ofToken_some hread
      exact htoken heq rfl (derives_of_operator? htok) fun _ => rfl
    rcases firstOf_cases hchoice with hread | ⟨-, hchoice⟩
    · obtain ⟨t, ht, hderives, hdepth⟩ := derives_of_string hread
      exact ⟨t, e, ht, hderives, hdepth ▸ Nat.zero_le _, fun _ => rfl⟩
    rcases firstOf_cases hchoice with hread | ⟨hname, hchoice⟩
    · obtain ⟨id, n, htok, heq⟩ := token_of_ofToken_some hread
      exact htoken heq rfl (derives_of_name? htok (token_of_ofToken_none hop)) fun _ => rfl
    rcases firstOf_cases hchoice with hread | ⟨hint, hchoice⟩
    · obtain ⟨v, n, htok, heq⟩ := token_of_ofToken_some hread
      exact htoken heq rfl (derives_of_integer? htok) fun _ => rfl
    rcases firstOf_cases hchoice with hread | ⟨-, hchoice⟩
    · obtain ⟨d, n, htok, heq⟩ := token_of_ofToken_some hread
      obtain ⟨x, hdepth, hderives, hend⟩ := derives_of_decimal? htok (token_of_ofToken_none hint)
      exact htoken heq hdepth hderives hend
    rcases firstOf_cases hchoice with hread | ⟨-, hchoice⟩
    · obtain ⟨t, ht, hderives, hdepth⟩ := derives_of_quotedList ih hread
      exact ⟨t, e, ht, hderives, hdepth, fun _ => rfl⟩
    rcases firstOf_cases hchoice with hread | ⟨-, hchoice⟩
    · obtain ⟨t, ht, hderives, hdepth⟩ := derives_of_plainList ih hread
      exact ⟨t, e, ht, hderives, hdepth, fun _ => rfl⟩
    · simp [firstOf] at hchoice

/-! ## Room for lists -/

/-- A reader that refuses a list for its depth only where there are more characters ahead than it
has levels: each level costs a bracket. -/
def Roomy {α : Type} (levels : Nat) (read : Cursor → Except Failure (α × Cursor)) : Prop :=
  ∀ ⦃c : Cursor⦄ ⦃pos : Nat⦄, read c = .error ⟨.tooDeep, pos⟩ → levels < c.rest.length

/-- Each turn of the loop needs room for one element more, which is further ahead. -/
theorem roomy_elements {levels : Nat} {item : Rule Expr} (hitem : Roomy levels item.run) :
    Roomy levels (elements item) := by
  intro c pos h
  fun_induction elements item c with
  | case1 c failure hrun =>
    obtain rfl := Except.error.inj h
    exact hitem hrun
  | case2 => simp at h
  | case3 => simp [missing] at h
  | case4 c e c₁ hrun _ _ ih =>
    have hlt := ih (Literal.eq_error_of_map_eq_error h)
    have hle : c₁.skipSpaces.rest.length ≤ c₁.rest.length := Cursor.length_skip_le _ _
    have := item.shortens hrun
    omega

/-- A list that nests too deep has as many brackets as there was room, and so as many characters. -/
theorem roomy_listReader {levels : Nat} (ih : ∀ n < levels, Roomy n (expression n).run)
    {c : Cursor} {pos : Nat} (hopen : c.peek? = some '(')
    (h : listReader levels c = .error ⟨.tooDeep, pos⟩) : levels < c.rest.length := by
  rw [rest_eq_of_peek? hopen, List.length_cons]
  cases levels with
  | zero => exact Nat.succ_pos _
  | succ levels =>
    have hle : c.next.skipSpaces.rest.length ≤ c.next.rest.length := Cursor.length_skip_le _ _
    simp only [listReader, sequence] at h
    split at h
    · simp at h
    · have := roomy_elements (ih levels (Nat.lt_succ_self _)) h
      omega

/-- A string literal is never refused for want of room. -/
theorem string_ne_tooDeep (c : Cursor) (pos : Nat) : string c ≠ .error ⟨.tooDeep, pos⟩ := by
  unfold string
  split
  · next hquote =>
    have hdecode := Literal.decodeFrom_ne_tooDeep c.pos (c.pos + 1) c.next.rest
    rw [Literal.decode, rest_eq_of_peek? hquote]
    split
    · next fault hfault =>
      intro h
      obtain ⟨rfl, -⟩ := Failure.mk.inj (Except.error.inj h)
      exact hdecode hfault
    · simp
  · simp

theorem firstOf_eq_error {choices : List Choice} {c : Cursor} {failure : Failure}
    (h : firstOf choices c = .error failure) : ∃ choice ∈ choices, choice c = .error failure := by
  induction choices with
  | nil => simp [firstOf] at h
  | cons choice others ih =>
    simp only [firstOf] at h
    split at h
    · obtain ⟨x, hx, hfail⟩ := ih h
      exact ⟨x, List.mem_cons_of_mem _ hx, hfail⟩
    · exact ⟨choice, List.mem_cons_self, h⟩

/-- An expression is refused for its depth only with more characters ahead than levels. -/
theorem roomy_expression (levels : Nat) : Roomy levels (expression levels).run := by
  induction levels using Nat.strongRecOn with
  | _ levels ih =>
    intro c pos h
    rw [expression_run, readWith] at h
    split at h
    · next failure hfirst =>
      obtain rfl := Except.error.inj h
      obtain ⟨choice, hmem, hfail⟩ := firstOf_eq_error hfirst
      simp only [choices, List.mem_cons, List.not_mem_nil, or_false] at hmem
      rcases hmem with rfl | rfl | rfl | rfl | rfl | rfl | rfl
      · simp [operator, ofToken] at hfail
      · exact absurd hfail (string_ne_tooDeep c pos)
      · simp [identifier, ofToken] at hfail
      · simp [integer, ofToken] at hfail
      · simp [floating, ofToken] at hfail
      · unfold quotedList at hfail
        split at hfail
        · next hquote =>
          split at hfail
          · next hopen =>
            have hlt := roomy_listReader ih hopen (Literal.eq_error_of_map_eq_error hfail)
            have hle : c.next.rest.length ≤ c.rest.length := Cursor.length_skip_le _ _
            exact Nat.lt_of_lt_of_le hlt hle
          · rw [hasRoom_listReader] at hfail
            split at hfail
            · simp [missing] at hfail
            · next hroom =>
              rw [rest_eq_of_peek? hquote, List.length_cons]
              exact Nat.lt_of_le_of_lt (by simpa using hroom) (Nat.succ_pos _)
        · simp at hfail
      · unfold plainList at hfail
        split at hfail
        · next hopen => exact roomy_listReader ih hopen (Literal.eq_error_of_map_eq_error hfail)
        · simp at hfail
    · simp [missing] at h
    · simp at h

/-! ## Whole sources -/

/-- The white space before an expression is skipped. -/
theorem skip_count_isBlank {before r : List Char} (hbefore : Text.isBlankText before = true)
    (hr : Stops Text.isBlank r) :
    (Cursor.start (before ++ r)).skip ((Cursor.start (before ++ r)).count Text.isBlank) =
      ⟨before.length, r⟩ := by
  have hrun : (before ++ r).takeWhile Text.isBlank = before :=
    takeWhile_append (List.all_eq_true.1 hbefore) hr
  rw [Cursor.count, Cursor.start, hrun, skip_append, Nat.zero_add]

/-- A sentence is read as its expression, unless it nests too deep. -/
theorem parseWithin_of_sentence {s : List Char} {e : Expr} (h : Sentence s e) (levels : Nat) :
    e.depth ≤ levels ∧ parseWithin levels s = .ok e ∨
      levels < e.depth ∧ parseWithin levels s = .error (.malformed .tooDeep) := by
  obtain ⟨before, t, behind, rfl, hbefore, hbehind, hderives⟩ := h
  have hstop : Stops Text.isBlank (t ++ behind) := by
    obtain ⟨c, r, rfl, hblank, -⟩ := begins_of_derives hderives
    exact stops_cons hblank
  have hanswer :=
    run_append_of_derives hderives levels before.length (ends_of_isBlankText hbehind)
  rw [List.append_assoc]
  rcases hanswer.eq_ok_or_eq_error with ⟨hdepth, hrun⟩ | ⟨hdepth, pos, hrun⟩
  · refine Or.inl ⟨hdepth, ?_⟩
    simp only [parseWithin, skip_count_isBlank hbefore hstop, hrun, hbehind, if_true]
  · refine Or.inr ⟨hdepth, ?_⟩
    simp only [parseWithin, skip_count_isBlank hbefore hstop, hrun]

/-- What is read as a whole source is a sentence. -/
theorem sentence_of_parseWithin {levels : Nat} {s : List Char} {e : Expr}
    (h : parseWithin levels s = .ok e) : Sentence s e ∧ e.depth ≤ levels := by
  simp only [parseWithin] at h
  split at h
  · simp at h
  · next e' c' hrun =>
    split at h
    · next hbehind =>
      obtain rfl := Except.ok.inj h
      obtain ⟨t, e', ht, hderives, hdepth, hend⟩ := derives_of_run levels hrun
      obtain rfl := hend (ends_of_isBlankText hbehind)
      refine ⟨⟨s.takeWhile Text.isBlank, t, c'.rest, ?_, ?_, hbehind, hderives⟩, hdepth⟩
      · have hrest := ht.rest
        rw [Cursor.rest_skip, Cursor.count, Cursor.start, drop_length_takeWhile] at hrest
        rw [List.append_assoc, ← hrest, List.takeWhile_append_dropWhile]
      · exact List.all_takeWhile
    · simp at h

/-- A source with no more characters than there is room for lists is not refused for its depth. -/
theorem parseWithin_ne_tooDeep {levels : Nat} {s : List Char} (h : s.length ≤ levels) :
    parseWithin levels s ≠ .error (.malformed .tooDeep) := by
  simp only [parseWithin]
  split
  · next failure hrun =>
    intro hfault
    obtain ⟨fault, pos⟩ := failure
    obtain rfl : fault = .tooDeep := ReadError.malformed.inj (Except.error.inj hfault)
    have hlt := roomy_expression levels hrun
    have hle := Cursor.length_skip_le (Cursor.start s) ((Cursor.start s).count Text.isBlank)
    exact absurd (Nat.le_trans hle h) (Nat.not_le.2 hlt)
  · split <;> simp

/-- **The reader accepts exactly the grammar.** A source is read as an expression if and only if it
is a sentence of that expression, which nests no deeper than there is room for.  A sentence that
does is refused for its depth, which does not happen with room enough, and every other source is
malformed or has further text behind an expression. -/
theorem parse_accepts_grammar (source : String) :
    (∀ e, parse source = .ok e ↔ Sentence source.toList e ∧ e.depth ≤ maxNesting) ∧
    ∀ levels,
      (∀ e, parseWithin levels source.toList = .ok e ↔
        Sentence source.toList e ∧ e.depth ≤ levels) ∧
      (∀ e, Sentence source.toList e → levels < e.depth →
        parseWithin levels source.toList = .error (.malformed .tooDeep)) ∧
      (source.toList.length ≤ levels →
        parseWithin levels source.toList ≠ .error (.malformed .tooDeep)) ∧
      ((∀ e, ¬ Sentence source.toList e) →
        (∃ fault, parseWithin levels source.toList = .error (.malformed fault)) ∨
          ∃ rest, parseWithin levels source.toList = .error (.trailing rest)) := by
  have hiff : ∀ levels e, parseWithin levels source.toList = .ok e ↔
      Sentence source.toList e ∧ e.depth ≤ levels := by
    intro levels e
    constructor
    · exact sentence_of_parseWithin
    · rintro ⟨hsentence, hdepth⟩
      rcases parseWithin_of_sentence hsentence levels with ⟨-, h⟩ | ⟨hdeep, -⟩
      · exact h
      · exact absurd hdepth (Nat.not_le.2 hdeep)
  refine ⟨hiff maxNesting, fun levels => ⟨hiff levels, ?_, parseWithin_ne_tooDeep, ?_⟩⟩
  · intro e hsentence hdeep
    rcases parseWithin_of_sentence hsentence levels with ⟨hdepth, -⟩ | ⟨-, h⟩
    · exact absurd hdepth (Nat.not_le.2 hdeep)
    · exact h
  · intro hnone
    cases hread : parseWithin levels source.toList with
    | ok e => exact absurd ((hiff levels e).1 hread).1 (hnone e)
    | error failure =>
      cases failure with
      | malformed fault => exact Or.inl ⟨fault, rfl⟩
      | trailing rest => exact Or.inr ⟨rest, rfl⟩

end Lisp.Reader
