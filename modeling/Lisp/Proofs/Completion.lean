/-
# A syntax error stands behind a valid beginning

The reader never goes back, so what it has passed when it fails is the beginning of some text of the
grammar: every element that is complete stays readable whatever comes next, an element that is not
is given up for another one, and the brackets that are open can be closed.

* `Reader.Shows` : the place at which a fault is found;
* `Reader.Completable` : a failure with the beginning of some text before it;
* `Reader.completes_expression` : every failure is of this kind, but for the depth of lists;
* `Reader.readSource` : the first expression of a source, with the place where reading stops;
* `Reader.parse_error_place` : what comes before a syntax error, or before trailing text, is valid.
-/
import Lisp.Proofs.Acceptance

namespace Lisp.Reader

open Grammar Token

/-! ## Faults and their places -/

/-- The place at which a fault is found: where something else was expected, or the opening quote of
a literal that cannot be decoded. -/
inductive Shows (c : Cursor) : Fault → Prop
  | expected (what : Expectation) : Shows c (.expected what c.pos c.peek?)
  | literal {fault : Fault} : c.peek? = some '"' → Literal.decode c = .error fault → Shows c fault

/-- A failure at a place that shows its fault, with the beginning of some whole text before it. -/
def Completable (Whole : List Char → Prop) (c : Cursor) (failure : Failure) : Prop :=
  ∃ (t : List Char) (c' : Cursor), Passes c t c' ∧ failure.pos = c'.pos ∧ Shows c' failure.fault ∧
    ∃ more, Whole (t ++ more)

/-- A text of an expression that nests at most so deep. -/
def IsText (levels : Nat) (t : List Char) : Prop := ∃ e, Derives t e ∧ e.depth ≤ levels

theorem isText_symbol (levels : Nat) : IsText levels ['+'] :=
  ⟨.operator .add, .symbol (by decide), Nat.zero_le _⟩

/-- The elements of a list, up to its closing bracket, that nest at most so deep. -/
def IsElements (levels : Nat) (t : List Char) : Prop :=
  ∃ parts : List (List Char × Expr), Separated (parts.map Prod.fst) t ∧
    (∀ p ∈ parts, Derives p.1 p.2) ∧ Expr.depthAll (parts.map Prod.snd) ≤ levels

/-- A list with its brackets that nests at most so deep. -/
def IsList (levels : Nat) (t : List Char) : Prop :=
  ∃ (parts : List (List Char × Expr)) (u : List Char), t = '(' :: (u ++ [')']) ∧
    Spaced (parts.map Prod.fst) u ∧ (∀ p ∈ parts, Derives p.1 p.2) ∧
    Expr.depthAll (parts.map Prod.snd) + 1 ≤ levels

section Completable

variable {Whole Whole' : List Char → Prop} {c c₁ : Cursor} {failure : Failure}

/-- A failure at the place where reading began: something else could have stood there. -/
theorem Completable.here (hpos : failure.pos = c.pos) (hshows : Shows c failure.fault)
    {t : List Char} (ht : Whole t) : Completable Whole c failure :=
  ⟨[], c, .refl c, hpos, hshows, t, ht⟩

/-- A failure further ahead, with what was passed on the way in front and what is still missing
behind. -/
theorem Completable.after {u : List Char} (behind : List Char) (hu : Passes c u c₁)
    (hwhole : ∀ t, Whole t → Whole' (u ++ t ++ behind)) (h : Completable Whole c₁ failure) :
    Completable Whole' c failure := by
  obtain ⟨t, c', ht, hpos, hshows, more, hmore⟩ := h
  refine ⟨u ++ t, c', hu.trans ht, hpos, hshows, more ++ behind, ?_⟩
  have hcomplete := hwhole _ hmore
  simpa only [List.append_assoc] using hcomplete

end Completable

/-- A reader whose failures, but for the depth of lists, are all completable. -/
def Completes {α : Type} (Whole : List Char → Prop) (read : Cursor → Except Failure α) : Prop :=
  ∀ ⦃c : Cursor⦄ ⦃failure : Failure⦄, read c = .error failure → failure.fault ≠ .tooDeep →
    Completable Whole c failure

/-! ## Lists -/

/-- Elements that fail can be completed: the one that fails by another one, after those that were
complete. -/
theorem completes_elements {levels : Nat} {item : Rule Expr} (hsound : Sound levels item.run)
    (hitem : Completes (IsText levels) item.run) :
    Completes (IsElements levels) (elements item) := by
  intro c failure h hdeep
  fun_induction elements item c with
  | case1 c _ hrun =>
    -- The first element fails, so its completion can be the only element.
    obtain rfl := Except.error.inj h
    refine (hitem hrun hdeep).after [] (.refl c) ?_
    rintro t ⟨e, hderives, hdepth⟩
    exact ⟨[(t, e)], .last 0, by simpa using hderives, by simpa [Expr.depthAll] using hdepth⟩
  | case2 => simp at h
  | case3 c e c₁ hrun _ _ =>
    -- Only a separator is missing, so the element is complete, if perhaps as another number.
    obtain rfl := Except.error.inj h
    obtain ⟨t, e', ht, hderives, hdepth, -⟩ := hsound hrun
    refine ⟨t, c₁, ht, rfl, .expected _, [], [(t, e')], .last 0, by simpa using hderives, ?_⟩
    simpa [Expr.depthAll] using hdepth
  | case4 c e c₁ hrun _ hgap ih =>
    obtain ⟨n, hn⟩ := Nat.exists_eq_succ_of_ne_zero hgap
    have hspaces := passes_skipSpaces c₁
    rw [hn] at hspaces
    -- The failure lies further ahead, behind this element and its spaces.
    obtain ⟨w, e', hw, hderives, hdepth, -⟩ := hsound hrun
    refine (ih (Literal.eq_error_of_map_eq_error h)).after [] (hw.trans hspaces) ?_
    rintro t ⟨parts, hsep, hparts, hall⟩
    rw [List.append_nil]
    exact ⟨(w, e') :: parts, .cons n hsep, List.forall_mem_cons.2 ⟨hderives, hparts⟩,
      Nat.max_le.2 ⟨hdepth, hall⟩⟩

/-- A list that fails behind its opening bracket can be completed up to the closing one. -/
theorem completable_listReader {levels : Nat}
    (ih : ∀ n < levels, Completes (IsText n) (expression n).run) {c : Cursor} {failure : Failure}
    (hopen : c.peek? = some '(') (h : listReader levels c = .error failure)
    (hdeep : failure.fault ≠ .tooDeep) : Completable (IsList levels) c failure := by
  cases levels with
  | zero =>
    obtain rfl := Except.error.inj h
    exact absurd rfl hdeep
  | succ levels =>
    have hspaces := (passes_next hopen).trans (passes_skipSpaces c.next)
    simp only [listReader, sequence] at h
    split at h
    · simp at h
    · have helements := completes_elements (derives_of_run levels)
        (ih levels (Nat.lt_succ_self _)) h hdeep
      refine helements.after [')'] hspaces ?_
      rintro t ⟨parts, hsep, hparts, hall⟩
      exact ⟨parts, spaces c.next.spaces ++ t, by simp, .some _ hsep, hparts,
        Nat.succ_le_succ hall⟩

/-! ## Expressions -/

/-- A literal that fails is given up for another expression. -/
theorem completes_string (levels : Nat) : Completes (IsText levels) string := by
  intro c failure h _
  unfold string at h
  split at h
  · next hquote =>
    split at h
    · next fault hfault =>
      obtain rfl := Except.error.inj h
      exact .here rfl (.literal hquote hfault) (isText_symbol levels)
    · simp at h
  · simp at h

/-- A list that is cut off is completed as its elements are. -/
theorem completes_plainList {levels : Nat}
    (ih : ∀ n < levels, Completes (IsText n) (expression n).run) :
    Completes (IsText levels) (plainList (listReader levels)) := by
  intro c failure h hdeep
  unfold plainList at h
  split at h
  · next hopen =>
    have hlist := completable_listReader ih hopen (Literal.eq_error_of_map_eq_error h) hdeep
    refine hlist.after [] (.refl c) ?_
    rintro t ⟨parts, u, rfl, hsp, hparts, hdepth⟩
    rw [List.append_nil]
    exact ⟨.form (parts.map Prod.snd), .form hparts hsp, hdepth⟩
  · simp at h

/-- Behind a quote the list that was begun is completed, or the empty one is put there if there is
none. -/
theorem completes_quotedList {levels : Nat}
    (ih : ∀ n < levels, Completes (IsText n) (expression n).run) :
    Completes (IsText levels) (quotedList (listReader levels)) := by
  intro c failure h hdeep
  unfold quotedList at h
  split at h
  · next hquote =>
    split at h
    · next hopen =>
      have hlist := completable_listReader ih hopen (Literal.eq_error_of_map_eq_error h) hdeep
      refine hlist.after [] (passes_next hquote) ?_
      rintro t ⟨parts, u, rfl, hsp, hparts, hdepth⟩
      rw [List.append_nil]
      exact ⟨.quoted (parts.map Prod.snd), .quoted hparts hsp, hdepth⟩
    · rw [hasRoom_listReader] at h
      split at h
      · next hroom =>
        -- A missing list is reported only with room for one, so the empty list does fit.
        obtain rfl := Except.error.inj h
        have hempty : Derives ['\x27', '(', ')'] (.quoted []) :=
          @Derives.quoted [] [] (by simp) (Spaced.none 0)
        refine ⟨['\x27'], c.next, passes_next hquote, rfl, .expected _, ['(', ')'], ?_⟩
        exact ⟨.quoted [], hempty, of_decide_eq_true hroom⟩
      · obtain rfl := Except.error.inj h
        exact absurd rfl hdeep
  · simp at h

/-- **Failures are completable.** What was passed before an expression fails, other than for the
depth of its lists, is the beginning of a text of the grammar, which nests no deeper than there is
room for. -/
theorem completes_expression (levels : Nat) :
    Completes (IsText levels) (expression levels).run := by
  induction levels using Nat.strongRecOn with
  | _ levels ih =>
    have htoken : ∀ {α : Type} (token : List Char → Option (α × Nat)) (make : α → Expr),
        Completes (IsText levels) (ofToken token make) := nofun
    have hall : ∀ choice ∈ choices (listReader levels), Completes (IsText levels) choice := by
      simp only [choices, List.mem_cons, List.not_mem_nil, or_false, forall_eq_or_imp, forall_eq]
      exact ⟨htoken _ _, completes_string levels, htoken _ _, htoken _ _, htoken _ _,
        completes_quotedList ih, completes_plainList ih⟩
    intro c failure h hdeep
    rw [expression_run, readWith] at h
    split at h
    · next hfirst =>
      obtain rfl := Except.error.inj h
      obtain ⟨choice, hmem, hfail⟩ := firstOf_eq_error hfirst
      exact hall choice hmem hfail hdeep
    · obtain rfl := Except.error.inj h
      exact .here rfl (.expected _) (isText_symbol levels)
    · simp at h

/-! ## Whole sources -/

/-- The first expression of a source and the place behind it, or the place where reading fails. -/
def readSource (levels : Nat) (source : List Char) : Except Failure (Expr × Cursor) :=
  let c := Cursor.start source
  (expression levels).run (c.skip (c.count Text.isBlank))

/-- A source is read from its beginning, and only white space may be left. -/
theorem parseWithin_eq (levels : Nat) (source : List Char) :
    parseWithin levels source =
      match readSource levels source with
      | .error failure => .error (.malformed failure.fault)
      | .ok (e, c) => if Text.isBlankText c.rest then .ok e else .error (.trailing c.rest) := rfl

/-- A source is malformed where its first expression cannot be read. -/
theorem readSource_of_parseWithin {levels : Nat} {source : List Char} {fault : Fault}
    (h : parseWithin levels source = .error (.malformed fault)) :
    ∃ p, readSource levels source = .error ⟨fault, p⟩ := by
  rw [parseWithin_eq] at h
  split at h
  · next failure hread =>
    obtain rfl := ReadError.malformed.inj (Except.error.inj h)
    exact ⟨failure.pos, hread⟩
  · split at h <;> simp at h

/-- A text of an expression behind white space is read as a whole source. -/
theorem exists_parseWithin {levels : Nat} {before t : List Char}
    (hbefore : Text.isBlankText before = true) (ht : IsText levels t) :
    ∃ e, parseWithin levels (before ++ t) = .ok e := by
  obtain ⟨e, hderives, hdepth⟩ := ht
  have hsentence : Sentence (before ++ t) e :=
    ⟨before, t, [], (List.append_nil _).symm, hbefore, rfl, hderives⟩
  rcases parseWithin_of_sentence hsentence levels with ⟨-, h⟩ | ⟨hdeep, -⟩
  · exact ⟨e, h⟩
  · exact absurd hdepth (Nat.not_le.2 hdeep)

/-- The white space that is skipped at the beginning of a source. -/
theorem passes_start (source : List Char) :
    ∃ before, Text.isBlankText before = true ∧ Passes (Cursor.start source) before
      ((Cursor.start source).skip ((Cursor.start source).count Text.isBlank)) := by
  refine ⟨source.takeWhile Text.isBlank, List.all_takeWhile, ?_⟩
  have hskip := passes_skip (Cursor.start source) ((Cursor.start source).count Text.isBlank)
  rwa [Cursor.count, Cursor.start, take_length_takeWhile] at hskip

/-- A place of a source is determined by its position. -/
theorem eq_ofSource {source t : List Char} {c : Cursor} (h : Passes (Cursor.start source) t c) :
    c = Cursor.ofSource source c.pos ∧ t = source.take c.pos ∧ c.pos ≤ source.length := by
  have hstart : Passes (Cursor.ofSource source 0) t c := h
  obtain ⟨hc, hpos, hle⟩ := hstart.eq_ofSource (Nat.zero_le _)
  have hsource : source = t ++ c.rest := h.rest
  refine ⟨hc, ?_, hle⟩
  rw [hpos, Nat.zero_add, hsource, List.take_left]

/-- Reading fails at a place that shows the fault, and what comes before it can be completed. -/
theorem exists_completion {levels : Nat} {source : List Char} {fault : Fault}
    (h : parseWithin levels source = .error (.malformed fault)) (hdeep : fault ≠ .tooDeep) :
    ∃ p ≤ source.length, readSource levels source = .error ⟨fault, p⟩ ∧
      Shows (Cursor.ofSource source p) fault ∧
      ∃ more e, parseWithin levels (source.take p ++ more) = .ok e := by
  obtain ⟨blanks, hblanks, hstart⟩ := passes_start source
  obtain ⟨p, hread⟩ := readSource_of_parseWithin h
  obtain ⟨t, c, ht, hpos, hshows, more, hmore⟩ := completes_expression levels hread hdeep
  obtain rfl : p = c.pos := hpos
  obtain ⟨hc, htake, hle⟩ := eq_ofSource (hstart.trans ht)
  refine ⟨c.pos, hle, hread, hc ▸ hshows, more, ?_⟩
  rw [← htake, List.append_assoc]
  exact exists_parseWithin hblanks hmore

/-- What comes before trailing text is read by itself. -/
theorem exists_before_trailing {levels : Nat} {source rest : List Char}
    (h : parseWithin levels source = .error (.trailing rest)) :
    ∃ before e, source = before ++ rest ∧ (∃ x ∈ rest, Text.isBlank x = false) ∧
      parseWithin levels before = .ok e := by
  obtain ⟨blanks, hblanks, hstart⟩ := passes_start source
  rw [parseWithin_eq] at h
  split at h
  · simp at h
  · next e c hread =>
    split at h
    · simp at h
    · next hbehind =>
      obtain rfl := ReadError.trailing.inj (Except.error.inj h)
      -- What follows need not end a word, so the text may be one of another number than was read.
      obtain ⟨t, e', ht, hderives, hdepth, -⟩ := derives_of_run levels hread
      obtain ⟨e'', hparse⟩ := exists_parseWithin hblanks ⟨e', hderives, hdepth⟩
      refine ⟨blanks ++ t, e'', (hstart.trans ht).rest, ?_, hparse⟩
      simpa [Text.isBlankText] using hbehind

/-- **A syntax error stands behind a valid beginning.** Where a source is malformed, other than for
the depth of its lists, reading fails at a place that shows the fault, and what comes before it is
the beginning of a source that is read.  Where further text follows an expression, it has more in it
than white space, and the source without it is read. -/
theorem parse_error_place (source : String) :
    (∀ fault, parse source = .error (.malformed fault) → fault ≠ .tooDeep →
      ∃ p ≤ source.length, readSource maxNesting source.toList = .error ⟨fault, p⟩ ∧
        Shows (Cursor.ofSource source.toList p) fault ∧
        ∃ more e, parse (String.ofList (source.toList.take p ++ more)) = .ok e) ∧
    (∀ rest, parse source = .error (.trailing rest) →
      ∃ before e, source.toList = before ++ rest ∧ (∃ x ∈ rest, Text.isBlank x = false) ∧
        parse (String.ofList before) = .ok e) := by
  constructor
  · intro fault h hdeep
    obtain ⟨p, hle, hread, hshows, more, e, hmore⟩ := exists_completion h hdeep
    refine ⟨p, ?_, hread, hshows, more, e, ?_⟩
    · rwa [← String.length_toList]
    · rwa [parse, String.toList_ofList]
  · intro rest h
    obtain ⟨before, e, hsource, hrest, hbefore⟩ := exists_before_trailing h
    refine ⟨before, e, hsource, hrest, ?_⟩
    rwa [parse, String.toList_ofList]

/-- A point or an exponent further on keeps these digits from being read as an integer, so they are
read as a numeral, up to where that ends; where the source is cut off there, they are an integer. -/
theorem parse_error_place_digits :
    parse "(12_.5" = .error (.malformed (.expected .separator 3 (some '_'))) ∧
      (∃ more e, parse (String.ofList ('(' :: '1' :: '2' :: more)) = .ok e) ∧
      parse "12e" = .error (.trailing ['e']) ∧ ∃ e, parse "12" = .ok e := by
  have hfail : parse "(12_.5" = .error (.malformed (.expected .separator 3 (some '_'))) := by
    decide +kernel
  have hplace : readSource maxNesting "(12_.5".toList =
      .error ⟨.expected .separator 3 (some '_'), 3⟩ := by
    decide +kernel
  have htrailing : parse "12e" = .error (.trailing ['e']) := by decide +kernel
  refine ⟨hfail, ?_, htrailing, ?_⟩
  · obtain ⟨p, -, hread, -, more, e, hmore⟩ := (parse_error_place "(12_.5").1 _ hfail (by decide)
    obtain rfl : 3 = p := (Failure.mk.inj (Except.error.inj (hplace.symm.trans hread))).2
    exact ⟨more, e, hmore⟩
  · obtain ⟨before, e, hsource, -, hbefore⟩ := (parse_error_place "12e").2 _ htrailing
    have happend : ['1', '2'] ++ ['e'] = before ++ ['e'] := hsource
    obtain rfl := List.append_cancel_right happend
    exact ⟨e, hbefore⟩

end Lisp.Reader
