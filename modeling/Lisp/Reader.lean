/-
# Reading a source

A source is one expression with white space around it.  The grammar is an ordered choice: the first
alternative that applies at a cursor is taken and the others are not tried.  Lists nest, so the
reader is built level by level; a level is a rule that always moves ahead, which is why the elements
of a list come to an end.

* `Reader.Failure` : a fault together with the place where the reader stood;
* `Reader.Choice` : an alternative, which may fail, decline or read an expression;
* `Reader.Rule` : a reader that moves ahead whenever it succeeds;
* `Reader.elements`, `Reader.sequence` : the elements of a list;
* `Reader.expression` : the rule for expressions with a given number of nested lists;
* `Reader.parseWithin`, `parse` : the expression of a source.
-/
import Lisp.Literal
import Lisp.Reader.Token
import Lisp.Expr

namespace Lisp.Reader

/-- A fault together with the place where the reader stood. -/
structure Failure where
  fault : Fault
  pos : Nat
  deriving DecidableEq, Repr

/-- The failure to find something at a cursor. -/
def missing (what : Expectation) (c : Cursor) : Failure :=
  ⟨.expected what c.pos c.peek?, c.pos⟩

/-- An alternative of the grammar. It declines by reading nothing. -/
abbrev Choice := Cursor → Except Failure (Option (Expr × Cursor))

/-! ## Atoms -/

/-- The alternative that a token, with its length, is turned into. -/
def ofToken {α : Type} (token : List Char → Option (α × Nat)) (make : α → Expr) : Choice := fun c =>
  .ok ((token c.rest).map fun (a, n) => (make a, c.skip n))

/-- A keyword or symbol. -/
def operator : Choice := ofToken Token.operator? .operator

/-- A string literal. A fault in it leaves the reader at the opening quote. -/
def string : Choice := fun c =>
  if c.peek? = some '"' then
    match Literal.decode c with
    | .error fault => .error ⟨fault, c.pos⟩
    | .ok (s, c') => .ok (some (.text (String.ofList s), c'))
  else .ok none

/-- An identifier. -/
def identifier : Choice := ofToken Token.name? .name

/-- An integer. -/
def integer : Choice := ofToken Token.integer? fun n => .int n

/-- A numeral with fraction or exponent, or an integer too large for 64 bits. -/
def floating : Choice := ofToken Token.decimal? fun d => .float d.toFloat

/-! ## Lists -/

/-- Whether a reader of lists has room for a list, which shows in the empty one. -/
def hasRoom (list : Cursor → Except Failure (List Expr × Cursor)) : Bool :=
  (list ⟨0, ['(', ')']⟩).isOk

/-- A quote and a list. A list is missed only if there is room for one. -/
def quotedList (list : Cursor → Except Failure (List Expr × Cursor)) : Choice := fun c =>
  if c.peek? = some '\x27' then
    if c.next.peek? = some '(' then
      (list c.next).map fun (items, c') => some (.quoted items, c')
    else if hasRoom list then .error (missing .listAfterQuote c.next)
    else .error ⟨.tooDeep, c.next.pos⟩
  else .ok none

/-- A list. -/
def plainList (list : Cursor → Except Failure (List Expr × Cursor)) : Choice := fun c =>
  if c.peek? = some '(' then (list c).map fun (items, c') => some (.form items, c')
  else .ok none

/-! ## Choosing -/

/-- The first alternative that does not decline. -/
def firstOf : List Choice → Choice
  | [], _ => .ok none
  | choice :: others, c =>
    match choice c with
    | .ok none => firstOf others c
    | taken => taken

/-- The alternatives of the grammar in order, over a reader of lists. -/
def choices (list : Cursor → Except Failure (List Expr × Cursor)) : List Choice :=
  [operator, string, identifier, integer, floating, quotedList list, plainList list]

/-- An expression, over a reader of lists. -/
def readWith (list : Cursor → Except Failure (List Expr × Cursor)) (c : Cursor) :
    Except Failure (Expr × Cursor) :=
  match firstOf (choices list) c with
  | .error failure => .error failure
  | .ok none => .error (missing .expression c)
  | .ok (some r) => .ok r

/-! ## Rules move ahead -/

/-- Every success of a reader leaves fewer characters ahead. -/
def Shortens {α : Type} (read : Cursor → Except Failure (α × Cursor)) : Prop :=
  ∀ ⦃c c' : Cursor⦄ ⦃a : α⦄, read c = .ok (a, c') → c'.rest.length < c.rest.length

/-- A reader that moves ahead whenever it succeeds. -/
structure Rule (α : Type) where
  run : Cursor → Except Failure (α × Cursor)
  shortens : Shortens run

/-- The elements of a list up to its closing bracket, with spaces between each two. -/
def elements (item : Rule Expr) (c : Cursor) : Except Failure (List Expr × Cursor) :=
  match _h : item.run c with
  | .error failure => .error failure
  | .ok (e, c₁) =>
    if c₁.skipSpaces.peek? = some ')' then .ok ([e], c₁.skipSpaces.next)
    else if c₁.spaces = 0 then .error (missing .separator c₁)
    else (elements item c₁.skipSpaces).map fun (es, c₂) => (e :: es, c₂)
termination_by c.rest.length
decreasing_by exact Nat.lt_of_le_of_lt (Cursor.length_skip_le _ _) (item.shortens _h)

/-- A list: one character, which the caller has looked at, and the elements up to the closing
bracket. -/
def sequence (item : Rule Expr) (c : Cursor) : Except Failure (List Expr × Cursor) :=
  let c₁ := c.next.skipSpaces
  if c₁.peek? = some ')' then .ok ([], c₁.next) else elements item c₁

/-- The alternatives that read something move ahead. -/
def Choice.Shortens (choice : Choice) : Prop :=
  ∀ ⦃c c' : Cursor⦄ ⦃e : Expr⦄, choice c = .ok (some (e, c')) → c'.rest.length < c.rest.length

/-- A token takes one character at least, and not more than there are. -/
theorem ofToken_shortens {α : Type} {token : List Char → Option (α × Nat)} {make : α → Expr}
    (h : ∀ {s a n}, token s = some (a, n) → 0 < n ∧ n ≤ s.length) :
    (ofToken token make).Shortens := by
  intro c c' e he
  simp only [ofToken, Except.ok.injEq] at he
  obtain ⟨⟨a, n⟩, hn, heq⟩ := Option.map_eq_some_iff.1 he
  obtain ⟨-, rfl⟩ := Prod.mk.inj heq
  obtain ⟨hpos, hle⟩ := h hn
  exact Cursor.length_skip_lt hpos (List.length_pos_iff.1 (Nat.lt_of_lt_of_le hpos hle))

theorem operator_shortens : operator.Shortens := ofToken_shortens Token.operator?_eq_some

theorem identifier_shortens : identifier.Shortens := ofToken_shortens Token.name?_eq_some

theorem integer_shortens : integer.Shortens := ofToken_shortens Token.integer?_eq_some

theorem floating_shortens : floating.Shortens := ofToken_shortens Token.decimal?_eq_some

theorem string_shortens : string.Shortens := by
  intro c c' e he
  simp only [string] at he
  split at he
  · split at he
    · simp at he
    · next s c₁ hd =>
      simp only [Except.ok.injEq, Option.some.injEq, Prod.mk.injEq] at he
      rw [← he.2]
      exact Literal.length_decode_lt hd
  · simp at he

theorem quotedList_shortens {list : Cursor → Except Failure (List Expr × Cursor)}
    (h : Shortens list) : (quotedList list).Shortens := by
  intro c c' e he
  simp only [quotedList] at he
  split at he
  · split at he
    · obtain ⟨⟨es, c₁⟩, hlist, heq⟩ := Literal.exists_of_map_eq_ok he
      obtain ⟨-, rfl⟩ := Prod.mk.inj (Option.some.inj heq)
      exact Nat.lt_of_lt_of_le (h hlist) (Cursor.length_skip_le _ _)
    · split at he <;> simp at he
  · simp at he

theorem plainList_shortens {list : Cursor → Except Failure (List Expr × Cursor)}
    (h : Shortens list) : (plainList list).Shortens := by
  intro c c' e he
  simp only [plainList] at he
  split at he
  · obtain ⟨⟨es, c₁⟩, hlist, heq⟩ := Literal.exists_of_map_eq_ok he
    obtain ⟨-, rfl⟩ := Prod.mk.inj (Option.some.inj heq)
    exact h hlist
  · simp at he

/-- The alternative that is taken shortens the source. -/
theorem firstOf_shortens {choices : List Choice} (h : ∀ choice ∈ choices, choice.Shortens) :
    (firstOf choices).Shortens := by
  induction choices with
  | nil => intro c c' e he; simp [firstOf] at he
  | cons choice others ih =>
    intro c c' e he
    simp only [firstOf] at he
    split at he
    · exact ih (fun x hx => h x (List.mem_cons_of_mem _ hx)) he
    · exact h choice List.mem_cons_self he

/-- An expression shortens the source if lists do. -/
theorem readWith_shortens {list : Cursor → Except Failure (List Expr × Cursor)}
    (h : Shortens list) : Shortens (readWith list) := by
  intro c c' e he
  have hall : ∀ choice ∈ choices list, choice.Shortens := by
    simp only [choices, List.mem_cons, List.not_mem_nil, or_false, forall_eq_or_imp, forall_eq]
    exact ⟨operator_shortens, string_shortens, identifier_shortens, integer_shortens,
      floating_shortens, quotedList_shortens h, plainList_shortens h⟩
  simp only [readWith] at he
  split at he
  · simp at he
  · simp at he
  · next r hr =>
    simp only [Except.ok.injEq] at he
    subst he
    exact firstOf_shortens hall hr

/-- Each turn of the loop shortens the source, since every element does. -/
theorem elements_shortens (item : Rule Expr) : Shortens (elements item) := by
  intro c c' es he
  fun_induction elements item c generalizing c' es with
  | case1 => simp at he
  | case2 c e c₁ h _ =>
    simp only [Except.ok.injEq, Prod.mk.injEq] at he
    rw [← he.2]
    refine Nat.lt_of_le_of_lt ?_ (item.shortens h)
    exact Nat.le_trans (Cursor.length_skip_le _ _) (Cursor.length_skip_le _ _)
  | case3 => simp at he
  | case4 c e c₁ h _ _ ih =>
    obtain ⟨⟨others, c₂⟩, hmore, heq⟩ := Literal.exists_of_map_eq_ok he
    obtain ⟨-, rfl⟩ := Prod.mk.inj heq
    refine Nat.lt_trans (ih hmore) (Nat.lt_of_le_of_lt ?_ (item.shortens h))
    exact Cursor.length_skip_le _ _

/-- A list takes its opening bracket at least. -/
theorem sequence_shortens (item : Rule Expr) : Shortens (sequence item) := by
  intro c c' es he
  have hle : c.next.skipSpaces.rest.length ≤ c.rest.length :=
    Nat.le_trans (Cursor.length_skip_le _ _) (Cursor.length_skip_le _ _)
  simp only [sequence] at he
  split at he
  · next hp =>
    simp only [Except.ok.injEq, Prod.mk.injEq] at he
    rw [← he.2]
    refine Nat.lt_of_lt_of_le (Cursor.length_skip_lt Nat.one_pos ?_) hle
    exact Cursor.rest_ne_nil_of_peek? hp
  · exact Nat.lt_of_lt_of_le (elements_shortens item he) hle

/-! ## Expressions -/

/-- The refusal of a list that nests too deep. -/
def refuse {α : Type} (c : Cursor) : Except Failure (α × Cursor) := .error ⟨.tooDeep, c.pos⟩

theorem refuse_shortens {α : Type} : Shortens (refuse (α := α)) := by
  intro c c' a h
  simp [refuse] at h

/-- The rule for expressions in which lists nest at most `levels` deep. -/
def expression : (levels : Nat) → Rule Expr
  | 0 => ⟨readWith refuse, readWith_shortens refuse_shortens⟩
  | levels + 1 =>
    ⟨readWith (sequence (expression levels)), readWith_shortens (sequence_shortens _)⟩

/-- The reader of lists inside which lists nest at most `levels - 1` deep. -/
def listReader : (levels : Nat) → Cursor → Except Failure (List Expr × Cursor)
  | 0 => refuse
  | levels + 1 => sequence (expression levels)

/-- There is room for a list exactly if there is room for one level. -/
theorem hasRoom_listReader (levels : Nat) : hasRoom (listReader levels) = decide (0 < levels) := by
  cases levels <;> rfl

/-- Expressions are read over lists that have one level less. -/
theorem expression_run (levels : Nat) : (expression levels).run = readWith (listReader levels) := by
  cases levels <;> rfl

/-! ## Sources -/

/-- How deep the lists of a source may nest. -/
def maxNesting : Nat := 2000

/-- The expression of a source whose lists nest at most `levels` deep. -/
def parseWithin (levels : Nat) (source : List Char) : Except ReadError Expr :=
  let c := Cursor.start source
  match (expression levels).run (c.skip (c.count Text.isBlank)) with
  | .error failure => .error (.malformed failure.fault)
  | .ok (e, c') => if Text.isBlankText c'.rest then .ok e else .error (.trailing c'.rest)

end Lisp.Reader

namespace Lisp

/-- The expression of a source. -/
def parse (source : String) : Except ReadError Expr :=
  Reader.parseWithin Reader.maxNesting source.toList

end Lisp
