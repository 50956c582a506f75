/-
# The rules of the reader go ahead

Whatever a rule finds, it does not go back, and it does not leave the source.  Where it succeeds it
has passed one character at least, and where it fails it stands at a place that it has come to.

* `Reader.GoesAhead` : a reader that goes ahead, whether it succeeds or fails;
* `Reader.goesAhead_elements` : the loop over the elements of a list, turn by turn;
* `Reader.goesAhead_choices` : every alternative, over lists that go ahead;
* `Reader.goesAhead_expression` : expressions, however deep lists may nest.
-/
import Lisp.Proofs.Acceptance

namespace Lisp.Reader

/-! ## The rules go ahead -/

/-- The places from a cursor on, up to the end of its source. -/
def Spans (c : Cursor) (p : Nat) : Prop := c.pos ≤ p ∧ p ≤ c.pos + c.rest.length

theorem spans_self (c : Cursor) : Spans c c.pos := ⟨Nat.le_refl _, Nat.le_add_right _ _⟩

/-- The places from a later cursor on are among those from an earlier one on. -/
theorem Passes.spans {c c₁ : Cursor} {t : List Char} {p : Nat} (h : Passes c t c₁)
    (hp : Spans c₁ p) : Spans c p := by
  obtain ⟨hlo, hhi⟩ := hp
  have hlength := congrArg List.length h.rest
  have hpos := h.pos
  rw [List.length_append] at hlength
  exact ⟨by omega, by omega⟩

/-- A reader whose failures stand between its start and the end of the source. -/
def FailsAhead {α : Type} (read : Cursor → Except Failure α) : Prop :=
  ∀ ⦃c : Cursor⦄ ⦃failure : Failure⦄, read c = .error failure → Spans c failure.pos

/-- A reader that passes one character at least when it succeeds, and never leaves the source. -/
structure GoesAhead {α : Type} (read : Cursor → Except Failure (α × Cursor)) : Prop where
  passes : ∀ ⦃c c' : Cursor⦄ ⦃a : α⦄, read c = .ok (a, c') → ∃ t, t ≠ [] ∧ Passes c t c'
  fails : FailsAhead read

/-- An alternative that passes one character at least when it reads something, and never leaves the
source. -/
structure Choice.GoesAhead (choice : Choice) : Prop where
  passes : ∀ ⦃c c' : Cursor⦄ ⦃e : Expr⦄, choice c = .ok (some (e, c')) →
    ∃ t, t ≠ [] ∧ Passes c t c'
  fails : FailsAhead choice

section GoesAhead

variable {item : Rule Expr} {list : Cursor → Except Failure (List Expr × Cursor)}

/-- Each turn of the loop over the elements goes ahead, so the whole loop does. -/
theorem goesAhead_elements (hitem : GoesAhead item.run) : GoesAhead (elements item) where
  passes := by
    intro c c' es h
    fun_induction elements item c generalizing c' es with
    | case1 => simp at h
    | case2 c e c₁ hrun hclose =>
      obtain ⟨-, rfl⟩ := Prod.mk.inj (Except.ok.inj h)
      obtain ⟨t, hne, ht⟩ := hitem.passes hrun
      exact ⟨_, by simp [hne], ht.trans ((passes_skipSpaces c₁).trans (passes_next hclose))⟩
    | case3 => simp at h
    | case4 c e c₁ hrun _ _ ih =>
      obtain ⟨⟨others, c₂⟩, hmore, heq⟩ := Literal.exists_of_map_eq_ok h
      obtain ⟨-, rfl⟩ := Prod.mk.inj heq
      obtain ⟨t, hne, ht⟩ := hitem.passes hrun
      obtain ⟨u, -, hu⟩ := ih hmore
      exact ⟨_, by simp [hne], ht.trans ((passes_skipSpaces c₁).trans hu)⟩
  fails := by
    intro c failure h
    fun_induction elements item c with
    | case1 c _ hrun =>
      obtain rfl := Except.error.inj h
      exact hitem.fails hrun
    | case2 => simp at h
    | case3 c e c₁ hrun _ _ =>
      obtain rfl := Except.error.inj h
      obtain ⟨t, -, ht⟩ := hitem.passes hrun
      exact ht.spans (spans_self c₁)
    | case4 c e c₁ hrun _ _ ih =>
      obtain ⟨t, -, ht⟩ := hitem.passes hrun
      exact (ht.trans (passes_skipSpaces c₁)).spans (ih (Literal.eq_error_of_map_eq_error h))

/-- A list goes ahead by its opening bracket at least, and its elements go on from there. -/
theorem goesAhead_sequence (hitem : GoesAhead item.run) : GoesAhead (sequence item) where
  passes := by
    intro c c' es h
    have hspaces := (passes_skip c 1).trans (passes_skipSpaces c.next)
    simp only [sequence] at h
    split at h
    · next hclose =>
      obtain ⟨-, rfl⟩ := Prod.mk.inj (Except.ok.inj h)
      exact ⟨_, by simp, hspaces.trans (passes_next hclose)⟩
    · obtain ⟨t, hne, ht⟩ := (goesAhead_elements hitem).passes h
      exact ⟨_, by simp [hne], hspaces.trans ht⟩
  fails := by
    intro c failure h
    simp only [sequence] at h
    split at h
    · simp at h
    · exact ((passes_skip c 1).trans (passes_skipSpaces c.next)).spans
        ((goesAhead_elements hitem).fails h)

/-- Where there is no room for a list, the reader fails at the place where it begins. -/
theorem goesAhead_refuse {α : Type} : GoesAhead (refuse (α := α)) where
  passes := nofun
  fails := by
    intro c failure h
    obtain rfl := Except.error.inj h
    exact spans_self c

/-- A token that is read is not empty, and an alternative for a token never fails. -/
theorem goesAhead_ofToken {α : Type} {token : List Char → Option (α × Nat)} {make : α → Expr}
    (h : ∀ {s a n}, token s = some (a, n) → 0 < n ∧ n ≤ s.length) :
    (ofToken token make).GoesAhead where
  passes := by
    intro c c' e hread
    obtain ⟨a, n, htoken, heq⟩ := token_of_ofToken_some hread
    obtain ⟨-, rfl⟩ := Prod.mk.inj heq
    obtain ⟨hpos, hle⟩ := h htoken
    refine ⟨c.rest.take n, ?_, passes_skip c n⟩
    rw [← List.length_pos_iff, List.length_take_of_le hle]
    exact hpos
  fails := nofun

/-- A string literal passes its quotes at least, and it fails at the opening one. -/
theorem goesAhead_string : Choice.GoesAhead string where
  passes := by
    intro c c' e h
    obtain ⟨t, ht, hderives, -⟩ := derives_of_string h
    obtain ⟨x, r, rfl, -⟩ := begins_of_derives hderives
    exact ⟨x :: r, List.cons_ne_nil x r, ht⟩
  fails := by
    intro c failure h
    unfold string at h
    split at h
    · split at h
      · obtain rfl := Except.error.inj h
        exact spans_self c
      · simp at h
    · simp at h

/-- A quote in front of a list is passed before the list is read or found missing. -/
theorem goesAhead_quotedList (hlist : GoesAhead list) : (quotedList list).GoesAhead where
  passes := by
    intro c c' e h
    unfold quotedList at h
    split at h
    · next hquote =>
      split at h
      · obtain ⟨⟨es, c₁⟩, hread, heq⟩ := Literal.exists_of_map_eq_ok h
        obtain ⟨-, rfl⟩ := Prod.mk.inj (Option.some.inj heq)
        obtain ⟨t, -, ht⟩ := hlist.passes hread
        exact ⟨_, List.cons_ne_nil _ t, (passes_next hquote).trans ht⟩
      · split at h <;> simp at h
    · simp at h
  fails := by
    intro c failure h
    unfold quotedList at h
    split at h
    · next hquote =>
      have hnext := passes_next hquote
      split at h
      · exact hnext.spans (hlist.fails (Literal.eq_error_of_map_eq_error h))
      · split at h
        · obtain rfl := Except.error.inj h
          exact hnext.spans (spans_self c.next)
        · obtain rfl := Except.error.inj h
          exact hnext.spans (spans_self c.next)
    · simp at h

theorem goesAhead_plainList (hlist : GoesAhead list) : (plainList list).GoesAhead where
  passes := by
    intro c c' e h
    unfold plainList at h
    split at h
    · obtain ⟨⟨es, c₁⟩, hread, heq⟩ := Literal.exists_of_map_eq_ok h
      obtain ⟨-, rfl⟩ := Prod.mk.inj (Option.some.inj heq)
      exact hlist.passes hread
    · simp at h
  fails := by
    intro c failure h
    unfold plainList at h
    split at h
    · exact hlist.fails (Literal.eq_error_of_map_eq_error h)
    · simp at h

/-- Every alternative goes ahead over lists that do. -/
theorem goesAhead_choices (hlist : GoesAhead list) :
    ∀ choice ∈ choices list, choice.GoesAhead := by
  simp only [choices, List.mem_cons, List.not_mem_nil, or_false, forall_eq_or_imp, forall_eq]
  exact ⟨goesAhead_ofToken Token.operator?_eq_some, goesAhead_string,
    goesAhead_ofToken Token.name?_eq_some, goesAhead_ofToken Token.integer?_eq_some,
    goesAhead_ofToken Token.decimal?_eq_some, goesAhead_quotedList hlist,
    goesAhead_plainList hlist⟩

/-- The first alternative that is taken goes ahead, since each of them does. -/
theorem goesAhead_firstOf {choices : List Choice} (h : ∀ choice ∈ choices, choice.GoesAhead) :
    (firstOf choices).GoesAhead where
  passes := by
    intro c c' e hread
    induction choices with
    | nil => simp [firstOf] at hread
    | cons choice others ih =>
      obtain ⟨hfirst, hothers⟩ := List.forall_mem_cons.1 h
      rcases firstOf_cases hread with hread | ⟨-, hread⟩
      · exact hfirst.passes hread
      · exact ih hothers hread
  fails := by
    intro c failure hfail
    obtain ⟨choice, hmem, hfail⟩ := firstOf_eq_error hfail
    exact (h choice hmem).fails hfail

/-- Where no alternative is taken, the failure stands at the beginning. -/
theorem goesAhead_readWith (hlist : GoesAhead list) : GoesAhead (readWith list) := by
  have hall := goesAhead_firstOf (goesAhead_choices hlist)
  constructor
  · intro c c' e h
    exact hall.passes (firstOf_of_readWith h)
  · intro c failure h
    unfold readWith at h
    split at h
    · next hfirst =>
      obtain rfl := Except.error.inj h
      exact hall.fails hfirst
    · obtain rfl := Except.error.inj h
      exact spans_self c
    · simp at h

end GoesAhead

/-- **Expressions go ahead**, however deep their lists may nest. -/
theorem goesAhead_expression (levels : Nat) : GoesAhead (expression levels).run := by
  induction levels with
  | zero => exact goesAhead_readWith goesAhead_refuse
  | succ levels ih => exact goesAhead_readWith (goesAhead_sequence ih)

theorem goesAhead_listReader (levels : Nat) : GoesAhead (listReader levels) := by
  cases levels with
  | zero => exact goesAhead_refuse
  | succ levels => exact goesAhead_sequence (goesAhead_expression levels)

end Lisp.Reader
