/-
# The reader reads every text of the grammar

The reader is an ordered choice without backtracking, the grammar is neither ordered nor greedy.
A text of the grammar is nevertheless read as the expression that it spells, wherever it is followed
by the end of a word.  The only other answer of the reader to a text of the grammar is the refusal
of lists that nest deeper than it has room for.

* `Reader.Answers`, `Reader.Reads` : the answer to a text of the grammar, and that it is given;
* `Reader.listReader_answers` : the texts of lists;
* `Reader.run_append_of_derives` : completeness, for an expression at any place of a source.
-/
import Lisp.Reader
import Lisp.Proofs.Numeral
import Lisp.Proofs.Literal

namespace Lisp.Reader

open Grammar Token

/-! ## Places -/

/-- The place behind a text that comes next. -/
theorem skip_append (pos : Nat) (t q : List Char) :
    (Cursor.mk pos (t ++ q)).skip t.length = ⟨pos + t.length, q⟩ := by
  simp [Cursor.skip]

theorem peek?_mk_cons (pos : Nat) (c : Char) (r : List Char) :
    (Cursor.mk pos (c :: r)).peek? = some c := rfl

theorem next_mk_cons (pos : Nat) (c : Char) (r : List Char) :
    (Cursor.mk pos (c :: r)).next = ⟨pos + 1, r⟩ := rfl

/-- Spaces are counted up to the first other character. -/
theorem spaces_mk_append (pos n : Nat) {r : List Char} (hr : r.head? ≠ some ' ') :
    (Cursor.mk pos (spaces n ++ r)).spaces = n := by
  have hrun : (spaces n ++ r).takeWhile (· = ' ') = spaces n := by
    apply takeWhile_append
    · intro x hx
      simpa using (List.mem_replicate.1 hx).2
    · intro c hc
      have hne : c ≠ ' ' := fun h => hr (h ▸ hc)
      simpa using hne
  rw [Cursor.spaces, Cursor.count, hrun, length_spaces]

/-- The place behind spaces, up to the first other character. -/
theorem skipSpaces_mk_append (pos n : Nat) {r : List Char} (hr : r.head? ≠ some ' ') :
    (Cursor.mk pos (spaces n ++ r)).skipSpaces = ⟨pos + n, r⟩ := by
  have h := skip_append pos (spaces n) r
  rw [length_spaces] at h
  rw [Cursor.skipSpaces, spaces_mk_append pos n hr, h]

/-- What lies ahead of a place is some spaces and what lies behind them. -/
theorem rest_eq_spaces_append (c : Cursor) : c.rest = spaces c.spaces ++ c.skipSpaces.rest := by
  have hrun : c.rest.takeWhile (· = ' ') = spaces c.spaces := by
    refine List.eq_replicate_iff.2 ⟨rfl, fun x hx => ?_⟩
    simpa using forall_mem_takeWhile _ c.rest x hx
  rw [Cursor.skipSpaces, Cursor.rest_skip, Cursor.spaces, Cursor.count, drop_length_takeWhile,
    ← Cursor.count, ← Cursor.spaces, ← hrun, List.takeWhile_append_dropWhile]

/-! ## Choosing -/

section Choosing

variable {list : Cursor → Except Failure (List Expr × Cursor)} {choice : Choice}
  {others : List Choice} {c : Cursor} {r : Expr × Cursor}

/-- An alternative that declines leaves the choice to the others. -/
theorem firstOf_of_decline (h : choice c = .ok none) :
    firstOf (choice :: others) c = firstOf others c := by
  simp only [firstOf, h]

/-- The first alternative that reads something is taken, whatever the others would read. -/
theorem firstOf_of_read (h : choice c = .ok (some r)) :
    firstOf (choice :: others) c = .ok (some r) := by
  simp only [firstOf, h]

/-- If an alternative is taken, either the first one is or that one declines. -/
theorem firstOf_cases (h : firstOf (choice :: others) c = .ok (some r)) :
    choice c = .ok (some r) ∨ choice c = .ok none ∧ firstOf others c = .ok (some r) := by
  rw [firstOf] at h
  split at h
  · next hnone => exact Or.inr ⟨hnone, h⟩
  · exact Or.inl h

/-- Where there is no token, its alternative declines. -/
theorem ofToken_of_none {α : Type} {token : List Char → Option (α × Nat)} {make : α → Expr}
    (h : token c.rest = none) : ofToken token make c = .ok none := by
  rw [ofToken, h, Option.map_none]

/-- Where there is a token, its alternative reads it up to its end. -/
theorem ofToken_of_some {α : Type} {token : List Char → Option (α × Nat)} {make : α → Expr}
    {a : α} {n : Nat} (h : token c.rest = some (a, n)) :
    ofToken token make c = .ok (some (make a, c.skip n)) := by
  rw [ofToken, h, Option.map_some]

/-- What an alternative for a token has read was such a token. -/
theorem token_of_ofToken_some {α : Type} {token : List Char → Option (α × Nat)} {make : α → Expr}
    (h : ofToken token make c = .ok (some r)) :
    ∃ a n, token c.rest = some (a, n) ∧ r = (make a, c.skip n) := by
  obtain ⟨⟨a, n⟩, htoken, rfl⟩ := Option.map_eq_some_iff.1 (Except.ok.inj h)
  exact ⟨a, n, htoken, rfl⟩

/-- Where an alternative for a token has declined, there was none. -/
theorem token_of_ofToken_none {α : Type} {token : List Char → Option (α × Nat)} {make : α → Expr}
    (h : ofToken token make c = .ok none) : token c.rest = none :=
  Option.map_eq_none_iff.1 (Except.ok.inj h)

/-- What an alternative reads is the expression. -/
theorem readWith_of_firstOf (h : firstOf (choices list) c = .ok (some r)) :
    readWith list c = .ok r := by
  simp only [readWith, h]

theorem firstOf_of_readWith (h : readWith list c = .ok r) :
    firstOf (choices list) c = .ok (some r) := by
  unfold readWith at h
  split at h
  · simp at h
  · simp at h
  · next hread =>
    obtain rfl := Except.ok.inj h
    exact hread

end Choosing

/-! ## The beginning of an expression -/

/-- A decimal begins with a digit or a point. -/
theorem decimal?_cons_eq_none {c : Char} (hd : c.isDigit = false) (hp : c ≠ '.') (r : List Char) :
    decimal? (c :: r) = none := by
  have hrun : digits (c :: r) = [] := by
    rw [digits, List.takeWhile_cons, hd]
    rfl
  have hm : mantissa? (c :: r) = none := by
    simp only [mantissa?, hrun, List.length_nil, List.drop_zero]
    split
    · next h => exact absurd (List.cons.inj h).1 hp
    · rfl
  rw [decimal?, hm, Option.map_none]

/-- The marks of string literals and lists begin no other kind of expression. -/
theorem tokens_of_mark {c : Char} (hc : c = '"' ∨ c = '\x27' ∨ c = '(') (r : List Char) :
    operator? (c :: r) = none ∧ name? (c :: r) = none ∧ integer? (c :: r) = none ∧
      decimal? (c :: r) = none := by
  have hclass : ¬ IsSymbol c ∧ isNameStart c = false ∧ c.isDigit = false ∧
      c ≠ '.' := by
    rcases hc with rfl | rfl | rfl <;> decide
  obtain ⟨hsymbol, hstart, hdigit, hpoint⟩ := hclass
  exact ⟨operator?_cons_eq_none hsymbol hstart r, name?_cons_eq_none hstart r,
    integer?_cons_eq_none hdigit r, decimal?_cons_eq_none hdigit hpoint r⟩

section Atoms

variable {list : Cursor → Except Failure (List Expr × Cursor)} {c : Cursor} {n : Nat}

theorem operator_of_none (h : operator? c.rest = none) : operator c = .ok none :=
  ofToken_of_none h

theorem identifier_of_none (h : name? c.rest = none) : identifier c = .ok none :=
  ofToken_of_none h

theorem integer_of_none (h : integer? c.rest = none) : integer c = .ok none :=
  ofToken_of_none h

theorem floating_of_none (h : decimal? c.rest = none) : floating c = .ok none :=
  ofToken_of_none h

theorem string_of_peek?_ne (h : c.peek? ≠ some '"') : string c = .ok none :=
  if_neg h

theorem quotedList_of_peek?_ne (h : c.peek? ≠ some '\x27') : quotedList list c = .ok none :=
  if_neg h

/-- An operator is tried first, so it is read wherever there is one. -/
theorem readWith_operator {op : Operator} (h : operator? c.rest = some (op, n)) :
    readWith list c = .ok (.operator op, c.skip n) :=
  readWith_of_firstOf (firstOf_of_read (ofToken_of_some h))

/-- A name is read where there is neither an operator nor a string literal. -/
theorem readWith_name {id : String} (hop : operator? c.rest = none) (hs : c.peek? ≠ some '"')
    (h : name? c.rest = some (id, n)) : readWith list c = .ok (.name id, c.skip n) := by
  apply readWith_of_firstOf
  rw [choices, firstOf_of_decline (operator_of_none hop),
    firstOf_of_decline (string_of_peek?_ne hs)]
  exact firstOf_of_read (ofToken_of_some h)

/-- An integer is read where there is no name either. -/
theorem readWith_integer {v : Nat} (hop : operator? c.rest = none) (hs : c.peek? ≠ some '"')
    (hname : name? c.rest = none) (h : integer? c.rest = some (v, n)) :
    readWith list c = .ok (.int v, c.skip n) := by
  apply readWith_of_firstOf
  rw [choices, firstOf_of_decline (operator_of_none hop),
    firstOf_of_decline (string_of_peek?_ne hs), firstOf_of_decline (identifier_of_none hname)]
  exact firstOf_of_read (ofToken_of_some h)

/-- A double is read where none of the alternatives before it is taken. -/
theorem readWith_float {d : Decimal} (hop : operator? c.rest = none) (hs : c.peek? ≠ some '"')
    (hname : name? c.rest = none) (hint : integer? c.rest = none)
    (h : decimal? c.rest = some (d, n)) :
    readWith list c = .ok (.float d.toFloat, c.skip n) := by
  apply readWith_of_firstOf
  rw [choices, firstOf_of_decline (operator_of_none hop),
    firstOf_of_decline (string_of_peek?_ne hs), firstOf_of_decline (identifier_of_none hname),
    firstOf_of_decline (integer_of_none hint)]
  exact firstOf_of_read (ofToken_of_some h)

/-- A string literal is read as far as it can be decoded. -/
theorem readWith_string {v r : List Char} {pos : Nat} {c' : Cursor}
    (h : Literal.decode ⟨pos, '"' :: r⟩ = .ok (v, c')) :
    readWith list ⟨pos, '"' :: r⟩ = .ok (.text (String.ofList v), c') := by
  obtain ⟨hop, -⟩ := tokens_of_mark (Or.inl rfl) r
  apply readWith_of_firstOf
  rw [choices, firstOf_of_decline (operator_of_none hop)]
  apply firstOf_of_read
  rw [string, if_pos (peek?_mk_cons _ _ _), h]

end Atoms

/-- At an opening bracket only the list that begins there is read. -/
theorem readWith_form (list : Cursor → Except Failure (List Expr × Cursor)) (pos : Nat)
    (r : List Char) :
    readWith list ⟨pos, '(' :: r⟩ =
      (list ⟨pos, '(' :: r⟩).map fun (items, c') => (.form items, c') := by
  obtain ⟨hop, hname, hint, hdec⟩ := tokens_of_mark (Or.inr (Or.inr rfl)) r
  have hs : (Cursor.mk pos ('(' :: r)).peek? ≠ some '"' := by simp [Cursor.peek?]
  have hq : (Cursor.mk pos ('(' :: r)).peek? ≠ some '\x27' := by simp [Cursor.peek?]
  have hlist : plainList list ⟨pos, '(' :: r⟩ =
      (list ⟨pos, '(' :: r⟩).map fun (items, c') => some (.form items, c') :=
    if_pos (peek?_mk_cons _ _ _)
  rw [readWith, choices, firstOf_of_decline (operator_of_none hop),
    firstOf_of_decline (string_of_peek?_ne hs), firstOf_of_decline (identifier_of_none hname),
    firstOf_of_decline (integer_of_none hint), firstOf_of_decline (floating_of_none hdec),
    firstOf_of_decline (quotedList_of_peek?_ne hq), firstOf, hlist]
  cases list ⟨pos, '(' :: r⟩ with
  | error f => rfl
  | ok x => rfl

/-- At a quote before an opening bracket only the list that begins there is read. -/
theorem readWith_quoted (list : Cursor → Except Failure (List Expr × Cursor)) (pos : Nat)
    (r : List Char) :
    readWith list ⟨pos, '\x27' :: '(' :: r⟩ =
      (list ⟨pos + 1, '(' :: r⟩).map fun (items, c') => (.quoted items, c') := by
  obtain ⟨hop, hname, hint, hdec⟩ := tokens_of_mark (Or.inr (Or.inl rfl)) ('(' :: r)
  have hs : (Cursor.mk pos ('\x27' :: '(' :: r)).peek? ≠ some '"' := by simp [Cursor.peek?]
  have hlist : quotedList list ⟨pos, '\x27' :: '(' :: r⟩ =
      (list ⟨pos + 1, '(' :: r⟩).map fun (items, c') => some (.quoted items, c') := by
    rw [quotedList, if_pos (peek?_mk_cons _ _ _), next_mk_cons, if_pos (peek?_mk_cons _ _ _)]
  rw [readWith, choices, firstOf_of_decline (operator_of_none hop),
    firstOf_of_decline (string_of_peek?_ne hs), firstOf_of_decline (identifier_of_none hname),
    firstOf_of_decline (integer_of_none hint), firstOf_of_decline (floating_of_none hdec), firstOf,
    hlist]
  cases list ⟨pos + 1, '(' :: r⟩ with
  | error f => rfl
  | ok x => rfl

/-- A number begins neither an operator nor a string literal nor a name. -/
theorem tokens_of_number {c : Char} (hc : c.isDigit = true ∨ c = '.') (pos : Nat)
    (r : List Char) :
    operator? (c :: r) = none ∧ (Cursor.mk pos (c :: r)).peek? ≠ some '"' ∧
      name? (c :: r) = none := by
  have hclass : ¬ IsSymbol c ∧ isNameStart c = false ∧ c ≠ '"' := by
    rcases hc with hc | rfl
    · refine ⟨?_, not_isNameStart_of_isDigit hc, ?_⟩
      · apply not_isSymbol_of_isNameChar
        rw [isNameChar, Char.isAlphanum, hc, Bool.or_true, Bool.true_or]
      · rintro rfl
        exact absurd hc (by decide)
    · decide
  obtain ⟨hsymbol, hstart, hquote⟩ := hclass
  exact ⟨operator?_cons_eq_none hsymbol hstart r, by simpa [Cursor.peek?] using hquote,
    name?_cons_eq_none hstart r⟩

/-- A text that does not begin with white space or with a closing bracket. -/
def Begins (t : List Char) : Prop := ∃ c r, t = c :: r ∧ Text.isBlank c = false ∧ c ≠ ')'

/-- A printable character of seven bits begins a text, but for the closing bracket. -/
theorem begins_of_code {c : Char} (hlo : 33 ≤ c.toNat) (hhi : c.toNat ≤ 126)
    (hne : c.toNat ≠ 41) (r : List Char) : Begins (c :: r) := by
  refine ⟨c, r, rfl, ?_, ?_⟩
  · rw [Bool.eq_false_iff]
    intro hblank
    have hcode := toNat_of_isBlank hblank
    omega
  · rintro rfl
    exact hne rfl

theorem begins_of_isDigit {c : Char} (hc : c.isDigit = true) (r : List Char) :
    Begins (c :: r) := by
  rw [isDigit_iff] at hc
  exact begins_of_code (by omega) (by omega) (by omega) r

theorem begins_of_isIdentifier {t : List Char} (h : IsIdentifier t) : Begins t := by
  cases t with
  | nil => exact h.elim
  | cons c r =>
    have hc := (isNameStart_iff c).1 h.1
    exact begins_of_code (by omega) (by omega) (by omega) r

/-- What begins a text is not taken for a space before it or for the end of a list. -/
theorem Begins.append {t : List Char} (h : Begins t) (q : List Char) :
    (t ++ q).head? ≠ some ' ' ∧ (t ++ q).head? ≠ some ')' := by
  obtain ⟨c, r, rfl, hblank, hclose⟩ := h
  have hspace : c ≠ ' ' := by
    rintro rfl
    exact absurd hblank (by decide)
  simpa using ⟨hspace, hclose⟩

/-- A text of an expression begins neither with white space nor with a closing bracket. -/
theorem begins_of_derives {t : List Char} {e : Expr} (h : Derives t e) : Begins t := by
  cases h with
  | keyword hk => exact begins_of_isIdentifier (isIdentifier_of_mem_keywords hk)
  | @symbol c op hs =>
    have hall : ∀ p ∈ symbols, Text.isBlank p.1 = false ∧ p.1 ≠ ')' := by decide
    exact ⟨c, [], rfl, hall _ hs⟩
  | string _ => exact ⟨'"', _, rfl, by decide, by decide⟩
  | identifier hid _ => exact begins_of_isIdentifier hid
  | integer hint =>
    cases t with
    | nil => exact hint.1.elim
    | cons c r => exact begins_of_isDigit hint.1.1 r
  | float hnum _ =>
    obtain ⟨c, r, rfl, hc | rfl⟩ := head_of_numeral hnum
    · exact begins_of_isDigit hc r
    · exact ⟨'.', r, rfl, by decide, by decide⟩
  | form _ _ => exact ⟨'(', _, rfl, by decide, by decide⟩
  | quoted _ _ => exact ⟨'\x27', _, rfl, by decide, by decide⟩

/-! ## Completeness -/

/-- The answer of a reader with room for `levels` nested lists to a text of some value: the value
and the place behind its text, unless the value nests too deep. -/
inductive Answers {α : Type} (depth : α → Nat) (levels : Nat) (a : α) (behind : Cursor) :
    Except Failure (α × Cursor) → Prop
  | read : depth a ≤ levels → Answers depth levels a behind (.ok (a, behind))
  | refused (pos : Nat) : levels < depth a → Answers depth levels a behind (.error ⟨.tooDeep, pos⟩)

section Answers

variable {α β : Type} {depth : α → Nat} {depth' : β → Nat} {levels : Nat} {a : α}
  {behind : Cursor} {answer : Except Failure (α × Cursor)}

/-- There are two answers: the value with the place behind it, or the refusal. -/
theorem Answers.eq_ok_or_eq_error (h : Answers depth levels a behind answer) :
    depth a ≤ levels ∧ answer = .ok (a, behind) ∨
      levels < depth a ∧ ∃ pos, answer = .error ⟨.tooDeep, pos⟩ := by
  cases h with
  | read hd => exact Or.inl ⟨hd, rfl⟩
  | refused pos hd => exact Or.inr ⟨hd, pos, rfl⟩

/-- What is made of a value that nests as deep. -/
theorem Answers.map {f : α → β} (hdepth : depth' (f a) = depth a)
    (h : Answers depth levels a behind answer) :
    Answers depth' levels (f a) behind (answer.map fun (x, c) => (f x, c)) := by
  cases h with
  | read hd => exact Answers.read (hdepth ▸ hd)
  | refused pos hd => exact Answers.refused pos (hdepth ▸ hd)

end Answers

/-- A reader that answers to a text of an expression wherever the end of a word follows. -/
def Reads (levels : Nat) (read : Cursor → Except Failure (Expr × Cursor)) (t : List Char)
    (e : Expr) : Prop :=
  ∀ (pos : Nat) ⦃q : List Char⦄, Ends q →
    Answers Expr.depth levels e ⟨pos + t.length, q⟩ (read ⟨pos, t ++ q⟩)

section Lists

variable {item : Rule Expr} {c c₁ : Cursor} {e : Expr}

/-- A list whose next element fails does not go on. -/
theorem elements_of_error {f : Failure} (h : item.run c = .error f) :
    elements item c = .error f := by
  rw [elements]
  split
  · next heq =>
    rw [h] at heq
    obtain rfl := Except.error.inj heq
    rfl
  · next heq => rw [h] at heq; cases heq

/-- Behind an element the list ends, lacks a space, or goes on with its other elements. -/
theorem elements_of_ok (h : item.run c = .ok (e, c₁)) :
    elements item c =
      if c₁.skipSpaces.peek? = some ')' then .ok ([e], c₁.skipSpaces.next)
      else if c₁.spaces = 0 then .error (missing .separator c₁)
      else (elements item c₁.skipSpaces).map fun (es, c₂) => (e :: es, c₂) := by
  rw [elements]
  split
  · next heq => rw [h] at heq; cases heq
  · next heq =>
    rw [h] at heq
    obtain ⟨rfl, rfl⟩ := Prod.mk.inj (Except.ok.inj heq)
    rfl

/-- An element with a closing bracket behind it is the last. -/
theorem elements_last {pos n : Nat} {w q : List Char}
    (h : item.run ⟨pos, w ++ (spaces n ++ ')' :: q)⟩ =
      .ok (e, ⟨pos + w.length, spaces n ++ ')' :: q⟩)) :
    elements item ⟨pos, w ++ (spaces n ++ ')' :: q)⟩ = .ok ([e], ⟨pos + w.length + n + 1, q⟩) := by
  have hspace : (')' :: q).head? ≠ some ' ' := by simp
  rw [elements_of_ok h, skipSpaces_mk_append _ _ hspace, if_pos (peek?_mk_cons _ _ _), next_mk_cons]

/-- An element with spaces behind it, and no closing bracket behind these, is followed by more. -/
theorem elements_more {pos n : Nat} {w r : List Char}
    (h : item.run ⟨pos, w ++ (spaces (n + 1) ++ r)⟩ =
      .ok (e, ⟨pos + w.length, spaces (n + 1) ++ r⟩))
    (hspace : r.head? ≠ some ' ') (hclose : r.head? ≠ some ')') :
    elements item ⟨pos, w ++ (spaces (n + 1) ++ r)⟩ =
      (elements item ⟨pos + w.length + (n + 1), r⟩).map fun (es, c₂) => (e :: es, c₂) := by
  have hpeek : (Cursor.mk (pos + w.length + (n + 1)) r).peek? ≠ some ')' := hclose
  rw [elements_of_ok h, spaces_mk_append _ _ hspace, skipSpaces_mk_append _ _ hspace,
    if_neg hpeek, if_neg (Nat.succ_ne_zero n)]

/-- Spaces and a closing bracket end a word. -/
theorem ends_spaces (n : Nat) (q : List Char) : Ends (spaces n ++ ')' :: q) := by
  cases n with
  | zero => exact ends_bracket q
  | succ n => exact ends_space _

/-- A space that separates two words ends the first of them. -/
theorem ends_spaces_succ (n : Nat) (q : List Char) : Ends (spaces (n + 1) ++ q) := ends_space _

/-- Separated words begin as the first of them does, so neither with a space nor with a closing
bracket. -/
theorem head?_separated_append {ws : List (List Char)} {t : List Char} (h : Separated ws t)
    (hhead : ∀ w ∈ ws, Begins w) (q : List Char) :
    (t ++ q).head? ≠ some ' ' ∧ (t ++ q).head? ≠ some ')' := by
  cases h with
  | last n =>
    rw [List.append_assoc]
    exact (hhead _ List.mem_cons_self).append _
  | cons n _ =>
    rw [List.append_assoc, List.append_assoc]
    exact (hhead _ List.mem_cons_self).append _

/-- The elements of a list are read one by one, up to the closing bracket or to the first one that
nests too deep. -/
theorem elements_answers {levels : Nat} (parts : List (List Char × Expr)) {t : List Char}
    (hsep : Separated (parts.map Prod.fst) t) (hhead : ∀ p ∈ parts, Begins p.1)
    (hitem : ∀ p ∈ parts, Reads levels item.run p.1 p.2) (pos : Nat) (q : List Char) :
    Answers Expr.depthAll levels (parts.map Prod.snd) ⟨pos + t.length + 1, q⟩
      (elements item ⟨pos, t ++ ')' :: q⟩) := by
  -- What ends an element, a space or the closing bracket, is there in both forms of separation.
  induction parts generalizing t pos with
  | nil => cases hsep
  | cons p rest ih =>
    obtain ⟨w, e⟩ := p
    have hfirst := hitem _ List.mem_cons_self pos
    simp only [List.map_cons] at hsep ⊢
    generalize hws : rest.map Prod.fst = ws at hsep
    cases hsep with
    | last n =>
      obtain rfl := List.map_eq_nil_iff.1 hws
      have hlen : pos + w.length + n + 1 = pos + (w ++ spaces n).length + 1 := by
        rw [List.length_append, length_spaces]
        omega
      rw [List.append_assoc, ← hlen, List.map_nil]
      rcases (hfirst (ends_spaces n q)).eq_ok_or_eq_error with ⟨hd, hrun⟩ | ⟨hd, stop, hrun⟩
      · rw [elements_last hrun]
        exact Answers.read (Nat.max_le.2 ⟨hd, Nat.zero_le _⟩)
      · rw [elements_of_error hrun]
        exact Answers.refused stop (Nat.lt_of_lt_of_le hd (Nat.le_max_left _ _))
    | @cons _ u _ n hsep' =>
      subst hws
      have hrest := fun p hp => hhead p (List.mem_cons_of_mem _ hp)
      have hnext := ih hsep' hrest (fun p hp => hitem p (List.mem_cons_of_mem _ hp))
        (pos + w.length + (n + 1))
      obtain ⟨hspace, hclose⟩ := head?_separated_append hsep' (by simpa using hrest) (')' :: q)
      have hlen : pos + w.length + (n + 1) + u.length + 1 =
          pos + (w ++ spaces (n + 1) ++ u).length + 1 := by
        rw [List.length_append, List.length_append, length_spaces]
        omega
      rw [← hlen, List.append_assoc, List.append_assoc]
      rcases (hfirst (ends_spaces_succ n _)).eq_ok_or_eq_error with ⟨hd, hrun⟩ | ⟨hd, stop, hrun⟩
      · rw [elements_more hrun hspace hclose]
        rcases hnext.eq_ok_or_eq_error with ⟨hall, hnext⟩ | ⟨hall, stop, hnext⟩
        · rw [hnext]
          exact Answers.read (Nat.max_le.2 ⟨hd, hall⟩)
        · rw [hnext]
          exact Answers.refused stop (Nat.lt_of_lt_of_le hall (Nat.le_max_right _ _))
      · rw [elements_of_error hrun]
        exact Answers.refused stop (Nat.lt_of_lt_of_le hd (Nat.le_max_left _ _))

/-- A list is read with all its elements, up to the closing bracket. -/
theorem sequence_answers {levels : Nat} (parts : List (List Char × Expr)) {t : List Char}
    (hsp : Spaced (parts.map Prod.fst) t) (hhead : ∀ p ∈ parts, Begins p.1)
    (hitem : ∀ p ∈ parts, Reads levels item.run p.1 p.2) (pos : Nat) (q : List Char) :
    Answers Expr.depthAll levels (parts.map Prod.snd) ⟨pos + t.length + 2, q⟩
      (sequence item ⟨pos, '(' :: (t ++ ')' :: q)⟩) := by
  generalize hws : parts.map Prod.fst = ws at hsp
  cases hsp with
  | none n =>
    obtain rfl := List.map_eq_nil_iff.1 hws
    have hspace : (')' :: q).head? ≠ some ' ' := by simp
    have hlen : pos + 1 + n + 1 = pos + (spaces n).length + 2 := by
      rw [length_spaces]
      omega
    rw [sequence, next_mk_cons, skipSpaces_mk_append _ _ hspace, if_pos (peek?_mk_cons _ _ _),
      next_mk_cons, hlen]
    exact Answers.read (Nat.zero_le _)
  | @some u _ n hsep =>
    subst hws
    obtain ⟨hspace, hclose⟩ := head?_separated_append hsep (by simpa using hhead) (')' :: q)
    have hpeek : (Cursor.mk (pos + 1 + n) (u ++ ')' :: q)).peek? ≠ some ')' := hclose
    have hlen : pos + 1 + n + u.length + 1 = pos + (spaces n ++ u).length + 2 := by
      rw [List.length_append, length_spaces]
      omega
    have h := elements_answers parts hsep hhead hitem (pos + 1 + n) q
    rw [hlen] at h
    rw [List.append_assoc, sequence, next_mk_cons, skipSpaces_mk_append _ _ hspace, if_neg hpeek]
    exact h

end Lists

/-- With no level left a list is refused, and otherwise its elements get one level less. -/
theorem listReader_answers (levels : Nat) (parts : List (List Char × Expr)) {t : List Char}
    (hsp : Spaced (parts.map Prod.fst) t) (hhead : ∀ p ∈ parts, Begins p.1)
    (hitem : ∀ p ∈ parts, ∀ levels, Reads levels (expression levels).run p.1 p.2)
    (pos : Nat) (q : List Char) :
    Answers (fun es => Expr.depthAll es + 1) levels (parts.map Prod.snd) ⟨pos + t.length + 2, q⟩
      (listReader levels ⟨pos, '(' :: (t ++ ')' :: q)⟩) := by
  cases levels with
  | zero => exact Answers.refused pos (Nat.succ_pos _)
  | succ levels =>
    have h := sequence_answers parts hsp hhead (fun p hp => hitem p hp levels) pos q
    rcases h.eq_ok_or_eq_error with ⟨hd, h⟩ | ⟨hd, stop, h⟩
    · rw [listReader, h]
      exact Answers.read (Nat.succ_le_succ hd)
    · rw [listReader, h]
      exact Answers.refused stop (Nat.succ_lt_succ hd)

/-- An atom that is read is read whatever the room for lists. -/
theorem answers_atom {list : Cursor → Except Failure (List Expr × Cursor)} {pos levels : Nat}
    {t q : List Char} {e : Expr} (he : e.depth = 0)
    (h : readWith list ⟨pos, t ++ q⟩ = .ok (e, (Cursor.mk pos (t ++ q)).skip t.length)) :
    Answers Expr.depth levels e ⟨pos + t.length, q⟩ (readWith list ⟨pos, t ++ q⟩) := by
  rw [h, skip_append]
  exact Answers.read (he ▸ Nat.zero_le _)

/-- **Completeness.** At any place of a source, a text of an expression that is followed by the end
of a word is read as that expression, up to exactly its end, unless it nests too deep. -/
theorem run_append_of_derives {t : List Char} {e : Expr} (h : Derives t e) (levels : Nat) :
    Reads levels (expression levels).run t e := by
  intro pos q hq
  rw [expression_run]
  -- By induction on the derivation, at every place and with every number of levels: the elements of
  -- a list lie further ahead and are read with one level less.
  induction h generalizing levels pos q with
  | keyword hk =>
    exact answers_atom rfl (readWith_operator (operator?_append_keyword hk hq.stops_isNameChar))
  | symbol hs => exact answers_atom rfl (readWith_operator (operator?_cons_symbol hs q))
  | @string t v hitems =>
    have hdecode : Literal.decode ⟨pos, '"' :: (t ++ '"' :: q)⟩ =
        .ok (v, ⟨pos + 1 + t.length + 1, q⟩) :=
      Literal.decodeFrom_append hitems pos (pos + 1) q
    have hlen : pos + 1 + t.length + 1 = pos + ('"' :: (t ++ ['"'])).length := by
      rw [List.length_cons, List.length_append]
      simp only [List.length_singleton]
      omega
    rw [List.cons_append, List.append_assoc, List.singleton_append, readWith_string hdecode, hlen]
    exact Answers.read (Nat.zero_le _)
  | @identifier t hid hkey =>
    have hstop := hq.stops_isNameChar
    have hpeek : (Cursor.mk pos (t ++ q)).peek? ≠ some '"' := by
      cases t with
      | nil => exact hid.elim
      | cons c r =>
        rintro hc
        obtain rfl : c = '"' := by simpa [Cursor.peek?] using hc
        exact absurd hid.1 (by decide)
    exact answers_atom rfl
      (readWith_name (operator?_append_name hid hkey hstop) hpeek (name?_append hid hstop))
  | @integer t hint =>
    cases t with
    | nil => exact hint.1.elim
    | cons c r =>
      obtain ⟨hop, hpeek, hname⟩ := tokens_of_number (Or.inl hint.1.1) pos (r ++ q)
      have hread := integer?_append hint.1 hq.stops_isDigitOrMark hq.stops_continuesNumeral
      rw [if_pos hint.2] at hread
      exact answers_atom rfl (readWith_integer hop hpeek hname hread)
  | @float t d hnum hlong =>
    obtain ⟨c, r, rfl, hc⟩ := head_of_numeral hnum
    obtain ⟨hop, hpeek, hname⟩ := tokens_of_number hc pos (r ++ q)
    exact answers_atom rfl (readWith_float hop hpeek hname (integer?_append_numeral hnum hlong hq)
      (decimal?_append hnum hq))
  | @form parts t hparts hsp ih =>
    have hhead := fun p hp => begins_of_derives (hparts p hp)
    have hlist := listReader_answers levels parts hsp hhead (by
      intro p hp levels pos q hq
      rw [expression_run]
      exact ih p hp levels pos hq) pos q
    have hlen : pos + t.length + 2 = pos + ('(' :: (t ++ [')'])).length := by
      rw [List.length_cons, List.length_append, List.length_singleton]
      omega
    rw [hlen] at hlist
    rw [List.cons_append, List.append_assoc, List.singleton_append, readWith_form]
    exact hlist.map rfl
  | @quoted parts t hparts hsp ih =>
    have hhead := fun p hp => begins_of_derives (hparts p hp)
    have hlist := listReader_answers levels parts hsp hhead (by
      intro p hp levels pos q hq
      rw [expression_run]
      exact ih p hp levels pos hq) (pos + 1) q
    have hlen : pos + 1 + t.length + 2 = pos + ('\x27' :: '(' :: (t ++ [')'])).length := by
      rw [List.length_cons, List.length_cons, List.length_append, List.length_singleton]
      omega
    rw [hlen] at hlist
    rw [List.cons_append, List.cons_append, List.append_assoc, List.singleton_append,
      readWith_quoted]
    exact hlist.map rfl

end Lisp.Reader
