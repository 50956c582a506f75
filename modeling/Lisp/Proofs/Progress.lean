/-
# Reading moves ahead and ends

The rules of the reader and the reader over one position give the same answers.  So the position
moves ahead whenever something is read, stays where it was whenever an alternative declines, and
never leaves the source.  There are then only so many turns of the loop over the elements of a list,
and only so many lists inside each other, as there are characters ahead, whether or not the brackets
of the source are balanced.

* `Reader.shown`, `Choice.stay` : the answer of a rule as a position shows it;
* `Reader.Follows` : a computation over a position that answers as a rule does;
* `Reader.agrees` : both ways to read agree, with room enough for nested lists;
* `Reader.Attempted`, `Reader.Advanced` : how the position is left;
* `Reader.scan_progress` : what becomes of the position from every place of every source on.
-/
import Lisp.Proofs.Ahead
import Lisp.Proofs.Scan

namespace Lisp.Reader

/-! ## Places of a source -/

section Places

variable {source : List Char} {pos : Nat} {c : Cursor}

theorem peek?_ofSource (source : List Char) (pos : Nat) :
    (Cursor.ofSource source pos).peek? = source[pos]? := List.head?_drop

/-- Moving ahead stops at the end of the source. -/
theorem skip_ofSource_min (hpos : pos ≤ source.length) (n : Nat) :
    (Cursor.ofSource source pos).skip n = Cursor.ofSource source (min source.length (pos + n)) := by
  obtain ⟨heq, hfin, -⟩ := (passes_skip (Cursor.ofSource source pos) n).eq_ofSource hpos
  have hlength : ((Cursor.ofSource source pos).rest.take n).length =
      min n (source.length - pos) := by
    rw [List.length_take, Cursor.ofSource, List.length_drop]
  rw [heq, hfin, hlength,
    show pos + min n (source.length - pos) = min source.length (pos + n) by omega]

theorem next_ofSource (hpos : pos < source.length) :
    (Cursor.ofSource source pos).next = Cursor.ofSource source (pos + 1) := by
  rw [Cursor.next, skip_ofSource_min (Nat.le_of_lt hpos), Nat.min_eq_right hpos]

/-- The place behind spaces of the source, which does not leave it. -/
theorem skipSpaces_ofSource (hpos : pos ≤ source.length) :
    (Cursor.ofSource source pos).skipSpaces =
        Cursor.ofSource source (pos + (Cursor.ofSource source pos).spaces) ∧
      pos + (Cursor.ofSource source pos).spaces ≤ source.length := by
  obtain ⟨heq, hfin, hle⟩ := (passes_skipSpaces (Cursor.ofSource source pos)).eq_ofSource hpos
  rw [Grammar.length_spaces] at hfin
  rw [heq, hfin]
  exact ⟨rfl, hfin ▸ hle⟩

/-- Whoever has passed something is at a later place of the source. -/
theorem exists_place (hpos : pos ≤ source.length)
    (h : ∃ t, t ≠ [] ∧ Passes (Cursor.ofSource source pos) t c) :
    ∃ fin, pos < fin ∧ fin ≤ source.length ∧ c = Cursor.ofSource source fin := by
  obtain ⟨t, hne, ht⟩ := h
  obtain ⟨hc, hfin, hle⟩ := ht.eq_ofSource hpos
  have hlength := List.length_pos_iff.2 hne
  exact ⟨c.pos, by omega, hle, hc⟩

end Places

/-! ## One position and many places -/

/-- What shows of the answer of a reader at a position that it moves: the value or the fault, and
where it stands afterwards. -/
def shown {α : Type} : Except Failure (α × Cursor) → Option (Except Fault α × Nat)
  | .error failure => some (.error failure.fault, failure.pos)
  | .ok (a, c) => some (.ok a, c.pos)

/-- An alternative as a reader that stays where it is when it declines. -/
def Choice.stay (choice : Choice) (c : Cursor) : Except Failure (Option Expr × Cursor) :=
  match choice c with
  | .error failure => .error failure
  | .ok none => .ok (none, c)
  | .ok (some (e, c')) => .ok (some e, c')

/-- A computation that answers at a position of a source as a reader does at the place there. -/
abbrev Follows {α : Type} (source : List Char) (x : Scan α)
    (read : Cursor → Except Failure (α × Cursor)) (pos : Nat) : Prop :=
  x pos = shown (read (Cursor.ofSource source pos))

section Agreement

variable {source : List Char} {pos levels turns : Nat} {list : Scan (List Expr)}

/-- What is made of an answer leaves the position where the answer left it. -/
theorem bind_pure_eq_shown {α β : Type} {x : Scan α} {answer : Except Failure (α × Cursor)}
    (h : x pos = shown answer) (f : α → β) :
    (x >>= fun a => pure (f a)) pos = shown (answer.map fun (a, c) => (f a, c)) := by
  rw [Scan.bind_apply, h]
  rcases answer with failure | ⟨a, c⟩
  · rfl
  · rfl

/-- The alternative for a token follows the rule, which is never given a place outside. -/
theorem follows_ofToken {α : Type} {token : List Char → Option (α × Nat)} {make : α → Expr}
    (h : ∀ {s a n}, token s = some (a, n) → 0 < n ∧ n ≤ s.length) (hpos : pos ≤ source.length) :
    Follows source (Scan.ofToken source token make) (ofToken token make).stay pos := by
  rw [Follows, Scan.ofToken_apply]
  cases htoken : token (source.drop pos) with
  | none =>
    have hrun : ofToken token make (Cursor.ofSource source pos) = .ok none := ofToken_of_none htoken
    rw [Choice.stay, hrun]
    rfl
  | some r =>
    obtain ⟨a, n⟩ := r
    have hrun : ofToken token make (Cursor.ofSource source pos) = _ := ofToken_of_some htoken
    have hle := (h htoken).2
    rw [List.length_drop] at hle
    rw [Choice.stay, hrun, skip_ofSource_min hpos, Nat.min_eq_right (by omega)]
    rfl

theorem follows_string (source : List Char) (pos : Nat) :
    Follows source (Scan.string source) (Choice.stay string) pos := by
  rw [Follows, Scan.string_apply, Choice.stay, string, peek?_ofSource]
  by_cases hquote : source[pos]? = some '"'
  · rw [if_pos hquote, if_pos hquote]
    cases Literal.decode (Cursor.ofSource source pos) with
    | error fault => rfl
    | ok r => rfl
  · rw [if_neg hquote, if_neg hquote]
    rfl

/-- A rule that takes its answer from a list stays where the list does. -/
theorem stay_of_map {choice : Choice} {c c₁ : Cursor} {make : List Expr → Expr}
    {list : Cursor → Except Failure (List Expr × Cursor)}
    (h : choice c = (list c₁).map fun (es, c') => some (make es, c')) :
    choice.stay c = (list c₁).map fun (es, c') => (some (make es), c') := by
  rw [Choice.stay, h]
  cases list c₁ with
  | error failure => rfl
  | ok r => rfl

/-- A quote is passed in both ways, and a list that is missed behind it is missed by both, because
there is room for one. -/
theorem follows_quotedList (hroom : source.length - pos ≤ levels)
    (hlist : ∀ p, pos ≤ p → p < source.length → Follows source list (listReader levels) p) :
    Follows source (Scan.attempt source list .quotedList) (quotedList (listReader levels)).stay
      pos := by
  rw [Follows, Scan.attempt_quotedList_apply]
  by_cases hquote : source[pos]? = some '\x27'
  · obtain ⟨hlt, -⟩ := List.getElem?_eq_some_iff.1 hquote
    rw [if_pos hquote]
    by_cases hopen : source[pos + 1]? = some '('
    · obtain ⟨hlt', -⟩ := List.getElem?_eq_some_iff.1 hopen
      rw [if_pos hopen, bind_pure_eq_shown (hlist (pos + 1) (Nat.le_succ pos) hlt'), stay_of_map]
      rw [quotedList, peek?_ofSource, if_pos hquote, next_ofSource hlt, peek?_ofSource,
        if_pos hopen]
    · have hlevels : decide (0 < levels) = true := by
        rw [decide_eq_true_iff]
        omega
      rw [if_neg hopen, Choice.stay, quotedList, peek?_ofSource, if_pos hquote, next_ofSource hlt,
        peek?_ofSource, if_neg hopen, hasRoom_listReader, if_pos hlevels, missing, peek?_ofSource]
      rfl
  · rw [if_neg hquote, Choice.stay, quotedList, peek?_ofSource, if_neg hquote]
    rfl

theorem follows_plainList
    (hlist : ∀ p, pos ≤ p → p < source.length → Follows source list (listReader levels) p) :
    Follows source (Scan.attempt source list .plainList) (plainList (listReader levels)).stay
      pos := by
  rw [Follows, Scan.attempt_plainList_apply]
  by_cases hopen : source[pos]? = some '('
  · obtain ⟨hlt, -⟩ := List.getElem?_eq_some_iff.1 hopen
    rw [if_pos hopen, bind_pure_eq_shown (hlist pos (Nat.le_refl pos) hlt), stay_of_map]
    rw [plainList, peek?_ofSource, if_pos hopen]
  · rw [if_neg hopen, Choice.stay, plainList, peek?_ofSource, if_neg hopen]
    rfl

/-- Every alternative agrees if lists do. -/
theorem follows_attempt (hpos : pos ≤ source.length) (hroom : source.length - pos ≤ levels)
    (hlist : ∀ p, pos ≤ p → p < source.length → Follows source list (listReader levels) p)
    (kind : Kind) :
    Follows source (Scan.attempt source list kind) (kind.choice (listReader levels)).stay pos := by
  cases kind with
  | operator => exact follows_ofToken Token.operator?_eq_some hpos
  | string => exact follows_string source pos
  | identifier => exact follows_ofToken Token.name?_eq_some hpos
  | integer => exact follows_ofToken Token.integer?_eq_some hpos
  | floating => exact follows_ofToken Token.decimal?_eq_some hpos
  | quotedList => exact follows_quotedList hroom hlist
  | plainList => exact follows_plainList hlist

/-- Alternatives that agree are tried in the same order.  One that declines has not moved the
position, so the next one begins at the same place. -/
theorem follows_findSomeM? {read : Cursor → Except Failure (List Expr × Cursor)}
    (h : ∀ kind : Kind, Follows source (Scan.attempt source list kind) (kind.choice read).stay pos)
    (kinds : List Kind) :
    Follows source (kinds.findSomeM? (Scan.attempt source list))
      (Choice.stay (firstOf (kinds.map (Kind.choice read)))) pos := by
  induction kinds with
  | nil => rfl
  | cons kind others ih =>
    rw [Follows, List.findSomeM?, Scan.bind_apply, h kind, List.map_cons]
    simp only [Follows, Choice.stay, firstOf] at ih ⊢
    rcases kind.choice read (Cursor.ofSource source pos) with failure | _ | ⟨e, c'⟩
    · rfl
    · exact ih
    · rfl

theorem follows_readWith {read : Cursor → Except Failure (List Expr × Cursor)}
    (h : ∀ kind : Kind,
      Follows source (Scan.attempt source list kind) (kind.choice read).stay pos) :
    Follows source (Scan.choose source list) (readWith read) pos := by
  rw [Follows, Scan.choose, Scan.bind_apply, follows_findSomeM? h, ← choices_eq_map, readWith,
    Choice.stay]
  rcases firstOf (choices read) (Cursor.ofSource source pos) with failure | _ | ⟨e, c'⟩
  · rfl
  · rw [missing, peek?_ofSource]
    rfl
  · rfl

/-- The loop over the elements of a list agrees if expressions do.  Each turn of it begins further
ahead than the one before, so there are turns enough if there are more than characters ahead. -/
theorem follows_elements (hpos : pos ≤ source.length) (hturns : source.length - pos < turns)
    (h : ∀ p n, pos ≤ p → p ≤ source.length → source.length - p ≤ n →
      Follows source (Scan.expression source n) (expression levels).run p) :
    Follows source (Scan.elements source turns) (elements (expression levels)) pos := by
  induction turns generalizing pos with
  | zero => omega
  | succ turns ih =>
    have hfirst := h pos turns (Nat.le_refl pos) hpos (Nat.le_of_lt_succ hturns)
    cases hrun : (expression levels).run (Cursor.ofSource source pos) with
    | error failure =>
      rw [Follows, hrun] at hfirst
      rw [Follows, elements_of_error hrun, Scan.elements_of_error hfirst]
      rfl
    | ok r =>
      obtain ⟨e, c₁⟩ := r
      obtain ⟨fin, hlt, hfin, rfl⟩ := exists_place hpos ((goesAhead_expression levels).passes hrun)
      have hread : Scan.expression source turns pos = some (.ok e, fin) := by
        rw [hfirst, hrun]
        rfl
      obtain ⟨hspaces, hbehind⟩ := skipSpaces_ofSource hfin
      rw [Follows, elements_of_ok hrun, hspaces, peek?_ofSource, Scan.elements_of_ok hread hfin rfl]
      generalize (Cursor.ofSource source fin).spaces = gap at hbehind ⊢
      by_cases hclose : source[fin + gap]? = some ')'
      · obtain ⟨hend, -⟩ := List.getElem?_eq_some_iff.1 hclose
        rw [if_pos hclose, if_pos hclose, next_ofSource hend]
        rfl
      · rw [if_neg hclose, if_neg hclose]
        by_cases hgap : gap = 0
        · rw [if_pos hgap, if_pos hgap, missing, peek?_ofSource, hgap]
          rfl
        · rw [if_neg hgap, if_neg hgap]
          apply bind_pure_eq_shown
          apply ih hbehind (by omega)
          intro p n hp
          exact h p n (by omega)

/-- A list agrees if the expressions behind its first character do. -/
theorem follows_sequence (hpos : pos ≤ source.length)
    (hturns : source.length - min source.length (pos + 1) < turns)
    (h : ∀ p n, min source.length (pos + 1) ≤ p → p ≤ source.length → source.length - p ≤ n →
      Follows source (Scan.expression source n) (expression levels).run p) :
    Follows source (Scan.list source turns) (sequence (expression levels)) pos := by
  -- The character that is passed without a look may be missing, at the end of the source.
  have hnext : (Cursor.ofSource source pos).next =
      Cursor.ofSource source (min source.length (pos + 1)) := skip_ofSource_min hpos 1
  obtain ⟨hspaces, hbehind⟩ := skipSpaces_ofSource (Nat.min_le_left source.length (pos + 1))
  have hgap : (Cursor.ofSource source (pos + 1)).spaces =
      (Cursor.ofSource source (min source.length (pos + 1))).spaces := by
    rw [← hnext, Cursor.next, Cursor.ofSource, Cursor.ofSource, Cursor.spaces, Cursor.spaces,
      Cursor.count, Cursor.count, Cursor.rest_skip, List.drop_drop]
  rw [Follows, Scan.list, Scan.enclosed_apply _ hgap, sequence, hnext, hspaces, peek?_ofSource]
  split
  · next hclose =>
    obtain ⟨hend, -⟩ := List.getElem?_eq_some_iff.1 hclose
    rw [next_ofSource hend]
    rfl
  · apply follows_elements hbehind (by omega)
    intro p n hp
    exact h p n (by omega)

/-- A list that is begun takes a character, so there is room for those inside it. -/
theorem follows_listReader (hlt : pos < source.length) (hroom : source.length - pos ≤ levels)
    (hturns : source.length - pos ≤ turns)
    (h : ∀ m < levels, ∀ p n, p ≤ source.length → source.length - p ≤ m →
      source.length - p ≤ n → Follows source (Scan.expression source n) (expression m).run p) :
    Follows source (Scan.list source turns) (listReader levels) pos := by
  cases levels with
  | zero => omega
  | succ levels =>
    apply follows_sequence (Nat.le_of_lt hlt) (by omega)
    intro p n hp hle
    exact h levels (Nat.lt_succ_self levels) p n hle (by omega)

/-- With turns and room for as many characters as are left, expressions follow the rule. -/
theorem follows_expression (hpos : pos ≤ source.length) (hroom : source.length - pos ≤ levels)
    (hturns : source.length - pos ≤ turns) :
    Follows source (Scan.expression source turns) (expression levels).run pos := by
  induction levels using Nat.strongRecOn generalizing pos turns with
  | _ levels ih =>
    rw [expression_run]
    apply follows_readWith
    apply follows_attempt hpos hroom
    intro p hp hlt
    apply follows_listReader hlt (by omega) (by omega)
    intro m hm q n hq
    exact ih m hm hq

/-- The agreement of both ways to read at a position, with room for some nested lists and with some
turns of the loops. -/
structure Agrees (source : List Char) (pos levels turns : Nat) : Prop where
  attempt : ∀ kind : Kind, Follows source (Scan.attempt source (Scan.list source turns) kind)
    (kind.choice (listReader levels)).stay pos
  expression : Follows source (Scan.expression source turns) (Reader.expression levels).run pos
  list : Follows source (Scan.list source (turns + 1)) (listReader (levels + 1)) pos
  elements : Follows source (Scan.elements source (turns + 1))
    (elements (Reader.expression levels)) pos

/-- **Both ways to read agree** with room for as many nested lists, and with as many turns, as there
are characters ahead. -/
theorem agrees (hpos : pos ≤ source.length) (hroom : source.length - pos ≤ levels)
    (hturns : source.length - pos ≤ turns) : Agrees source pos levels turns where
  attempt := by
    apply follows_attempt hpos hroom
    intro p hp hlt
    apply follows_listReader hlt (by omega) (by omega)
    intro m _ q n hq
    exact follows_expression hq
  expression := follows_expression hpos hroom hturns
  list := by
    apply follows_sequence hpos (by omega)
    intro p n hp hle
    exact follows_expression hle (by omega)
  elements := by
    apply follows_elements hpos (by omega)
    intro p n hp hle
    exact follows_expression hle (by omega)

end Agreement

/-! ## Progress -/

/-- How an attempt at an alternative ends: it declines and leaves the position where it was, it
reads something and moves the position ahead, or it fails at a position further on.  It does end,
and the position never leaves the source. -/
inductive Attempted (source : List Char) (pos : Nat) :
    Option (Except Fault (Option Expr) × Nat) → Prop
  | declined : Attempted source pos (some (.ok none, pos))
  | matched {fin : Nat} (e : Expr) : pos < fin → fin ≤ source.length →
      Attempted source pos (some (.ok (some e), fin))
  | failed {fin : Nat} (fault : Fault) : pos ≤ fin → fin ≤ source.length →
      Attempted source pos (some (.error fault, fin))

/-- How a computation ends that may not decline. -/
inductive Advanced {α : Type} (source : List Char) (pos : Nat) :
    Option (Except Fault α × Nat) → Prop
  | read {fin : Nat} (a : α) : pos < fin → fin ≤ source.length →
      Advanced source pos (some (.ok a, fin))
  | failed {fin : Nat} (fault : Fault) : pos ≤ fin → fin ≤ source.length →
      Advanced source pos (some (.error fault, fin))

section Progress

variable {source : List Char} {pos : Nat}

/-- A reader that fails ahead fails inside the source. -/
theorem FailsAhead.within {α : Type} {read : Cursor → Except Failure α} {failure : Failure}
    (h : FailsAhead read) (hpos : pos ≤ source.length)
    (hread : read (Cursor.ofSource source pos) = .error failure) :
    pos ≤ failure.pos ∧ failure.pos ≤ source.length := by
  obtain ⟨hlo, hhi⟩ := h hread
  simp only [Cursor.ofSource, List.length_drop] at hlo hhi
  omega

/-- A reader that goes ahead advances the position. -/
theorem advanced_shown {α : Type} {read : Cursor → Except Failure (α × Cursor)}
    (h : GoesAhead read) (hpos : pos ≤ source.length) :
    Advanced source pos (shown (read (Cursor.ofSource source pos))) := by
  cases hread : read (Cursor.ofSource source pos) with
  | error failure =>
    obtain ⟨hlo, hhi⟩ := h.fails.within hpos hread
    exact .failed failure.fault hlo hhi
  | ok r =>
    obtain ⟨a, c⟩ := r
    obtain ⟨fin, hlt, hle, rfl⟩ := exists_place hpos (h.passes hread)
    exact .read a hlt hle

theorem attempted_shown {choice : Choice} (h : choice.GoesAhead) (hpos : pos ≤ source.length) :
    Attempted source pos (shown (choice.stay (Cursor.ofSource source pos))) := by
  rw [Choice.stay]
  cases hread : choice (Cursor.ofSource source pos) with
  | error failure =>
    obtain ⟨hlo, hhi⟩ := h.fails.within hpos hread
    exact .failed failure.fault hlo hhi
  | ok r =>
    cases r with
    | none => exact .declined
    | some r =>
      obtain ⟨e, c⟩ := r
      obtain ⟨fin, hlt, hle, rfl⟩ := exists_place hpos (h.passes hread)
      exact .matched e hlt hle

/-- **Reading moves ahead and ends.** From every position of a source on, an alternative that
declines leaves the position where it was, one that reads something moves it ahead, as does an
expression, and a failure stands between the start and the end of the source.  This holds of the
rules of the reader, with room for any number of nested lists.  It holds as well if they move a
single position, with no bound on the nesting: then no loop over the elements of a list is cut off
after as many turns as there are characters ahead, and the answers are those of the rules. -/
theorem scan_progress (source : List Char) (pos : Nat) (hpos : pos ≤ source.length) :
    (∀ levels,
      (∀ kind : Kind, Attempted source pos
        (shown ((kind.choice (listReader levels)).stay (Cursor.ofSource source pos)))) ∧
      Advanced source pos (shown ((expression levels).run (Cursor.ofSource source pos)))) ∧
    ∀ turns, source.length - pos ≤ turns →
      (∀ kind, Attempted source pos (Scan.attempt source (Scan.list source turns) kind pos)) ∧
      Advanced source pos (Scan.expression source turns pos) ∧
      Advanced source pos (Scan.list source (turns + 1) pos) ∧
      Advanced source pos (Scan.elements source (turns + 1) pos) ∧
      ∀ levels, source.length - pos ≤ levels → Agrees source pos levels turns := by
  have hchoices : ∀ levels (kind : Kind), Attempted source pos
      (shown ((kind.choice (listReader levels)).stay (Cursor.ofSource source pos))) := by
    intro levels kind
    have hahead := goesAhead_choices (goesAhead_listReader levels)
    exact attempted_shown (hahead _ (kind.choice_mem_choices _)) hpos
  have hexpression := fun levels => advanced_shown (goesAhead_expression levels) hpos
  refine ⟨fun levels => ⟨hchoices levels, hexpression levels⟩, fun turns hturns => ?_⟩
  -- With room for as many lists as there are characters, the rules know all that happens.
  have hagrees : Agrees source pos source.length turns := agrees hpos (Nat.sub_le _ _) hturns
  refine ⟨fun kind => ?_, ?_, ?_, ?_, fun levels hroom => agrees hpos hroom hturns⟩
  · rw [hagrees.attempt kind]
    exact hchoices _ kind
  · rw [hagrees.expression]
    exact hexpression _
  · rw [hagrees.list]
    exact advanced_shown (goesAhead_listReader _) hpos
  · rw [hagrees.elements]
    exact advanced_shown (goesAhead_elements (goesAhead_expression _)) hpos

/-- Digits that a point keeps from being an integer are left alone, and a quote with nothing behind
it is passed, in a list that has no end. -/
theorem scan_progress_unclosed :
    let source := "(12.5 '".toList
    1 ≤ source.length ∧ 6 ≤ source.length ∧
      Scan.attempt source (Scan.list source 7) .integer 1 = some (.ok none, 1) ∧
      Scan.attempt source (Scan.list source 7) .quotedList 6 =
        some (.error (.expected .listAfterQuote 7 none), source.length) ∧
      Scan.expression source 7 0 =
        some (.error (.expected .listAfterQuote 7 none), source.length) := by
  intro source
  obtain ⟨-, -, -, -, hdigits⟩ := (scan_progress source 1 (by decide)).2 7 (by decide)
  obtain ⟨-, -, -, -, hquote⟩ := (scan_progress source 6 (by decide)).2 7 (by decide)
  obtain ⟨-, -, -, -, hlist⟩ := (scan_progress source 0 (by decide)).2 7 (by decide)
  refine ⟨by decide, by decide, ?_, ?_, ?_⟩
  · rw [(hdigits 7 (by decide)).attempt .integer]
    decide +kernel
  · rw [(hquote 7 (by decide)).attempt .quotedList]
    decide +kernel
  · rw [(hlist 7 (by decide)).expression]
    decide +kernel

end Progress

end Lisp.Reader
