/-
# Writing and reading

The canonical source of an expression is one of its texts, so reading it yields the expression
again, whatever stands before it and behind it.  This needs that the expression can be written at
all: the expressions that can are exactly those that the reader yields.

* `Expr.Readable`, `Expr.every_of_readable` : the expressions that have a text, and their atoms;
* `Expr.derives_chars` : the canonical source is a text of the expression;
* `Expr.readable_iff_exists_derives` : the readable expressions are those that have a text;
* `Reader.read_render` : reading what was written, at any place of a source;
* `Reader.render_parse` : writing what was read.
-/
import Lisp.Printer
import Lisp.Proofs.Acceptance
import Lisp.Proofs.Closure
import Lisp.Proofs.Layout

namespace Lisp

open Grammar Token

/-! ## Readable expressions -/

/-- The numbers that have a text: integers of 64 bits and doubles without a sign, and no NaN. -/
def Number.Readable : Number → Prop
  | int n => 0 ≤ n ∧ n ≤ maxInt
  | float x => x.isNaN = false ∧ Binary.isNegative x = false

instance : (n : Number) → Decidable n.Readable
  | .int _ => inferInstanceAs (Decidable (_ ∧ _))
  | .float _ => inferInstanceAs (Decidable (_ ∧ _))

namespace Expr

mutual

/-- The expressions that have a text: all names are identifiers and no keywords, all numbers have a
text, and there are no truth values. -/
def Readable : Expr → Prop
  | name id => IsIdentifier id.toList ∧ ¬ IsKeyword id.toList
  | text _ => True
  | operator _ => True
  | number n => n.Readable
  | boolean _ => False
  | quoted items => ReadableAll items
  | form items => ReadableAll items

/-- Expressions that all have a text. -/
def ReadableAll : List Expr → Prop
  | [] => True
  | e :: rest => e.Readable ∧ ReadableAll rest

end

mutual

instance decidableReadable : (e : Expr) → Decidable e.Readable
  | name _ => inferInstanceAs (Decidable (_ ∧ ¬ _))
  | text _ => .isTrue trivial
  | operator _ => .isTrue trivial
  | number n => inferInstanceAs (Decidable n.Readable)
  | boolean _ => .isFalse id
  | quoted items => decidableReadableAll items
  | form items => decidableReadableAll items

instance decidableReadableAll : (es : List Expr) → Decidable (ReadableAll es)
  | [] => .isTrue trivial
  | e :: rest =>
    have := decidableReadable e
    have := decidableReadableAll rest
    inferInstanceAs (Decidable (_ ∧ _))

end

theorem readableAll_iff (es : List Expr) : ReadableAll es ↔ ∀ e ∈ es, e.Readable := by
  induction es with
  | nil => simp [ReadableAll]
  | cons e rest ih => rw [ReadableAll, ih, List.forall_mem_cons]

mutual

/-- What holds of every readable atom holds of the atoms of every readable expression. -/
theorem every_of_readable {p : Expr → Prop} (hp : ∀ a : Expr, a.isAtom = true → a.Readable → p a)
    (e : Expr) (h : e.Readable) : e.Every p :=
  match e, h with
  | name _, h => hp _ rfl h
  | text _, h => hp _ rfl h
  | operator _, h => hp _ rfl h
  | number _, h => hp _ rfl h
  | quoted items, h => everyAll_of_readableAll hp items h
  | form items, h => everyAll_of_readableAll hp items h

theorem everyAll_of_readableAll {p : Expr → Prop}
    (hp : ∀ a : Expr, a.isAtom = true → a.Readable → p a) (es : List Expr) (h : ReadableAll es) :
    EveryAll p es :=
  match es, h with
  | [], _ => trivial
  | e :: rest, h => ⟨every_of_readable hp e h.1, everyAll_of_readableAll hp rest h.2⟩

end

/-! ## The canonical source -/

/-- A space is written between each two elements. -/
theorem separated_charsMore (e : Expr) (rest : List Expr) :
    Separated ((e :: rest).map chars) (e.chars ++ charsMore rest) := by
  induction rest generalizing e with
  | nil => exact Separated.last 0
  | cons e' rest ih =>
    have h := Separated.cons (w := e.chars) 0 (ih e')
    rw [List.append_assoc] at h
    exact h

/-- The elements of a list are written with a space between each two. -/
theorem spaced_charsAll (es : List Expr) : Spaced (es.map chars) (charsAll es) := by
  cases es with
  | nil => exact Spaced.none 0
  | cons e rest => exact Spaced.some 0 (separated_charsMore e rest)

/-- The keyword of an operator spells it.  Only the remainder is written with a symbol. -/
theorem derives_operator (op : Operator) : Derives op.chars (operator op) := by
  cases op with
  | rem => exact Derives.symbol (by decide)
  | _ => exact Derives.keyword (by decide)

/-- A list is written with its elements, each with its own canonical source. -/
theorem derives_items {es : List Expr} (h : ∀ e ∈ es, Derives e.chars e) :
    Derives ('(' :: (charsAll es ++ [')'])) (form es) ∧
      Derives ('\x27' :: '(' :: (charsAll es ++ [')'])) (quoted es) := by
  have hparts : ∀ p ∈ es.map fun e => (e.chars, e), Derives p.1 p.2 := by
    intro p hp
    obtain ⟨e, he, rfl⟩ := List.mem_map.1 hp
    exact h e he
  have hfst : (es.map fun e => (e.chars, e)).map Prod.fst = es.map chars := by
    rw [List.map_map]
    rfl
  have hsnd : (es.map fun e => (e.chars, e)).map Prod.snd = es := by
    rw [List.map_map]
    exact List.map_id es
  have hspaced := spaced_charsAll es
  rw [← hfst] at hspaced
  have hform := Derives.form hparts hspaced
  have hquoted := Derives.quoted hparts hspaced
  rw [hsnd] at hform hquoted
  exact ⟨hform, hquoted⟩

mutual

/-- The canonical source of a readable expression is a text of it. -/
theorem derives_chars (e : Expr) (h : e.Readable) : Derives e.chars e :=
  match e with
  | name id => by
    have hderives := Derives.identifier h.1 h.2
    rwa [String.ofList_toList] at hderives
  | text value => by
    have hderives := Derives.string (Literal.items_encode value.toList)
    rw [String.ofList_toList] at hderives
    exact hderives
  | operator op => derives_operator op
  | number (.int n) => Number.derives_int h.1 h.2
  | number (.float x) => Number.derives_float h.1 h.2
  | boolean _ => h.elim
  | quoted items => (derives_items (derives_chars_of_mem items h)).2
  | form items => (derives_items (derives_chars_of_mem items h)).1

theorem derives_chars_of_mem (es : List Expr) (h : ReadableAll es) :
    ∀ e ∈ es, Derives e.chars e :=
  match es with
  | [] => by simp
  | e :: rest => List.forall_mem_cons.2 ⟨derives_chars e h.1, derives_chars_of_mem rest h.2⟩

end

/-! ## What has a text -/

/-- A numeral denotes a double without a sign, and no NaN. -/
theorem readable_toFloat (d : Decimal) : (Number.float d.toFloat).Readable := by
  obtain ⟨-, hneg, hnan⟩ := Binary.toFloat_false d.pattern_le_infinity
  exact ⟨hnan, hneg⟩

/-- Whatever has a text is readable. -/
theorem readable_of_derives {t : List Char} {e : Expr} (h : Derives t e) : e.Readable := by
  have hall : ∀ {parts : List (List Char × Expr)}, (∀ p ∈ parts, p.2.Readable) →
      ReadableAll (parts.map Prod.snd) := by
    intro parts hparts
    rw [readableAll_iff]
    intro e he
    obtain ⟨p, hp, rfl⟩ := List.mem_map.1 he
    exact hparts p hp
  induction h with
  | keyword _ => exact trivial
  | symbol _ => exact trivial
  | string _ => exact trivial
  | @identifier t hid hkey =>
    rw [← String.toList_ofList (l := t)] at hid hkey
    exact ⟨hid, hkey⟩
  | integer hint => exact ⟨Int.natCast_nonneg _, hint.2⟩
  | float _ _ => exact readable_toFloat _
  | form _ _ ih => exact hall ih
  | quoted _ _ ih => exact hall ih

/-- The readable expressions are exactly those that have a text. -/
theorem readable_iff_exists_derives (e : Expr) : e.Readable ↔ ∃ t, Derives t e := by
  constructor
  · intro h
    exact ⟨e.chars, derives_chars e h⟩
  · rintro ⟨t, h⟩
    exact readable_of_derives h

/-! ## Writing, then reading -/

/-- The canonical source is a sentence. -/
theorem sentence_render {e : Expr} (h : e.Readable) : Sentence e.render.toList e := by
  refine ⟨[], e.chars, [], ?_, rfl, rfl, derives_chars e h⟩
  rw [render, String.toList_ofList, List.nil_append, List.append_nil]

end Expr

namespace Reader

/-- The canonical source of a readable expression is read as it, if there is room for its lists. -/
theorem parseWithin_render {levels : Nat} {e : Expr} (h : e.Readable) (hdepth : e.depth ≤ levels) :
    parseWithin levels e.render.toList = .ok e := by
  rcases parseWithin_of_sentence (Expr.sentence_render h) levels with ⟨-, hread⟩ | ⟨hdeep, -⟩
  · exact hread
  · exact absurd hdepth (Nat.not_le.2 hdeep)

/-- The canonical source at any place of a source, followed by the end of a word. -/
theorem run_render {levels : Nat} {e : Expr} (h : e.Readable) (hdepth : e.depth ≤ levels)
    (before : String) {behind : String} (hend : Ends behind.toList) :
    (expression levels).run (Cursor.ofSource (before ++ e.render ++ behind).toList before.length) =
      .ok (e, Cursor.ofSource (before ++ e.render ++ behind).toList
        (before.length + e.render.length)) := by
  have hsource : (before ++ e.render ++ behind).toList =
      before.toList ++ (e.chars ++ behind.toList) := by
    rw [String.toList_append, String.toList_append, Expr.render, String.toList_ofList,
      List.append_assoc]
  have hlen : e.render.length = e.chars.length := by
    rw [Expr.render, String.length_ofList]
  have hplace : Cursor.ofSource (before ++ e.render ++ behind).toList before.length =
      ⟨before.length, e.chars ++ behind.toList⟩ := by
    rw [Cursor.ofSource, hsource, List.drop_left' String.length_toList]
  have hafter : Cursor.ofSource (before ++ e.render ++ behind).toList
      (before.length + e.render.length) = ⟨before.length + e.chars.length, behind.toList⟩ := by
    rw [Cursor.ofSource, hsource, ← List.append_assoc, hlen, List.drop_left']
    rw [List.length_append, String.length_toList]
  rw [hplace, hafter]
  rcases (run_append_of_derives (Expr.derives_chars e h) levels before.length
    hend).eq_ok_or_eq_error with ⟨-, hread⟩ | ⟨hdeep, -⟩
  · exact hread
  · exact absurd hdepth (Nat.not_le.2 hdeep)

/-- **Reading undoes writing.** The canonical source of a readable expression is read as that
expression at every place of a source, up to exactly its end, if it is followed by nothing, by a
closing bracket or by white space and there is room for its lists.  In particular it is a source of
the expression. -/
theorem read_render {e : Expr} (h : e.Readable) :
    (∀ levels, e.depth ≤ levels → ∀ before behind : String, Ends behind.toList →
      (expression levels).run
          (Cursor.ofSource (before ++ e.render ++ behind).toList before.length) =
        .ok (e, Cursor.ofSource (before ++ e.render ++ behind).toList
          (before.length + e.render.length))) ∧
    (∀ levels, e.depth ≤ levels → parseWithin levels e.render.toList = .ok e) ∧
    (e.depth ≤ maxNesting → parse e.render = .ok e) :=
  ⟨fun _ hdepth before _ hend => run_render h hdepth before hend,
    fun _ hdepth => parseWithin_render h hdepth, fun hdepth => parseWithin_render h hdepth⟩

/-- An expression of every kind: a call with a name, a text with a line break in it, an integer, an
infinite double and a quoted list that is empty. -/
def sample : Expr :=
  .form [.operator .rem, .name "x", .text "a\n", .int 7, .float (Binary.toFloat false
    Binary.infinity), .quoted []]

/-- The expression of every kind is read from its canonical source. -/
theorem read_render_sample : sample.Readable ∧ parse sample.render = .ok sample :=
  ⟨by decide, (read_render (e := sample) (by decide)).2.2 (by decide)⟩

/-! ## Reading, then writing -/

/-- What is read is readable, and reading its canonical source yields it again. -/
theorem readable_of_parseWithin {levels : Nat} {s : List Char} {e : Expr}
    (h : parseWithin levels s = .ok e) :
    e.Readable ∧ parseWithin levels e.render.toList = .ok e := by
  obtain ⟨⟨-, t, -, -, -, -, hderives⟩, hdepth⟩ := sentence_of_parseWithin h
  have hreadable := Expr.readable_of_derives hderives
  exact ⟨hreadable, parseWithin_render hreadable hdepth⟩

/-- **The canonical source is a normal form.** Whatever source was read, the expression is readable,
its canonical source is read as the same expression, and so has itself as canonical source. -/
theorem render_parse (source : String) :
    (∀ e, parse source = .ok e →
      e.Readable ∧ parse e.render = .ok e ∧ (parse e.render).map Expr.render = .ok e.render) ∧
    ∀ levels e, parseWithin levels source.toList = .ok e →
      e.Readable ∧ parseWithin levels e.render.toList = .ok e ∧
        (parseWithin levels e.render.toList).map Expr.render = .ok e.render := by
  have hround : ∀ levels e, parseWithin levels source.toList = .ok e →
      e.Readable ∧ parseWithin levels e.render.toList = .ok e ∧
        (parseWithin levels e.render.toList).map Expr.render = .ok e.render := by
    intro levels e h
    obtain ⟨hreadable, hagain⟩ := readable_of_parseWithin h
    refine ⟨hreadable, hagain, ?_⟩
    rw [hagain]
    rfl
  exact ⟨hround maxNesting, hround⟩

/-- A source in odd spellings: a symbol, an underscore, white space that is left out of a text, and
spaces all over. -/
theorem render_parse_sample :
    let source := " ( + 0_07 \"a\\ \nb\" ) "
    let e : Expr := .form [.operator .add, .int 7, .text "ab"]
    parse source = .ok e ∧ e.render = "(add 7 \"ab\")" ∧ e.Readable ∧ parse e.render = .ok e := by
  intro source e
  have hparse : parse source = .ok e := by decide +kernel
  have hrender : e.render = "(add 7 \"ab\")" := by decide +kernel
  obtain ⟨hreadable, hagain, -⟩ := (render_parse source).1 e hparse
  exact ⟨hparse, hrender, hreadable, hagain⟩

end Reader

end Lisp
