/-
# Words and what ends them

The reader takes the longest run of characters of a class; the grammar says which texts are words.
The two agree wherever a word is followed by nothing, by white space or by a closing bracket.

* `Token.Ends` : the texts that end every word;
* `Token.takeWhile_append` : a run is taken up to where it stops;
* `Token.operator?_append_keyword`, `Token.name?_append` : a word of the grammar is what is read;
* `Token.derives_of_operator?`, `Token.derives_of_name?` : what is read is a word of the grammar.
-/
import Lisp.Proofs.Grammar

namespace Lisp.Token

open Grammar

/-! ## Classes of characters -/

/-- Where the code points of white space lie, as closely as the proofs need it. -/
theorem toNat_of_isBlank {c : Char} (h : Text.isBlank c = true) :
    9 ≤ c.toNat ∧ c.toNat ≤ 13 ∨ 28 ≤ c.toNat ∧ c.toNat ≤ 32 ∨ 133 ≤ c.toNat := by
  simp [Text.isBlank, Text.blankRanges, Text.Range.holds] at h
  omega

theorem isDigit_iff (c : Char) : c.isDigit = true ↔ 48 ≤ c.toNat ∧ c.toNat ≤ 57 := by
  simp [Char.isDigit, UInt32.le_iff_toNat_le]

theorem isAlpha_iff (c : Char) :
    c.isAlpha = true ↔ 65 ≤ c.toNat ∧ c.toNat ≤ 90 ∨ 97 ≤ c.toNat ∧ c.toNat ≤ 122 := by
  show (decide (c.val ≥ 'A'.val ∧ c.val ≤ 'Z'.val) || c.val ≥ 'a'.val && c.val ≤ 'z'.val) = true ↔ _
  simp [UInt32.le_iff_toNat_le]

/-- The characters that begin a name, by their code points. -/
theorem isNameStart_iff (c : Char) : isNameStart c = true ↔
    65 ≤ c.toNat ∧ c.toNat ≤ 90 ∨ 97 ≤ c.toNat ∧ c.toNat ≤ 122 ∨ c.toNat = 95 := by
  have h : c = '_' ↔ c.toNat = 95 := Char.toNat_inj.symm
  simp only [isNameStart, Bool.or_eq_true, isAlpha_iff, decide_eq_true_eq, h]
  omega

/-- Digits and the underscore by their code points. -/
theorem isDigitOrMark_iff (c : Char) : isDigitOrMark c = true ↔
    48 ≤ c.toNat ∧ c.toNat ≤ 57 ∨ c.toNat = 95 := by
  have h : c = '_' ↔ c.toNat = 95 := Char.toNat_inj.symm
  simp only [isDigitOrMark, Bool.or_eq_true, isDigit_iff, decide_eq_true_eq, h]

/-- The characters of words by their code points. -/
theorem isNameChar_iff (c : Char) : isNameChar c = true ↔
    48 ≤ c.toNat ∧ c.toNat ≤ 57 ∨ 65 ≤ c.toNat ∧ c.toNat ≤ 90 ∨ 97 ≤ c.toNat ∧ c.toNat ≤ 122 ∨
      c.toNat = 95 := by
  have h : c = '_' ↔ c.toNat = 95 := Char.toNat_inj.symm
  simp only [isNameChar, Char.isAlphanum, Bool.or_eq_true, isAlpha_iff, isDigit_iff,
    decide_eq_true_eq, h]
  omega

/-- A numeral is continued by a point or an exponent. -/
theorem continuesNumeral_iff (c : Char) : continuesNumeral c = true ↔
    c = '.' ∨ IsExponentMark c := by
  simp [continuesNumeral, IsExponentMark, or_assoc]

theorem isDigitOrMark_of_isDigit {c : Char} (h : c.isDigit = true) : isDigitOrMark c = true := by
  simp [isDigitOrMark, h]

theorem not_isNameStart_of_isDigit {c : Char} (h : c.isDigit = true) : isNameStart c = false := by
  rw [isDigit_iff] at h
  rw [Bool.eq_false_iff, ne_eq, isNameStart_iff]
  omega

/-! ## Runs of characters -/

/-- A text at which a run of characters of a class stops. -/
def Stops (p : Char → Bool) (q : List Char) : Prop := ∀ c, q.head? = some c → p c = false

theorem stops_nil (p : Char → Bool) : Stops p [] := by simp [Stops]

theorem stops_cons {p : Char → Bool} {c : Char} {q : List Char} (h : p c = false) :
    Stops p (c :: q) := by
  intro x hx
  obtain rfl : c = x := by simpa using hx
  exact h

/-- A run is taken up to where it stops. -/
theorem takeWhile_append {p : Char → Bool} {t q : List Char} (ht : ∀ x ∈ t, p x = true)
    (hq : Stops p q) : (t ++ q).takeWhile p = t := by
  have hnil : q.takeWhile p = [] := by
    cases q with
    | nil => rfl
    | cons c r => rw [List.takeWhile_cons, hq c rfl]; rfl
  rw [List.takeWhile_append_of_pos ht, hnil, List.append_nil]

/-- All characters of a run are of its class. -/
theorem forall_mem_takeWhile (p : Char → Bool) (s : List Char) : ∀ x ∈ s.takeWhile p, p x = true :=
  List.all_eq_true.1 List.all_takeWhile

/-- What is left behind a run. -/
theorem drop_length_takeWhile (p : Char → Bool) (s : List Char) :
    s.drop (s.takeWhile p).length = s.dropWhile p := by
  have h : (s.takeWhile p ++ s.dropWhile p).drop (s.takeWhile p).length = s.dropWhile p :=
    List.drop_left' rfl
  rwa [List.takeWhile_append_dropWhile] at h

/-- A run is as long as its characters. -/
theorem take_length_takeWhile (p : Char → Bool) (s : List Char) :
    s.take (s.takeWhile p).length = s.takeWhile p := by
  have h : (s.takeWhile p ++ s.dropWhile p).take (s.takeWhile p).length = s.takeWhile p :=
    List.take_left' rfl
  rwa [List.takeWhile_append_dropWhile] at h

/-- A run stops where it ends. -/
theorem stops_dropWhile (p : Char → Bool) (s : List Char) : Stops p (s.dropWhile p) := by
  intro c hc
  have h := List.head?_dropWhile_not p s
  rw [hc] at h
  exact h

/-! ## The end of a word -/

/-- The texts that end every word: nothing, a closing bracket or white space. -/
def Ends (q : List Char) : Prop := ∀ c, q.head? = some c → c = ')' ∨ Text.isBlank c = true

theorem ends_bracket (q : List Char) : Ends (')' :: q) := by
  intro c hc
  obtain rfl : ')' = c := by simpa using hc
  exact Or.inl rfl

theorem ends_space (q : List Char) : Ends (' ' :: q) := by
  intro c hc
  obtain rfl : ' ' = c := by simpa using hc
  exact Or.inr (by decide)

/-- White space ends every word, and so does the end of the source. -/
theorem ends_of_isBlankText {q : List Char} (h : Text.isBlankText q = true) : Ends q := by
  intro c hc
  cases q with
  | nil => simp at hc
  | cons x r =>
    obtain rfl : x = c := by simpa using hc
    rw [Text.isBlankText_cons, Bool.and_eq_true] at h
    exact Or.inr h.1

/-- The code point of what ends a word. -/
theorem toNat_of_ends {q : List Char} {c : Char} (hq : Ends q) (hc : q.head? = some c) :
    c.toNat = 41 ∨ 9 ≤ c.toNat ∧ c.toNat ≤ 13 ∨ 28 ≤ c.toNat ∧ c.toNat ≤ 32 ∨ 133 ≤ c.toNat := by
  rcases hq c hc with rfl | h
  · exact Or.inl rfl
  · exact Or.inr (toNat_of_isBlank h)

variable {q : List Char}

/-- No character of a word is among those that end one. -/
theorem Ends.stops_isNameChar (hq : Ends q) : Stops isNameChar q := by
  intro c hc
  have hn := toNat_of_ends hq hc
  rw [Bool.eq_false_iff, ne_eq, isNameChar_iff]
  omega

theorem Ends.stops_isDigitOrMark (hq : Ends q) : Stops isDigitOrMark q := by
  intro c hc
  have hn := toNat_of_ends hq hc
  rw [Bool.eq_false_iff, ne_eq, isDigitOrMark_iff]
  omega

theorem Ends.stops_isDigit (hq : Ends q) : Stops Char.isDigit q := by
  intro c hc
  have hn := toNat_of_ends hq hc
  rw [Bool.eq_false_iff, ne_eq, isDigit_iff]
  omega

theorem Ends.stops_continuesNumeral (hq : Ends q) : Stops continuesNumeral q := by
  intro c hc
  have hn := toNat_of_ends hq hc
  rw [Bool.eq_false_iff, ne_eq, continuesNumeral_iff]
  rintro (rfl | rfl | rfl)
  · have : '.'.toNat = 46 := rfl
    omega
  · have : 'e'.toNat = 101 := rfl
    omega
  · have : 'E'.toNat = 69 := rfl
    omega

/-! ## Operators and names -/

variable {t : List Char} {op : Operator}

/-- The spellings that are tried are the keywords and the symbols. -/
theorem mem_spellings_iff :
    (t, op) ∈ Operator.spellings ↔ (t, op) ∈ keywords ∨ ∃ c, t = [c] ∧ (c, op) ∈ symbols := by
  constructor
  · intro h
    have hall : ∀ p ∈ Operator.spellings,
        p ∈ keywords ∨ ∃ q ∈ symbols, p = ([q.1], q.2) := by decide
    rcases hall _ h with hk | ⟨⟨c, o⟩, hs, heq⟩
    · exact .inl hk
    · obtain ⟨rfl, rfl⟩ := Prod.mk.inj heq
      exact .inr ⟨c, rfl, hs⟩
  · rintro (hk | ⟨c, rfl, hs⟩)
    · have hall : ∀ p ∈ keywords, p ∈ Operator.spellings := by decide
      exact hall _ hk
    · have hall : ∀ p ∈ symbols, ([p.1], p.2) ∈ Operator.spellings := by decide
      exact hall _ hs

/-- No symbol is a character that can stand in a word. -/
theorem not_isNameChar_of_mem_symbols {c : Char} (h : (c, op) ∈ symbols) :
    isNameChar c = false := by
  have hall : ∀ p ∈ symbols, isNameChar p.1 = false := by decide
  exact hall _ h

/-- A character that can stand in a word is no symbol. -/
theorem not_isSymbol_of_isNameChar {c : Char} (h : isNameChar c = true) : ¬ IsSymbol c := by
  rintro ⟨op, hmem⟩
  rw [not_isNameChar_of_mem_symbols hmem] at h
  exact absurd h (by decide)

/-- A keyword consists of characters of a word, and begins with one that begins a name. -/
theorem isIdentifier_of_mem_keywords (h : (t, op) ∈ keywords) : IsIdentifier t := by
  have hall : ∀ p ∈ keywords, p.1.head?.any isNameStart = true ∧ p.1.all isNameChar = true := by
    decide
  obtain ⟨hhead, hchars⟩ := hall _ h
  cases t with
  | nil => simp at hhead
  | cons c r =>
    rw [List.all_cons, Bool.and_eq_true] at hchars
    exact ⟨by simpa using hhead, List.all_eq_true.1 hchars.2⟩

/-- All characters of an identifier can stand in a word. -/
theorem forall_isNameChar_of_isIdentifier (h : IsIdentifier t) : ∀ x ∈ t, isNameChar x = true := by
  cases t with
  | nil => simp
  | cons c r =>
    intro x hx
    rcases List.mem_cons.1 hx with rfl | hx
    · exact isNameChar_of_isNameStart h.1
    · exact h.2 x hx

/-- An identifier is the longest word at the beginning of a text. -/
theorem word_append (h : IsIdentifier t) (hq : Stops isNameChar q) : word (t ++ q) = t :=
  takeWhile_append (forall_isNameChar_of_isIdentifier h) hq

/-- All that a spelling at the beginning of a text can consist of: the longest word, or the first
character if it stands in no word. -/
def lead (s : List Char) : List Char := if s.head?.any isNameChar then word s else s.take 1

/-- What leads a text stands at its beginning. -/
theorem lead_isPrefixOf (s : List Char) : lead s <+: s := by
  unfold lead
  split
  · exact List.takeWhile_prefix isNameChar
  · exact List.take_prefix 1 s

/-- An identifier leads a text if it is a whole word there. -/
theorem lead_append (h : IsIdentifier t) (hq : Stops isNameChar q) : lead (t ++ q) = t := by
  have hword := word_append h hq
  cases t with
  | nil => exact h.elim
  | cons c r =>
    have hhead : (c :: r ++ q).head?.any isNameChar = true := isNameChar_of_isNameStart h.1
    rw [lead, if_pos hhead, hword]

/-- A character that stands in no word leads a text by itself. -/
theorem lead_cons {c : Char} (hc : isNameChar c = false) (q : List Char) : lead (c :: q) = [c] := by
  have hhead : ¬ (c :: q).head?.any isNameChar = true := by simp [hc]
  rw [lead, if_neg hhead]
  rfl

/-- A spelling of letters is tried with a look at what follows it, where its word has to end. -/
theorem beginsWith_word_iff (ht : t.all Char.isAlpha = true) (s : List Char) :
    beginsWith s t = true ↔ t <+: s ∧ Stops isNameChar (s.drop t.length) := by
  rw [beginsWith, ht, Bool.true_and, Bool.and_eq_true, List.isPrefixOf_iff_prefix]
  cases hhead : (s.drop t.length).head? with
  | none => simp [Stops, hhead]
  | some c => simp [Stops, hhead]

/-- **No two spellings compete.** A text begins with a spelling exactly if this leads it, so the
order in which they are tried does not matter. -/
theorem beginsWith_iff (h : (t, op) ∈ Operator.spellings) (s : List Char) :
    beginsWith s t = true ↔ t = lead s := by
  rcases mem_spellings_iff.1 h with hk | ⟨c, rfl, hs⟩
  · have hid := isIdentifier_of_mem_keywords hk
    have halpha : ∀ p ∈ keywords, p.1.all Char.isAlpha = true := by decide
    rw [beginsWith_word_iff (halpha _ hk)]
    constructor
    · rintro ⟨⟨q, rfl⟩, hstop⟩
      rw [List.drop_left] at hstop
      exact (lead_append hid hstop).symm
    · intro heq
      unfold lead at heq
      split at heq
      · rw [heq]
        refine ⟨ List.takeWhile_prefix isNameChar, ?_⟩
        rw [word, drop_length_takeWhile]
        exact stops_dropWhile isNameChar s
      · -- The first character would be one of the keyword, which consists of a word's.
        next hhead =>
        cases s with
        | nil => rw [heq] at hid; exact hid.elim
        | cons x r =>
          have hx := forall_isNameChar_of_isIdentifier hid x (by rw [heq]; exact List.mem_cons_self)
          exact absurd hx hhead
  · have hc := not_isNameChar_of_mem_symbols hs
    have hsymbols : ∀ p ∈ symbols, [p.1].all Char.isAlpha = false := by decide
    have hbegins : beginsWith s [c] = [c].isPrefixOf s := by
      rw [beginsWith, hsymbols _ hs]
      simp
    rw [hbegins, List.isPrefixOf_iff_prefix]
    constructor
    · rintro ⟨q, rfl⟩
      exact (lead_cons hc q).symm
    · intro heq
      rw [heq]
      exact lead_isPrefixOf s

/-- The operator that is read is the one whose spelling leads the text. -/
theorem operator?_eq_some_iff {s : List Char} {n : Nat} :
    operator? s = some (op, n) ↔ (lead s, op) ∈ Operator.spellings ∧ n = (lead s).length := by
  constructor
  · intro h
    obtain ⟨⟨t, o⟩, hfind, heq⟩ := Option.map_eq_some_iff.1 h
    obtain ⟨rfl, rfl⟩ := Prod.mk.inj heq
    have hmem := List.mem_of_find?_eq_some hfind
    have hbegins := List.find?_some hfind
    rw [← (beginsWith_iff hmem s).1 hbegins]
    exact ⟨hmem, rfl⟩
  · rintro ⟨hmem, rfl⟩
    have hunique : ∀ p ∈ Operator.spellings, ∀ p' ∈ Operator.spellings, p.1 = p'.1 → p = p' := by
      decide
    cases hfind : Operator.spellings.find? fun p => beginsWith s p.1 with
    | none =>
      have hnot := List.find?_eq_none.1 hfind _ hmem
      exact absurd ((beginsWith_iff hmem s).2 rfl) hnot
    | some p =>
      have hmem' := List.mem_of_find?_eq_some hfind
      have hbegins := List.find?_some hfind
      obtain rfl := hunique _ hmem' _ hmem ((beginsWith_iff hmem' s).1 hbegins)
      exact congrArg _ hfind

/-- A keyword is read as its operator. -/
theorem operator?_append_keyword (h : (t, op) ∈ keywords) (hq : Stops isNameChar q) :
    operator? (t ++ q) = some (op, t.length) := by
  rw [operator?_eq_some_iff, lead_append (isIdentifier_of_mem_keywords h) hq]
  exact ⟨mem_spellings_iff.2 (.inl h), rfl⟩

/-- A symbol is read as its operator, whatever follows. -/
theorem operator?_cons_symbol {c : Char} (h : (c, op) ∈ symbols) (q : List Char) :
    operator? (c :: q) = some (op, 1) := by
  rw [operator?_eq_some_iff, lead_cons (not_isNameChar_of_mem_symbols h)]
  exact ⟨mem_spellings_iff.2 (.inr ⟨c, rfl, h⟩), rfl⟩

/-- A text that no spelling leads is not read as an operator. -/
theorem operator?_eq_none {s : List Char} (hk : ¬ IsKeyword (lead s))
    (hs : ∀ c, lead s = [c] → ¬ IsSymbol c) : operator? s = none := by
  rw [Option.eq_none_iff_forall_ne_some]
  rintro ⟨op, n⟩ h
  rcases mem_spellings_iff.1 (operator?_eq_some_iff.1 h).1 with hmem | ⟨c, hc, hmem⟩
  · exact hk ⟨op, hmem⟩
  · exact hs c hc ⟨op, hmem⟩

/-- An identifier that is no keyword is not read as an operator. -/
theorem operator?_append_name (h : IsIdentifier t) (hk : ¬ IsKeyword t)
    (hq : Stops isNameChar q) : operator? (t ++ q) = none := by
  apply operator?_eq_none
  · rwa [lead_append h hq]
  · intro c hc
    rw [lead_append h hq] at hc
    obtain rfl := hc
    exact not_isSymbol_of_isNameChar (forall_isNameChar_of_isIdentifier h c List.mem_cons_self)

/-- A text that begins with neither a symbol nor a letter is not read as an operator. -/
theorem operator?_cons_eq_none {c : Char} (hc : ¬ IsSymbol c) (hs : isNameStart c = false)
    (q : List Char) : operator? (c :: q) = none := by
  have hlead : ∃ r, lead (c :: q) = c :: r := by
    cases hname : isNameChar c with
    | true => exact ⟨q.takeWhile isNameChar, by simp [lead, word, hname]⟩
    | false => exact ⟨[], lead_cons hname q⟩
  obtain ⟨r, hr⟩ := hlead
  apply operator?_eq_none
  · rintro ⟨op, hmem⟩
    have hid := isIdentifier_of_mem_keywords hmem
    rw [hr] at hid
    rw [hid.1] at hs
    exact absurd hs (by decide)
  · intro x hx
    rw [hr] at hx
    obtain ⟨rfl, -⟩ := List.cons.inj hx
    exact hc

/-- What is read as an operator is one of its spellings. -/
theorem derives_of_operator? {s : List Char} {n : Nat} (h : operator? s = some (op, n)) :
    Derives (s.take n) (.operator op) := by
  obtain ⟨hmem, rfl⟩ := operator?_eq_some_iff.1 h
  rw [← List.prefix_iff_eq_take.1 (lead_isPrefixOf s)]
  rcases mem_spellings_iff.1 hmem with hk | ⟨c, hc, hs⟩
  · exact Derives.keyword hk
  · rw [hc]
    exact Derives.symbol hs

/-- An identifier is read as a name. -/
theorem name?_append (h : IsIdentifier t) (hq : Stops isNameChar q) :
    name? (t ++ q) = some (String.ofList t, t.length) := by
  have hword := word_append h hq
  cases t with
  | nil => exact h.elim
  | cons c r =>
    simp only [List.cons_append] at hword ⊢
    simp only [name?, h.1, if_true, hword]

/-- What does not begin with a letter or an underscore is not read as a name. -/
theorem name?_cons_eq_none {c : Char} (hc : isNameStart c = false) (q : List Char) :
    name? (c :: q) = none := by
  simp [name?, hc]

/-- What is read as a name, where no operator is read, is an identifier that is no keyword. -/
theorem derives_of_name? {s : List Char} {id : String} {n : Nat} (h : name? s = some (id, n))
    (hop : operator? s = none) : Derives (s.take n) (.name id) := by
  cases s with
  | nil => simp [name?] at h
  | cons c r =>
    simp only [name?] at h
    split at h
    · next hc =>
      obtain ⟨rfl, rfl⟩ := Prod.mk.inj (Option.some.inj h)
      have htake : (c :: r).take (word (c :: r)).length = word (c :: r) :=
        take_length_takeWhile isNameChar (c :: r)
      have hcons : word (c :: r) = c :: r.takeWhile isNameChar := by
        rw [word, List.takeWhile_cons, if_pos (isNameChar_of_isNameStart hc)]
      have hid : IsIdentifier (word (c :: r)) := by
        rw [hcons]
        exact ⟨hc, forall_mem_takeWhile isNameChar r⟩
      rw [htake]
      refine Derives.identifier hid ?_
      rintro ⟨op, hmem⟩
      have hread := operator?_append_keyword hmem (stops_dropWhile isNameChar (c :: r))
      rw [word, List.takeWhile_append_dropWhile, hop] at hread
      exact absurd hread (by simp)
    · simp at h

end Lisp.Token
