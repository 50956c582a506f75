/-
# Integers with white space around them

The limit can be given as an option, where the syntax of integers allows white space around them, or
by a variable, whose value is trimmed before it is read.  The two kinds of white space differ, but
no character of an integer is white space of either kind.  So a text that is an integer is the same
integer when it is trimmed.

* `Text.strip` : a text without the characters of a class at either end;
* `Settings.signed?`, `Settings.integer?_eq` : an integer is what is left when its padding is
  stripped;
* `Settings.solid_of_signed?` : there is no white space inside an integer;
* `Settings.signed?_trim` : trimming an integer, whatever white space its syntax allows;
* `Settings.maxDepthOf_of_positive` : the two ways to give the limit.
-/
import Lisp.Settings
import Lisp.Proofs.Word

namespace Lisp

/-! ## Stripping both ends -/

namespace Text

/-- A text without the characters of a class at either end. -/
def strip (p : Char → Bool) (s : List Char) : List Char :=
  ((s.dropWhile p).reverse.dropWhile p).reverse

theorem trim_eq_strip (s : List Char) : trim s = strip isBlank s := rfl

/-- A text that has no character of a class in it, and is not empty. -/
structure Solid (p : Char → Bool) (s : List Char) : Prop where
  ne_nil : s ≠ []
  out : ∀ c ∈ s, p c = false

variable {p : Char → Bool} {s : List Char}

/-- Nothing is dropped from a text that begins with a character of another class. -/
theorem dropWhile_of_stops (h : Token.Stops p s) : s.dropWhile p = s := by
  cases s with
  | nil => rfl
  | cons c r => rw [List.dropWhile_cons, h c rfl, if_neg (by simp)]

/-- A text that begins with a solid one does not begin with the class. -/
theorem Solid.stops_append (h : Solid p s) (q : List Char) : Token.Stops p (s ++ q) := by
  cases s with
  | nil => exact absurd rfl h.ne_nil
  | cons c r => exact Token.stops_cons (h.out c List.mem_cons_self)

/-- A text stays solid with a character of another class in front. -/
theorem Solid.cons {c : Char} (hc : p c = false) (h : Solid p s) : Solid p (c :: s) where
  ne_nil := List.cons_ne_nil c s
  out := List.forall_mem_cons.2 ⟨hc, h.out⟩

theorem Solid.reverse (h : Solid p s) : Solid p s.reverse where
  ne_nil := mt List.reverse_eq_nil_iff.1 h.ne_nil
  out c hc := h.out c (List.mem_reverse.1 hc)

/-- Stripping uncovers what is solid. -/
theorem Solid.strip_eq {before behind : List Char} (h : Solid p s)
    (hbefore : ∀ c ∈ before, p c = true) (hbehind : ∀ c ∈ behind, p c = true) :
    strip p (before ++ s ++ behind) = s := by
  have hfront : (before ++ s ++ behind).dropWhile p = s ++ behind := by
    rw [List.append_assoc, List.dropWhile_append_of_pos hbefore]
    exact dropWhile_of_stops (h.stops_append behind)
  have hback : (s ++ behind).reverse.dropWhile p = s.reverse := by
    rw [List.reverse_append, List.dropWhile_append_of_pos (by simpa using hbehind)]
    have hstop := h.reverse.stops_append []
    rw [List.append_nil] at hstop
    exact dropWhile_of_stops hstop
  rw [strip, hfront, hback, List.reverse_reverse]

theorem Solid.strip_self (h : Solid p s) : strip p s = s := by
  have hstrip := h.strip_eq (List.forall_mem_nil _) (List.forall_mem_nil _)
  rwa [List.nil_append, List.append_nil] at hstrip

/-- What has no character of a class has none of a smaller one. -/
theorem Solid.mono {q : Char → Bool} (h : Solid p s) (hq : ∀ c, q c = true → p c = true) :
    Solid q s where
  ne_nil := h.ne_nil
  out c hc := by
    rw [Bool.eq_false_iff]
    intro hqc
    have hpc := hq c hqc
    rw [h.out c hc] at hpc
    exact absurd hpc nofun

/-- What is stripped belongs to the class. -/
theorem exists_strip (p : Char → Bool) (s : List Char) :
    ∃ before behind, s = before ++ strip p s ++ behind ∧ (∀ c ∈ before, p c = true) ∧
      ∀ c ∈ behind, p c = true := by
  let front := s.dropWhile p
  refine ⟨s.takeWhile p, (front.reverse.takeWhile p).reverse, ?_,
    Token.forall_mem_takeWhile p s, fun c hc => ?_⟩
  · have hback : strip p s ++ (front.reverse.takeWhile p).reverse = front := by
      rw [strip, ← List.reverse_append, List.takeWhile_append_dropWhile, List.reverse_reverse]
    rw [List.append_assoc, hback, List.takeWhile_append_dropWhile]
  · exact Token.forall_mem_takeWhile p front.reverse c (List.mem_reverse.1 hc)

/-- No digit of any script is white space. -/
theorem isBlank_of_digitValue? {c : Char} {d : Nat} (h : digitValue? c = some d) :
    isBlank c = false := by
  have hapart : ∀ z ∈ digitZeros, ∀ r ∈ blankRanges, r.last < z ∨ z + 10 ≤ r.first := by decide
  obtain ⟨z, hfind, -⟩ := Option.map_eq_some_iff.1 h
  have hz : z ≤ c.toNat ∧ c.toNat < z + 10 := by simpa using List.find?_some hfind
  rw [isBlank, List.any_eq_false]
  intro r hr hold
  rw [Range.holds_iff] at hold
  rcases hapart z (List.mem_of_find?_eq_some hfind) r hr with hlt | hle
  · omega
  · omega

end Text

namespace Settings

open Text (Solid strip)

/-! ## Integers without padding -/

/-- The integer that a text without padding spells: an optional sign and digits. -/
def signed? : List Char → Option Int
  | '-' :: rest => (natural? rest).map fun n => -(n : Int)
  | '+' :: rest => (natural? rest).map fun n => (n : Int)
  | rest => (natural? rest).map fun n => (n : Int)

/-- The integer that a text spells is what is left without its padding. -/
theorem integer?_eq (s : List Char) : integer? s = signed? (strip isPadding s) := rfl

theorem isBlank_of_isPadding {c : Char} (h : isPadding c = true) : Text.isBlank c = true := by
  rw [isPadding, Bool.and_eq_true] at h
  exact h.1

/-- Digits with underscores between them have no white space among them. -/
theorem solid_of_digitValues? {s : List Char} {ds : List Nat} (h : digitValues? s = some ds) :
    Solid Text.isBlank s := by
  fun_induction digitValues? s generalizing ds with
  | case1 => simp at h
  | case2 c =>
    obtain ⟨d, hd, -⟩ := Option.map_eq_some_iff.1 h
    exact ⟨by simp, by simpa using Text.isBlank_of_digitValue? hd⟩
  | case3 c rest ih =>
    obtain ⟨d, hd, h⟩ := Option.bind_eq_some_iff.1 h
    obtain ⟨more, hmore, -⟩ := Option.bind_eq_some_iff.1 h
    exact .cons (Text.isBlank_of_digitValue? hd) (.cons (by decide) (ih hmore))
  | case4 c rest _ _ ih =>
    obtain ⟨d, hd, h⟩ := Option.bind_eq_some_iff.1 h
    obtain ⟨more, hmore, -⟩ := Option.bind_eq_some_iff.1 h
    exact .cons (Text.isBlank_of_digitValue? hd) (ih hmore)

/-- A numeral neither begins nor ends with white space. -/
theorem solid_of_natural? {s : List Char} {n : Nat} (h : natural? s = some n) :
    Solid Text.isBlank s := by
  obtain ⟨ds, hds, -⟩ := Option.bind_eq_some_iff.1 h
  exact solid_of_digitValues? hds

/-- There is no white space inside an integer. -/
theorem solid_of_signed? {s : List Char} {v : Int} (h : signed? s = some v) :
    Solid Text.isBlank s := by
  have hdigits : ∀ {f : Int → Int} {rest : List Char},
      Option.map f (natural? rest) = some v → Solid Text.isBlank rest := by
    intro f rest h
    obtain ⟨n, hn, -⟩ := Option.map_eq_some_iff.1 h
    obtain ⟨m, hm, -⟩ := Option.bind_eq_some_iff.1 hn
    exact solid_of_natural? hm
  unfold signed? at h
  split at h
  · exact .cons (by decide) (hdigits h)
  · exact .cons (by decide) (hdigits h)
  · exact hdigits h

/-! ## The two ways to give the limit -/

/-- **Trimming an integer.** If a text without some of its surrounding white space is an integer,
trimming it leaves exactly that integer, and there is no white space of any kind left to strip. -/
theorem signed?_trim {p q : Char → Bool} (hp : ∀ c, p c = true → Text.isBlank c = true)
    (hq : ∀ c, q c = true → Text.isBlank c = true) {s : List Char} {v : Int}
    (h : signed? (strip p s) = some v) : signed? (strip q (Text.trim s)) = some v := by
  have hsolid := solid_of_signed? h
  obtain ⟨before, behind, hs, hbefore, hbehind⟩ := Text.exists_strip p s
  have htrim : Text.trim s = strip p s := by
    -- What was stripped is white space, and nothing that is left is.
    have hblank := hsolid.strip_eq (fun c hc => hp c (hbefore c hc))
      (fun c hc => hp c (hbehind c hc))
    rw [Text.trim_eq_strip]
    rwa [← hs] at hblank
  rw [htrim, (hsolid.mono hq).strip_self]
  exact h

/-- **The option and the variable agree.** Whatever text is accepted as the option's limit gives a
positive limit, and the same one as the value of the variable, which gives a positive limit in any
case.  The reason does not depend on which white space the syntax of integers skips around them, nor
on whether that depends on the rest of the text: an integer is the same integer when it is
trimmed. -/
theorem maxDepthOf_of_positive :
    (∀ text v, positive text = .ok v → 0 < v ∧ maxDepthOf (some text) = v) ∧
    (∀ value, 0 < maxDepthOf value) ∧
    ∀ skips : List Char → Char → Bool, (∀ s c, skips s c = true → Text.isBlank c = true) →
      ∀ s v, signed? (strip (skips s) s) = some v →
        signed? (strip (skips (Text.trim s)) (Text.trim s)) = some v := by
  refine ⟨fun text v h => ?_, maxDepthOf_pos, fun skips hskips s v h => ?_⟩
  · unfold positive at h
    split at h
    · exact absurd h nofun
    · next n hn =>
      split at h
      · exact absurd h nofun
      · next hpos =>
        obtain rfl := Except.ok.inj h
        have hgt : 0 < n := by omega
        rw [integer?_eq] at hn
        have htrim : integer? (Text.trim text.toList) = some n := by
          rw [integer?_eq]
          exact signed?_trim (fun _ => isBlank_of_isPadding) (fun _ => isBlank_of_isPadding) hn
        refine ⟨hgt, ?_⟩
        simp only [maxDepthOf, Option.bind_some, htrim, if_pos hgt]
  · exact signed?_trim (hskips s) (hskips (Text.trim s)) h

/-- A limit in the digits of another script with white space around it.  Moreover, if white space
counts in full only where the text has a character beyond the first 128, then it counts in full in
the second text and no longer does when that is trimmed. -/
theorem maxDepthOf_of_positive_digits :
    let text := "\u00a0\t+\u0661_0\u2003"
    let skips : List Char → Char → Bool := fun s c =>
      if s.all (·.toNat < 128) then (9 ≤ c.toNat && c.toNat ≤ 13) || c = ' ' else Text.isBlank c
    let s := "\x1c7\u00a0".toList
    positive text = .ok 10 ∧ maxDepthOf (some text) = 10 ∧ signed? (strip (skips s) s) = some 7 ∧
      signed? (strip (skips (Text.trim s)) (Text.trim s)) = some 7 := by
  intro text skips s
  obtain ⟨hlimit, -, hskipped⟩ := maxDepthOf_of_positive
  have hpositive : positive text = .ok 10 := by
    have hinteger : integer? text.toList = some 10 := by decide +kernel
    rw [positive, hinteger]
    rfl
  have hsigned : signed? (strip (skips s) s) = some 7 := by decide +kernel
  have hskips : ∀ s c, skips s c = true → Text.isBlank c = true := by
    intro s c h
    simp only [skips] at h
    split at h
    · rw [Bool.or_eq_true, Bool.and_eq_true, decide_eq_true_eq, decide_eq_true_eq,
        decide_eq_true_eq] at h
      rcases h with ⟨hlo, hhi⟩ | rfl
      · simp [Text.isBlank, Text.blankRanges, Text.Range.holds, hlo, hhi]
      · decide
    · exact h
  exact ⟨hpositive, (hlimit text 10 hpositive).2, hsigned, hskipped skips hskips s 7 hsigned⟩

end Settings

end Lisp
