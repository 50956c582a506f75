/-
# Classes of expressions that evaluation does not leave

Code and data are the same trees, so whatever an evaluation comes across was put together from
atoms that were there before, from `nil` and from numbers that it computed.  A class of expressions
that is described by its atoms is therefore never left.

* `Expr.Every` : the class of the expressions whose atoms all satisfy a condition;
* `Eval.Closed`, `Eval.closed_every` : classes that no operator leads out of;
* `Procedure.Inside`, `Env.Inside` : functions and environments that hold nothing else;
* `EvalError.RaisedOver` : the errors that an operator can raise inside a class;
* `Env.get?_bindPairs_cases`, `Env.get?_bindPairs_shadow` : what is looked up after a binding.
-/
import Lisp.Eval
import Lisp.Proofs.Binding

namespace Lisp

/-! ## Atoms -/

namespace Expr

mutual

/-- Every atom of an expression satisfies `p`, also inside quoted data. -/
def Every (p : Expr → Prop) : Expr → Prop
  | quoted items => EveryAll p items
  | form items => EveryAll p items
  | e => p e

/-- Every atom of every expression on a list satisfies `p`. -/
def EveryAll (p : Expr → Prop) : List Expr → Prop
  | [] => True
  | e :: rest => e.Every p ∧ EveryAll p rest

end

mutual

instance decidableEvery (p : Expr → Prop) [DecidablePred p] : (e : Expr) → Decidable (e.Every p)
  | quoted items => decidableEveryAll p items
  | form items => decidableEveryAll p items
  | name id => inferInstanceAs (Decidable (p (name id)))
  | text value => inferInstanceAs (Decidable (p (text value)))
  | operator op => inferInstanceAs (Decidable (p (operator op)))
  | number n => inferInstanceAs (Decidable (p (number n)))
  | boolean b => inferInstanceAs (Decidable (p (boolean b)))

instance decidableEveryAll (p : Expr → Prop) [DecidablePred p] :
    (es : List Expr) → Decidable (EveryAll p es)
  | [] => .isTrue trivial
  | e :: rest =>
    have := decidableEvery p e
    have := decidableEveryAll p rest
    inferInstanceAs (Decidable (_ ∧ _))

end

variable {p : Expr → Prop}

/-- The elements of a list satisfy the condition one by one. -/
theorem everyAll_iff (es : List Expr) : EveryAll p es ↔ ∀ e ∈ es, e.Every p := by
  induction es with
  | nil => simp [EveryAll]
  | cons e rest ih => rw [EveryAll, ih, List.forall_mem_cons]

theorem every_form (items : List Expr) : (form items).Every p ↔ ∀ e ∈ items, e.Every p := by
  rw [Every, everyAll_iff]

theorem every_quoted (items : List Expr) : (quoted items).Every p ↔ ∀ e ∈ items, e.Every p := by
  rw [Every, everyAll_iff]

end Expr

namespace Eval

/-! ## Closed classes -/

/-- The arithmetical operations, each with its operands and its result. -/
inductive Computes : List Number → Except NumberError Number → Prop
  | sum (ns : List Number) : Computes ns (Arithmetic.sum ns)
  | product (ns : List Number) : Computes ns (Arithmetic.product ns)
  | difference (m n : Number) : Computes [m, n] (Arithmetic.difference m n)
  | quotient (m n : Number) : Computes [m, n] (Arithmetic.quotient m n)
  | remainder (m n : Number) : Computes [m, n] (Arithmetic.remainder m n)

/-- A class of expressions that no operator leads out of.  It holds a list exactly if it holds the
elements, it holds `nil`, and it holds what is computed from the numbers that it holds. -/
structure Closed (P : Expr → Prop) : Prop where
  form : ∀ items, P (.form items) ↔ ∀ e ∈ items, P e
  quoted : ∀ items, P (.quoted items) ↔ ∀ e ∈ items, P e
  nil : P .nil
  number : ∀ {ns n}, Computes ns (.ok n) → (∀ m ∈ ns, P (.number m)) → P (.number n)

/-- A class that is described by its atoms is closed if it holds `nil` and is closed under
arithmetic. -/
theorem closed_every {p : Expr → Prop} (hnil : p .nil)
    (hnumber : ∀ {ns n}, Computes ns (.ok n) → (∀ m ∈ ns, p (.number m)) → p (.number n)) :
    Closed (Expr.Every p) where
  form := Expr.every_form
  quoted := Expr.every_quoted
  nil := hnil
  number := hnumber

variable {P : Expr → Prop}

/-- The elements of a list in a closed class belong to it. -/
theorem Closed.of_items? (hP : Closed P) {e : Expr} {items : List Expr} (he : P e)
    (h : e.items? = some items) : ∀ x ∈ items, P x := by
  cases e with
  | form xs =>
    obtain rfl : xs = items := by simpa [Expr.items?] using h
    exact (hP.form xs).1 he
  | quoted xs =>
    obtain rfl : xs = items := by simpa [Expr.items?] using h
    exact (hP.quoted xs).1 he
  | _ => simp [Expr.items?] at h

/-- A call that is put together from a function and an element belongs to the class of both. -/
theorem Closed.callOn (hP : Closed P) {fn e : Expr} (hfn : P fn) (he : P e) : P (callOn fn e) := by
  unfold Eval.callOn
  split
  · next args =>
    rw [hP.form, List.forall_mem_cons]
    exact ⟨hfn, (hP.quoted args).1 he⟩
  · rw [hP.form, List.forall_mem_cons, List.forall_mem_singleton]
    exact ⟨hfn, he⟩

/-- Names are found exactly among expressions that are all names. -/
theorem eq_map_name_of_names? {es : List Expr} {names : List String} (h : names? es = some names) :
    es = names.map .name := by
  induction es generalizing names with
  | nil =>
    obtain rfl : [] = names := by simpa [names?] using h
    rfl
  | cons e rest ih =>
    cases e with
    | name id =>
      obtain ⟨others, hothers, rfl⟩ := Option.map_eq_some_iff.1 h
      rw [ih hothers, List.map_cons]
    | _ => simp [names?] at h

theorem names?_map_name (names : List String) : names? (names.map .name) = some names := by
  induction names with
  | nil => rfl
  | cons id rest ih => rw [List.map_cons, names?, ih, Option.map_some]

/-- Numbers are found exactly among expressions that are all numbers. -/
theorem eq_map_number_of_numbers? {es : List Expr} {ns : List Number} (h : numbers? es = some ns) :
    es = ns.map .number := by
  induction es generalizing ns with
  | nil =>
    obtain rfl : [] = ns := by simpa [numbers?] using h
    rfl
  | cons e rest ih =>
    cases e with
    | number n =>
      obtain ⟨others, hothers, rfl⟩ := Option.map_eq_some_iff.1 h
      rw [ih hothers, List.map_cons]
    | _ => simp [numbers?] at h

end Eval

/-! ## Functions, errors and environments inside a class -/

variable {P : Expr → Prop}

/-- A function whose name, parameters and body belong to a class. -/
structure Procedure.Inside (P : Expr → Prop) (p : Procedure) : Prop where
  name : P (.name p.name)
  params : ∀ x ∈ p.params, P (.name x)
  body : P p.body

/-- An error that an operator can raise inside a class: the expressions and names in it belong to
the class, and an arithmetical cause comes from numbers of the class.  The limit is not reached by
an operator. -/
def EvalError.RaisedOver (P : Expr → Prop) : EvalError → Prop
  | invalidArguments args => P args
  | unknownFunction name => P (.name name)
  | unknownVariable name => P (.name name)
  | notAFunction head => P head
  | arithmetic cause => ∃ ns, Eval.Computes ns (.error cause) ∧ ∀ m ∈ ns, P (.number m)
  | tooDeep _ => False
  | _ => True

namespace Env

/-- An environment whose variables and functions hold nothing outside of a class. -/
structure Inside (P : Expr → Prop) (E : Env) : Prop where
  vars : ∀ {k e}, E.vars.get? k = some e → P e
  functions : ∀ {k p}, E.functions.get? k = some p → p.Inside P

/-- A fresh environment holds nothing. -/
theorem inside_fresh (limit : Int) : (fresh limit).Inside P where
  vars h := by simp [fresh] at h
  functions h := by simp [fresh] at h

/-! ## Looking up after a binding -/

/-- What a name holds after a binding is one of the new values, or what it held before. -/
theorem get?_bindPairs_cases {k : String} {e : Expr} {pairs : List (String × Expr)}
    {vars : Table Expr} (h : (bindPairs vars pairs).get? k = some e) :
    e ∈ pairs.map Prod.snd ∨ vars.get? k = some e := by
  induction pairs generalizing vars with
  | nil => exact .inr h
  | cons pair rest ih =>
    obtain ⟨name, value⟩ := pair
    have hrest : (bindPairs (vars.insert name value) rest).get? k = some e := h
    rcases ih hrest with hmem | hbefore
    · exact .inl (List.mem_cons_of_mem _ hmem)
    · rw [Table.get?_insert] at hbefore
      split at hbefore
      · exact .inl (by simpa using .inl (Option.some.inj hbefore).symm)
      · exact .inr hbefore

/-- Binding the same values makes look-ups alike under the names that are bound, and keeps them
alike under the others. -/
theorem get?_bindPairs_shadow {s t : Table Expr} {pairs : List (String × Expr)}
    (h : ∀ k, k ∉ pairs.map Prod.fst → s.get? k = t.get? k) (k : String) :
    (bindPairs s pairs).get? k = (bindPairs t pairs).get? k := by
  induction pairs generalizing s t with
  | nil => exact h k (by simp)
  | cons pair rest ih =>
    obtain ⟨name, value⟩ := pair
    refine ih (s := s.insert name value) (t := t.insert name value) fun j hj => ?_
    rw [Table.get?_insert, Table.get?_insert]
    by_cases hname : j = name
    · rw [if_pos hname, if_pos hname]
    · rw [if_neg hname, if_neg hname]
      exact h j (by simpa [hname] using hj)

/-- Binding the same values keeps look-ups alike. -/
theorem get?_bindPairs_congr {s t : Table Expr} (h : ∀ k, s.get? k = t.get? k)
    (pairs : List (String × Expr)) (k : String) :
    (bindPairs s pairs).get? k = (bindPairs t pairs).get? k :=
  get?_bindPairs_shadow (fun k _ => h k) k

/-- Values of the class may be bound to any names. -/
theorem Inside.bind {E : Env} (hE : E.Inside P) (names : List String) {values : List Expr}
    (hvalues : ∀ e ∈ values, P e) : (E.bind names values).Inside P where
  vars h := by
    rcases get?_bindPairs_cases h with hmem | hbefore
    · obtain ⟨⟨a, b⟩, hpair, rfl⟩ := List.mem_map.1 hmem
      exact hvalues b (List.of_mem_zip hpair).2
    · exact hE.vars hbefore
  functions h := hE.functions h

theorem Inside.restore {E F : Env} (hE : E.Inside P) (hF : F.Inside P) (names : List String) :
    (F.restore (E.save names)).Inside P where
  vars h := by
    rw [get?_restore_save] at h
    split at h
    · exact hE.vars h
    · exact hF.vars h
  functions h := hF.functions h

theorem Inside.define {E : Env} (hE : E.Inside P) {p : Procedure} (hp : p.Inside P) :
    (E.define p).Inside P where
  vars h := hE.vars h
  functions h := by
    rw [get?_functions_define] at h
    split at h
    · exact Option.some.inj h ▸ hp
    · exact hE.functions h

end Env

end Lisp
