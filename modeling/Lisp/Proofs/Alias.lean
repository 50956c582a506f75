/-
# Names that stand for names

A variable holds an expression that is evaluated at every use, and if this is a name again, the
evaluation goes on with that one.  So it follows a chain of names, which takes a level for each of
them.  There are only as many names as are bound: a chain that does not end comes back to where it
was, and then no limit is wide enough for it.

* `Env.alias?`, `Env.chain` : the name that a name holds, and the names along a chain;
* `Env.Revisits`, `Env.revisits_or_ends` : a chain comes back to a name, or it ends;
* `Env.down`, `Outcome.up` : an environment some levels deeper, and an outcome some levels up;
* `Eval.evalWithin_chain` : evaluation follows a chain, one level for each name;
* `Eval.evaluate_alias` : the end of a chain decides, if there are levels enough to reach it.
-/
import Mathlib.Data.Finset.Card
import Lisp.Proofs.Effect

namespace Lisp

/-! ## Chains of names -/

namespace Env

variable {vars : Table Expr} {n m : String} {i j k : Nat}

/-- The name that a variable holds, if it holds a name. -/
def alias? (vars : Table Expr) (n : String) : Option String := (vars.get? n).bind Expr.name?

/-- The name that is reached from a name in so many steps from a name to the name it holds. -/
def chain (vars : Table Expr) : Nat → String → Option String
  | 0, n => some n
  | k + 1, n => (alias? vars n).bind (chain vars k)

/-- The chain from a name comes to some name twice. -/
def Revisits (vars : Table Expr) (n : String) : Prop :=
  ∃ i j m, i < j ∧ chain vars i n = some m ∧ chain vars j n = some m

/-- A name that is an alias holds the name that it stands for. -/
theorem get?_of_alias? (h : alias? vars n = some m) : vars.get? n = some (.name m) := by
  obtain ⟨e, he, hname⟩ := Option.bind_eq_some_iff.1 h
  cases e with
  | name id =>
    obtain rfl : id = m := Option.some.inj hname
    exact he
  | _ => exact absurd hname nofun

theorem chain_add (vars : Table Expr) (i j : Nat) (n : String) :
    chain vars (i + j) n = (chain vars i n).bind (chain vars j) := by
  induction i generalizing n with
  | zero => rw [Nat.zero_add, chain, Option.bind_some]
  | succ i ih =>
    rw [show i + 1 + j = (i + j) + 1 by omega, chain, chain, Option.bind_assoc]
    congr 1
    funext p
    exact ih p

/-- Whoever comes to the end of a way comes through its beginning. -/
theorem exists_chain_of_le (hij : i ≤ j) (h : chain vars j n = some m) :
    ∃ p, chain vars i n = some p := by
  obtain ⟨d, rfl⟩ := Nat.exists_eq_add_of_le hij
  rw [chain_add] at h
  obtain ⟨p, hp, -⟩ := Option.bind_eq_some_iff.1 h
  exact ⟨p, hp⟩

/-- A round can be repeated. -/
theorem chain_round (h : chain vars i m = some m) (count : Nat) :
    chain vars (count * i) m = some m := by
  induction count with
  | zero => rw [Nat.zero_mul, chain]
  | succ count ih => rw [Nat.succ_mul, chain_add, ih, Option.bind_some, h]

/-- A chain that comes back to a name goes on for ever. -/
theorem Revisits.exists_chain (h : Revisits vars n) (k : Nat) : ∃ m, chain vars k n = some m := by
  obtain ⟨i, j, m, hij, hi, hj⟩ := h
  obtain ⟨d, rfl⟩ := Nat.exists_eq_add_of_lt hij
  have hround : chain vars (d + 1) m = some m := by
    rw [Nat.add_assoc, chain_add, hi, Option.bind_some] at hj
    exact hj
  have hfar : chain vars (i + k * (d + 1)) n = some m := by
    rw [chain_add, hi, Option.bind_some]
    exact chain_round hround k
  -- Going round `k` times leads at least `k` steps further.
  have hle : k ≤ i + k * (d + 1) := by
    have hrounds : k ≤ k * (d + 1) := Nat.le_mul_of_pos_right k (by omega)
    omega
  exact exists_chain_of_le hle hfar

/-- **A chain comes back or ends.** If it did neither, it would come to more names than are bound.
-/
theorem revisits_or_ends (vars : Table Expr) (n : String) :
    Revisits vars n ∨ ∃ k m, chain vars k n = some m ∧ alias? vars m = none := by
  by_cases hends : ∃ k m, chain vars k n = some m ∧ alias? vars m = none
  · exact .inr hends
  · have hon : ∀ {k m}, chain vars k n = some m → ∃ p, alias? vars m = some p := by
      intro k m hk
      exact Option.ne_none_iff_exists'.1 fun hnone => hends ⟨k, m, hk, hnone⟩
    have hall : ∀ k, ∃ m, chain vars k n = some m := by
      intro k
      induction k with
      | zero => exact ⟨n, rfl⟩
      | succ k ih =>
        obtain ⟨m, hm⟩ := ih
        obtain ⟨p, hp⟩ := hon hm
        refine ⟨p, ?_⟩
        rw [chain_add, hm, Option.bind_some, chain, hp, Option.bind_some, chain]
    choose f hf using hall
    -- Every name on the chain is bound, so two of the first ones are the same.
    have hmem : ∀ k ∈ Finset.range (vars.keys.length + 1), f k ∈ vars.keys.toFinset := by
      intro k _
      obtain ⟨p, hp⟩ := hon (hf k)
      exact List.mem_toFinset.2 (Table.mem_keys_of_get?_eq_some (get?_of_alias? hp))
    have hcard : vars.keys.toFinset.card < (Finset.range (vars.keys.length + 1)).card := by
      have := vars.keys.toFinset_card_le
      rw [Finset.card_range]
      omega
    obtain ⟨i, -, j, -, hne, hsame⟩ := Finset.exists_ne_map_eq_of_card_lt_of_maps_to hcard hmem
    rcases Nat.lt_or_gt_of_ne hne with hlt | hlt
    · exact .inl ⟨i, j, f i, hlt, hf i, hsame ▸ hf j⟩
    · exact .inl ⟨j, i, f j, hlt, hf j, hsame ▸ hf i⟩

end Env

/-! ## Levels down and up -/

/-- The environment so many levels deeper. -/
def Env.down (E : Env) (k : Nat) : Env := { E with depth := E.depth + k }

/-- An outcome after leaving so many levels. -/
def Outcome.up {α : Type} (o : Outcome α) (k : Nat) : Outcome α :=
  { o with env := { o.env with depth := o.env.depth - k } }

@[simp] theorem Env.vars_down (E : Env) (k : Nat) : (E.down k).vars = E.vars := rfl

@[simp] theorem Env.down_zero (E : Env) : E.down 0 = E := by
  show { E with depth := E.depth + (0 : Int) } = E
  rw [Int.add_zero]

@[simp] theorem Env.down_down (E : Env) (i j : Nat) : (E.down i).down j = E.down (i + j) := by
  show { E with depth := E.depth + i + j } = { E with depth := E.depth + ((i + j : Nat) : Int) }
  rw [Int.natCast_add, Int.add_assoc]

@[simp] theorem Outcome.up_zero {α : Type} (o : Outcome α) : o.up 0 = o := by
  show { o with env := { o.env with depth := o.env.depth - (0 : Int) } } = o
  rw [Int.sub_zero]

@[simp] theorem Outcome.up_up {α : Type} (o : Outcome α) (i j : Nat) :
    (o.up i).up j = o.up (j + i) := by
  show { o with env := { o.env with depth := o.env.depth - i - j } } =
    { o with env := { o.env with depth := o.env.depth - ((j + i : Nat) : Int) } }
  rw [show o.env.depth - i - j = o.env.depth - ((j + i : Nat) : Int) by omega]

/-- Whatever ends so many levels deeper ends here after leaving them. -/
theorem Outcome.up_down {α : Type} (r : Except EvalError α) (E : Env) (k : Nat)
    (events : List Event) : (Outcome.mk r (E.down k) events).up k = ⟨r, E, events⟩ := by
  show Outcome.mk r { E with depth := E.depth + k - k } events = _
  rw [Int.add_sub_cancel]

/-! ## Following a chain -/

namespace Eval

open EvalM

variable {wired : Operator → Bool} {E : Env} {n m : String} {k : Nat}

/-- One level is a step inside of it, and leaving it. -/
theorem evalWithin_succ (wired : Operator → Bool) (left : Nat) (e : Expr) (E : Env) :
    evalWithin wired (left + 1) e E = (step wired (evalWithin wired left) e (E.down 1)).up 1 := rfl

/-- A name takes one level, inside of which the expression that it holds is evaluated. -/
theorem evalWithin_name {e : Expr} (h : E.vars.get? n = some e) (left : Nat) :
    evalWithin wired (left + 1) (.name n) E = (evalWithin wired left e (E.down 1)).up 1 := by
  have hlookup : (E.down 1).lookupVariable n = .ok e := by
    rw [Env.lookupVariable, Env.vars_down, h]
  rw [evalWithin_succ, step, bind_apply]
  simp only [ask, hlookup, List.nil_append]

/-- An unbound name takes one level too. -/
theorem evalWithin_unbound (h : E.vars.get? n = none) (left : Nat) :
    evalWithin wired (left + 1) (.name n) E = ⟨.error (.unknownVariable n), E, []⟩ := by
  have hlookup : (E.down 1).lookupVariable n = .error (.unknownVariable n) := by
    rw [Env.lookupVariable, Env.vars_down, h]
  rw [evalWithin_succ, step, bind_apply]
  simp only [ask, hlookup]
  exact Outcome.up_down _ E 1 []

/-- **Evaluation follows a chain**, by induction on its length, and takes a level for each step. -/
theorem evalWithin_chain (wired : Operator → Bool) (h : Env.chain E.vars k n = some m)
    (left : Nat) :
    evalWithin wired (k + left) (.name n) E =
      (evalWithin wired left (.name m) (E.down k)).up k := by
  induction k generalizing n E with
  | zero =>
    obtain rfl : n = m := Option.some.inj h
    rw [Nat.zero_add, Env.down_zero, Outcome.up_zero]
  | succ k ih =>
    obtain ⟨p, hp, hrest⟩ := Option.bind_eq_some_iff.1 h
    have hinner : evalWithin wired (k + left) (.name p) (E.down 1) =
        (evalWithin wired left (.name m) ((E.down 1).down k)).up k := ih hrest
    rw [show k + 1 + left = (k + left) + 1 by omega, evalWithin_name (Env.get?_of_alias? hp),
      hinner, Env.down_down, Outcome.up_up, Nat.add_comm 1 k]

/-! ## The ends of a chain -/

variable {M : Machine}

/-- A chain with more names than there are levels left is cut off. -/
theorem evaluate_chain_cut (h : Env.chain E.vars k n = some m) (hlevels : levels M E ≤ k) :
    evaluate M (.name n) E = ⟨.error (.tooDeep E.maxDepth), E, []⟩ := by
  obtain ⟨p, hp⟩ := Env.exists_chain_of_le hlevels h
  have hfollow := evalWithin_chain M.wired hp 0
  rw [evaluate]
  exact hfollow.trans (Outcome.up_down _ E (levels M E) [])

/-- A chain that ends at an unbound name. -/
theorem evaluate_chain_unbound (h : Env.chain E.vars k n = some m) (hm : E.vars.get? m = none)
    (hlevels : k < levels M E) :
    evaluate M (.name n) E = ⟨.error (.unknownVariable m), E, []⟩ := by
  obtain ⟨left, hleft⟩ := Nat.exists_eq_add_of_lt hlevels
  have hm' : (E.down k).vars.get? m = none := hm
  rw [evaluate, hleft, Nat.add_assoc, evalWithin_chain M.wired h, evalWithin_unbound hm']
  exact Outcome.up_down _ E k []

/-- A chain that comes to a name that holds an expression, which is evaluated behind the levels of
the chain. -/
theorem evaluate_chain_bound {v : Expr} (h : Env.chain E.vars k n = some m)
    (hm : E.vars.get? m = some v) (hlevels : k < levels M E) (hroom : E.budget ≤ M.room) :
    evaluate M (.name n) E = (evaluate M v (E.down (k + 1))).up (k + 1) := by
  obtain ⟨left, hleft⟩ := Nat.exists_eq_add_of_lt hlevels
  have hm' : (E.down k).vars.get? m = some v := hm
  have hinner : levels M (E.down (k + 1)) = left := by
    unfold levels Env.budget at *
    show min (E.maxDepth - (E.depth + (k + 1 : Nat))).toNat M.room = left
    omega
  rw [evaluate, hleft, Nat.add_assoc, evalWithin_chain M.wired h, evalWithin_name hm',
    Env.down_down, Outcome.up_up, evaluate, hinner]

/-- Leaving the levels of a chain leads back to where it started. -/
theorem up_evaluate_down (M : Machine) (v : Expr) (E : Env) (k : Nat) :
    let inner := evaluate M v (E.down k)
    inner.up k = ⟨inner.result, { inner.env with depth := E.depth }, inner.events⟩ := by
  intro inner
  have hscope : SameScope (E.down k) inner.env := evaluate_keeps sameScope_effect M v (E.down k)
  have hdepth : inner.env.depth - k = E.depth := by
    rw [hscope.depth]
    exact Int.add_sub_cancel E.depth k
  rw [Outcome.up, hdepth]

/-- **Evaluation follows chains of names exactly.** The chain from a name comes to some name twice,
or it ends.  If it comes to a name twice, the evaluation of the name reaches the limit, whatever
this is.  Otherwise it takes a level for each name of the chain, and reaches the limit if there are
fewer.  If there are enough, and the machine has room for them, the last name decides: the error
names it if it is unbound, and the outcome is that of the expression that it holds, evaluated behind
the levels of the chain, if it is bound.  Variables and nesting are the same as before in every
case. -/
theorem evaluate_alias (M : Machine) (n : String) (E : Env) :
    let o := evaluate M (.name n) E
    let cutOff : Outcome Expr := ⟨.error (.tooDeep E.maxDepth), E, []⟩
    (Env.Revisits E.vars n ∨
      ∃ k m, Env.chain E.vars k n = some m ∧ Env.alias? E.vars m = none) ∧
    (Env.Revisits E.vars n → o = cutOff) ∧
    (∀ k m, Env.chain E.vars k n = some m →
      (E.maxDepth - E.depth < k + 1 → o = cutOff) ∧
      (k + 1 ≤ E.maxDepth - E.depth → k < M.room → E.vars.get? m = none →
        o = ⟨.error (.unknownVariable m), E, []⟩) ∧
      (k + 1 ≤ E.maxDepth - E.depth → E.budget ≤ M.room → ∀ v, E.vars.get? m = some v →
        let inner := evaluate M v { E with depth := E.depth + (k + 1) }
        o = ⟨inner.result, { inner.env with depth := E.depth }, inner.events⟩)) ∧
    o.env.vars = E.vars ∧ o.env.depth = E.depth := by
  intro o cutOff
  have hscope : SameScope E o.env := evaluate_keeps sameScope_effect M (.name n) E
  refine ⟨Env.revisits_or_ends E.vars n, ?_, ?_, hscope.vars, hscope.depth⟩
  · intro hrevisits
    obtain ⟨m, hm⟩ := hrevisits.exists_chain (levels M E)
    exact evaluate_chain_cut hm (Nat.le_refl _)
  · intro k m hchain
    refine ⟨?_, ?_, ?_⟩
    · intro hfew
      refine evaluate_chain_cut hchain ?_
      unfold levels Env.budget
      omega
    · intro henough hroom hm
      refine evaluate_chain_unbound hchain hm ?_
      unfold levels Env.budget
      omega
    · intro henough hroom v hm
      have hlevels : k < levels M E := by
        unfold levels Env.budget at *
        omega
      exact (evaluate_chain_bound hchain hm hlevels hroom).trans (up_evaluate_down M v E (k + 1))

/-- Chains of every kind, in an environment that is `depth` deep already: from `a` to a sum, from
`u` to an unbound name, and from `t` into a round of `x` and `y`. -/
def aliases (limit depth : Int) : Env :=
  let bindings := (Env.fresh limit).bind ["a", "b", "u", "t", "x", "y"]
    [.name "b", .form [.operator .add, .int 1, .int 2], .name "w", .name "x", .name "y", .name "x"]
  { bindings with depth }

/-- The round is cut off under every limit.  The unbound name takes two levels, and the sum two
behind two. -/
theorem evaluate_alias_samples :
    (∀ limit depth, evaluate {} (.name "t") (aliases limit depth) =
      ⟨.error (.tooDeep limit), aliases limit depth, []⟩) ∧
    evaluate {} (.name "u") (aliases 9 7) = ⟨.error (.unknownVariable "w"), aliases 9 7, []⟩ ∧
    evaluate {} (.name "u") (aliases 9 8) = ⟨.error (.tooDeep 9), aliases 9 8, []⟩ ∧
    (evaluate {} (.name "a") (aliases 9 5)).result = .ok (.int 3) ∧
    (evaluate {} (.name "a") (aliases 9 6)).result = .error (.tooDeep 9) := by
  have hround : ∀ limit depth, Env.Revisits (aliases limit depth).vars "t" :=
    fun _ _ => ⟨1, 3, "x", by decide, rfl, rfl⟩
  have hunbound := fun depth => (evaluate_alias {} "u" (aliases 9 depth)).2.2.1 1 "w" rfl
  have hsum := fun depth => (evaluate_alias {} "a" (aliases 9 depth)).2.2.1 1 "b" rfl
  refine ⟨?_, ?_, ?_, ?_, ?_⟩
  · intro limit depth
    exact (evaluate_alias {} "t" (aliases limit depth)).2.1 (hround limit depth)
  · exact (hunbound 7).2.1 (by decide) (by decide) rfl
  · exact (hunbound 8).1 (by decide)
  · rw [(hsum 5).2.2 (by decide) (by decide) _ rfl]
    rfl
  · rw [(hsum 6).2.2 (by decide) (by decide) _ rfl]
    rfl

end Eval

end Lisp
