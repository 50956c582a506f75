/-
# Names bound for a time

A table is its keys in order together with what is looked up under them.  Both are followed through
the binding of names and through their restoration:

* `Table.eq_of_keys_of_get?` : tables with the same keys and the same look-ups are equal;
* `Env.get?_restore_save` : what every name holds after the restoration, whatever happened before;
* `Env.keys_restore_save` : which names are bound then, and in which order;
* `Env.vars_restore_of_vars_eq` : names bound for a time and put back leave no trace;
* `Env.LastPaired` : the value that counts where a name is bound several times;
* `EvalM.bound_restores` : a computation with names bound, from its beginning to its end.
-/
import Lisp.Eval.Outcome

namespace Lisp

/-! ## Tables by their keys and look-ups -/

namespace Table

variable {α : Type}

theorem find_eq_none_iff (k : String) (l : List (String × α)) :
    find k l = none ↔ k ∉ l.map Prod.fst := by
  induction l with
  | nil => simp [find]
  | cons p rest ih =>
    obtain ⟨a, b⟩ := p
    by_cases h : a = k
    · simp [find, h]
    · have hk : ¬ k = a := fun e => h e.symm
      simpa [find, h, hk] using ih

/-- A name is unbound exactly when it is no key. -/
theorem get?_eq_none_iff (t : Table α) (k : String) : t.get? k = none ↔ k ∉ t.keys :=
  find_eq_none_iff k t.entries

/-- A name that is bound is a key. -/
theorem mem_keys_of_get?_eq_some {t : Table α} {k : String} {v : α} (h : t.get? k = some v) :
    k ∈ t.keys := by
  by_cases hk : k ∈ t.keys
  · exact hk
  · rw [(get?_eq_none_iff t k).2 hk] at h
    exact absurd h (by simp)

/-- An entry is what is looked up under its name. -/
theorem get?_of_mem_entries (t : Table α) {k : String} {v : α} (h : (k, v) ∈ t.entries) :
    t.get? k = some v := by
  obtain ⟨entries, distinct⟩ := t
  show find k entries = some v
  induction entries with
  | nil => exact absurd h List.not_mem_nil
  | cons p rest ih =>
    obtain ⟨a, b⟩ := p
    obtain ⟨ha, hrest⟩ := List.nodup_cons.1 distinct
    rcases List.mem_cons.1 h with heq | hmem
    · obtain ⟨rfl, rfl⟩ := Prod.mk.inj heq
      simp [find]
    · have hne : a ≠ k := fun e => ha (List.mem_map.2 ⟨(k, v), hmem, e.symm⟩)
      simpa [find, hne] using ih hrest hmem

/-- Entries with distinct names are determined by the names in order and the look-ups. -/
theorem entries_eq_of_find_eq {l m : List (String × α)} (hl : (l.map Prod.fst).Nodup)
    (hk : l.map Prod.fst = m.map Prod.fst) (hf : ∀ k, find k l = find k m) : l = m := by
  induction l generalizing m with
  | nil =>
    rw [List.map_nil] at hk
    exact (List.map_eq_nil_iff.1 hk.symm).symm
  | cons p rest ih =>
    cases m with
    | nil => simp at hk
    | cons q others =>
      obtain ⟨a, b⟩ := p
      obtain ⟨c, d⟩ := q
      obtain ⟨rfl, hk'⟩ := List.cons.inj hk
      obtain ⟨ha, hrest⟩ := List.nodup_cons.1 hl
      have hb : b = d := by simpa [find] using hf a
      subst hb
      have htail : ∀ k, find k rest = find k others := by
        intro k
        by_cases h : a = k
        · subst h
          -- The name itself occurs in neither tail.
          rw [(find_eq_none_iff a rest).2 ha, (find_eq_none_iff a others).2 (hk' ▸ ha)]
        · simpa [find, h] using hf k
      rw [ih hrest hk' htail]

/-- **Extensionality.** Tables with the same keys in the same order and the same look-ups are
equal. -/
theorem eq_of_keys_of_get? {s t : Table α} (hk : s.keys = t.keys)
    (hg : ∀ k, s.get? k = t.get? k) : s = t :=
  Table.ext (entries_eq_of_find_eq s.distinct hk hg)

end Table

namespace Env

/-! ## Binding -/

/-- Binding puts new names behind those that are bound already. -/
theorem keys_bindPairs (vars : Table Expr) (pairs : List (String × Expr)) :
    ∃ extra : List String, (bindPairs vars pairs).keys = vars.keys ++ extra ∧
      ∀ k ∈ extra, k ∈ pairs.map Prod.fst ∧ k ∉ vars.keys := by
  induction pairs generalizing vars with
  | nil => exact ⟨[], by simp [bindPairs], by simp⟩
  | cons p rest ih =>
    obtain ⟨name, value⟩ := p
    obtain ⟨extra, hkeys, hextra⟩ := ih (vars.insert name value)
    have hstep : bindPairs vars ((name, value) :: rest) = bindPairs (vars.insert name value) rest :=
      rfl
    rw [hstep, hkeys, Table.keys_insert]
    by_cases hname : name ∈ vars.keys
    · rw [if_pos hname]
      refine ⟨extra, rfl, fun k hk => ?_⟩
      obtain ⟨hmem, hnot⟩ := hextra k hk
      rw [Table.keys_insert, if_pos hname] at hnot
      exact ⟨List.mem_cons_of_mem _ hmem, hnot⟩
    · rw [if_neg hname]
      refine ⟨name :: extra, by simp, fun k hk => ?_⟩
      rcases List.mem_cons.1 hk with rfl | hk
      · exact ⟨List.mem_cons_self, hname⟩
      · obtain ⟨hmem, hnot⟩ := hextra k hk
        rw [Table.keys_insert, if_neg hname] at hnot
        exact ⟨List.mem_cons_of_mem _ hmem, fun h => hnot (List.mem_append_left _ h)⟩

/-- Binding leaves the names that it does not mention as they were. -/
theorem get?_bindPairs_of_notMem {k : String} {pairs : List (String × Expr)}
    (hk : k ∉ pairs.map Prod.fst) (vars : Table Expr) :
    (bindPairs vars pairs).get? k = vars.get? k := by
  induction pairs generalizing vars with
  | nil => rfl
  | cons p rest ih =>
    obtain ⟨name, value⟩ := p
    rw [List.map_cons, List.mem_cons, not_or] at hk
    have hstep : bindPairs vars ((name, value) :: rest) = bindPairs (vars.insert name value) rest :=
      rfl
    rw [hstep, ih hk.2, Table.get?_insert, if_neg hk.1]

/-- A name that is paired with values is paired with one of them last. -/
theorem exists_last_pair {k : String} {pairs : List (String × Expr)}
    (hk : k ∈ pairs.map Prod.fst) :
    ∃ before value behind, pairs = before ++ (k, value) :: behind ∧
      k ∉ behind.map Prod.fst := by
  induction pairs with
  | nil => exact absurd hk List.not_mem_nil
  | cons pair rest ih =>
    by_cases hrest : k ∈ rest.map Prod.fst
    · obtain ⟨before, value, behind, rfl, hbehind⟩ := ih hrest
      exact ⟨pair :: before, value, behind, rfl, hbehind⟩
    · obtain ⟨name, value⟩ := pair
      obtain rfl : k = name := (List.mem_cons.1 hk).resolve_right hrest
      exact ⟨[], value, rest, rfl, hrest⟩

/-- Of several values for a name the last one counts. -/
theorem get?_bindPairs_last {k : String} {value : Expr} {behind : List (String × Expr)}
    (hbehind : k ∉ behind.map Prod.fst) (vars : Table Expr) (before : List (String × Expr)) :
    (bindPairs vars (before ++ (k, value) :: behind)).get? k = some value := by
  have hstep : bindPairs vars (before ++ (k, value) :: behind) =
      bindPairs ((bindPairs vars before).insert k value) behind := by
    simp only [bindPairs, List.foldl_append, List.foldl_cons]
  rw [hstep, get?_bindPairs_of_notMem hbehind, Table.get?_insert, if_pos rfl]

/-- Only names on the list are paired with a value. -/
theorem mem_of_mem_map_fst_zip {k : String} {names : List String} {values : List Expr}
    (h : k ∈ (names.zip values).map Prod.fst) : k ∈ names := by
  obtain ⟨⟨a, b⟩, hp, rfl⟩ := List.mem_map.1 h
  exact (List.of_mem_zip hp).1

/-! ## Restoration -/

/-- Restoration goes through the saved names from the last to the first. -/
theorem vars_restore (E : Env) (saved : List (String × Option Expr)) :
    (E.restore saved).vars = saved.foldr (fun s t => putBack t s) E.vars := by
  show saved.reverse.foldl putBack E.vars = _
  rw [List.foldl_reverse]

/-- A name gets back what it held, or nothing if it held nothing. -/
theorem get?_putBack (t : Table Expr) (name k : String) (value : Option Expr) :
    (putBack t (name, value)).get? k = if k = name then value else t.get? k := by
  cases value with
  | none => exact Table.get?_erase t name k
  | some e => exact Table.get?_insert t name k e

/-- **Look-ups after restoration.** A saved name holds what it held when it was saved, or nothing
if it held nothing, and every other name is left alone. -/
theorem get?_restore_save (E F : Env) (names : List String) (k : String) :
    (F.restore (E.save names)).vars.get? k =
      if k ∈ names then E.vars.get? k else F.vars.get? k := by
  rw [vars_restore]
  induction names with
  | nil => simp [save]
  | cons name rest ih =>
    rw [save, List.map_cons, List.foldr_cons, get?_putBack, ← save, ih]
    by_cases h : k = name
    · simp [h]
    · simp [h]

/-- **Keys after restoration.** Behind the names that were bound when saving, only names that were
not saved remain. -/
theorem keys_restore_save {E F : Env} {extra : List String}
    (hF : F.vars.keys = E.vars.keys ++ extra) (hextra : ∀ k ∈ extra, k ∉ E.vars.keys)
    (names : List String) :
    (F.restore (E.save names)).vars.keys = E.vars.keys ++ extra.filter (· ∉ names) := by
  rw [vars_restore]
  induction names with
  | nil =>
    have hall : extra.filter (· ∉ []) = extra := List.filter_eq_self.2 (by simp)
    rw [hall]
    exact hF
  | cons name rest ih =>
    rw [save, List.map_cons, List.foldr_cons, ← save]
    cases hname : E.vars.get? name with
    | some e =>
      -- A name that was bound has its place among the first keys already.
      have hmem : name ∈ E.vars.keys := Table.mem_keys_of_get?_eq_some hname
      have hfilter : extra.filter (· ∉ name :: rest) = extra.filter (· ∉ rest) := by
        apply List.filter_congr
        intro k hk
        have hne : k ≠ name := fun h => hextra k hk (h ▸ hmem)
        simp [hne]
      rw [putBack, Table.keys_insert, ih, if_pos (List.mem_append_left _ hmem), hfilter]
    | none =>
      -- A name that was not bound is removed, which the first keys do not notice.
      have hnot : name ∉ E.vars.keys := (Table.get?_eq_none_iff _ _).1 hname
      have hkeep : E.vars.keys.filter (· ≠ name) = E.vars.keys := by
        apply List.filter_eq_self.2
        intro k hk
        have hne : k ≠ name := fun h => hnot (h ▸ hk)
        simp [hne]
      rw [putBack, Table.keys_erase, ih, List.filter_append, hkeep, List.filter_filter]
      congr 1
      apply List.filter_congr
      intro k _
      simp

/-- **No trace.** If a computation that starts with names bound ends with the variables that it
started with, putting the names back gives the variables from before the binding. -/
theorem vars_restore_of_vars_eq {E F : Env} {names : List String} {values : List Expr}
    (h : F.vars = (E.bind names values).vars) : (F.restore (E.save names)).vars = E.vars := by
  obtain ⟨extra, hkeys, hextra⟩ := keys_bindPairs E.vars (names.zip values)
  have hF : F.vars.keys = E.vars.keys ++ extra := by rw [h]; exact hkeys
  apply Table.eq_of_keys_of_get?
  · -- Every name that the binding added is on the list, so the restoration removes it.
    have hnone : extra.filter (· ∉ names) = [] := by
      apply List.filter_eq_nil_iff.2
      intro k hk
      simpa using mem_of_mem_map_fst_zip (hextra k hk).1
    rw [keys_restore_save hF (fun k hk => (hextra k hk).2), hnone, List.append_nil]
  · intro k
    rw [get?_restore_save]
    by_cases hk : k ∈ names
    · rw [if_pos hk]
    · rw [if_neg hk, h]
      exact get?_bindPairs_of_notMem (fun hm => hk (mem_of_mem_map_fst_zip hm)) E.vars

/-! ## A computation with names bound -/

/-- Of the values that are paired with a name, pair by pair up to the end of the shorter list, the
last one. -/
def LastPaired (names : List String) (values : List Expr) (k : String) (value : Expr) : Prop :=
  ∃ before behind, names.zip values = before ++ (k, value) :: behind ∧ k ∉ behind.map Prod.fst

end Env

namespace EvalM

open Env (LastPaired)

/-- **Names bound for the time of a computation.** At its beginning every name that is paired with a
value holds the last such value, and all else is as before.  Whatever the computation does to the
environment and however it ends, afterwards every name on the list holds what it held before, or
nothing if it held nothing, every other name holds what the computation left there, and so does all
else in the environment. -/
theorem bound_restores {α : Type} (names : List String) (values : List Expr) (m : EvalM α)
    (E : Env) :
    let entry := E.bind names values
    let left := (m entry).env
    let exit := (bound names values m E).env
    (∀ k ∈ (names.zip values).map Prod.fst,
      ∃ value, LastPaired names values k value ∧ entry.vars.get? k = some value) ∧
    (∀ k, k ∉ (names.zip values).map Prod.fst → entry.vars.get? k = E.vars.get? k) ∧
    (∀ k ∈ names, exit.vars.get? k = E.vars.get? k) ∧
    (∀ k, k ∉ names → exit.vars.get? k = left.vars.get? k) ∧
    entry = { E with vars := entry.vars } ∧ exit = { left with vars := exit.vars } ∧
    (bound names values m E).result = (m entry).result := by
  intro entry left exit
  have hexit : ∀ k, exit.vars.get? k = if k ∈ names then E.vars.get? k else left.vars.get? k :=
    Env.get?_restore_save E left names
  refine ⟨fun k hk => ?_, fun k hk => ?_, fun k hk => ?_, fun k hk => ?_, rfl, rfl, rfl⟩
  · obtain ⟨before, value, behind, hpairs, hbehind⟩ := Env.exists_last_pair hk
    refine ⟨value, ⟨before, behind, hpairs, hbehind⟩, ?_⟩
    show (Env.bindPairs E.vars (names.zip values)).get? k = some value
    rw [hpairs]
    exact Env.get?_bindPairs_last hbehind E.vars before
  · exact Env.get?_bindPairs_of_notMem hk E.vars
  · rw [hexit, if_pos hk]
  · rw [hexit, if_neg hk]

/-- A name is given twice, another has no value and a third is unbound; the computation binds one of
them again, drops all variables inside, defines two and fails. -/
theorem bound_restores_reset :
    let E := (Env.fresh 9).setVariable "x" (.int 0)
    let names := ["x", "y", "x", "z"]
    let values : List Expr := [.int 1, .int 2, .int 3]
    let wipe : EvalM Expr := fun E =>
      ⟨.ok .nil, (E.reset.setVariable "z" (.int 5)).setVariable "w" (.int 6), []⟩
    let m : EvalM Expr := do
      let _ ← bound ["x", "v"] [.int 4] wipe
      fail .notAList
    let exit := bound names values m E
    "x" ∈ (names.zip values).map Prod.fst ∧
      (∃ value, LastPaired names values "x" value ∧
        (E.bind names values).vars.get? "x" = some value) ∧
      exit.result = .error .notAList ∧ exit.env.vars.get? "x" = some (.int 0) ∧
      exit.env.vars.get? "y" = none ∧ exit.env.vars.get? "z" = none ∧
      exit.env.vars.get? "w" = some (.int 6) := by
  intro E names values wipe m exit
  have hx : "x" ∈ (names.zip values).map Prod.fst := by decide
  obtain ⟨hentry, -, hmem, hnot, -, -, hresult⟩ := bound_restores names values m E
  refine ⟨hx, hentry "x" hx, hresult, ?_, ?_, ?_, ?_⟩
  · rw [hmem "x" (by decide)]
    rfl
  · rw [hmem "y" (by decide)]
    rfl
  · rw [hmem "z" (by decide)]
    rfl
  · rw [hnot "w" (by decide)]
    rfl

end EvalM

end Lisp
