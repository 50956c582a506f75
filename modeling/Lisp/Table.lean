/-
# Tables of bindings

A table binds names to values and keeps them in the order in which they were first bound. Binding a
name again keeps its place; a name that was removed and is bound again goes to the end.

* `Table` : bindings with distinct names;
* `Table.get?`, `Table.insert`, `Table.erase` : looking up, binding and removing a name;
* `Table.keys` : the names in order.
-/

namespace Lisp

/-- Bindings of distinct names, in the order in which the names were first bound. -/
structure Table (α : Type) where
  entries : List (String × α)
  distinct : (entries.map Prod.fst).Nodup

namespace Table

variable {α : Type}

/-- Tables with the same bindings in the same order are equal. -/
@[ext] theorem ext {s t : Table α} (h : s.entries = t.entries) : s = t := by
  cases s
  cases t
  cases h
  rfl

/-- The table without bindings. -/
def empty : Table α := ⟨[], List.nodup_nil⟩

/-- The bound names, in order. -/
def keys (t : Table α) : List String := t.entries.map Prod.fst

/-- The bound values, in order. -/
def values (t : Table α) : List α := t.entries.map Prod.snd

/-- The first value that some entries bind to a name. -/
def find (k : String) : List (String × α) → Option α
  | [] => none
  | (a, b) :: rest => if a = k then some b else find k rest

/-- The value bound to a name. -/
def get? (t : Table α) (k : String) : Option α := find k t.entries

/-- Whether a name is bound. -/
def contains (t : Table α) (k : String) : Bool := (t.get? k).isSome

/-! ## Binding a name -/

/-- The entries with `k` bound to `v`, in its place if it has one and at the end otherwise. -/
def put (k : String) (v : α) : List (String × α) → List (String × α)
  | [] => [(k, v)]
  | (a, b) :: rest => if a = k then (k, v) :: rest else (a, b) :: put k v rest

/-- A key that was there keeps its place, and a new one comes last. -/
theorem keys_put (k : String) (v : α) (l : List (String × α)) :
    (put k v l).map Prod.fst =
      if k ∈ l.map Prod.fst then l.map Prod.fst else l.map Prod.fst ++ [k] := by
  induction l with
  | nil => simp [put]
  | cons p rest ih =>
    obtain ⟨a, b⟩ := p
    by_cases h : a = k
    · simp [put, h]
    · have hk : ¬ k = a := fun e => h e.symm
      simp only [put, h, if_false, List.map_cons, ih, List.mem_cons, hk, false_or]
      split <;> simp

/-- The table with `k` bound to `v`. -/
def insert (t : Table α) (k : String) (v : α) : Table α where
  entries := put k v t.entries
  distinct := by
    rw [keys_put]
    split
    · exact t.distinct
    · next h =>
      refine List.nodup_append.2 ⟨t.distinct, by simp, ?_⟩
      intro a ha b hb e
      rw [List.mem_singleton.1 hb] at e
      exact h (e ▸ ha)

@[simp] theorem keys_insert (t : Table α) (k : String) (v : α) :
    (t.insert k v).keys = if k ∈ t.keys then t.keys else t.keys ++ [k] :=
  keys_put k v t.entries

/-- A value is found under its key, and the other keys keep theirs. -/
theorem find_put (k j : String) (v : α) (l : List (String × α)) :
    find j (put k v l) = if j = k then some v else find j l := by
  induction l with
  | nil =>
    by_cases h : j = k
    · simp [put, find, h]
    · have hk : ¬ k = j := fun e => h e.symm
      simp [put, find, h, hk]
  | cons p rest ih =>
    obtain ⟨a, b⟩ := p
    by_cases h : a = k
    · subst h
      by_cases hj : j = a
      · simp [put, find, hj]
      · have ha : ¬ a = j := fun e => hj e.symm
        simp [put, find, hj, ha]
    · by_cases hj : a = j
      · subst hj
        simp [put, find, h]
      · simp [put, find, h, hj, ih]

@[simp] theorem get?_insert (t : Table α) (k j : String) (v : α) :
    (t.insert k v).get? j = if j = k then some v else t.get? j :=
  find_put k j v t.entries

/-! ## Removing a name -/

/-- The table without a binding of `k`. -/
def erase (t : Table α) (k : String) : Table α where
  entries := t.entries.filter (·.1 ≠ k)
  distinct := t.distinct.sublist (List.filter_sublist.map Prod.fst)

/-- A key that is erased leaves the others in their order. -/
@[simp] theorem keys_erase (t : Table α) (k : String) :
    (t.erase k).keys = t.keys.filter (· ≠ k) := by
  simp only [keys, erase, List.filter_map]
  rfl

/-- Without its entries a key has no value, and the other keys keep theirs. -/
theorem find_filter (k j : String) (l : List (String × α)) :
    find j (l.filter (·.1 ≠ k)) = if j = k then none else find j l := by
  induction l with
  | nil => simp [find]
  | cons p rest ih =>
    obtain ⟨a, b⟩ := p
    by_cases h : a = k
    · subst h
      by_cases hj : j = a
      · simpa [hj] using ih
      · have ha : ¬ a = j := fun e => hj e.symm
        simpa [find, hj, ha] using ih
    · by_cases hj : a = j
      · subst hj
        simp [find, h]
      · simpa [find, h, hj] using ih

@[simp] theorem get?_erase (t : Table α) (k j : String) :
    (t.erase k).get? j = if j = k then none else t.get? j :=
  find_filter k j t.entries

@[simp] theorem get?_empty (k : String) : (empty : Table α).get? k = none := rfl

end Table

end Lisp
