import LogKv.Bytes
import LogKv.Fault

/-!
The store of a node: a finite map from keys to values, kept as a list of bindings in strictly
increasing order of the keys, so that a map has one representation (`Store.ext_get?`). The order
compares byte by byte, and a key comes before every longer key that starts with it.
-/

namespace LogKv

/-- A finite map from keys to values. -/
structure Store where
  /-- The bindings, in order of their keys. -/
  bindings : List (Bytes × Bytes)
  /-- No key occurs twice, and the keys increase. -/
  increasing : bindings.Pairwise fun a b => a.1 < b.1

namespace Store

/-- The store that binds no key. -/
def empty : Store := ⟨[], .nil⟩

/-- The value of a key in a list of bindings. -/
def lookup (key : Bytes) : List (Bytes × Bytes) → Option Bytes
  | [] => none
  | (k, v) :: rest => if k = key then some v else lookup key rest

/-- Binds a key in a list of bindings, at its place in the order. -/
def insert (key value : Bytes) : List (Bytes × Bytes) → List (Bytes × Bytes)
  | [] => [(key, value)]
  | (k, v) :: rest =>
    if key = k then (key, value) :: rest
    else if key < k then (key, value) :: (k, v) :: rest
    else (k, v) :: insert key value rest

/-- Unbinds a key in a list of bindings. -/
def remove (key : Bytes) (bindings : List (Bytes × Bytes)) : List (Bytes × Bytes) :=
  bindings.filter (·.1 ≠ key)

theorem mem_insert {key value : Bytes} {bindings : List (Bytes × Bytes)} {b : Bytes × Bytes}
    (h : b ∈ insert key value bindings) : b = (key, value) ∨ b ∈ bindings := by
  induction bindings with
  | nil => simpa [insert] using h
  | cons first rest ih =>
    unfold insert at h
    split at h
    · rcases List.mem_cons.1 h with rfl | h
      · exact .inl rfl
      · exact .inr (List.mem_cons_of_mem _ h)
    · split at h
      · rcases List.mem_cons.1 h with rfl | h
        · exact .inl rfl
        · exact .inr h
      · rcases List.mem_cons.1 h with rfl | h
        · exact .inr List.mem_cons_self
        · exact (ih h).imp id (List.mem_cons_of_mem _)

theorem insert_increasing {key value : Bytes} {bindings : List (Bytes × Bytes)}
    (h : bindings.Pairwise fun a b => a.1 < b.1) :
    (insert key value bindings).Pairwise fun a b => a.1 < b.1 := by
  induction bindings with
  | nil => simp [insert]
  | cons first rest ih =>
    obtain ⟨k, v⟩ := first
    obtain ⟨before, sorted⟩ := List.pairwise_cons.1 h
    unfold insert
    split
    · next same =>
      subst same
      exact List.pairwise_cons.2 ⟨before, sorted⟩
    · next other =>
      split
      · next less =>
        refine List.pairwise_cons.2 ⟨fun b hb => ?_, h⟩
        rcases List.mem_cons.1 hb with rfl | hb
        · exact less
        · exact List.lt_trans less (before b hb)
      · next notLess =>
        refine List.pairwise_cons.2 ⟨fun b hb => ?_, ih sorted⟩
        rcases mem_insert hb with rfl | hb
        · exact Decidable.byContradiction fun notGreater =>
            other (List.le_antisymm (List.not_lt.1 notGreater) (List.not_lt.1 notLess))
        · exact before b hb

/-- The value of a key, if it is bound. -/
def get? (s : Store) (key : Bytes) : Option Bytes := lookup key s.bindings

/-- Binds a key, in place of any binding it has. -/
def put (s : Store) (key value : Bytes) : Store :=
  ⟨insert key value s.bindings, insert_increasing s.increasing⟩

/-- Unbinds a key. -/
def erase (s : Store) (key : Bytes) : Store :=
  ⟨remove key s.bindings, s.increasing.filter _⟩

/-- The number of bound keys. -/
def size (s : Store) : Nat := s.bindings.length

/-- Whether no key is bound. -/
def isEmpty (s : Store) : Bool := s.size == 0

/-! ## The map that a store represents -/

theorem lookup_insert (k key value : Bytes) (bindings : List (Bytes × Bytes)) :
    lookup k (insert key value bindings) = if key = k then some value else lookup k bindings := by
  induction bindings with
  | nil => simp [insert, lookup]
  | cons first rest ih =>
    obtain ⟨k', v⟩ := first
    unfold insert
    split
    · next same =>
      subst same
      simp only [lookup]
      split <;> rfl
    · next other =>
      split
      · simp [lookup]
      · simp only [lookup, ih]
        split
        · next here =>
          subst here
          rw [if_neg other]
        · rfl

theorem lookup_remove (k key : Bytes) (bindings : List (Bytes × Bytes)) :
    lookup k (remove key bindings) = if key = k then none else lookup k bindings := by
  induction bindings with
  | nil => simp [remove, lookup]
  | cons first rest ih =>
    obtain ⟨k', v⟩ := first
    unfold remove at ih ⊢
    by_cases gone : k' = key
    · subst gone
      rw [List.filter_cons_of_neg (by simp), ih]
      simp only [lookup]
      split <;> rfl
    · rw [List.filter_cons_of_pos (by simpa using gone)]
      simp only [lookup, ih]
      split
      · next here =>
        subst here
        rw [if_neg (Ne.symm gone)]
      · rfl

theorem lookup_eq_none_of_lt {k : Bytes} {bindings : List (Bytes × Bytes)}
    (above : ∀ b ∈ bindings, k < b.1) : lookup k bindings = none := by
  induction bindings with
  | nil => rfl
  | cons first rest ih =>
    have less := above first List.mem_cons_self
    have other : first.1 ≠ k := fun same => List.lt_irrefl k (same ▸ less)
    rw [lookup, if_neg other]
    exact ih fun b hb => above b (List.mem_cons_of_mem _ hb)

theorem lookup_head (k v : Bytes) (rest : List (Bytes × Bytes)) :
    lookup k ((k, v) :: rest) = some v := by
  rw [lookup, if_pos rfl]

/-- A key below the first one of an increasing list is not bound by it. -/
theorem not_lt_of_lookup {k k' v v' : Bytes} {rest : List (Bytes × Bytes)}
    (increasing : ((k', v') :: rest).Pairwise fun a b => a.1 < b.1)
    (bound : lookup k ((k', v') :: rest) = some v) : ¬k < k' := by
  intro less
  have unbound : lookup k ((k', v') :: rest) = none := lookup_eq_none_of_lt fun b hb => by
    rcases List.mem_cons.1 hb with rfl | hb
    · exact less
    · exact List.lt_trans less ((List.pairwise_cons.1 increasing).1 b hb)
  rw [unbound] at bound
  simp at bound

/-- Increasing lists of bindings that agree on every key are equal. -/
theorem bindings_ext {one two : List (Bytes × Bytes)}
    (increasing₁ : one.Pairwise fun a b => a.1 < b.1)
    (increasing₂ : two.Pairwise fun a b => a.1 < b.1)
    (agree : ∀ k, lookup k one = lookup k two) : one = two := by
  induction one generalizing two with
  | nil =>
    cases two with
    | nil => rfl
    | cons b₂ rest₂ => simpa [lookup] using agree b₂.1
  | cons b₁ rest₁ ih =>
    cases two with
    | nil => simpa [lookup] using agree b₁.1
    | cons b₂ rest₂ =>
      obtain ⟨k₁, v₁⟩ := b₁
      obtain ⟨k₂, v₂⟩ := b₂
      have notLess := not_lt_of_lookup increasing₂ ((agree k₁).symm.trans (lookup_head ..))
      have notGreater := not_lt_of_lookup increasing₁ ((agree k₂).trans (lookup_head ..))
      have same : k₁ = k₂ := List.le_antisymm (List.not_lt.1 notGreater) (List.not_lt.1 notLess)
      subst same
      have value : v₁ = v₂ := by simpa [lookup] using agree k₁
      subst value
      obtain ⟨above₁, sorted₁⟩ := List.pairwise_cons.1 increasing₁
      obtain ⟨above₂, sorted₂⟩ := List.pairwise_cons.1 increasing₂
      refine congrArg _ (ih sorted₁ sorted₂ fun k => ?_)
      by_cases here : k₁ = k
      · subst here
        rw [lookup_eq_none_of_lt above₁, lookup_eq_none_of_lt above₂]
      · simpa [lookup, here] using agree k

@[simp] theorem get?_empty (key : Bytes) : empty.get? key = none := rfl

@[simp] theorem get?_put (s : Store) (key value k : Bytes) :
    (s.put key value).get? k = if key = k then some value else s.get? k :=
  lookup_insert ..

@[simp] theorem get?_erase (s : Store) (key k : Bytes) :
    (s.erase key).get? k = if key = k then none else s.get? k :=
  lookup_remove ..

/-- Two stores that bind the same keys to the same values are the same store. -/
theorem ext_get? {s t : Store} (agree : ∀ k, s.get? k = t.get? k) : s = t := by
  obtain ⟨one, increasing₁⟩ := s
  obtain ⟨two, increasing₂⟩ := t
  have : one = two := bindings_ext increasing₁ increasing₂ agree
  subst this
  rfl

theorem erase_of_unbound {s : Store} {key : Bytes} (unbound : s.get? key = none) :
    s.erase key = s := by
  apply ext_get?
  intro k
  rw [get?_erase]
  split
  · next same => rw [← same, unbound]
  · rfl

end Store

end LogKv
