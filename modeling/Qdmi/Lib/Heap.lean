import Mathlib.Data.List.Basic

/-!
# Objects Behind Handles

The objects a C interface hands out opaque handles for. A handle is the index
of a cell; allocating appends a cell and freeing empties one, so a handle is
never given out twice and a freed one stays dead. That is the part of `new`
and `delete` a client can rely on: it may compare and use a handle while it is
live, and nothing about it afterwards.

`get?` decides liveness, and the four `get?` lemmas say what each operation
does to every handle at once. Proofs above this module use those and never
look at the cells.

## Main definitions

* `Heap`: The cells handed out so far.
* `Heap.get?`: The object behind a handle, if it is live.
* `Heap.next`: The handle the next allocation returns.
* `Heap.alloc`, `Heap.set`, `Heap.free`: The three ways a heap changes.
* `Heap.count`: The number of live objects.
* `Heap.Rel`: Two heaps with the same handles and related objects.

## Theorems

* `Heap.get?_lt_next`: A live handle has been given out.
* `Heap.get?_next`: The next handle is not live.
* `Heap.get?_alloc`, `Heap.get?_set`, `Heap.get?_free`: Every handle after an
  operation.
* `Heap.next_alloc`, `Heap.next_set`, `Heap.next_free`: Only allocation gives
  out a handle.
* `Heap.count_alloc`, `Heap.count_set`, `Heap.count_free`: The number of live
  objects after an operation.
* `Heap.count_eq_zero`: No live object means no live handle.
* `Heap.rel_alloc`, `Heap.rel_set`, `Heap.rel_free`: Related heaps stay related.
-/

namespace Qdmi

/-- The cells handed out so far; an empty one has been freed. -/
structure Heap (α : Type) where
  cells : List (Option α) := []

namespace Heap

variable {α : Type}

/-- The object behind a handle, if it is live. -/
def get? (h : Heap α) (i : Nat) : Option α := h.cells[i]?.join

/-- The handle the next allocation returns. -/
def next (h : Heap α) : Nat := h.cells.length

/-- Allocate an object at the next handle. -/
def alloc (h : Heap α) (a : α) : Heap α := ⟨h.cells ++ [some a]⟩

/-- Replace the object behind a handle. -/
def set (h : Heap α) (i : Nat) (a : α) : Heap α := ⟨h.cells.set i (some a)⟩

/-- Free the object behind a handle. -/
def free (h : Heap α) (i : Nat) : Heap α := ⟨h.cells.set i none⟩

/-- The number of live objects. -/
def count (h : Heap α) : Nat := h.cells.countP Option.isSome

@[simp]
theorem get?_empty (i : Nat) : (⟨[]⟩ : Heap α).get? i = none := rfl

theorem get?_lt_next {h : Heap α} {i : Nat} {a : α} (hi : h.get? i = some a) : i < h.next := by
  by_contra hc
  rw [get?, List.getElem?_eq_none (Nat.le_of_not_lt hc)] at hi
  exact absurd hi (by simp only [Option.join_none, reduceCtorEq, not_false_eq_true])

@[simp]
theorem get?_next (h : Heap α) : h.get? h.next = none := by
  rw [get?, next, List.getElem?_eq_none (Nat.le_refl _), Option.join_none]

theorem get?_alloc (h : Heap α) (a : α) (i : Nat) :
    (h.alloc a).get? i = if i = h.next then some a else h.get? i := by
  rw [get?, alloc, next]
  by_cases hlt : i < h.cells.length
  · rw [if_neg (Nat.ne_of_lt hlt), List.getElem?_append_left hlt, get?]
  · by_cases heq : i = h.cells.length
    · rw [if_pos heq, heq, List.getElem?_concat_length, Option.join_some]
    · rw [if_neg heq, List.getElem?_eq_none (by
        rw [List.length_append, List.length_singleton]
        omega), get?, List.getElem?_eq_none (by omega)]

theorem get?_set (h : Heap α) (j : Nat) (a b : α) (hj : h.get? j = some b) (i : Nat) :
    (h.set j a).get? i = if i = j then some a else h.get? i := by
  have hlt : j < h.cells.length := get?_lt_next hj
  rw [get?, set, List.getElem?_set]
  by_cases hij : i = j
  · rw [if_pos hij.symm, if_pos hlt, if_pos hij, Option.join_some]
  · rw [if_neg (fun hc => hij hc.symm), if_neg hij, get?]

theorem get?_free (h : Heap α) (j i : Nat) :
    (h.free j).get? i = if i = j then none else h.get? i := by
  rw [get?, free, List.getElem?_set]
  by_cases hij : i = j
  · rw [if_pos hij.symm, if_pos hij]
    by_cases hlt : j < h.cells.length
    · rw [if_pos hlt, Option.join_some]
    · rw [if_neg hlt, Option.join_none]
  · rw [if_neg (fun hc => hij hc.symm), if_neg hij, get?]

@[simp]
theorem next_alloc (h : Heap α) (a : α) : (h.alloc a).next = h.next + 1 := by
  rw [next, alloc, List.length_append, List.length_singleton, next]

@[simp]
theorem next_set (h : Heap α) (i : Nat) (a : α) : (h.set i a).next = h.next := by
  rw [next, set, List.length_set, next]

@[simp]
theorem next_free (h : Heap α) (i : Nat) : (h.free i).next = h.next := by
  rw [next, free, List.length_set, next]

@[simp]
theorem count_alloc (h : Heap α) (a : α) : (h.alloc a).count = h.count + 1 := by
  rw [count, alloc, List.countP_append, List.countP_singleton, count]
  rfl

/-- A live handle names a cell that holds its object. -/
theorem cells_of_get? {h : Heap α} {i : Nat} {a : α} (hi : h.get? i = some a) :
    h.cells[i]? = some (some a) := by
  rw [get?] at hi
  exact Option.join_eq_some_iff.mp hi

theorem count_set (h : Heap α) (i : Nat) (a b : α) (hi : h.get? i = some b) :
    (h.set i a).count = h.count := by
  have hcell := cells_of_get? hi
  have hlt : i < h.cells.length := get?_lt_next hi
  have hget : h.cells[i] = some b := by
    rwa [List.getElem?_eq_getElem hlt, Option.some.injEq] at hcell
  have hpos : 0 < h.cells.countP Option.isSome :=
    List.countP_pos_iff.mpr ⟨some b, hget ▸ List.getElem_mem hlt, rfl⟩
  rw [count, set, List.countP_set hlt, hget, count]
  simp only [Option.isSome_some, if_true]
  omega

theorem count_free (h : Heap α) (i : Nat) (b : α) (hi : h.get? i = some b) :
    (h.free i).count + 1 = h.count := by
  have hcell := cells_of_get? hi
  have hlt : i < h.cells.length := get?_lt_next hi
  have hget : h.cells[i] = some b := by
    rwa [List.getElem?_eq_getElem hlt, Option.some.injEq] at hcell
  have hpos : 0 < h.cells.countP Option.isSome :=
    List.countP_pos_iff.mpr ⟨some b, hget ▸ List.getElem_mem hlt, rfl⟩
  rw [count, free, List.countP_set hlt, hget, count]
  simp only [Option.isSome_some, Option.isSome_none, if_true]
  simp only [Bool.false_eq_true, if_false]
  omega

/-- No live object means no live handle. -/
theorem count_eq_zero {h : Heap α} (hc : h.count = 0) (i : Nat) : h.get? i = none := by
  rcases hi : h.get? i with _ | a
  · rfl
  · exfalso
    have hcell := cells_of_get? hi
    have hmem : some a ∈ h.cells := List.mem_of_getElem? hcell
    have hpos : 0 < h.cells.countP Option.isSome := List.countP_pos_iff.mpr ⟨some a, hmem, rfl⟩
    rw [count] at hc
    omega

/-! ## Two heaps side by side -/

section

variable {β : Type} {R : α → β → Prop} {h : Heap α} {h' : Heap β}

/-- Two heaps hand out the same handles, with related objects behind them. -/
def Rel (R : α → β → Prop) (h : Heap α) (h' : Heap β) : Prop :=
  h.next = h'.next ∧ ∀ i, (h.get? i = none ∧ h'.get? i = none) ∨
    ∃ a b, h.get? i = some a ∧ h'.get? i = some b ∧ R a b

theorem rel_refl {S : α → α → Prop} (hS : ∀ i a, h.get? i = some a → S a a) : h.Rel S h := by
  refine ⟨rfl, fun i => ?_⟩
  rcases hi : h.get? i with _ | a
  · exact Or.inl ⟨rfl, rfl⟩
  · exact Or.inr ⟨a, a, rfl, rfl, hS i a hi⟩

theorem rel_alloc (hrel : h.Rel R h') {a : α} {b : β} (hab : R a b) :
    (h.alloc a).Rel R (h'.alloc b) := by
  refine ⟨by rw [next_alloc, next_alloc, hrel.1], fun i => ?_⟩
  rw [get?_alloc, get?_alloc, ← hrel.1]
  by_cases hi : i = h.next
  · rw [if_pos hi, if_pos hi]
    exact Or.inr ⟨a, b, rfl, rfl, hab⟩
  · rw [if_neg hi, if_neg hi]
    exact hrel.2 i

theorem rel_set (hrel : h.Rel R h') {j : Nat} {a a' : α} {b b' : β} (hj : h.get? j = some a')
    (hj' : h'.get? j = some b') (hab : R a b) : (h.set j a).Rel R (h'.set j b) := by
  refine ⟨by rw [next_set, next_set, hrel.1], fun i => ?_⟩
  rw [get?_set _ _ _ _ hj, get?_set _ _ _ _ hj']
  by_cases hi : i = j
  · rw [if_pos hi, if_pos hi]
    exact Or.inr ⟨a, b, rfl, rfl, hab⟩
  · rw [if_neg hi, if_neg hi]
    exact hrel.2 i

theorem rel_free (hrel : h.Rel R h') (j : Nat) : (h.free j).Rel R (h'.free j) := by
  refine ⟨by rw [next_free, next_free, hrel.1], fun i => ?_⟩
  rw [get?_free, get?_free]
  by_cases hi : i = j
  · rw [if_pos hi, if_pos hi]
    exact Or.inl ⟨rfl, rfl⟩
  · rw [if_neg hi, if_neg hi]
    exact hrel.2 i

end

end Heap

end Qdmi
