import Mathlib.Logic.Function.Basic
import Qdmi.Lib.Heap

/-!
# Names for Live Objects

Two parties that deal with the objects of one heap need not use the same
handles. The party that allocates them has pointers into the heap. The other
gives each a name of its own when it is handed one and remembers which names
are still in use; a table says which pointer a name stands for.

`Named` says that the two agree: the names in use and the live objects
correspond one to one. Nothing is said of names that are not in use, so the
table may keep pointers that are dead, and a pointer may come back under a new
name after its object was freed and the heap replaced.

## Main definitions

* `Named`: The names in use and the live objects correspond one to one.

## Theorems

* `named_empty`: No name is in use and nothing lives.
* `named_congr`: The same names for the same live objects.
* `named_alloc`, `named_free`: An object comes, an object goes.
* `named_dead`: Where no name is in use, nothing lives.
-/

namespace Qdmi

section

variable {ν α : Type} {names names' : ν → Prop} {point point' : ν → Option Nat} {h h' : Heap α}

/-- The names in use and the live objects correspond one to one. -/
structure Named (names : ν → Prop) (point : ν → Option Nat) (h : Heap α) : Prop where
  live : ∀ n, names n → ∃ p a, point n = some p ∧ h.get? p = some a
  named : ∀ p a, h.get? p = some a → ∃ n, names n ∧ point n = some p
  unique : ∀ n n' p, names n → names n' → point n = some p → point n' = some p → n = n'

theorem named_empty (hnone : ∀ n, ¬ names n) : Named names point (⟨[]⟩ : Heap α) where
  live n hn := absurd hn (hnone n)
  named p a hp := absurd hp (by simp only [Heap.get?_empty, reduceCtorEq, not_false_eq_true])
  unique n _ _ hn := absurd hn (hnone n)

/-- The same names for the same live objects. The objects themselves may have
    changed. -/
theorem named_congr (hnamed : Named names point h) (hnames : ∀ n, names' n ↔ names n)
    (hpoint : ∀ n, names n → point' n = point n)
    (hlive : ∀ p, (h'.get? p).isSome = (h.get? p).isSome) : Named names' point' h' where
  live n hn := by
    have hold := (hnames n).mp hn
    rcases hnamed.live n hold with ⟨p, a, hp, ha⟩
    have hsome : (h'.get? p).isSome = true := by rw [hlive p, ha, Option.isSome_some]
    rcases Option.isSome_iff_exists.mp hsome with ⟨a', ha'⟩
    exact ⟨p, a', by rw [hpoint n hold, hp], ha'⟩
  named p a' ha' := by
    have hsome : (h.get? p).isSome = true := by rw [← hlive p, ha', Option.isSome_some]
    rcases Option.isSome_iff_exists.mp hsome with ⟨a, ha⟩
    rcases hnamed.named p a ha with ⟨n, hn, hp⟩
    exact ⟨n, (hnames n).mpr hn, by rw [hpoint n hn, hp]⟩
  unique n n' p hn hn' hp hp' := by
    have hold := (hnames n).mp hn
    have hold' := (hnames n').mp hn'
    rw [hpoint n hold] at hp
    rw [hpoint n' hold'] at hp'
    exact hnamed.unique n n' p hold hold' hp hp'

/-- A new object gets a name that is not in use. -/
theorem named_alloc [DecidableEq ν] (hnamed : Named names point h) {m : ν} (hnew : ¬ names m)
    (a : α) : Named (fun n => names n ∨ n = m) (Function.update point m (some h.next))
      (h.alloc a) := by
  -- The table reads as before at every name that was in use.
  have hold : ∀ n, names n → Function.update point m (some h.next) n = point n := by
    intro n hn
    rw [Function.update_of_ne]
    rintro rfl
    exact hnew hn
  have hpointer : ∀ n, names n → Function.update point m (some h.next) n ≠ some h.next := by
    intro n hn hc
    rcases hnamed.live n hn with ⟨p, b, hp, hb⟩
    rw [hold n hn, hp, Option.some.injEq] at hc
    rw [hc, Heap.get?_next] at hb
    exact absurd hb (by simp only [reduceCtorEq, not_false_eq_true])
  refine ⟨fun n hn => ?_, fun p b hb => ?_, fun n n' p hn hn' hp hp' => ?_⟩
  · rcases hn with hn | rfl
    · rcases hnamed.live n hn with ⟨p, b, hp, hb⟩
      refine ⟨p, b, by rw [hold n hn, hp], ?_⟩
      rw [Heap.get?_alloc, if_neg (Nat.ne_of_lt (Heap.get?_lt_next hb)), hb]
    · exact ⟨h.next, a, Function.update_self _ _ _, by rw [Heap.get?_alloc, if_pos rfl]⟩
  · rw [Heap.get?_alloc] at hb
    by_cases hp : p = h.next
    · exact ⟨m, Or.inr rfl, by rw [hp, Function.update_self]⟩
    · rw [if_neg hp] at hb
      rcases hnamed.named p b hb with ⟨n, hn, hpoint⟩
      exact ⟨n, Or.inl hn, by rw [hold n hn, hpoint]⟩
  · -- The new pointer is the new name's alone.
    rcases hn with hn | hm
    · rcases hn' with hn' | hm'
      · rw [hold n hn] at hp
        rw [hold n' hn'] at hp'
        exact hnamed.unique n n' p hn hn' hp hp'
      · rw [hm', Function.update_self] at hp'
        exact absurd (hp.trans hp'.symm) (hpointer n hn)
    · rcases hn' with hn' | hm'
      · rw [hm, Function.update_self] at hp
        exact absurd (hp'.trans hp.symm) (hpointer n' hn')
      · rw [hm, hm']

/-- An object is freed, and its name is no longer in use. -/
theorem named_free (hnamed : Named names point h) {m : ν} {p : Nat} (hm : names m)
    (hp : point m = some p) : Named (fun n => names n ∧ n ≠ m) point (h.free p) := by
  refine ⟨fun n hn => ?_, fun q a ha => ?_, fun n n' q hn hn' => hnamed.unique n n' q hn.1 hn'.1⟩
  · rcases hnamed.live n hn.1 with ⟨q, a, hq, ha⟩
    have hne : q ≠ p := by
      rintro rfl
      exact hn.2 (hnamed.unique n m q hn.1 hm hq hp)
    exact ⟨q, a, hq, by rw [Heap.get?_free, if_neg hne, ha]⟩
  · rw [Heap.get?_free] at ha
    by_cases hq : q = p
    · rw [if_pos hq] at ha
      exact absurd ha (by simp only [reduceCtorEq, not_false_eq_true])
    · rw [if_neg hq] at ha
      rcases hnamed.named q a ha with ⟨n, hn, hpoint⟩
      refine ⟨n, ⟨hn, ?_⟩, hpoint⟩
      rintro rfl
      rw [hp, Option.some.injEq] at hpoint
      exact hq hpoint.symm

/-- Where no name is in use, nothing lives. -/
theorem named_dead (hnamed : Named names point h) (hnone : ∀ n, ¬ names n) (p : Nat) :
    h.get? p = none := by
  rcases hp : h.get? p with _ | a
  · rfl
  · rcases hnamed.named p a hp with ⟨n, hn, _⟩
    exact absurd hn (hnone n)

end

end Qdmi
