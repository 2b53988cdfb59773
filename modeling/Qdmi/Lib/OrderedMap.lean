import Mathlib.Data.List.Basic
import Mathlib.Order.Defs.Unbundled

/-!
# Ordered Maps

A map that keeps its keys in order, as `std::map` does: a list of entries, sorted
strictly by the key.

`emplace` puts an entry where it belongs and does nothing when the key is there,
so of several entries for one key the first one stays. The order is a strict and
total one, and the map carries the proof that its entries are sorted.

## Main definitions

* `OrderedMap`: The maps.
* `OrderedMap.find`: The value of a key.
* `OrderedMap.emplace`: Adding an entry.
* `OrderedMap.ofList`: Adding entries one after the other.

## Theorems

* `lookup_below`: A key below all others.
* `mem_insertNew`, `sorted_insertNew`, `lookup_insertNew`: Entries where they belong.
* `find_emplace`: What is found in a map with a new entry.
* `find_ofList`: The first entry for each key stays.
-/

namespace Qdmi

/-- A map that keeps its keys in order. -/
structure OrderedMap (κ ν : Type) [LT κ] where
  entries : List (κ × ν)
  sorted : entries.Pairwise (fun a b => a.1 < b.1)

/-! ## Sorted lists of entries -/

section

variable {κ ν : Type} [BEq κ] [LawfulBEq κ] [DecidableEq κ]

theorem lookup_cons_ite (k : κ) (e : κ × ν) (l : List (κ × ν)) :
    (e :: l).lookup k = if k = e.1 then some e.2 else l.lookup k := by
  rw [List.lookup_cons]
  by_cases hk : k = e.1
  · rw [if_pos hk, beq_iff_eq.mpr hk]
  · rw [if_neg hk, beq_eq_false_iff_ne.mpr hk]

variable [LT κ] [Std.Irrefl (α := κ) (· < ·)]

/-- A key below all others is not there. -/
theorem lookup_below {k : κ} {l : List (κ × ν)} (h : ∀ e ∈ l, k < e.1) : l.lookup k = none := by
  induction l with
  | nil => rfl
  | cons b rest ih =>
      rcases List.forall_mem_cons.mp h with ⟨hb, hrest⟩
      have hne : k ≠ b.1 := by
        intro heq
        rw [heq] at hb
        exact Std.Irrefl.irrefl b.1 hb
      rw [lookup_cons_ite, if_neg hne, ih hrest]

end

/-! ## Adding entries -/

section

variable {κ ν : Type} [LT κ] [DecidableLT κ]

/-- Put an entry where it belongs, unless its key is there. -/
def insertNew (k : κ) (v : ν) : List (κ × ν) → List (κ × ν)
  | [] => [(k, v)]
  | e :: rest =>
    if k < e.1 then (k, v) :: e :: rest
    else if e.1 < k then e :: insertNew k v rest
    else e :: rest

/-- Nothing else comes in. -/
theorem mem_insertNew {k : κ} {v : ν} {l : List (κ × ν)} {e : κ × ν} (h : e ∈ insertNew k v l) :
    e = (k, v) ∨ e ∈ l := by
  induction l with
  | nil => exact Or.inl (List.mem_singleton.mp h)
  | cons b rest ih =>
      unfold insertNew at h
      split at h
      · exact List.mem_cons.mp h
      · split at h
        · rcases List.mem_cons.mp h with hb | hrest
          · exact Or.inr (by rw [hb]; exact List.mem_cons_self)
          · exact (ih hrest).imp_right (List.mem_cons_of_mem b)
        · exact Or.inr h

variable [Trans (α := κ) (· < ·) (· < ·) (· < ·)]

theorem sorted_insertNew (k : κ) (v : ν) {l : List (κ × ν)}
    (h : l.Pairwise (fun a b => a.1 < b.1)) :
    (insertNew k v l).Pairwise (fun a b => a.1 < b.1) := by
  induction l with
  | nil => exact List.pairwise_singleton _ _
  | cons b rest ih =>
      rcases List.pairwise_cons.mp h with ⟨hb, hrest⟩
      unfold insertNew
      split
      · -- The entry comes first, below everything that `b` is below.
        rename_i hk
        refine List.pairwise_cons.mpr ⟨fun e he => ?_, h⟩
        rcases List.mem_cons.mp he with heq | he
        · rw [heq]
          exact hk
        · exact Trans.trans hk (hb e he)
      · split
        · rename_i hk
          refine List.pairwise_cons.mpr ⟨fun e he => ?_, ih hrest⟩
          rcases mem_insertNew he with heq | he
          · rw [heq]
            exact hk
          · exact hb e he
        · exact h

namespace OrderedMap

/-- The empty map. -/
def empty : OrderedMap κ ν := ⟨[], List.Pairwise.nil⟩

/-- Add an entry, unless its key is there. -/
def emplace (m : OrderedMap κ ν) (k : κ) (v : ν) : OrderedMap κ ν :=
  ⟨insertNew k v m.entries, sorted_insertNew k v m.sorted⟩

/-- Add entries one after the other. -/
def ofList (l : List (κ × ν)) : OrderedMap κ ν := l.foldl (fun m e => m.emplace e.1 e.2) empty

/-- The value of a key. -/
def find [BEq κ] (m : OrderedMap κ ν) (k : κ) : Option ν := m.entries.lookup k

end OrderedMap

variable [BEq κ] [LawfulBEq κ] [DecidableEq κ]

/-! ## What is found -/

variable [Std.Irrefl (α := κ) (· < ·)]

variable [Std.Trichotomous (α := κ) (· < ·)]

theorem lookup_insertNew (k : κ) (v : ν) {l : List (κ × ν)}
    (h : l.Pairwise (fun a b => a.1 < b.1)) (k' : κ) :
    (insertNew k v l).lookup k' = if k' = k then some ((l.lookup k).getD v) else l.lookup k' := by
  induction l with
  | nil => exact lookup_cons_ite k' (k, v) []
  | cons b rest ih =>
      rcases List.pairwise_cons.mp h with ⟨hb, hrest⟩
      unfold insertNew
      split
      · -- The key is below the list, so it was not there.
        rename_i hk
        have hbelow : (b :: rest).lookup k = none :=
          lookup_below (List.forall_mem_cons.mpr ⟨hk, fun e he => Trans.trans hk (hb e he)⟩)
        rw [lookup_cons_ite, hbelow, Option.getD_none]
      · split
        · -- The entry goes behind `b`, and the key of `b` is another one.
          rename_i hk
          have hne : k ≠ b.1 := by
            intro heq
            rw [heq] at hk
            exact Std.Irrefl.irrefl b.1 hk
          rw [lookup_cons_ite, lookup_cons_ite, lookup_cons_ite, ih hrest, if_neg hne]
          by_cases hk' : k' = b.1
          · rw [if_pos hk', if_neg (by rw [hk']; exact Ne.symm hne), if_pos hk']
          · rw [if_neg hk', if_neg hk']
        · -- Neither key is below the other, so the key is that of `b`.
          rename_i hk hk'
          have heq : k = b.1 := Std.Trichotomous.trichotomous k b.1 hk hk'
          rw [lookup_cons_ite k, if_pos heq, Option.getD_some]
          by_cases hkk : k' = k
          · rw [if_pos hkk, lookup_cons_ite, if_pos (hkk.trans heq)]
          · rw [if_neg hkk]

/-- What is found in a map with a new entry: what was there stays. -/
theorem find_emplace (m : OrderedMap κ ν) (k : κ) (v : ν) (k' : κ) :
    (m.emplace k v).find k' = if k' = k then some ((m.find k).getD v) else m.find k' :=
  lookup_insertNew k v m.sorted k'

/-- The first entry for each key stays. -/
theorem find_foldl_emplace (l : List (κ × ν)) (m : OrderedMap κ ν) (k : κ) :
    (l.foldl (fun m e => m.emplace e.1 e.2) m).find k = (m.find k).or (l.lookup k) := by
  induction l generalizing m with
  | nil => exact (Option.or_none).symm
  | cons e l ih =>
      rw [List.foldl_cons, ih, find_emplace, lookup_cons_ite]
      by_cases hk : k = e.1
      · rw [if_pos hk, if_pos hk, Option.some_or, hk]
        rcases m.find e.1 with _ | v
        · rfl
        · rfl
      · rw [if_neg hk, if_neg hk]

theorem find_ofList (l : List (κ × ν)) (k : κ) : (OrderedMap.ofList l).find k = l.lookup k :=
  find_foldl_emplace l OrderedMap.empty k

end

end Qdmi
