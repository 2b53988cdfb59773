import Qdmi.Lib.Memory

/-!
# Records in a Buffer

How a caller takes apart a buffer that holds a list.

Elements of one width are found by their position: `field` is the `k`-th of
them. Strings are separated: `flatMap_terminated` turns a loop that writes a
separator behind each string into the standard library's `intercalate`, so
`List.splitOn` recovers the strings as long as none contains the separator.

`bitString` is a number as a string of binary digits, most significant first,
and `bitValue` reads it back.

## Main definitions

* `field`: The `k`-th record of a buffer.
* `bitString`, `bitValue`: Binary numerals.

## Theorems

* `length_flatMap_eq`: The size of a list of records.
* `field_flatMap`, `field_append`: The `k`-th of a list of records.
* `flatMap_filter`: A loop that skips elements.
* `flatMap_terminated`: Terminated strings are separated strings.
* `mem_intercalate`: The bytes of separated strings.
* `length_intercalate`: The size of separated strings.
* `length_bitString`, `mem_bitString`: The shape of a numeral.
* `bitValue_bitString`: Reading a numeral back.
* `bitString_lt`: Numerals are ordered as numbers are.
-/

namespace Qdmi

/-! ## Records of one width -/

/-- The `k`-th record of `w` bytes in a buffer. -/
def field (w : Nat) (buf : List UInt8) (k : Nat) : List UInt8 := (buf.drop (w * k)).take w

section

variable {α : Type} {f : α → List UInt8} {w : Nat}

theorem length_flatMap_eq (l : List α) (hf : ∀ a ∈ l, (f a).length = w) :
    (l.flatMap f).length = l.length * w := by
  induction l with
  | nil => rw [List.flatMap_nil, List.length_nil, List.length_nil, Nat.zero_mul]
  | cons a l ih =>
      rw [List.flatMap_cons, List.length_append, hf a List.mem_cons_self, List.length_cons,
        ih (fun b hb => hf b (List.mem_cons_of_mem _ hb)), Nat.succ_mul, Nat.add_comm]

/-- The `k`-th of a list of records is that of the `k`-th element. -/
theorem field_flatMap {l : List α} (hf : ∀ a ∈ l, (f a).length = w) {k : Nat} {a : α}
    (hk : l[k]? = some a) : field w (l.flatMap f) k = f a := by
  induction l generalizing k with
  | nil => exact absurd hk (by simp only [List.getElem?_nil, reduceCtorEq, not_false_eq_true])
  | cons b l ih =>
      rw [List.forall_mem_cons] at hf
      cases k with
      | zero =>
          rw [List.getElem?_cons_zero, Option.some.injEq] at hk
          rw [field, List.flatMap_cons, Nat.mul_zero, List.drop_zero, hk]
          exact List.take_left' (hk ▸ hf.1)
      | succ k =>
          rw [List.getElem?_cons_succ] at hk
          rw [← ih hf.2 hk, field, field, List.flatMap_cons, Nat.mul_succ, Nat.add_comm,
            ← List.drop_drop, List.drop_left' hf.1]

/-- A record does not depend on what lies behind the list. -/
theorem field_append {w k : Nat} {xs ys : List UInt8} (h : w * (k + 1) ≤ xs.length) :
    field w (xs ++ ys) k = field w xs k := by
  rw [Nat.mul_succ] at h
  rw [field, field, List.drop_append_of_le_length (by omega), List.take_append_of_le_length]
  rw [List.length_drop]
  omega

/-- A list is read off by its positions. -/
theorem flatMap_range {l : List α} {g : Nat → List UInt8}
    (hg : ∀ i a, l[i]? = some a → g i = f a) :
    (List.range l.length).flatMap g = l.flatMap f := by
  have hindex : List.range l.length = l.zipIdx.map Prod.snd := by
    rw [List.zipIdx_map_snd, List.range_eq_range']
  have helem : l.flatMap f = (l.zipIdx.map Prod.fst).flatMap f := by rw [List.zipIdx_map_fst]
  rw [hindex, helem, List.flatMap_map, List.flatMap_map]
  refine List.flatMap_congr (fun entry hentry => ?_)
  exact hg entry.2 entry.1 (List.mem_zipIdx_iff_getElem?.mp hentry)

/-- A loop that skips some elements is a loop over the others. -/
theorem flatMap_filter (p : α → Bool) (l : List α) :
    l.flatMap (fun a => if p a = true then f a else []) = (l.filter p).flatMap f := by
  induction l with
  | nil => rfl
  | cons a l ih =>
      by_cases hp : p a = true
      · rw [List.flatMap_cons, if_pos hp, List.filter_cons_of_pos hp, List.flatMap_cons, ih]
      · rw [List.flatMap_cons, if_neg hp, List.filter_cons_of_neg hp, List.nil_append, ih]

end

/-! ## Separated strings -/

/-- Strings that are each followed by a separator are separated strings with
    one more separator at the end. -/
theorem flatMap_terminated (sep : UInt8) (l : List (List UInt8)) (hl : l ≠ []) :
    l.flatMap (fun s => s ++ [sep]) = [sep].intercalate l ++ [sep] := by
  induction l with
  | nil => exact absurd rfl hl
  | cons s l ih =>
      rcases l with _ | ⟨t, l⟩
      · simp only [List.flatMap_cons, List.flatMap_nil, List.append_nil,
          List.intercalate_singleton]
      · rw [List.flatMap_cons, ih (List.cons_ne_nil _ _), List.intercalate_cons_cons]
        simp only [List.append_assoc]

/-- Separated strings have no bytes but theirs and the separator. -/
theorem mem_intercalate {sep c : UInt8} {l : List (List UInt8)} (h : c ∈ [sep].intercalate l) :
    c = sep ∨ ∃ s ∈ l, c ∈ s := by
  by_cases hl : l = []
  · rw [hl, List.intercalate_nil] at h
    exact absurd h List.not_mem_nil
  · have hmem : c ∈ l.flatMap (fun s => s ++ [sep]) := by
      rw [flatMap_terminated sep l hl]
      exact List.mem_append_left _ h
    rcases List.mem_flatMap.mp hmem with ⟨s, hs, hc⟩
    rcases List.mem_append.mp hc with hc | hc
    · exact Or.inr ⟨s, hs, hc⟩
    · exact Or.inl (List.mem_singleton.mp hc)

/-- The size of separated strings of one width, with a terminator. -/
theorem length_intercalate (sep term : UInt8) {w : Nat} (l : List (List UInt8)) (hl : l ≠ [])
    (hw : ∀ s ∈ l, s.length = w) :
    ([sep].intercalate l ++ [term]).length = l.length * (w + 1) := by
  have hterm : ([sep].intercalate l ++ [term]).length = ([sep].intercalate l ++ [sep]).length := by
    rw [List.length_append, List.length_append, List.length_singleton, List.length_singleton]
  rw [hterm, ← flatMap_terminated sep l hl]
  refine length_flatMap_eq l (fun s hs => ?_)
  rw [List.length_append, List.length_singleton, hw s hs]

/-! ## Binary numerals -/

/-- The lowest `n` bits of a number as a string, most significant first. -/
def bitString (n i : Nat) : List UInt8 :=
  (List.range n).map (fun j => if i.testBit (n - j - 1) then 49 else 48)

/-- The number a string of binary digits stands for. -/
def bitValue (digits : List UInt8) : Nat :=
  digits.foldl (fun acc b => 2 * acc + if b = 49 then 1 else 0) 0

@[simp]
theorem length_bitString (n i : Nat) : (bitString n i).length = n := by
  rw [bitString, List.length_map, List.length_range]

theorem mem_bitString {n i : Nat} {b : UInt8} (h : b ∈ bitString n i) : b = 49 ∨ b = 48 := by
  rw [bitString, List.mem_map] at h
  rcases h with ⟨j, _, rfl⟩
  split
  · exact Or.inl rfl
  · exact Or.inr rfl

theorem bitString_succ (n i : Nat) :
    bitString (n + 1) i = (if i.testBit n then 49 else 48) :: bitString n i := by
  rw [bitString, List.range_succ_eq_map, List.map_cons, List.map_map]
  congr 1
  refine List.map_congr_left (fun j _ => ?_)
  rw [Function.comp_apply]
  congr 3
  omega

/-- Reading a numeral behind some digits. The induction is on the width, and
    the accumulator is what the digits before it stand for. -/
theorem foldl_bitString (n i acc : Nat) :
    (bitString n i).foldl (fun acc b => 2 * acc + if b = 49 then 1 else 0) acc =
      acc * 2 ^ n + i % 2 ^ n := by
  induction n generalizing acc with
  | zero => simp only [bitString, List.range_zero, List.map_nil, List.foldl_nil, pow_zero,
      Nat.mul_one, Nat.mod_one, Nat.add_zero]
  | succ n ih =>
      rw [bitString_succ, List.foldl_cons, ih, Nat.mod_pow_succ, ← Nat.toNat_testBit, pow_succ]
      rcases i.testBit n with _ | _
      · simp only [Bool.false_eq_true, if_false, Bool.toNat_false]
        rw [if_neg (by decide)]
        ring
      · simp only [if_true, Bool.toNat_true]
        ring

/-- Reading a numeral back. -/
theorem bitValue_bitString {n i : Nat} (h : i < 2 ^ n) : bitValue (bitString n i) = i := by
  rw [bitValue, foldl_bitString, Nat.zero_mul, Nat.zero_add, Nat.mod_eq_of_lt h]

/-- Numerals of one width are ordered as the numbers are. The induction is on
    the width, and the first digit decides unless it is the same. -/
theorem bitString_lt {n i j : Nat} (h : i % 2 ^ n < j % 2 ^ n) : bitString n i < bitString n j := by
  induction n with
  | zero =>
      rw [pow_zero, Nat.mod_one, Nat.mod_one] at h
      exact absurd h (Nat.lt_irrefl 0)
  | succ n ih =>
      rw [Nat.mod_pow_succ, Nat.mod_pow_succ, ← Nat.toNat_testBit, ← Nat.toNat_testBit] at h
      have hi := Nat.mod_lt i (Nat.two_pow_pos n)
      have hj := Nat.mod_lt j (Nat.two_pow_pos n)
      rw [bitString_succ, bitString_succ, List.cons_lt_cons_iff]
      rcases hbi : i.testBit n with _ | _ <;> rcases hbj : j.testBit n with _ | _ <;>
        rw [hbi, hbj] at h <;> simp only [Bool.toNat_false, Bool.toNat_true] at h
      · exact Or.inr ⟨rfl, ih (by omega)⟩
      · exact Or.inl (by decide)
      · omega
      · exact Or.inr ⟨rfl, ih (by omega)⟩

end Qdmi
