import Qdmi.Lib.Records
import Qdmi.Theory.Device.Lifecycle
import Qdmi.Theory.SizeProtocol

/-!
# What the Encoders Write

Each loop of the result encoders as one write.

The lemmas here say what bytes a loop puts behind the pointer it is given, and
nothing about room: `Cursor.puts` of a list is a fault exactly if the list
does not fit. The bytes are spelled in the terms a caller reads them with,
separated strings and records, so that what a query reports and what it writes
can be compared by comparing lengths.

The keys of the sparse results need a word. Their masks are shifts of an `int`,
so the lemma stops at 32 bits; beyond that the shift itself is undefined. For
bit 31 the mask is negative and becomes a mask of 33 bits, of which an index of
a vector with `2 ^ 32` entries can only hit the lowest.

## Main definitions

* `sparseKeys`: The keys of the nonzero amplitudes.

## Theorems

* `writeShots_eq`, `writeHistKeys_eq`, `writeHistValues_eq`,
  `writeSparseKeys_eq`, `writeSparseAmplitudes_eq`, `writeNorms_eq`: The loops.
* `log2Size_two_pow`: The number of qubits of a state vector.
* `oneShiftedBy_eq`: Testing a bit with a shifted one.
* `length_amplitudeBytes`, `length_norms`: The sizes of an amplitude and of the
  probabilities.
* `sparseKeys_all`: Without zero amplitudes every basis state has a key.
* `writeSparseKeys_shift`: Where the shifts end.
* `length_sparseKeys`, `length_intercalate_sparseKeys`: There is a key for every
  amplitude that is counted.
* `getResultsSparse_keys`, `getResultsSparse_values`,
  `getResultsSparse_amplitudes`: The sparse queries, each as its loop.
* `bump_keys`, `histogram_keys`: The keys of a histogram.
* `histogram_eq_ok_iff`: When the shots can be counted.
* `histogram_available`: A histogram does not depend on the allocations.
-/

namespace Qdmi

variable {R : Type}

/-! ## Shots and histogram -/

/-- The shots, separated and terminated. -/
theorem writeShots_eq (shots : List (List UInt8)) (hne : shots ≠ []) (cur : Cursor) :
    writeShots shots cur = cur.puts ([comma].intercalate shots ++ [0]) := by
  induction shots generalizing cur with
  | nil => exact absurd rfl hne
  | cons shot rest ih =>
      rcases rest with _ | ⟨next, rest⟩
      · rw [List.intercalate_singleton, Cursor.puts_append]
        rfl
      · rw [List.intercalate_cons_cons, List.append_assoc, List.append_assoc, Cursor.puts_append]
        simp only [writeShots, bind]
        congr 1
        funext d
        rw [Cursor.puts_append]
        congr 1
        funext e
        exact ih (List.cons_ne_nil _ _) e

theorem writeHistKeys_eq (hist : List (List UInt8 × Nat)) (hne : hist ≠ []) (cur : Cursor) :
    writeHistKeys hist cur = cur.puts ([comma].intercalate (hist.map Prod.fst) ++ [0]) := by
  have hloop : hist.foldlM (fun cur entry => do
      let cur ← cur.puts entry.1
      cur.puts [comma]) cur = cur.puts ([comma].intercalate (hist.map Prod.fst) ++ [comma]) := by
    rw [foldlM_puts (fun entry => entry.1 ++ [comma]) _ _
      (fun c entry _ => (Cursor.puts_append c entry.1 [comma]).symm),
      ← flatMap_terminated comma _ (by simpa using hne), List.flatMap_map]
  rw [writeHistKeys, hloop]
  exact Cursor.puts_patchBack cur _ comma 0

theorem writeHistValues_eq (hist : List (List UInt8 × Nat)) (cur : Cursor) :
    writeHistValues hist cur = cur.puts (hist.flatMap (fun entry => sizeTBytes entry.2)) :=
  foldlM_puts _ _ _ (fun _ _ _ => rfl) cur

/-- Counting a shot makes it a key and keeps the keys there are. -/
theorem bump_keys (shot : List UInt8) (hist : List (List UInt8 × Nat)) (key : List UInt8) :
    key ∈ (bump shot hist).map Prod.fst ↔ key = shot ∨ key ∈ hist.map Prod.fst := by
  induction hist with
  | nil => exact List.mem_singleton.trans (or_iff_left List.not_mem_nil).symm
  | cons entry rest ih =>
      rcases entry with ⟨k, n⟩
      unfold bump
      split
      · rename_i hk
        rw [List.map_cons, List.map_cons, List.mem_cons, hk, or_iff_right_of_imp Or.inl]
      split
      · exact List.mem_cons
      · rw [List.map_cons, List.map_cons, List.mem_cons, List.mem_cons, ih]
        exact or_left_comm

/-- Every key of a histogram was in the map before or is a shot. -/
theorem histogram_keys {mem : Alloc} {shots : List (List UInt8)} :
    ∀ {k : Nat} {hist hist' : List (List UInt8 × Nat)}, histogram mem k shots hist = .ok hist' →
      ∀ key ∈ hist'.map Prod.fst, key ∈ shots ∨ key ∈ hist.map Prod.fst := by
  induction shots with
  | nil =>
      intro k hist hist' h key hkey
      rw [histogram, Except.ok.injEq] at h
      rw [h]
      exact Or.inr hkey
  | cons shot rest ih =>
      intro k hist hist' h key hkey
      rw [histogram] at h
      split at h
      · exact absurd h (by simp only [reduceCtorEq, not_false_eq_true])
      -- A key behind the rest was counted there, or was in the map after this shot.
      rcases ih h key hkey with hin | hin
      · exact Or.inl (List.mem_cons_of_mem _ hin)
      · rcases (bump_keys shot hist key).mp hin with hk | hk
        · exact Or.inl (hk ▸ List.mem_cons_self)
        · exact Or.inr hk

/-- A shot that is not in the map yet needs an allocation. The induction is on
    the shots still to be counted; each of them is a key afterwards. -/
theorem histogram_eq_ok_iff {mem : Alloc} {shots : List (List UInt8)} :
    ∀ {k : Nat} {hist : List (List UInt8 × Nat)},
      (∃ hist', histogram mem k shots hist = .ok hist') ↔
        ∀ j shot, shots[j]? = some shot → shot ∉ hist.map Prod.fst → shot ∉ shots.take j →
          mem (k + j) = true := by
  induction shots with
  | nil =>
      intro k hist
      refine iff_of_true ⟨hist, rfl⟩ (fun j shot hj => ?_)
      exact absurd hj (by simp only [List.getElem?_nil, reduceCtorEq, not_false_eq_true])
  | cons front rest ih =>
      intro k hist
      rw [histogram]
      split
      · -- A new shot finds no memory, and the condition fails at this very place.
        rename_i hthrow
        refine iff_of_false ?_ (fun h => ?_)
        · rintro ⟨hist', h⟩
          exact absurd h (by simp only [reduceCtorEq, not_false_eq_true])
        · have hmem := h 0 front rfl hthrow.1 List.not_mem_nil
          rw [Nat.add_zero, hthrow.2] at hmem
          exact Bool.false_ne_true hmem
      · rename_i hroom
        rw [ih]
        constructor
        · intro h j shot hj hnew hfirst
          cases j with
          | zero =>
              rw [List.getElem?_cons_zero, Option.some.injEq] at hj
              rw [hj] at hroom
              rw [Nat.add_zero]
              by_contra hmem
              exact hroom ⟨hnew, Bool.eq_false_of_not_eq_true hmem⟩
          | succ j =>
              rw [List.getElem?_cons_succ] at hj
              rw [List.take_succ_cons, List.mem_cons, not_or] at hfirst
              -- A later shot is new when it is neither in the map nor this one.
              have hkey : shot ∉ (bump front hist).map Prod.fst := by
                rw [bump_keys, not_or]
                exact ⟨hfirst.1, hnew⟩
              rw [← h j shot hj hkey hfirst.2]
              congr 1
              omega
        · intro h j shot hj hnew hfirst
          rw [bump_keys, not_or] at hnew
          have hlater : shot ∉ (front :: rest).take (j + 1) := by
            rw [List.take_succ_cons, List.mem_cons, not_or]
            exact ⟨hnew.1, hfirst⟩
          rw [← h (j + 1) shot (by rw [List.getElem?_cons_succ, hj]) hnew.2 hlater]
          congr 1
          omega

/-- A histogram does not depend on the allocations that made it. -/
theorem histogram_available {mem mem' : Alloc} (hmem : ∀ k, mem' k = true)
    {shots : List (List UInt8)} : ∀ {k : Nat} {hist hist' : List (List UInt8 × Nat)},
      histogram mem k shots hist = .ok hist' → histogram mem' k shots hist = .ok hist' := by
  induction shots with
  | nil => exact fun h => h
  | cons shot rest ih =>
      intro k hist hist' h
      rw [histogram] at h ⊢
      split at h
      · exact absurd h (by simp only [reduceCtorEq, not_false_eq_true])
      · have hnot : ¬ (shot ∉ hist.map Prod.fst ∧ mem' k = false) := by
          rw [hmem]
          exact fun hc => absurd hc.2 (by decide)
        rw [if_neg hnot]
        exact ih h

/-! ## State vector -/

/-- The number of qubits of a state vector. -/
theorem log2Size_two_pow (n : Nat) : log2Size (2 ^ n) = .ok n := by
  rw [log2Size, if_neg (Nat.ne_of_gt (Nat.two_pow_pos n)), Nat.log2_two_pow]

/-- A shifted one tests a bit of an index of at most 32 bits. -/
theorem oneShiftedBy_eq {k i : Nat} (hk : k < 32) (hi : i < 2 ^ 32) :
    ∃ mask, oneShiftedBy k = .ok mask ∧ (i &&& mask ≠ 0 ↔ i.testBit k = true) := by
  have hbit : ∀ mask, (∀ j < 32, mask.testBit j = decide (k = j)) →
      (i &&& mask ≠ 0 ↔ i.testBit k = true) := by
    intro mask hmask
    constructor
    · intro hne
      rcases Nat.exists_testBit_of_ne_zero hne with ⟨j, hj⟩
      rw [Nat.testBit_and, Bool.and_eq_true] at hj
      have hj32 : j < 32 := by
        by_contra hge
        have hsmall : i < 2 ^ j :=
            Nat.lt_of_lt_of_le hi (Nat.pow_le_pow_right (by decide) (by omega))
        rw [Nat.testBit_lt_two_pow hsmall] at hj
        exact absurd hj.1 (by decide)
      rw [hmask j hj32, decide_eq_true_eq] at hj
      rw [hj.2]
      exact hj.1
    · intro hk' hz
      have hand : (i &&& mask).testBit k = true := by
        rw [Nat.testBit_and, hk', hmask k hk, decide_eq_true rfl, Bool.and_self]
      rw [hz, Nat.zero_testBit] at hand
      exact absurd hand (by decide)
  by_cases h31 : k < 31
  · refine ⟨2 ^ k, by rw [oneShiftedBy, if_pos h31], hbit _ (fun j _ => Nat.testBit_two_pow)⟩
  · have hk31 : k = 31 := by omega
    refine ⟨sizeTMod - 2 ^ 31, by rw [oneShiftedBy, if_neg h31, if_pos hk31], hbit _ ?_⟩
    intro j hj
    -- The sign bit and its extension: all bits from 31 on.
    have hmask : sizeTMod - 2 ^ 31 = 2 ^ 64 - ((2 ^ 31 - 1) + 1) := rfl
    rw [hmask, Nat.testBit_two_pow_sub_succ (by decide), Nat.testBit_two_pow_sub_one]
    rw [decide_eq_true (show j < 64 by omega), Bool.true_and, ← decide_not]
    exact decide_eq_decide.mpr (by omega)

theorem writeKey_eq {n i : Nat} (hn : n ≤ 32) (hi : i < 2 ^ 32) (cur : Cursor) :
    writeKey n i cur = cur.puts (bitString n i) := by
  rw [writeKey, foldlM_puts (fun j => [if i.testBit (n - j - 1) = true then 49 else 48]), bitString,
    List.map_eq_flatMap]
  intro c j hj
  rw [List.mem_range] at hj
  rcases oneShiftedBy_eq (k := n - j - 1) (by omega) hi with ⟨mask, hmask, hbit⟩
  simp only [hmask, bind, Except.bind, hbit]

section

variable [Zero R] [DecidableEq R]

/-- The keys of the nonzero amplitudes. -/
def sparseKeys (stateVec : List (R × R)) (n : Nat) : List (List UInt8) :=
  (stateVec.zipIdx.filter (fun entry => isNonzero entry.1)).map (fun entry => bitString n entry.2)

theorem length_sparseKeys (stateVec : List (R × R)) (n : Nat) :
    (sparseKeys stateVec n).length = stateVec.countP isNonzero := by
  rw [sparseKeys, List.length_map, ← List.countP_eq_length_filter]
  have hfst : stateVec = (stateVec.zipIdx).map Prod.fst := by rw [List.zipIdx_map_fst]
  conv_rhs => rw [hfst, List.countP_map]
  rfl

/-- The size of the keys, separated and terminated. -/
theorem length_intercalate_sparseKeys {stateVec : List (R × R)} {n : Nat}
    (hne : sparseKeys stateVec n ≠ []) :
    ([comma].intercalate (sparseKeys stateVec n) ++ [0]).length =
      stateVec.countP isNonzero * (n + 1) := by
  rw [length_intercalate comma 0 _ hne (fun name hname => ?_), length_sparseKeys]
  rcases List.mem_map.mp hname with ⟨entry, _, rfl⟩
  exact length_bitString n entry.2

theorem isNonzero_iff (c : R × R) : isNonzero c = true ↔ c ≠ (0, 0) := by
  rw [isNonzero, Bool.or_eq_true, bne_iff_ne, bne_iff_ne, ne_eq, ne_eq, ne_eq, Prod.ext_iff,
    not_and_or]

/-- Without zero amplitudes every basis state has a key. -/
theorem sparseKeys_all {stateVec : List (R × R)} (hall : ∀ c ∈ stateVec, c ≠ (0, 0)) (n : Nat) :
    sparseKeys stateVec n = (List.range stateVec.length).map (bitString n) := by
  have hfilter : stateVec.zipIdx.filter (fun entry => isNonzero entry.1) = stateVec.zipIdx := by
    refine List.filter_eq_self.mpr (fun entry hentry => ?_)
    exact (isNonzero_iff entry.1).mpr (hall entry.1 (List.fst_mem_of_mem_zipIdx hentry))
  have hsnd : stateVec.zipIdx.map Prod.snd = List.range stateVec.length := by
    rw [List.zipIdx_map_snd, List.range_eq_range']
  rw [sparseKeys, hfilter, ← hsnd, List.map_map]
  rfl

/-- Past 32 qubits the first key is already a shift too far. -/
theorem writeSparseKeys_shift {stateVec : List (R × R)} {n : Nat} (hn : 32 < n)
    (hne : stateVec ≠ []) (hall : ∀ c ∈ stateVec, c ≠ (0, 0)) (cur : Cursor) :
    writeSparseKeys stateVec n cur = .error .shiftCount := by
  rcases stateVec with _ | ⟨c, rest⟩
  · exact absurd rfl hne
  have hc : isNonzero c = true := (isNonzero_iff c).mpr (hall c List.mem_cons_self)
  have hshift : oneShiftedBy (n - 0 - 1) = .error .shiftCount := by
    rw [oneShiftedBy, if_neg (by omega), if_neg (by omega)]
  obtain ⟨m, rfl⟩ : ∃ m, n = m + 1 := ⟨n - 1, by omega⟩
  have hkey : ∀ cur, writeKey (m + 1) 0 cur = .error .shiftCount := by
    intro cur
    rw [writeKey, List.range_succ_eq_map, List.foldlM_cons]
    simp only [hshift, bind, Except.bind]
  rw [writeSparseKeys, List.zipIdx_cons, List.foldlM_cons]
  simp only [hc, if_true, hkey, bind, Except.bind]

/-- The keys of a vector of at most `2 ^ 32` amplitudes, separated and
    terminated. -/
theorem writeSparseKeys_eq {stateVec : List (R × R)} {n : Nat} (hn : n ≤ 32)
    (hlen : stateVec.length ≤ 2 ^ 32) (hne : sparseKeys stateVec n ≠ []) (cur : Cursor) :
    writeSparseKeys stateVec n cur =
      cur.puts ([comma].intercalate (sparseKeys stateVec n) ++ [0]) := by
  -- Each key is written with a separator behind it, and the last one is patched.
  have hloop : stateVec.zipIdx.foldlM (fun cur entry =>
      if isNonzero entry.1 = true then do
        let cur ← writeKey n entry.2 cur
        cur.puts [comma]
      else .ok cur) cur = cur.puts ([comma].intercalate (sparseKeys stateVec n) ++ [comma]) := by
    rw [foldlM_puts (fun entry => if isNonzero entry.1 = true then
      bitString n entry.2 ++ [comma] else []), flatMap_filter,
      ← flatMap_terminated comma _ hne, sparseKeys, List.flatMap_map]
    intro c entry hentry
    have hidx : entry.2 < stateVec.length := List.snd_lt_of_mem_zipIdx hentry
    split
    · rw [writeKey_eq hn (by omega)]
      exact (Cursor.puts_append c _ _).symm
    · exact (Cursor.puts_nil c).symm
  rw [writeSparseKeys, hloop]
  exact Cursor.puts_patchBack cur _ comma 0

omit [Zero R] [DecidableEq R] in
theorem length_amplitudeBytes [DoubleRepr R] (c : R × R) : (amplitudeBytes c).length = 16 := by
  rw [amplitudeBytes, List.length_append, DoubleRepr.length_bytes, DoubleRepr.length_bytes]

theorem writeSparseAmplitudes_eq [DoubleRepr R] (stateVec : List (R × R)) (cur : Cursor) :
    writeSparseAmplitudes stateVec cur =
      cur.puts ((stateVec.filter isNonzero).flatMap amplitudeBytes) := by
  rw [writeSparseAmplitudes, foldlM_puts (fun c => if isNonzero c = true then amplitudeBytes c
    else []), flatMap_filter]
  intro c amp _
  split
  · rfl
  · exact (Cursor.puts_nil c).symm

end

theorem writeNorms_eq [Add R] [Mul R] [DoubleRepr R] (stateVec : List (R × R)) (cur : Cursor) :
    writeNorms stateVec cur =
      cur.puts (stateVec.flatMap (fun c => DoubleRepr.bytes (cnorm c))) :=
  foldlM_puts _ _ _ (fun _ _ _ => rfl) cur

theorem length_norms [Add R] [Mul R] [DoubleRepr R] (stateVec : List (R × R)) :
    (stateVec.flatMap (fun c => DoubleRepr.bytes (cnorm c))).length = stateVec.length * 8 :=
  length_flatMap_eq stateVec (fun _ _ => DoubleRepr.length_bytes _)

/-! ## Sparse results of a vector of `2 ^ n` amplitudes -/

section

variable [Zero R] [DecidableEq R] [Add R] [Mul R] [DoubleRepr R]

/-- Both kinds of sparse results have the same keys. -/
theorem getResultsSparse_keys {result : ResultData R} {n kind : Nat}
    (hkind : kind = JobResult.statevectorSparseKeys.code ∨
      kind = JobResult.probabilitiesSparseKeys.code)
    (hlen : result.stateVec.length = 2 ^ n) (out : OutArgs) :
    getResultsSparse result kind out = respond out (result.stateVec.countP isNonzero * (n + 1))
      (writeSparseKeys result.stateVec n) := by
  simp only [getResultsSparse, hlen, log2Size_two_pow, bind, Except.bind, if_pos hkind]

theorem getResultsSparse_values {result : ResultData R} {n : Nat}
    (hlen : result.stateVec.length = 2 ^ n) (out : OutArgs) :
    getResultsSparse result JobResult.probabilitiesSparseValues.code out =
      respond out (result.stateVec.countP isNonzero * 8) (writeNorms result.stateVec) := by
  simp only [getResultsSparse, hlen, log2Size_two_pow, bind, Except.bind, JobResult.code]
  rfl

theorem getResultsSparse_amplitudes {result : ResultData R} {n : Nat}
    (hlen : result.stateVec.length = 2 ^ n) (out : OutArgs) :
    getResultsSparse result JobResult.statevectorSparseValues.code out =
      respond out (result.stateVec.countP isNonzero * 2 * 8)
        (writeSparseAmplitudes result.stateVec) := by
  simp only [getResultsSparse, hlen, log2Size_two_pow, bind, Except.bind, JobResult.code]
  rfl

end

end Qdmi
