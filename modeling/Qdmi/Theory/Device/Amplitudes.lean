import Qdmi.Theory.Device.Sparse

/-!
# Sparse and Dense State Vectors

The sparse results list the nonzero amplitudes of a state vector: one query
names them and another one has their values. The two loops filter the vector by
themselves, so that they agree is a fact about both.

Whatever the vector, its nonzero amplitudes are a list of pairs of an amplitude
and its index, `nonzeroEntries`. One loop writes the second components as
numerals and the other one the first components as bytes, and in each buffer the
position of an entry is its position in this list. `rebuild` is the caller who
puts the dense vector together again from the two buffers.

## Main definitions

* `nonzeroEntries`: The nonzero amplitudes with their indices.
* `sparseEntries`: The names and values in two buffers, side by side.
* `rebuild`: The dense vector that the two buffers describe.
* `Reconstructs`: What keys and values say about a state vector.

## Theorems

* `sparseEntries_eq`: Names and values belong to the same entries.
* `rebuild_eq`: The dense vector is put together again.
* `sparse_reconstructs`: The sparse results reconstruct the dense one.
-/

namespace Qdmi

variable {R : Type}

/-- The names in a buffer of keys, each with the record of `w` bytes in the same
    position of a buffer of values. -/
def sparseEntries (w : Nat) (keys values : List UInt8) : List (List UInt8 × List UInt8) :=
  (keyNames keys).zipIdx.map (fun entry => (entry.1, field w values entry.2))

/-- The dense vector of `2 ^ n` records that the two buffers describe. -/
def rebuild (n : Nat) (zero keys values : List UInt8) : List UInt8 :=
  (List.range (2 ^ n)).flatMap
    (fun i => ((sparseEntries zero.length keys values).lookup (bitString n i)).getD zero)

example : rebuild 1 [0] [49, 0] [7] = [0, 7] := by decide

section

variable [Zero R] [DecidableEq R]

/-- The nonzero amplitudes of a state vector with their indices. -/
def nonzeroEntries (stateVec : List (R × R)) : List ((R × R) × Nat) :=
  stateVec.zipIdx.filter (fun entry => isNonzero entry.1)

theorem mem_nonzeroEntries {stateVec : List (R × R)} {entry : (R × R) × Nat} :
    entry ∈ nonzeroEntries stateVec ↔ stateVec[entry.2]? = some entry.1 ∧ entry.1 ≠ (0, 0) := by
  rw [nonzeroEntries, List.mem_filter, List.mem_zipIdx_iff_getElem?, isNonzero_iff]

theorem sparseKeys_eq (stateVec : List (R × R)) (n : Nat) :
    sparseKeys stateVec n = (nonzeroEntries stateVec).map (fun entry => bitString n entry.2) := rfl

theorem filter_isNonzero (stateVec : List (R × R)) :
    stateVec.filter isNonzero = (nonzeroEntries stateVec).map Prod.fst := by
  have hfst : stateVec = stateVec.zipIdx.map Prod.fst := by rw [List.zipIdx_map_fst]
  rw [nonzeroEntries, hfst, List.filter_map, ← hfst]
  rfl

section

variable {stateVec : List (R × R)} {n : Nat}

theorem nonzeroEntries_lt (hlen : stateVec.length = 2 ^ n) :
    ∀ entry ∈ nonzeroEntries stateVec, entry.2 < 2 ^ n := by
  intro entry hentry
  rw [← hlen]
  exact (List.getElem?_eq_some_iff.mp (mem_nonzeroEntries.mp hentry).1).1

theorem sparseKeys_ne_nil (hne : ∃ c ∈ stateVec, c ≠ (0, 0)) (n : Nat) :
    sparseKeys stateVec n ≠ [] := by
  rcases hne with ⟨c, hc, hzero⟩
  rcases List.mem_iff_getElem?.mp hc with ⟨i, hi⟩
  have hmem : (c, i) ∈ nonzeroEntries stateVec := mem_nonzeroEntries.mpr ⟨hi, hzero⟩
  rw [sparseKeys_eq, ne_eq, List.map_eq_nil_iff]
  exact List.ne_nil_of_mem hmem

/-- The names of a written vector. -/
theorem keyNames_sparseKeys (hne : ∃ c ∈ stateVec, c ≠ (0, 0)) (n : Nat) :
    keyNames ([comma].intercalate (sparseKeys stateVec n) ++ [0]) = sparseKeys stateVec n := by
  refine keyNames_intercalate (sparseKeys_ne_nil hne n) (fun name hname => ?_)
  rw [sparseKeys_eq] at hname
  rcases List.mem_map.mp hname with ⟨entry, _, rfl⟩
  exact comma_notMem_bitString n entry.2

/-- The entries stand in the order of their indices. -/
theorem nonzeroEntries_pairwise (stateVec : List (R × R)) :
    (nonzeroEntries stateVec).Pairwise (fun a b => a.2 < b.2) := by
  have hall : stateVec.zipIdx.Pairwise (fun a b => a.2 < b.2) := by
    rw [← List.pairwise_map (f := Prod.snd) (R := (· < ·)), List.zipIdx_map_snd]
    exact List.pairwise_lt_range'
  exact hall.filter _

theorem sparseKeys_pairwise (hlen : stateVec.length = 2 ^ n) :
    (sparseKeys stateVec n).Pairwise (· < ·) := by
  rw [sparseKeys_eq, List.pairwise_map]
  refine (nonzeroEntries_pairwise stateVec).imp_of_mem (fun ha hb hlt => bitString_lt ?_)
  rwa [Nat.mod_eq_of_lt (nonzeroEntries_lt hlen _ ha), Nat.mod_eq_of_lt
    (nonzeroEntries_lt hlen _ hb)]

end

/-! ## Names and values -/

variable [DoubleRepr R]

/-- The names and values of the nonzero amplitudes. -/
def namedAmplitudes (n : Nat) (stateVec : List (R × R)) : List (List UInt8 × List UInt8) :=
  (nonzeroEntries stateVec).map (fun entry => (bitString n entry.2, amplitudeBytes entry.1))

/-- What keys and values say about a state vector of `2 ^ n` amplitudes. -/
structure Reconstructs (n : Nat) (stateVec : List (R × R)) (keys values dense : List UInt8) :
    Prop where
  /-- The keys are a string: the terminator is the only NUL byte. -/
  terminated : keys.getLast? = some 0 ∧ 0 ∉ keys.dropLast
  /-- The names are in strictly increasing order. -/
  ascending : (keyNames keys).Pairwise (· < ·)
  /-- They are binary numerals of `n` digits. -/
  numerals : ∀ name ∈ keyNames keys, name.length = n ∧ ∀ c ∈ name, c = 49 ∨ c = 48
  /-- The numbers they stand for are the indices with nonzero amplitude. -/
  named : ∀ i, i ∈ (keyNames keys).map bitValue ↔ ∃ c, stateVec[i]? = some c ∧ c ≠ (0, 0)
  /-- There are as many values as names. -/
  counted : values.length = 16 * (keyNames keys).length
  /-- The value behind a name is the amplitude. -/
  value : ∀ k name, (keyNames keys)[k]? = some name →
    ∃ c, stateVec[bitValue name]? = some c ∧ field 16 values k = amplitudeBytes c
  /-- The dense vector can be put together again. -/
  rebuilt : rebuild n (amplitudeBytes ((0, 0) : R × R)) keys values = dense

section

variable {stateVec : List (R × R)} {n : Nat}

theorem filter_flatMap (stateVec : List (R × R)) :
    (stateVec.filter isNonzero).flatMap amplitudeBytes =
      (nonzeroEntries stateVec).flatMap (fun entry => amplitudeBytes entry.1) := by
  rw [filter_isNonzero, List.flatMap_map]

/-- Names and values belong to the same entries. -/
theorem sparseEntries_eq (hne : ∃ c ∈ stateVec, c ≠ (0, 0)) (n : Nat) :
    sparseEntries 16 ([comma].intercalate (sparseKeys stateVec n) ++ [0])
        ((stateVec.filter isNonzero).flatMap amplitudeBytes) =
      namedAmplitudes n stateVec := by
  rw [namedAmplitudes, sparseEntries, keyNames_sparseKeys hne, sparseKeys_eq, filter_flatMap]
  refine List.ext_getElem? (fun k => ?_)
  rw [List.getElem?_map, List.getElem?_zipIdx, List.getElem?_map, List.getElem?_map]
  rcases hk : (nonzeroEntries stateVec)[k]? with _ | entry
  · rfl
  · have hfield : field 16 ((nonzeroEntries stateVec).flatMap (fun entry => amplitudeBytes entry.1))
        k = amplitudeBytes entry.1 :=
      field_flatMap (fun entry _ => length_amplitudeBytes entry.1) hk
    simp only [Option.map_some, Nat.zero_add, hfield]

theorem mem_namedAmplitudes (hlen : stateVec.length = 2 ^ n) {i : Nat} (hi : i < 2 ^ n)
    {bytes : List UInt8} :
    (bitString n i, bytes) ∈ namedAmplitudes n stateVec ↔
      ∃ c, stateVec[i]? = some c ∧ c ≠ (0, 0) ∧ amplitudeBytes c = bytes := by
  rw [namedAmplitudes, List.mem_map]
  constructor
  · rintro ⟨entry, hentry, heq⟩
    rw [Prod.mk.injEq] at heq
    -- Two indices with the same numeral are the same.
    have hindex : entry.2 = i := by
      have hvalue := congrArg bitValue heq.1
      rwa [bitValue_bitString (nonzeroEntries_lt hlen entry hentry), bitValue_bitString hi]
        at hvalue
    rcases mem_nonzeroEntries.mp hentry with ⟨hsome, hzero⟩
    exact ⟨entry.1, hindex ▸ hsome, hzero, heq.2⟩
  · rintro ⟨c, hc, hzero, rfl⟩
    exact ⟨(c, i), mem_nonzeroEntries.mpr ⟨hc, hzero⟩, rfl⟩

/-- What is looked up under a numeral is the amplitude with that index, or
    nothing where it is zero. -/
theorem lookup_namedAmplitudes (hlen : stateVec.length = 2 ^ n) {i : Nat} {c : R × R}
    (hc : stateVec[i]? = some c) :
    ((namedAmplitudes n stateVec).lookup (bitString n i)).getD (amplitudeBytes ((0, 0) : R × R)) =
      amplitudeBytes c := by
  have hi : i < 2 ^ n := by
    rw [← hlen]
    exact (List.getElem?_eq_some_iff.mp hc).1
  rcases hlookup : (namedAmplitudes n stateVec).lookup (bitString n i) with _ | bytes
  · rw [Option.getD_none]
    by_cases hzero : c = (0, 0)
    · rw [hzero]
    · -- A nonzero amplitude is named.
      have hmem := (mem_namedAmplitudes hlen hi).mpr ⟨c, hc, hzero, rfl⟩
      have hnone := List.lookup_eq_none_iff.mp hlookup _ hmem
      exact absurd hnone (by simp only [bne_self_eq_false, Bool.false_eq_true, not_false_eq_true])
  · rcases List.lookup_eq_some_iff.mp hlookup with ⟨before, after, hsplit, _⟩
    have hmem : (bitString n i, bytes) ∈ namedAmplitudes n stateVec := by
      rw [hsplit]
      exact List.mem_append_right _ List.mem_cons_self
    rcases (mem_namedAmplitudes hlen hi).mp hmem with ⟨d, hd, _, hbytes⟩
    rw [hc, Option.some.injEq] at hd
    rw [Option.getD_some, ← hbytes, hd]

/-- The dense vector is put together again. -/
theorem rebuild_eq (hlen : stateVec.length = 2 ^ n) (hne : ∃ c ∈ stateVec, c ≠ (0, 0)) :
    rebuild n (amplitudeBytes ((0, 0) : R × R))
        ([comma].intercalate (sparseKeys stateVec n) ++ [0])
        ((stateVec.filter isNonzero).flatMap amplitudeBytes) = stateVec.flatMap amplitudeBytes := by
  rw [rebuild, length_amplitudeBytes, sparseEntries_eq hne, ← hlen]
  exact flatMap_range (fun i c hc => lookup_namedAmplitudes hlen hc)

/-- What is written for a state vector. -/
theorem reconstructs_sparse (hlen : stateVec.length = 2 ^ n)
    (hne : ∃ c ∈ stateVec, c ≠ (0, 0)) :
    Reconstructs n stateVec ([comma].intercalate (sparseKeys stateVec n) ++ [0])
      ((stateVec.filter isNonzero).flatMap amplitudeBytes) (stateVec.flatMap amplitudeBytes) := by
  have hnames := keyNames_sparseKeys hne n
  have hdigits : ∀ name ∈ sparseKeys stateVec n,
      name.length = n ∧ ∀ c ∈ name, c = 49 ∨ c = 48 := by
    intro name hname
    rcases List.mem_map.mp hname with ⟨entry, _, rfl⟩
    exact ⟨length_bitString n entry.2, fun c hc => mem_bitString hc⟩
  have hvalue : ∀ entry ∈ nonzeroEntries stateVec, bitValue (bitString n entry.2) = entry.2 :=
    fun entry hentry => bitValue_bitString (nonzeroEntries_lt hlen entry hentry)
  refine ⟨intercalate_terminated (fun name hname hnul => ?_), ?_, ?_, ?_, ?_, ?_,
    rebuild_eq hlen hne⟩
  · rcases (hdigits name hname).2 0 hnul with h | h
    · exact absurd h (by decide)
    · exact absurd h (by decide)
  · rw [hnames]
    exact sparseKeys_pairwise hlen
  · rwa [hnames]
  · intro i
    rw [hnames, sparseKeys_eq, List.map_map, List.mem_map]
    constructor
    · rintro ⟨entry, hentry, rfl⟩
      rw [Function.comp_apply, hvalue entry hentry]
      exact ⟨entry.1, mem_nonzeroEntries.mp hentry⟩
    · rintro ⟨c, hc⟩
      have hmem : (c, i) ∈ nonzeroEntries stateVec := mem_nonzeroEntries.mpr hc
      exact ⟨(c, i), hmem, hvalue _ hmem⟩
  · rw [hnames, length_sparseKeys, List.countP_eq_length_filter, Nat.mul_comm,
      length_flatMap_eq _ (fun c _ => length_amplitudeBytes c)]
  · -- The name and the value at one position come from one entry.
    intro k name hk
    rw [hnames, sparseKeys_eq, List.getElem?_map] at hk
    rcases Option.map_eq_some_iff.mp hk with ⟨entry, hentry, rfl⟩
    have hmem := List.mem_of_getElem? hentry
    refine ⟨entry.1, ?_, ?_⟩
    · rw [hvalue entry hmem]
      exact (mem_nonzeroEntries.mp hmem).1
    · rw [filter_flatMap]
      exact field_flatMap (fun entry _ => length_amplitudeBytes entry.1) hentry

end

/-! ## The three queries -/

variable [Add R] [Mul R]

theorem encodeResult_statevector (mem : Alloc) (result : ResultData R) (out : OutArgs) :
    encodeResult mem result JobResult.statevectorDense.code out =
      (getResultsStatevector result out).map .ok := by
  simp only [encodeResult, JobResult.code]
  rfl

/-- The sparse results of a state vector reconstruct the dense one. -/
theorem sparse_reconstructs (s : DeviceState R) (keysMem valuesMem denseMem : Alloc) (h i n : Nat)
    (jb : DeviceJob R) (result : ResultData R) (hget : s.jobs.get? h = some jb)
    (hst : jb.status = .done) (hi : i < jb.programs.length) (hres : jb.results[i]? = some result)
    (hlen : result.stateVec.length = 2 ^ n) (hn : n ≤ 31)
    (hne : ∃ c ∈ result.stateVec, c ≠ (0, 0)) :
    ∃ keys values dense,
      Delivers (deviceJobGetResults s keysMem (some h) i JobResult.statevectorSparseKeys.code)
        keys ∧
      Delivers (deviceJobGetResults s valuesMem (some h) i JobResult.statevectorSparseValues.code)
        values ∧
      Delivers (deviceJobGetResults s denseMem (some h) i JobResult.statevectorDense.code) dense ∧
      Reconstructs n result.stateVec keys values dense := by
  have hmax : result.stateVec.length ≤ 2 ^ 32 := by
    rw [hlen]
    exact Nat.pow_le_pow_right (by decide) (by omega)
  have hkeys := sparseKeys_ne_nil hne n
  -- Neither buffer is empty, so no call is refused by the guard.
  have hcount : 0 < result.stateVec.countP isNonzero := by
    rw [← length_sparseKeys result.stateVec n]
    exact List.length_pos_iff.mpr hkeys
  have hbytes : ∀ l : List (R × R), (l.flatMap amplitudeBytes).length = l.length * 2 * 8 := by
    intro l
    rw [length_flatMap_eq l (fun c _ => length_amplitudeBytes c), Nat.mul_assoc]
  have hnonempty : ∀ l : List (R × R), 0 < l.length → l.flatMap amplitudeBytes ≠ [] := by
    intro l hl
    rw [← List.length_pos_iff, hbytes]
    omega
  refine ⟨_, _, _, ?_, ?_, ?_, reconstructs_sparse hlen hne⟩
  · rw [deviceJobGetResults_body hget hst hi hres keysMem rfl
      (encodeResult_sparse (Or.inl rfl) keysMem result)]
    simp only [getResultsSparse_keys (Or.inl rfl) hlen]
    refine delivers_respond (List.append_ne_nil_of_right_ne_nil _ (List.cons_ne_nil _ _)) ?_
      (fun buf => writeSparseKeys_eq (by omega) hmax hkeys _)
    exact length_intercalate_sparseKeys hkeys
  · rw [deviceJobGetResults_body hget hst hi hres valuesMem rfl
      (encodeResult_sparse (Or.inr (Or.inl rfl)) valuesMem result)]
    simp only [getResultsSparse_amplitudes hlen]
    have hlength : (result.stateVec.filter isNonzero).length = result.stateVec.countP isNonzero :=
      List.countP_eq_length_filter.symm
    refine delivers_respond (hnonempty _ (hlength ▸ hcount)) ?_
      (fun buf => writeSparseAmplitudes_eq _ _)
    rw [hbytes, hlength]
  · rw [deviceJobGetResults_body hget hst hi hres denseMem rfl
      (encodeResult_statevector denseMem result)]
    simp only [getResultsStatevector]
    refine delivers_respond (hnonempty _ ?_) (hbytes _) (fun buf => rfl)
    rw [hlen]
    exact Nat.two_pow_pos n

end

/-- A state vector of one qubit with a zero amplitude. -/
theorem sparse_reconstructs_sample :
    ∃ keys values dense,
      Delivers (deviceJobGetResults (finishedState (⟨[], [(0, 0), (1, 0)]⟩ : ResultData ℚ))
        (fun _ => true) (some 0) 0 JobResult.statevectorSparseKeys.code) keys ∧
      Delivers (deviceJobGetResults (finishedState (⟨[], [(0, 0), (1, 0)]⟩ : ResultData ℚ))
        (fun _ => true) (some 0) 0 JobResult.statevectorSparseValues.code) values ∧
      Delivers (deviceJobGetResults (finishedState (⟨[], [(0, 0), (1, 0)]⟩ : ResultData ℚ))
        (fun _ => true) (some 0) 0 JobResult.statevectorDense.code) dense ∧
      Reconstructs 1 [((0 : ℚ), (0 : ℚ)), (1, 0)] keys values dense :=
  sparse_reconstructs (finishedState ⟨[], [(0, 0), (1, 0)]⟩) (fun _ => true) (fun _ => true)
    (fun _ => true) 0 0 1 (finishedJob ⟨[], [(0, 0), (1, 0)]⟩) ⟨[], [(0, 0), (1, 0)]⟩ rfl rfl
    Nat.zero_lt_one rfl rfl (by decide)
    ⟨(1, 0), List.mem_cons_of_mem _ List.mem_cons_self, by decide⟩

end Qdmi
