import Qdmi.Theory.Device.Encoders

/-!
# Sparse and Dense Probabilities

When the sparse probabilities of a result describe the distribution the dense
ones do.

`Retrieves` is a caller that follows the size protocol to the letter: it asks
for the size and passes a buffer of exactly that many bytes. `SameDistribution`
compares the three buffers such a caller ends up with, taking the keys apart
at the separators and the values by position.

The three loops do not agree on what they skip. The keys and the two size
computations leave out zero amplitudes, the loop of the sparse values does
not, so a vector with a zero amplitude makes it write past the size it
reported. `sparseAgrees_iff` says that this and the width of the shift in the
keys are the only obstacles.

## Main definitions

* `Retrieves`: A query yields some bytes in a buffer of the reported size.
* `keyNames`: The keys in a buffer.
* `SameDistribution`, `SparseAgrees`: The sparse results describe the dense
  ones.
* `finishedState`: A job that is done.

## Theorems

* `retrieves_of_answers`: A query with a value yields it.
* `intercalate_terminated`: Where separated strings end.
* `deviceJobGetResults_done`: The query on a job that is done.
* `sparseValues_retrieves`: The sparse values are retrieved only from a vector
  without zero amplitudes.
* `sparseKeys_retrieves`: The keys are retrieved only up to 32 qubits.
* `sparseAgrees_iff`: The exact condition for agreement.
-/

namespace Qdmi

variable {R : Type}

/-- A caller who asks for the size and passes a buffer of exactly that size
    finds these bytes in it. -/
def Retrieves (q : OutArgs → Except Fault (Except Exn Reply)) (bytes : List UInt8) : Prop :=
  ∃ need, q ⟨0, none, true⟩ = .ok (.ok { status := .success, sizeRet := some need }) ∧
    ∀ buf : Buffer, buf.length = need →
      q ⟨need, some buf, false⟩ = .ok (.ok { status := .success, value := some bytes })

/-- A query with a value yields it, unless the value has no bytes. -/
theorem retrieves_of_answers {q : OutArgs → Except Fault Reply} {bytes : List UInt8}
    (hq : Answers q bytes) (hne : bytes ≠ []) : Retrieves (fun out => (q out).map .ok) bytes := by
  refine ⟨bytes.length, by simp only [hq.probe, Except.map, if_true], fun buf hlen => ?_⟩
  have hpos : 0 < buf.length := by
    rw [hlen]
    exact List.length_pos_iff.mpr hne
  rcases hq.fits buf false hpos (by rw [hlen]) with ⟨rest, hrest, hfits⟩
  have hnil : rest = [] := List.length_eq_zero_iff.mp (by omega)
  rw [hnil, List.append_nil, hlen] at hfits
  simp only [hfits, Except.map, Bool.false_eq_true, if_false]

/-- The keys in a buffer: what stands between the separators, before the
    terminator. -/
def keyNames (keys : List UInt8) : List (List UInt8) := keys.dropLast.splitOn comma

/-- The keys come back out of their buffer. -/
theorem keyNames_intercalate {l : List (List UInt8)} (hne : l ≠ []) (hl : ∀ s ∈ l, comma ∉ s) :
    keyNames ([comma].intercalate l ++ [0]) = l := by
  rw [keyNames, List.dropLast_concat]
  exact List.splitOn_intercalate comma hl hne

/-- Separated strings without a terminator end at the one behind them. -/
theorem intercalate_terminated {l : List (List UInt8)} (hl : ∀ s ∈ l, 0 ∉ s) :
    ([comma].intercalate l ++ [0]).getLast? = some 0 ∧
      0 ∉ ([comma].intercalate l ++ [0]).dropLast := by
  refine ⟨List.getLast?_concat, ?_⟩
  rw [List.dropLast_concat]
  intro hmem
  rcases mem_intercalate hmem with hsep | ⟨s, hs, hnul⟩
  · exact absurd hsep (by decide)
  · exact hl s hs hnul

theorem comma_notMem_bitString (n i : Nat) : comma ∉ bitString n i := by
  intro hc
  rcases mem_bitString hc with h | h
  · exact absurd h (by decide)
  · exact absurd h (by decide)

section

variable [Zero R] [Add R] [Mul R] [DoubleRepr R]

/-- Keys and values list the same entries as the dense probabilities of a
    state vector, and what they leave out has probability zero. -/
structure SameDistribution (stateVec : List (R × R)) (keys values dense : List UInt8) : Prop where
  count : values.length = 8 * (keyNames keys).length
  basis : ∀ name ∈ keyNames keys, bitValue name < stateVec.length
  value : ∀ k name, (keyNames keys)[k]? = some name →
    field 8 values k = field 8 dense (bitValue name)
  rest : ∀ i c, stateVec[i]? = some c → (∀ name ∈ keyNames keys, bitValue name ≠ i) → cnorm c = 0

/-- Keys of all basis states and the norms of all amplitudes describe the
    distribution the norms do. -/
theorem sameDistribution_all {stateVec : List (R × R)} {n : Nat} (hlen : stateVec.length = 2 ^ n) :
    SameDistribution stateVec
      ([comma].intercalate ((List.range stateVec.length).map (bitString n)) ++ [0])
      (stateVec.flatMap (fun c => DoubleRepr.bytes (cnorm c)))
      (stateVec.flatMap (fun c => DoubleRepr.bytes (cnorm c))) := by
  have hpos : 0 < stateVec.length := by
    rw [hlen]
    exact Nat.two_pow_pos n
  have hne : (List.range stateVec.length).map (bitString n) ≠ [] := by
    intro hnil
    rw [List.map_eq_nil_iff, List.range_eq_nil] at hnil
    omega
  have hcomma : ∀ s ∈ (List.range stateVec.length).map (bitString n), comma ∉ s := by
    intro s hs
    rcases List.mem_map.mp hs with ⟨i, _, rfl⟩
    exact comma_notMem_bitString n i
  have hnames := keyNames_intercalate hne hcomma
  -- A key among these is the numeral of an index.
  have hvalue : ∀ i, i < stateVec.length → bitValue (bitString n i) = i :=
    fun i hi => bitValue_bitString (hlen ▸ hi)
  refine ⟨?_, fun name hname => ?_, fun k name hk => ?_, fun i c hc hnone => ?_⟩
  · rw [hnames, length_norms, List.length_map, List.length_range, Nat.mul_comm]
  · rw [hnames, List.mem_map] at hname
    rcases hname with ⟨i, hi, rfl⟩
    rw [List.mem_range] at hi
    rw [hvalue i hi]
    exact hi
  · rw [hnames, List.getElem?_map] at hk
    rcases Option.map_eq_some_iff.mp hk with ⟨j, hj, rfl⟩
    have hlt : k < stateVec.length := by
      have := (List.getElem?_eq_some_iff.mp hj).1
      rwa [List.length_range] at this
    rw [List.getElem?_range hlt, Option.some.injEq] at hj
    rw [← hj, hvalue k hlt]
  · have hi : i < stateVec.length := (List.getElem?_eq_some_iff.mp hc).1
    refine absurd (hvalue i hi) (hnone _ ?_)
    rw [hnames]
    exact List.mem_map_of_mem (List.mem_range.mpr hi)

variable [DecidableEq R]

/-- The sparse probabilities of a program, retrieved with buffers of exactly
    the reported sizes, describe the distribution the dense ones do. -/
def SparseAgrees (s : DeviceState R) (mem : Alloc) (h i : Nat) (stateVec : List (R × R)) : Prop :=
  ∃ keys values dense,
    Retrieves (deviceJobGetResults s mem (some h) i JobResult.probabilitiesSparseKeys.code) keys ∧
    Retrieves (deviceJobGetResults s mem (some h) i JobResult.probabilitiesSparseValues.code)
      values ∧
    Retrieves (deviceJobGetResults s mem (some h) i JobResult.probabilitiesDense.code) dense ∧
    SameDistribution stateVec keys values dense

/-- A job that is done, with one program and its result. -/
def finishedJob (result : ResultData R) : DeviceJob R where
  session := 0
  programs := [[0]]
  status := .done
  results := [result]

/-- The state of a device with this job. -/
def finishedState (result : ResultData R) : DeviceState R where
  jobs := ⟨[some (finishedJob result)]⟩

/-- The query for a result of a job that is done. -/
theorem deviceJobGetResults_done {s : DeviceState R} {h i : Nat} {jb : DeviceJob R}
    {result : ResultData R} (hget : s.jobs.get? h = some jb) (hst : jb.status = .done)
    (hi : i < jb.programs.length) (hres : jb.results[i]? = some result) (mem : Alloc) (kind : Nat)
    (out : OutArgs) :
    deviceJobGetResults s mem (some h) i kind out =
      if (out.degenerate || isInvalidEnumValue kind JobResult.max) = true then
        .ok (.ok (out.reject .errorInvalidargument))
      else encodeResult mem result kind out := by
  simp only [deviceJobGetResults, hget, hst, hres, Nat.not_le.mpr hi, ne_eq, not_true_eq_false,
    if_false]

/-- A result query of a valid kind, as guard and body. -/
theorem deviceJobGetResults_body {s : DeviceState R} {h i : Nat} {jb : DeviceJob R}
    {result : ResultData R} (hget : s.jobs.get? h = some jb) (hst : jb.status = .done)
    (hi : i < jb.programs.length) (hres : jb.results[i]? = some result) (mem : Alloc) {kind : Nat}
    (hkind : isInvalidEnumValue kind JobResult.max = false)
    {body : OutArgs → Except Fault Reply}
    (hbody : ∀ out, encodeResult mem result kind out = (body out).map .ok) :
    deviceJobGetResults s mem (some h) i kind = fun out =>
      Except.map Except.ok (if (out.degenerate || false) = true then
        .ok (out.reject .errorInvalidargument) else body out) := by
  funext out
  rw [deviceJobGetResults_done hget hst hi hres, hkind, hbody]
  split
  · rfl
  · rfl

theorem encodeResult_sparse {kind : Nat} (hkind : kind = JobResult.statevectorSparseKeys.code ∨
    kind = JobResult.statevectorSparseValues.code ∨
    kind = JobResult.probabilitiesSparseKeys.code ∨
    kind = JobResult.probabilitiesSparseValues.code) (mem : Alloc) (result : ResultData R)
    (out : OutArgs) :
    encodeResult mem result kind out = (getResultsSparse result kind out).map .ok := by
  rcases hkind with rfl | rfl | rfl | rfl
  all_goals
    simp only [encodeResult, JobResult.code]
    rfl

theorem encodeResult_dense (mem : Alloc) (result : ResultData R) (out : OutArgs) :
    encodeResult mem result JobResult.probabilitiesDense.code out =
      (getResultsProbabilities result out).map .ok := by
  simp only [encodeResult, JobResult.code]
  rfl

/-- A query that is retrieved with a buffer of the reported size had room for
    what it wrote. -/
theorem retrieves_respond {need : Nat} {write : Cursor → Except Fault Cursor} {bytes : List UInt8}
    (h : Retrieves (fun out => Except.map Except.ok (if (out.degenerate || false) = true then
      .ok (out.reject .errorInvalidargument) else respond out need write)) bytes) :
    0 < need ∧ ∃ cur, write (Cursor.start (List.replicate need 0)) = .ok cur := by
  rcases h with ⟨need', hprobe, hbuf⟩
  -- The probe reports the size the body checks against.
  have hneed : need' = need := by
    simp only [OutArgs.degenerate, Option.isSome_none, Bool.false_and, Bool.or_false,
      Bool.false_eq_true, if_false, respond, OutArgs.reported, if_true, Except.map,
      Except.ok.injEq, Reply.mk.injEq, Option.some.injEq] at hprobe
    exact hprobe.2.2.2.2.symm
  rw [hneed] at hbuf
  have hcall := hbuf (List.replicate need 0) (List.length_replicate)
  rcases Nat.eq_zero_or_pos need with hz | hpos
  · -- A buffer of no bytes is refused by the guard.
    subst hz
    simp [OutArgs.degenerate, OutArgs.reject, Except.map] at hcall
  · refine ⟨hpos, ?_⟩
    have hsize : (need == 0) = false := by simpa using Nat.ne_of_gt hpos
    simp only [OutArgs.degenerate, Option.isSome_some, hsize, Bool.and_false, Bool.or_false,
      Bool.false_eq_true, if_false, respond, Nat.lt_irrefl, bind] at hcall
    rcases hwrite : write (Cursor.start (List.replicate need 0)) with e | cur
    · rw [hwrite] at hcall
      exact absurd hcall (by simp only [Except.bind, Except.map, reduceCtorEq, not_false_eq_true])
    · exact ⟨cur, rfl⟩

/-- The sparse values are retrieved only if no amplitude is zero: otherwise
    the loop writes one norm for every amplitude into room for fewer. -/
theorem sparseValues_retrieves {s : DeviceState R} {h i n : Nat} {jb : DeviceJob R}
    {result : ResultData R} (hget : s.jobs.get? h = some jb) (hst : jb.status = .done)
    (hi : i < jb.programs.length) (hres : jb.results[i]? = some result)
    (hlen : result.stateVec.length = 2 ^ n) {mem : Alloc} {values : List UInt8}
    (hvalues : Retrieves
      (deviceJobGetResults s mem (some h) i JobResult.probabilitiesSparseValues.code) values) :
    ∀ c ∈ result.stateVec, c ≠ (0, 0) := by
  rw [deviceJobGetResults_body hget hst hi hres mem rfl
    (encodeResult_sparse (Or.inr (Or.inr (Or.inr rfl))) mem result)] at hvalues
  simp only [getResultsSparse_values hlen] at hvalues
  rcases retrieves_respond hvalues with ⟨_, cur, hwrite⟩
  rw [writeNorms_eq] at hwrite
  -- All norms have been written, so there was room for them.
  have hfits : result.stateVec.length * 8 ≤ result.stateVec.countP isNonzero * 8 := by
    by_contra hover
    rw [Cursor.puts_error _ _ (by
      rw [length_norms]
      simp only [Cursor.start, List.length_replicate]
      omega)] at hwrite
    exact absurd hwrite (by simp only [reduceCtorEq, not_false_eq_true])
  have hle : result.stateVec.countP isNonzero ≤ result.stateVec.length := List.countP_le_length
  have hall : result.stateVec.countP isNonzero = result.stateVec.length := by omega
  intro c hc
  exact (isNonzero_iff c).mp (List.countP_eq_length.mp hall c hc)

/-- The keys of a vector without zero amplitudes are retrieved only if no
    shift goes too far. -/
theorem sparseKeys_retrieves {s : DeviceState R} {h i n : Nat} {jb : DeviceJob R}
    {result : ResultData R} (hget : s.jobs.get? h = some jb) (hst : jb.status = .done)
    (hi : i < jb.programs.length) (hres : jb.results[i]? = some result)
    (hlen : result.stateVec.length = 2 ^ n) (hall : ∀ c ∈ result.stateVec, c ≠ (0, 0))
    {mem : Alloc} {keys : List UInt8} (hkeys : Retrieves
      (deviceJobGetResults s mem (some h) i JobResult.probabilitiesSparseKeys.code) keys) :
    n ≤ 32 := by
  rw [deviceJobGetResults_body hget hst hi hres mem rfl
    (encodeResult_sparse (Or.inr (Or.inr (Or.inl rfl))) mem result)] at hkeys
  simp only [getResultsSparse_keys (Or.inr rfl) hlen] at hkeys
  rcases retrieves_respond hkeys with ⟨_, cur, hwrite⟩
  by_contra hn
  have hne : result.stateVec ≠ [] := by
    intro hnil
    rw [hnil, List.length_nil] at hlen
    exact absurd hlen.symm (Nat.ne_of_gt (Nat.two_pow_pos n))
  rw [writeSparseKeys_shift (by omega) hne hall] at hwrite
  exact absurd hwrite (by simp only [reduceCtorEq, not_false_eq_true])

/-! ## Agreement -/

/-- The sparse probabilities describe the distribution the dense ones do
    exactly if no amplitude is zero and there are at most 32 qubits. -/
theorem sparseAgrees_iff (s : DeviceState R) (mem : Alloc) (h i n : Nat) (jb : DeviceJob R)
    (result : ResultData R) (hget : s.jobs.get? h = some jb) (hst : jb.status = .done)
    (hi : i < jb.programs.length) (hres : jb.results[i]? = some result)
    (hlen : result.stateVec.length = 2 ^ n) :
    SparseAgrees s mem h i result.stateVec ↔ (∀ c ∈ result.stateVec, c ≠ (0, 0)) ∧ n ≤ 32 := by
  constructor
  · rintro ⟨keys, values, dense, hkeys, hvalues, _, _⟩
    have hall := sparseValues_retrieves hget hst hi hres hlen hvalues
    exact ⟨hall, sparseKeys_retrieves hget hst hi hres hlen hall hkeys⟩
  · rintro ⟨hall, hn⟩
    -- Every amplitude is counted, so the sparse sizes are those of the loops.
    have hcount : result.stateVec.countP isNonzero = result.stateVec.length :=
      List.countP_eq_length.mpr (fun c hc => (isNonzero_iff c).mpr (hall c hc))
    have hpos : 0 < result.stateVec.length := by
      rw [hlen]
      exact Nat.two_pow_pos n
    have hnorms : result.stateVec.flatMap (fun c => DoubleRepr.bytes (cnorm c)) ≠ [] := by
      intro hnil
      have := length_norms result.stateVec
      rw [hnil, List.length_nil] at this
      omega
    have hkeys : sparseKeys result.stateVec n ≠ [] := by
      rw [sparseKeys_all hall, ne_eq, List.map_eq_nil_iff, List.range_eq_nil]
      omega
    have hmax : result.stateVec.length ≤ 2 ^ 32 := by
      rw [hlen]
      exact Nat.pow_le_pow_right (by decide) hn
    refine ⟨_, _, _, ?_, ?_, ?_, sameDistribution_all hlen⟩
    · rw [deviceJobGetResults_body hget hst hi hres mem rfl
        (encodeResult_sparse (Or.inr (Or.inr (Or.inl rfl))) mem result)]
      simp only [getResultsSparse_keys (Or.inr rfl) hlen]
      refine retrieves_of_answers (guarded_answers (respond_puts_answers ?_ ?_) rfl) ?_
      · rw [← sparseKeys_all hall, length_intercalate_sparseKeys hkeys]
      · intro buf ret
        rw [writeSparseKeys_eq hn hmax hkeys, sparseKeys_all hall]
      · simp only [ne_eq, List.append_eq_nil_iff, List.cons_ne_nil, and_false, not_false_eq_true]
    · rw [deviceJobGetResults_body hget hst hi hres mem rfl
        (encodeResult_sparse (Or.inr (Or.inr (Or.inr rfl))) mem result)]
      simp only [getResultsSparse_values hlen]
      refine retrieves_of_answers (guarded_answers (respond_puts_answers ?_ ?_) rfl) hnorms
      · rw [length_norms, hcount]
      · exact fun buf ret => writeNorms_eq _ _
    · rw [deviceJobGetResults_body hget hst hi hres mem rfl (encodeResult_dense mem result)]
      simp only [getResultsProbabilities]
      refine retrieves_of_answers (guarded_answers (respond_puts_answers ?_ ?_) rfl) hnorms
      · rw [length_norms]
      · exact fun buf ret => writeNorms_eq _ _

end

/-- What the first result of the first job looks like: the status of the job,
    its number of programs, the number of amplitudes and whether none is zero. -/
def firstResult (s : DeviceState ℚ) : Option (JobStatus × Nat × Nat × Bool) :=
  (s.jobs.get? 0).bind (fun jb => jb.results[0]?.map (fun result =>
    (jb.status, jb.programs.length, result.stateVec.length, result.stateVec.all isNonzero)))

theorem firstResult_eq {s : DeviceState ℚ} {v : JobStatus × Nat × Nat × Bool}
    (h : firstResult s = some v) : ∃ jb result, s.jobs.get? 0 = some jb ∧
      jb.results[0]? = some result ∧ jb.status = v.1 ∧ jb.programs.length = v.2.1 ∧
      result.stateVec.length = v.2.2.1 ∧ result.stateVec.all isNonzero = v.2.2.2 := by
  rcases Option.bind_eq_some_iff.mp h with ⟨jb, hget, hmap⟩
  rcases Option.map_eq_some_iff.mp hmap with ⟨result, hres, rfl⟩
  exact ⟨jb, result, hget, hres, rfl, rfl, rfl, rfl⟩

/-- A run whose amplitudes are all nonzero. -/
theorem sparseAgrees_sample : ∃ tr s jb, ∃ result : ResultData ℚ, DeviceRuns sampleImage tr s ∧
    s.jobs.get? 0 = some jb ∧ jb.status = .done ∧ jb.results[0]? = some result ∧
    SparseAgrees s (fun _ => true) 0 0 result.stateVec := by
  rcases deviceRuns_evaluated sampleEnv
    (sampleSetup ++ [.jobSubmit (some 0), .jobCheck (some 0) true]) firstResult
    (.done, 1, 32, true) (by decide +kernel) with ⟨tr, s, hrun, _, hv⟩
  rcases firstResult_eq hv with ⟨jb, result, hget, hres, hst, hprogs, hlen, hall⟩
  have hnonzero : ∀ c ∈ result.stateVec, c ≠ (0, 0) := by
    intro c hc
    exact (isNonzero_iff c).mp (List.all_eq_true.mp hall c hc)
  exact ⟨tr, s, jb, result, hrun, hget, hst, hres, (sparseAgrees_iff s (fun _ => true) 0 0 5 jb
    result hget hst (by rw [hprogs]; decide) hres hlen).mpr ⟨hnonzero, by decide⟩⟩

/-- A generator that yields zero for the first amplitude. -/
def darkEnv : Env ℚ := { sampleEnv with real := fun k => if k < 2 then 0 else 1 }

/-- A run whose first amplitude is zero: its sparse values cannot be retrieved
    with a buffer of the size they report. -/
theorem sparse_overflow : ∃ tr s jb, ∃ result : ResultData ℚ, DeviceRuns sampleImage tr s ∧
    s.jobs.get? 0 = some jb ∧ jb.status = .done ∧ jb.results[0]? = some result ∧
    result.stateVec.length = 2 ^ 5 ∧ ¬ SparseAgrees s (fun _ => true) 0 0 result.stateVec := by
  rcases deviceRuns_evaluated darkEnv
    (sampleSetup ++ [.jobSubmit (some 0), .jobCheck (some 0) true]) firstResult
    (.done, 1, 32, false) (by decide +kernel) with ⟨tr, s, hrun, _, hv⟩
  rcases firstResult_eq hv with ⟨jb, result, hget, hres, hst, hprogs, hlen, hall⟩
  refine ⟨tr, s, jb, result, hrun, hget, hst, hres, hlen, ?_⟩
  rintro ⟨keys, values, dense, _, hvalues, _⟩
  have hnonzero := sparseValues_retrieves hget hst (by rw [hprogs]; decide) hres
    (show result.stateVec.length = 2 ^ 5 from hlen) hvalues
  have htrue : result.stateVec.all isNonzero = true :=
    List.all_eq_true.mpr (fun c hc => (isNonzero_iff c).mpr (hnonzero c hc))
  rw [hall] at htrue
  exact absurd htrue (by decide)

end Qdmi
