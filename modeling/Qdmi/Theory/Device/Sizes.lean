import Qdmi.Theory.Device.Configure
import Qdmi.Theory.Device.Encoders
import Qdmi.Theory.Device.Reachable

/-!
# Every Query Against its Own Probe

The size protocol for all six kinds of size-reporting queries of the device, in
every reachable state.

The property queries are columns of macros, and the lemmas about macros settle
them whatever the property. The results are settled encoder by encoder; what a
reachable state adds is that the shots of a result have one length and that a
program is not empty.

Three things stay outside. `SizesClaimed` leaves out the sparse probability values
of a vector with a zero amplitude, whose loop writes more than it reported, and
the sparse keys of a vector without any other amplitude, whose loop has no
separator to replace. Such a vector is there only because the division here is exact:
where all the amplitudes drawn are zero, it gives zeros, and the one of the code gives
`NaN`, which is not zero. A histogram is built anew by each call, and a failed
allocation escapes as an exception, so the second call is given memory.

## Main definitions

* `SizesHold`, `SizesClaimed`: The queries the protocol is claimed for.

## Theorems

* `getResultsShots_answers`, `respondHist_answers`, `getResultsSparse_answers`:
  The encoders.
* `encodeResult_sizes`: The switch over the result kinds.
* `deviceQuery_sizes`: Every query of the device.
* `deviceRuns_sizes`: In every reachable state.
-/

namespace Qdmi

variable {R : Type}

/-! ## Property queries -/

theorem deviceSessionQueryDeviceProperty_answersOrFails (img : Image) (s : DeviceState R)
    (session : Option Nat) (prop : Nat) :
    AnswersOrFails (deviceSessionQueryDeviceProperty img s session prop) := by
  unfold deviceSessionQueryDeviceProperty
  rcases session with _ | h
  · exact answersOrFails_reject (by decide)
  refine guarded_answersOrFails ?_ _
  rcases s.sessions.get? h with _ | sess
  · exact answersOrFails_fault _
  refine answersOrFails_ite (fun _ => answersOrFails_reject (by decide)) (fun _ => ?_)
  -- One lemma for each macro of the column.
  refine addStringProperty_answersOrFails ?_
  refine addStringProperty_answersOrFails ?_
  refine addStringProperty_answersOrFails ?_
  refine addStringProperty_answersOrFails ?_
  refine addSingleValueProperty_answersOrFails ?_
  refine addSingleValueProperty_answersOrFails ?_
  refine addListProperty_answersOrFails ?_
  refine addListProperty_answersOrFails ?_
  refine addListProperty_answersOrFails ?_
  refine addStringProperty_answersOrFails ?_
  refine addSingleValueProperty_answersOrFails ?_
  refine addStringProperty_answersOrFails ?_
  refine addSingleValueProperty_answersOrFails ?_
  refine addListProperty_answersOrFails ?_
  exact answersOrFails_reject (by decide)

theorem deviceSessionQuerySiteProperty_answersOrFails (session site : Option Nat) (prop : Nat) :
    AnswersOrFails (deviceSessionQuerySiteProperty session site prop) := by
  unfold deviceSessionQuerySiteProperty
  rcases session with _ | h
  · exact answersOrFails_reject (by decide)
  rcases site with _ | i
  · exact answersOrFails_reject (by decide)
  refine guarded_answersOrFails ?_ _
  refine addSingleValueProperty_answersOrFails ?_
  refine addSingleValueProperty_answersOrFails ?_
  refine addSingleValueProperty_answersOrFails ?_
  refine addSingleValueProperty_answersOrFails ?_
  exact answersOrFails_reject (by decide)

theorem queryCxProperty_answersOrFails (img : Image) (args : OperationArgs) (prop : Nat) :
    AnswersOrFails (queryCxProperty img args prop) := by
  unfold queryCxProperty
  refine answersOrFails_ite (fun _ => answersOrFails_reject (by decide)) (fun _ => ?_)
  refine addSingleValueProperty_answersOrFails ?_
  refine addSingleValueProperty_answersOrFails ?_
  refine addListProperty_answersOrFails ?_
  rcases args.sites with _ | sites
  · refine addSingleValueProperty_answersOrFails ?_
    exact answersOrFails_reject (by decide)
  refine answersOrFails_ite (fun _ => answersOrFails_reject (by decide)) (fun _ => ?_)
  rcases operationFidelities .cx with _ | fidelities
  · exact answersOrFails_reject (by decide)
  dsimp only
  rcases fidelities.lookup (sites 0, sites 1) with _ | fidelity
  · exact answersOrFails_reject (by decide)
  · refine addSingleValueProperty_answersOrFails ?_
    exact answersOrFails_reject (by decide)

theorem queryRotationProperty_answersOrFails (img : Image) (args : OperationArgs) (prop : Nat) :
    AnswersOrFails (queryRotationProperty img args prop) := by
  unfold queryRotationProperty
  refine answersOrFails_ite (fun _ => answersOrFails_reject (by decide)) (fun _ => ?_)
  refine addSingleValueProperty_answersOrFails ?_
  refine addSingleValueProperty_answersOrFails ?_
  refine addSingleValueProperty_answersOrFails ?_
  refine addSingleValueProperty_answersOrFails ?_
  refine addListProperty_answersOrFails ?_
  exact answersOrFails_reject (by decide)

/-- The operation query makes its checks in another order. -/
theorem orDegenerate (a b d invalid : Bool) :
    (a || b || d || invalid) = (d || (a || b || invalid)) := by
  cases a <;> cases b <;> cases d <;> rfl

theorem deviceSessionQueryOperationProperty_answersOrFails (img : Image) (session : Option Nat)
    (operation : Option Operation) (args : OperationArgs) (prop : Nat) :
    AnswersOrFails (deviceSessionQueryOperationProperty img session operation args prop) := by
  unfold deviceSessionQueryOperationProperty
  rcases session with _ | h
  · exact answersOrFails_reject (by decide)
  rcases operation with _ | op
  · exact answersOrFails_reject (by decide)
  simp only [orDegenerate]
  refine guarded_answersOrFails ?_ _
  refine addStringProperty_answersOrFails ?_
  refine addSingleValueProperty_answersOrFails ?_
  cases op with
  | cx => exact queryCxProperty_answersOrFails img args prop
  | rx | ry | rz => exact queryRotationProperty_answersOrFails img args prop

theorem deviceJobQueryProperty_answersOrFails (s : DeviceState R) (job : Option Nat) (prop : Nat) :
    AnswersOrFails (deviceJobQueryProperty s job prop) := by
  unfold deviceJobQueryProperty
  rcases job with _ | h
  · exact answersOrFails_reject (by decide)
  refine guarded_answersOrFails ?_ _
  rcases s.jobs.get? h with _ | jb
  · exact answersOrFails_fault _
  refine addStringProperty_answersOrFails ?_
  refine answersOrFails_ite (fun _ => answersOrFails_reject (by decide)) (fun _ => ?_)
  refine addSingleValueProperty_answersOrFails ?_
  refine addSingleValueProperty_answersOrFails ?_
  refine answersOrFails_ite (fun _ => answersOrFails_reject (by decide)) (fun _ => ?_)
  refine addSingleValueProperty_answersOrFails ?_
  exact answersOrFails_reject (by decide)

/-! ## Results -/

/-- `respondEarly` differs from `respond` in what it reports to a caller whose
    buffer is too short, which the protocol does not say. -/
theorem respondEarly_answers {bytes : List UInt8} {need : Nat}
    {write : Cursor → Except Fault Cursor} (hneed : bytes.length = need)
    (hwrite : ∀ cur, write cur = cur.puts bytes) :
    Answers (fun out => respondEarly out need write) bytes := by
  have hq : Answers (fun out => respond out need ((fun _ => write) out)) bytes :=
    respond_puts_answers hneed (fun _ _ => hwrite _)
  refine ⟨hq.probe, fun buf ret hpos hle => ?_, fun buf ret hlt => ?_⟩
  · rcases hq.fits buf ret hpos hle with ⟨rest, hrest, hok⟩
    have hnlt : ¬ buf.length < need := by omega
    refine ⟨rest, hrest, ?_⟩
    rw [← hok]
    simp only [respondEarly, respond, if_neg hnlt]
  · subst hneed
    exact ⟨if ret then some bytes.length else none, by simp only [respondEarly, if_pos hlt,
      OutArgs.reported]⟩

/-- A query that has nothing to report. -/
theorem nothing_answers {q : OutArgs → Except Fault Reply}
    (hq : ∀ out, q out =
      .ok { status := .success, value := out.value, sizeRet := out.reported 0 }) :
    Answers q [] := by
  refine ⟨fun size ret => hq _, fun buf ret _ _ => ⟨buf, Nat.zero_add _, hq _⟩,
    fun buf ret hlt => ?_⟩
  exact absurd hlt (Nat.not_lt_zero _)

/-- All shots of a result have the width of the first one. -/
theorem shots_width {result : ResultData R} (hsound : ResultSound result) {s : List UInt8}
    (hs : s ∈ result.shots) : s.length = (result.shots.headD []).length := by
  rcases hsound.shots with ⟨n, shot, hshots⟩
  rw [hshots] at hs ⊢
  rcases n with _ | n
  · exact absurd hs List.not_mem_nil
  · rw [List.eq_of_mem_replicate hs, List.replicate_succ, List.headD_cons]

theorem getResultsShots_answers {result : ResultData R} (hsound : ResultSound result) :
    AnswersOrFails (getResultsShots result) := by
  rcases hlist : result.shots with _ | ⟨front, rest⟩
  · refine Or.inl ⟨[], nothing_answers (fun out => ?_)⟩
    simp only [getResultsShots, hlist]
  · refine Or.inl ⟨[comma].intercalate result.shots ++ [0], ?_⟩
    have hne : result.shots ≠ [] := by
      rw [hlist]
      exact List.cons_ne_nil _ _
    have hwidth : ∀ s ∈ result.shots, s.length = front.length := by
      intro s hs
      rw [shots_width hsound hs, hlist, List.headD_cons]
    have hbody : getResultsShots result = fun out =>
        respond out (result.shots.length * (front.length + 1)) (writeShots result.shots) := by
      funext out
      simp only [getResultsShots, hlist]
    rw [hbody]
    exact respond_puts_answers (length_intercalate comma 0 _ hne hwidth)
      (fun buf ret => writeShots_eq _ hne _)

theorem respondHist_answers {mem : Alloc} {result : ResultData R} (hsound : ResultSound result)
    {hist : List (List UInt8 × Nat)} (hhist : histogram mem 0 result.shots [] = .ok hist)
    (kind : Nat) : AnswersOrFails (respondHist result hist kind) := by
  have hkeys := histogram_keys hhist
  by_cases hkind : kind = JobResult.histKeys.code
  · by_cases hnil : hist = []
    · refine Or.inl ⟨[], nothing_answers (fun out => ?_)⟩
      rw [respondHist, if_pos hkind, if_pos hnil, hnil, List.length_nil, Nat.zero_mul]
    · have hwidth : ∀ s ∈ hist.map Prod.fst, s.length = (result.shots.headD []).length := by
        -- Every key of the histogram is one of the shots.
        intro s hs
        rcases hkeys s hs with hin | hin
        · exact shots_width hsound hin
        · exact absurd hin List.not_mem_nil
      have hne : hist.map Prod.fst ≠ [] := by simpa using hnil
      have hbody : respondHist result hist kind = fun out =>
          respondEarly out (hist.length * ((result.shots.headD []).length + 1))
            (writeHistKeys hist) := by
        funext out
        simp only [respondHist, if_pos hkind, if_neg hnil]
      rw [hbody]
      refine Or.inl ⟨_, respondEarly_answers ?_ (writeHistKeys_eq hist hnil)⟩
      rw [length_intercalate comma 0 _ hne hwidth, List.length_map]
  · have hbody : respondHist result hist kind = fun out =>
        respondEarly out (hist.length * 8) (writeHistValues hist) := by
      funext out
      simp only [respondHist, if_neg hkind]
    rw [hbody]
    exact Or.inl ⟨_, respondEarly_answers
      (length_flatMap_eq hist (fun _ _ => length_leBytes 8 _)) (writeHistValues_eq hist)⟩

section

variable [Zero R] [DecidableEq R] [Add R] [Mul R] [DoubleRepr R]

/-- The results the protocol is claimed for: the loop of the sparse
    probabilities is as long as its size, and the one of the keys writes a key. -/
def SizesHold (result : ResultData R) (kind : Nat) : Prop :=
  (kind = JobResult.probabilitiesSparseValues.code → ∀ c ∈ result.stateVec, c ≠ (0, 0)) ∧
  (kind = JobResult.statevectorSparseKeys.code ∨ kind = JobResult.probabilitiesSparseKeys.code →
    ∃ c ∈ result.stateVec, c ≠ (0, 0))

theorem getResultsSparse_answers {result : ResultData R} (hsound : ResultSound result) {kind : Nat}
    (hkind : kind = JobResult.statevectorSparseKeys.code ∨
      kind = JobResult.statevectorSparseValues.code ∨
      kind = JobResult.probabilitiesSparseKeys.code ∨
      kind = JobResult.probabilitiesSparseValues.code)
    (hhold : SizesHold result kind) : AnswersOrFails (getResultsSparse result kind) := by
  rcases hsound.stateVec with ⟨n, hn, hlen⟩
  by_cases hkeys : kind = JobResult.statevectorSparseKeys.code ∨
      kind = JobResult.probabilitiesSparseKeys.code
  · have hne : sparseKeys result.stateVec n ≠ [] := by
      rcases hhold.2 hkeys with ⟨c, hc, hnz⟩
      have hpos : 0 < result.stateVec.countP isNonzero :=
        List.countP_pos_iff.mpr ⟨c, hc, (isNonzero_iff c).mpr hnz⟩
      rw [← length_sparseKeys result.stateVec n] at hpos
      exact List.length_pos_iff.mp hpos
    have hmax : result.stateVec.length ≤ 2 ^ 32 := by
      rw [hlen]
      exact Nat.pow_le_pow_right (by omega) (by omega)
    rw [funext (getResultsSparse_keys hkeys hlen)]
    exact Or.inl ⟨_, respond_puts_answers (length_intercalate_sparseKeys hne)
      (fun buf ret => writeSparseKeys_eq (by omega) hmax hne _)⟩
  by_cases hamp : kind = JobResult.statevectorSparseValues.code
  · rw [hamp, funext (getResultsSparse_amplitudes hlen)]
    refine Or.inl ⟨_, respond_puts_answers ?_ (fun buf ret => writeSparseAmplitudes_eq _ _)⟩
    rw [length_flatMap_eq _ (fun c _ => length_amplitudeBytes c), ← List.countP_eq_length_filter]
    omega
  · have hvalues : kind = JobResult.probabilitiesSparseValues.code := by
      rcases hkind with h | h | h | h
      · exact absurd (Or.inl h) hkeys
      · exact absurd h hamp
      · exact absurd (Or.inr h) hkeys
      · exact h
    -- No amplitude is zero, so the unfiltered loop writes as many as were counted.
    have hcount : result.stateVec.countP isNonzero = result.stateVec.length :=
      List.countP_eq_length.mpr (fun c hc => (isNonzero_iff c).mpr (hhold.1 hvalues c hc))
    rw [hvalues, funext (getResultsSparse_values hlen), hcount]
    exact Or.inl ⟨_, respond_puts_answers (length_norms _) (fun buf ret => writeNorms_eq _ _)⟩

/-- The switch over the result kinds, called twice. The probe may fail to
    build a histogram; the second call is given memory. -/
theorem encodeResult_sizes {result : ResultData R} (hsound : ResultSound result) {kind : Nat}
    (hhold : SizesHold result kind) (mem : Alloc) {mem' : Alloc} (hmem : ∀ k, mem' k = true) :
    (∃ q, AnswersOrFails q ∧ (∀ out, encodeResult mem result kind out = (q out).map .ok) ∧
      ∀ out, encodeResult mem' result kind out = (q out).map .ok) ∨
    ∃ e, ∀ out, encodeResult mem result kind out = .ok (.error e) := by
  unfold encodeResult
  by_cases hshots : kind = JobResult.shots.code
  · simp only [if_pos hshots]
    exact Or.inl ⟨_, getResultsShots_answers hsound, fun _ => rfl, fun _ => rfl⟩
  by_cases hhist : kind = JobResult.histKeys.code ∨ kind = JobResult.histValues.code
  · simp only [if_neg hshots, if_pos hhist, getResultsHist]
    rcases hbuilt : histogram mem 0 result.shots [] with e | hist
    · exact Or.inr ⟨e, fun _ => rfl⟩
    -- With memory the histogram is the one that the probe has built.
    · rw [histogram_available hmem hbuilt]
      exact Or.inl ⟨_, respondHist_answers hsound hbuilt kind, fun _ => rfl, fun _ => rfl⟩
  by_cases hvec : kind = JobResult.statevectorDense.code
  · simp only [if_neg hshots, if_neg hhist, if_pos hvec]
    refine Or.inl ⟨_, Or.inl ⟨_, respond_puts_answers ?_ (fun _ _ => rfl)⟩,
      fun _ => rfl, fun _ => rfl⟩
    rw [length_flatMap_eq _ (fun c _ => length_amplitudeBytes c)]
    omega
  by_cases hsparse : kind = JobResult.statevectorSparseKeys.code ∨
      kind = JobResult.statevectorSparseValues.code ∨
      kind = JobResult.probabilitiesSparseKeys.code ∨
      kind = JobResult.probabilitiesSparseValues.code
  · simp only [if_neg hshots, if_neg hhist, if_neg hvec, if_pos hsparse]
    exact Or.inl ⟨_, getResultsSparse_answers hsound hsparse hhold, fun _ => rfl, fun _ => rfl⟩
  by_cases hdense : kind = JobResult.probabilitiesDense.code
  · simp only [if_neg hshots, if_neg hhist, if_neg hvec, if_neg hsparse, if_pos hdense]
    exact Or.inl ⟨_, Or.inl ⟨_, respond_puts_answers (length_norms _)
      (fun _ _ => writeNorms_eq _ _)⟩, fun _ => rfl, fun _ => rfl⟩
  · simp only [if_neg hshots, if_neg hhist, if_neg hvec, if_neg hsparse, if_neg hdense]
    exact Or.inl ⟨_, answersOrFails_reject (by decide), fun _ => rfl, fun _ => rfl⟩

/-! ## All queries -/

/-- The result queries the protocol is claimed for. -/
def SizesClaimed (s : DeviceState R) : Query → Prop
  | .jobResults (some h) i kind => ∀ jb result, s.jobs.get? h = some jb →
      jb.results[i]? = some result → SizesHold result kind
  | _ => True

/-- Retrieving a result: four checks, then the switch. -/
theorem deviceJobGetResults_sizes {s : DeviceState R} (hinv : DeviceInv s) {job : Option Nat}
    {i kind : Nat} (hclaimed : SizesClaimed s (.jobResults job i kind)) (mem : Alloc)
    {mem' : Alloc} (hmem : ∀ k, mem' k = true) :
    FollowsSizes (deviceJobGetResults s mem job i kind)
      (deviceJobGetResults s mem' job i kind) := by
  unfold deviceJobGetResults
  rcases job with _ | h
  · exact followsSizes_of_fails (fails_reject (by decide : Status.errorInvalidargument ≠ _))
      (fun _ => rfl) _
  rcases hget : s.jobs.get? h with _ | jb
  · simp only [hget]
    exact followsSizes_guarded (answersOrFails_fault _) (fun _ => rfl) (fun _ => rfl) _
  by_cases hrange : jb.programs.length ≤ i
  · simp only [hget, if_pos hrange]
    exact followsSizes_guarded (answersOrFails_reject (by decide : Status.errorOutofrange ≠ _))
      (fun _ => rfl) (fun _ => rfl) _
  by_cases hdone : jb.status ≠ .done
  · simp only [hget, if_neg hrange, if_pos hdone]
    exact followsSizes_guarded (answersOrFails_reject (by decide : Status.errorBadstate ≠ _))
      (fun _ => rfl) (fun _ => rfl) _
  rcases hres : jb.results[i]? with _ | result
  · simp only [hget, if_neg hrange, if_neg hdone, hres]
    exact followsSizes_guarded (answersOrFails_fault _) (fun _ => rfl) (fun _ => rfl) _
  · simp only [hget, if_neg hrange, if_neg hdone, hres]
    have hsound := (hinv h jb hget).results result (List.mem_of_getElem? hres)
    rcases encodeResult_sizes hsound (hclaimed jb result hget hres) mem hmem with
      ⟨q, hq, hprobe, hcall⟩ | ⟨e, he⟩
    · exact followsSizes_guarded hq hprobe hcall _
    · exact followsSizes_of_thrown he _

/-- A query about a foreign operation. Probing for its name throws. -/
theorem deviceSessionQueryForeignOperation_sizes (session : Option Nat) (args : OperationArgs)
    (prop : Nat) : FollowsSizes (deviceSessionQueryForeignOperation session args prop)
      (deviceSessionQueryForeignOperation session args prop) := by
  unfold deviceSessionQueryForeignOperation
  rcases session with _ | h
  · exact followsSizes_of_fails (fails_reject (by decide : Status.errorInvalidargument ≠ _))
      (fun _ => rfl) _
  simp only [orDegenerate]
  by_cases hname : prop = OperationProperty.name.code
  · simp only [if_pos hname]
    intro size reply n hp hsuccess _
    simp only [Option.isSome_none, Bool.or_true, if_true] at hp
    split at hp
    · rw [Except.ok.injEq, Except.ok.injEq] at hp
      rw [← hp] at hsuccess
      exact absurd hsuccess (by simp only [OutArgs.reject, reduceCtorEq, not_false_eq_true])
    · exact absurd hp (by simp only [Except.ok.injEq, reduceCtorEq, not_false_eq_true])
  · simp only [if_neg hname]
    refine followsSizes_guarded (addSingleValueProperty_answersOrFails ?_) (fun _ => rfl)
      (fun _ => rfl) _
    exact answersOrFails_reject (by decide)

/-- Every query of the device follows the size protocol. -/
theorem deviceQuery_sizes (img : Image) {s : DeviceState R} (hinv : DeviceInv s) {q : Query}
    (hclaimed : SizesClaimed s q) (mem : Alloc) {mem' : Alloc} (hmem : ∀ k, mem' k = true) :
    FollowsSizes (deviceQuery img s mem q) (deviceQuery img s mem' q) := by
  cases q with
  | jobProgram job i =>
      -- There is no guard here, but no stored program is empty.
      rcases job with _ | h
      · exact followsSizes_of_fails (fails_reject (by decide : Status.errorInvalidargument ≠ _))
          (fun _ => rfl) _
      rcases hget : s.jobs.get? h with _ | jb
      · refine followsSizes_of_fails (fails_fault .danglingHandle) (fun out => ?_) _
        simp only [deviceQuery, deviceJobGetProgram, hget]
      by_cases hnone : jb.programs = []
      · refine followsSizes_of_fails (fails_reject (by decide : Status.errorBadstate ≠ _))
          (fun out => ?_) _
        simp only [deviceQuery, deviceJobGetProgram, hget, if_pos hnone]
      rcases hprogram : jb.programs[i]? with _ | program
      · refine followsSizes_of_fails (fails_reject (by decide : Status.errorOutofrange ≠ _))
          (fun out => ?_) _
        simp only [deviceQuery, deviceJobGetProgram, hget, if_neg hnone, hprogram]
      · have hne := (hinv h jb hget).programs program (List.mem_of_getElem? hprogram)
        have hq := deviceJobGetProgram_answers hget hprogram
        exact followsSizes_of_answers hq (refusesEmpty_of_answers hq hne) (fun _ => rfl)
          (fun _ => rfl)
  | jobProperty job prop =>
      refine followsSizes_of_answersOrFails (deviceJobQueryProperty_answersOrFails s job prop) ?_
        (fun _ => rfl) (fun _ => rfl)
      rcases job with _ | h
      · exact fun _ => ⟨none, rfl⟩
      · exact fun _ => ⟨none, rfl⟩
  | jobResults job i kind => exact deviceJobGetResults_sizes hinv hclaimed mem hmem
  | deviceProperty session prop =>
      refine followsSizes_of_answersOrFails
        (deviceSessionQueryDeviceProperty_answersOrFails img s session prop) ?_
        (fun _ => rfl) (fun _ => rfl)
      rcases session with _ | h
      · exact fun _ => ⟨none, rfl⟩
      · exact fun _ => ⟨none, rfl⟩
  | siteProperty session site prop =>
      refine followsSizes_of_answersOrFails
        (deviceSessionQuerySiteProperty_answersOrFails session site prop) ?_
        (fun _ => rfl) (fun _ => rfl)
      rcases session with _ | h
      · exact fun _ => ⟨none, rfl⟩
      rcases site with _ | i
      · exact fun _ => ⟨none, rfl⟩
      · exact fun _ => ⟨none, rfl⟩
  | operationProperty session operation args prop =>
      refine followsSizes_of_answersOrFails
        (deviceSessionQueryOperationProperty_answersOrFails img session operation args prop) ?_
        (fun _ => rfl) (fun _ => rfl)
      rcases session with _ | h
      · exact fun _ => ⟨none, rfl⟩
      rcases operation with _ | op
      · exact fun _ => ⟨none, rfl⟩
      · refine fun _ => ⟨none, ?_⟩
        simp only [deviceSessionQueryOperationProperty, orDegenerate]
        rfl
  | foreignOperation session args prop =>
      exact deviceSessionQueryForeignOperation_sizes session args prop

/-- In every reachable state every query follows the size protocol. -/
theorem deviceRuns_sizes [Div R] {img : Image} {tr : List (DeviceEntry R)} {s : DeviceState R}
    (hrun : DeviceRuns img tr s) {q : Query} (hclaimed : SizesClaimed s q) (mem : Alloc)
    {mem' : Alloc} (hmem : ∀ k, mem' k = true) :
    FollowsSizes (deviceQuery img s mem q) (deviceQuery img s mem' q) :=
  deviceQuery_sizes img (deviceRuns_inv hrun) hclaimed mem hmem

end

end Qdmi
