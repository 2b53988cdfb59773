import Mathlib.Data.List.Forall2
import Mathlib.Logic.Equiv.Defs
import Qdmi.Theory.Device.Atomicity

/-!
# Which Program a Result Belongs To

The result at an index belongs to the program at that index, and its shots are
a function of the format and the bytes of that program.

The loop of a submission is followed once, in `prepareResults_shots`, as a
relation between the list of programs and the list of results. That the
amplitudes use up values of one generator does not show in it, since the shots
use none. For a job of several programs `submits_shotsAt` turns the relation
into an equation: the shots at an index are computed by `programShot` from the
program there. Everything that compares two submissions, of other programs, in
another state or with other random values, is a rewriting with this equation.

## Main definitions

* `ShotsOf`: The shots a result has for a program.
* `Submits`: A submission succeeds and leaves results behind.
* `programShot`: The bitstring of a program of several.
* `shotsAt`: The shots at an index.

## Theorems

* `prepareResult_shots`, `prepareResults_shots`: Program by program.
* `submitQubits_cases`: The numbers of qubits a submission can find.
* `submits_forall₂`: A successful submission, program by program.
* `submits_shotsAt`: The shots of a job of several programs.
* `submit_shots`: The shots of a successful submission, and of two.
-/

namespace Qdmi

variable {R : Type}

/-! ## Program by program -/

/-- The shots a result has for a program: as many as the job asks for, all of
    them the output the program selects. -/
def ShotsOf (jb : DeviceJob R) (numQubits : Nat) (program : List UInt8) (result : ResultData R) :
    Prop :=
  ∃ index shot, outputIndex jb program = .ok index ∧ paddedShot numQubits index = .ok shot ∧
    result.shots = List.replicate jb.numShots shot

section

variable [Zero R] [Add R] [Mul R] [Div R] [DoubleRepr R]

theorem prepareResult_shots {env : Env R} {jb : DeviceJob R} {n i : Nat} {program : List UInt8}
    {result : ResultData R} (h : prepareResult env jb n i program = .ok result) :
    ShotsOf jb n program result := by
  unfold prepareResult at h
  rcases bind_eq_ok h with ⟨index, hindex, h₁⟩
  rcases bind_eq_ok h₁ with ⟨shot, hshot, h₂⟩
  split at h₂
  · exact absurd h₂ (by simp only [reduceCtorEq, not_false_eq_true])
  split at h₂
  · exact absurd h₂ (by simp only [reduceCtorEq, not_false_eq_true])
  split at h₂
  · exact absurd h₂ (by simp only [reduceCtorEq, not_false_eq_true])
  · refine ⟨index, shot, hindex, hshot, ?_⟩
    rw [← Except.ok.inj h₂]

/-- The results stand in the order of their programs. The induction is on the
    programs still to come. -/
theorem prepareResults_shots {env : Env R} {jb : DeviceJob R} {n : Nat}
    (programs : List (List UInt8)) : ∀ (i : Nat) (results : List (ResultData R)),
      (prepareResults env jb n i programs).1 = .ok results →
        List.Forall₂ (ShotsOf jb n) programs results := by
  induction programs with
  | nil =>
      intro i results h
      simp only [prepareResults, Except.ok.injEq] at h
      rw [← h]
      exact List.Forall₂.nil
  | cons program rest ih =>
      intro i results h
      rw [prepareResults] at h
      rcases hone : prepareResult env jb n i program with e | result
      · rw [hone] at h
        exact absurd h (by simp only [reduceCtorEq, not_false_eq_true])
      · rw [hone] at h
        -- The rest of the loop succeeds, and its results follow this one.
        rcases map_eq_ok h with ⟨tail, htail, hcons⟩
        rw [← hcons]
        exact List.Forall₂.cons (prepareResult_shots hone) (ih (i + 1) tail htail)

theorem submitResults_shots {env : Env R} {jb : DeviceJob R} {n : Nat}
    {results : List (ResultData R)} (h : (submitResults env jb n).1 = .ok results) :
    List.Forall₂ (ShotsOf jb n) jb.programs results := by
  unfold submitResults at h
  split at h
  · exact absurd h (by simp only [reduceCtorEq, not_false_eq_true])
  · split at h
    · exact absurd h (by simp only [reduceCtorEq, not_false_eq_true])
    · exact prepareResults_shots jb.programs 0 results h

end

/-! ## The number of qubits -/

/-- A session that is not initialized is asked in vain, and the number stays
    zero. -/
theorem submitQubits_cases {img : Image} {s : DeviceState R} {i n : Nat}
    (h : submitQubits img s i = .ok n) : n = 5 ∨ n = 0 := by
  rcases hget : s.sessions.get? i with _ | sess
  · rw [submitQubits_dead img hget] at h
    exact absurd h (by simp only [reduceCtorEq, not_false_eq_true])
  by_cases hst : sess.status = .initialized
  · rw [submitQubits_initialized img hget hst, Except.ok.injEq] at h
    exact Or.inl h.symm
  · have hquery : deviceSessionQueryDeviceProperty img s (some i) DeviceProperty.qubitsnum.code
        qubitsArgs = .ok (qubitsArgs.reject .errorBadstate) := by
      simp [deviceSessionQueryDeviceProperty, hget, hst, qubitsArgs, OutArgs.degenerate,
        isInvalidEnumValue, DeviceProperty.code, DeviceProperty.max]
    rw [qubitsArgs] at hquery
    rw [submitQubits, hquery] at h
    exact Or.inr (Except.ok.inj h).symm

/-- On no qubits the pad wraps around and is too long for a string. -/
theorem paddedShot_zero (index : Nat) (shot : List UInt8) : paddedShot 0 index ≠ .ok shot := by
  unfold paddedShot
  split
  · simp only [ne_eq, reduceCtorEq, not_false_eq_true]
  · rename_i output hget
    have houtputs : ∀ output ∈ shotOutputs, output.length = 2 := by decide
    have hlen := houtputs output (List.mem_of_getElem? hget)
    have hlong : vectorMaxSize 1 < 2 + (0 + sizeTMod - 2) % sizeTMod := by decide
    simp only [hlen, if_pos hlong, ne_eq, reduceCtorEq, not_false_eq_true]

/-- A bitstring for five qubits. -/
theorem paddedShot_bits {index : Nat} {shot : List UInt8} (h : paddedShot 5 index = .ok shot) :
    shot.length = 5 ∧ ∀ c ∈ shot, c = 48 ∨ c = 49 := by
  unfold paddedShot at h
  split at h
  · exact absurd h (by simp only [reduceCtorEq, not_false_eq_true])
  rename_i output hget
  have houtputs : ∀ output ∈ shotOutputs,
      output.length = 2 ∧ output.all (fun c => c == 48 || c == 49) = true := by decide
  rcases houtputs output (List.mem_of_getElem? hget) with ⟨hlen, hbits⟩
  simp only [List.all_eq_true, Bool.or_eq_true, beq_iff_eq] at hbits
  have hpad : (5 + sizeTMod - 2) % sizeTMod = 3 := by decide
  simp only [hlen, hpad] at h
  split at h
  · exact absurd h (by simp only [reduceCtorEq, not_false_eq_true])
  · rw [← Except.ok.inj h, List.length_append, List.length_replicate, hlen]
    refine ⟨rfl, fun c hc => ?_⟩
    rcases List.mem_append.mp hc with hc | hc
    · exact Or.inl (List.eq_of_mem_replicate hc)
    · exact hbits c hc

/-! ## Submissions -/

section

variable [Zero R] [Add R] [Mul R] [Div R] [DoubleRepr R]

/-- A submission of a job succeeds and leaves results behind. -/
structure Submits (img : Image) (s : DeviceState R) (env : Env R) (h : Nat) (jb : DeviceJob R)
    (results : List (ResultData R)) : Prop where
  job : s.jobs.get? h = some jb
  call : ∃ out s' jb', deviceJobSubmit img s env (some h) = .ok (out, s') ∧ Succeeds out ∧
    s'.jobs.get? h = some jb' ∧ jb'.results = results

/-- A successful submission found five qubits and has a result for each
    program. -/
theorem submits_forall₂ {img : Image} {s : DeviceState R} {env : Env R} {h : Nat}
    {jb : DeviceJob R} {results : List (ResultData R)} (hsub : Submits img s env h jb results) :
    submitQubits img s jb.session = .ok 5 ∧ List.Forall₂ (ShotsOf jb 5) jb.programs results := by
  rcases hsub.call with ⟨out, s', jb', hcall, hsucc, hget', hres⟩
  rcases deviceJobSubmit_cases hcall with
    ⟨_, hfail⟩ | ⟨i, jb₀, n, results₀, hi, hget, _, hne, hqubits, _, hrun, _, hs⟩
  · exact absurd hsucc hfail
  rw [Option.some.injEq] at hi
  subst hi
  rw [hs, Heap.get?_set _ _ _ _ hget, if_pos rfl, Option.some.injEq] at hget'
  rw [← hget'] at hres
  rw [hsub.job, Option.some.injEq] at hget
  subst hget
  have hres' : results₀ = results := hres
  rw [hres'] at hrun
  have hall := submitResults_shots hrun
  rcases submitQubits_cases hqubits with hfive | hzero
  · rw [hfive] at hqubits hall
    exact ⟨hqubits, hall⟩
  · -- On no qubits already the first program would have failed.
    rw [hzero] at hall
    rcases hprogs : jb.programs with _ | ⟨program, rest⟩
    · exact absurd hprogs hne
    · rw [hprogs] at hall
      cases hall with
      | cons hfirst _ =>
          rcases hfirst with ⟨index, shot, _, hshot, _⟩
          exact absurd hshot (paddedShot_zero index shot)

/-- The bitstring of a program of several, from its format and its bytes. -/
def programShot (format : Nat) (program : List UInt8) : Except Exn (List UInt8) := do
  let index ← markerIndex format program
  paddedShot 5 index

/-- The shots at an index. -/
def shotsAt (results : List (ResultData R)) (k : Nat) : Option (List (List UInt8)) :=
  results[k]?.map (fun result => result.shots)

/-- In a job of several programs the shots at an index are those of the program
    there. -/
theorem submits_shotsAt {img : Image} {s : DeviceState R} {env : Env R} {h : Nat}
    {jb : DeviceJob R} {results : List (ResultData R)} (hsub : Submits img s env h jb results)
    (hseveral : 1 < jb.programs.length) (k : Nat) :
    shotsAt results k = jb.programs[k]?.bind (fun program =>
      (programShot jb.format program).toOption.map (List.replicate jb.numShots)) := by
  have hall := (submits_forall₂ hsub).2
  by_cases hk : k < jb.programs.length
  · have hk' : k < results.length := by
      rw [← hall.length_eq]
      exact hk
    rcases hall.get hk hk' with ⟨index, shot, hindex, hshot, hshots⟩
    -- With several programs the index depends on the program alone.
    rw [outputIndex, if_pos hseveral] at hindex
    have hprogram : programShot jb.format (jb.programs.get ⟨k, hk⟩) = .ok shot := by
      rw [programShot, hindex]
      exact hshot
    rw [shotsAt, List.getElem?_eq_getElem hk', List.getElem?_eq_getElem hk, Option.map_some,
      Option.bind_some]
    rw [List.get_eq_getElem] at hprogram hshots
    rw [hprogram, hshots]
    rfl
  · have hk' : results.length ≤ k := by
      rw [← hall.length_eq]
      exact Nat.le_of_not_lt hk
    rw [shotsAt, List.getElem?_eq_none hk', List.getElem?_eq_none (Nat.le_of_not_lt hk)]
    rfl

/-- The results of a successful submission belong to the programs in order, and
    each has the shots asked for, every one a bitstring of the device's qubits.
    With several programs the shots at an index are computed from the program
    there, so that a permutation of the programs permutes the shots and another
    program at one index leaves those at the others alone. -/
theorem submit_shots (img : Image) (s : DeviceState R) (env : Env R) (h : Nat) (jb : DeviceJob R)
    (results : List (ResultData R)) (hsub : Submits img s env h jb results) :
    results.length = jb.programs.length ∧
    (∃ numQubits, submitQubits img s jb.session = .ok numQubits ∧
      ∀ result ∈ results, result.shots.length = jb.numShots ∧
        ∀ shot ∈ result.shots, shot.length = numQubits ∧ ∀ c ∈ shot, c = 48 ∨ c = 49) ∧
    (1 < jb.programs.length →
      (∀ k program, jb.programs[k]? = some program → ∃ shot,
        programShot jb.format program = .ok shot ∧
        shotsAt results k = some (List.replicate jb.numShots shot)) ∧
      ∀ (img' : Image) (s' : DeviceState R) (env' : Env R) h' jb' results',
        Submits img' s' env' h' jb' results' → jb'.format = jb.format →
        jb'.numShots = jb.numShots →
        (∀ perm : Equiv.Perm (Fin jb.programs.length),
          jb'.programs = List.ofFn (fun k => jb.programs.get (perm k)) →
          ∀ k, shotsAt results' (k : Fin jb.programs.length) = shotsAt results (perm k)) ∧
        ∀ j program, jb'.programs = jb.programs.set j program →
          ∀ k, k ≠ j → shotsAt results' k = shotsAt results k) := by
  rcases submits_forall₂ hsub with ⟨hqubits, hall⟩
  refine ⟨hall.length_eq.symm, ⟨5, hqubits, fun result hr => ?_⟩, fun hseveral => ⟨?_, ?_⟩⟩
  · rcases List.mem_iff_get.mp hr with ⟨k, hk⟩
    have hk' : k.val < jb.programs.length := by
      rw [hall.length_eq]
      exact k.isLt
    rcases hall.get hk' k.isLt with ⟨index, shot, _, hshot, hshots⟩
    rw [Fin.eta, hk] at hshots
    rw [hshots, List.length_replicate]
    refine ⟨rfl, fun shot' hshot' => ?_⟩
    rw [List.eq_of_mem_replicate hshot']
    exact paddedShot_bits hshot
  · intro k program hprogram
    have hk : k < jb.programs.length := List.getElem?_eq_some_iff.mp hprogram |>.1
    have hk' : k < results.length := by
      rw [← hall.length_eq]
      exact hk
    have hat := submits_shotsAt hsub hseveral k
    rw [hprogram, Option.bind_some] at hat
    rcases hshot : programShot jb.format program with e | shot
    · rw [hshot, shotsAt, List.getElem?_eq_getElem hk'] at hat
      exact absurd hat (by simp only [Option.map_some, Except.toOption, Option.map_none,
        reduceCtorEq, not_false_eq_true])
    · rw [hshot] at hat
      exact ⟨shot, rfl, hat⟩
  · intro img' s' env' h' jb' results' hsub' hformat hnum
    -- The shots of both submissions are the same function of their programs.
    have hsame : 1 < jb'.programs.length → ∀ k i, jb'.programs[k]? = jb.programs[i]? →
        shotsAt results' k = shotsAt results i := by
      intro hseveral' k i hki
      rw [submits_shotsAt hsub' hseveral', submits_shotsAt hsub hseveral, hki, hformat, hnum]
    refine ⟨fun perm hperm k => ?_, fun j program hset k hk => ?_⟩
    · refine hsame ?_ k (perm k) ?_
      · rw [hperm, List.length_ofFn]
        exact hseveral
      · rw [hperm, List.getElem?_ofFn, dif_pos k.isLt]
        exact (List.getElem?_eq_getElem (perm k).isLt).symm
    · refine hsame ?_ k k ?_
      · rw [hset, List.length_set]
        exact hseveral
      · rw [hset, List.getElem?_set_ne (Ne.symm hk)]

end

/-- A job for one shot of some text programs. -/
def pairJob (programs : List (List UInt8)) : DeviceJob ℚ where
  session := 0
  format := ProgramFormat.qasm2.code
  programs := programs
  status := .created
  numShots := 1

/-- A state with this job and an initialized session. -/
def pairState (programs : List (List UInt8)) : DeviceState ℚ where
  sessions := Heap.alloc {} { token := [116], status := .initialized }
  jobs := Heap.alloc {} (pairJob programs)

theorem pairState_submits (programs : List (List UInt8))
    (hprogs : programs = [[120, 0], [121, 122, 0]] ∨ programs = [[121, 122, 0], [120, 0]]) :
    ∃ results, Submits sampleImage (pairState programs) sampleEnv 0 (pairJob programs) results := by
  have hne : programs ≠ [] := by
    rcases hprogs with h | h
    · rw [h]
      exact List.cons_ne_nil _ _
    · rw [h]
      exact List.cons_ne_nil _ _
  have hfit : Submittable (pairJob programs) := by
    rcases hprogs with h | h
    · rw [h]
      exact ⟨by decide, by decide, by decide⟩
    · rw [h]
      exact ⟨by decide, by decide, by decide⟩
  have hget : (pairState programs).jobs.get? 0 = some (pairJob programs) := rfl
  -- Nothing can fail, so the submission succeeds and has its results.
  have hsubmit : ∃ s', deviceJobSubmit sampleImage (pairState programs) sampleEnv (some 0) =
      answer .success s' :=
    deviceJobSubmit_succeeds hget rfl hne rfl rfl hfit (fun _ => rfl)
  rcases hsubmit with ⟨s', hcall⟩
  rcases deviceJobSubmit_cases hcall with
    ⟨_, hfail⟩ | ⟨i, jb, _, results, hi, hget', _, _, _, _, _, hsucc, hs⟩
  · exact absurd (succeeds_answer.mpr rfl) hfail
  · rw [Option.some.injEq] at hi
    subst hi
    refine ⟨results, hget, _, s', { jb with results := results, status := .running }, hcall, hsucc,
      ?_, rfl⟩
    rw [hs, Heap.get?_set _ _ _ _ hget', if_pos rfl]

/-- Two programs submitted in either order swap their shots. -/
theorem submit_shots_sample : ∃ results results',
    Submits sampleImage (pairState [[120, 0], [121, 122, 0]]) sampleEnv 0
      (pairJob [[120, 0], [121, 122, 0]]) results ∧
    Submits sampleImage (pairState [[121, 122, 0], [120, 0]]) sampleEnv 0
      (pairJob [[121, 122, 0], [120, 0]]) results' ∧
    shotsAt results' 0 = shotsAt results 1 ∧ shotsAt results' 1 = shotsAt results 0 := by
  rcases pairState_submits _ (Or.inl rfl) with ⟨results, hsub⟩
  rcases pairState_submits _ (Or.inr rfl) with ⟨results', hsub'⟩
  have hperm := (((submit_shots sampleImage _ sampleEnv 0 _ results hsub).2.2 (by decide)).2
    sampleImage _ sampleEnv 0 _ results' hsub' rfl rfl).1
      (Equiv.swap ⟨0, by decide⟩ ⟨1, by decide⟩) (by decide)
  exact ⟨results, results', hsub, hsub', hperm ⟨0, by decide⟩, hperm ⟨1, by decide⟩⟩

end Qdmi
