import Qdmi.Theory.Device.Atomicity

/-!
# How a Submission Ends

A submission of a configured job of a live session has three ways to fail, and
all of them are about memory.

The result of the query for the number of qubits is used whatever its status,
every program is read at an index counted from its end, and a pad is computed
by a subtraction without a sign. None of this goes wrong in a reachable state:
the session of a job is initialized, and what `set_programs` stored is neither
empty nor longer than a vector can be. The first is `deviceRuns_inv`, the
second needs `deviceRuns_stored`, which follows the stored programs through a
run.

What is left are the containers. An allocation can fail, and the shots of a
program can be more than a vector of strings can hold. A result is twice as large
as the vector that holds a program, so the length of the vector of results is
checked as well. Programs that are in the memory of a process are far too few to
fail there.

## Main definitions

* `Stored`: What holds of the programs of a job.
* `InMemory`: The programs of a job are in the memory of a process.
* `SubmissionFailure`: The ways the `try` block of a submission fails.
* `SubmitsSafely`: What a submission does on the way, and how it ends.

## Theorems

* `deviceStep_stored`, `deviceRuns_stored`: The stored programs of a reachable
  state.
* `prepareResult_error`, `prepareResults_error`, `submitResults_error`: The
  errors of a submission.
* `deviceJobSubmit_safe`: A submission of a reachable job ends as described.
-/

namespace Qdmi

variable {R : Type}

/-! ## The stored programs -/

/-- A program that was stored fits into a vector and is not empty. -/
def Stored (jb : DeviceJob R) : Prop :=
  ∀ program ∈ jb.programs, program ≠ [] ∧ program.length ≤ vectorMaxSize 1

theorem stored_nil {jb : DeviceJob R} (h : jb.programs = []) : Stored jb := by
  intro program hp
  rw [h] at hp
  exact absurd hp List.not_mem_nil

/-- What the copying loop copies can be stored. -/
theorem copyPrograms_stored {env : Env R} {format count : Nat} {sizes : Nat → Nat}
    {programs : Nat → Option (Nat → UInt8)} {newPrograms : List (List UInt8)} {jb : DeviceJob R}
    (h : copyPrograms env format count sizes programs = .ok newPrograms)
    (hjb : jb.programs = newPrograms) : Stored jb := by
  intro program hp
  rw [hjb] at hp
  refine ⟨copyPrograms_ne_nil h program hp, ?_⟩
  rcases copyPrograms_eq_ok_iff.mp h with ⟨⟨_, _, hall⟩, hnew⟩
  rw [hnew, List.mem_map] at hp
  rcases hp with ⟨i, hi, rfl⟩
  rw [programBytes, length_readBytes]
  exact (hall i (List.mem_range.mp hi)).2.1

/-- The addresses of a process: 57 bits, with five levels of page tables. -/
def addressSpace : Nat := 2 ^ 57

/-- The stored programs and the vectors that hold them, of 24 bytes each, have
    addresses. -/
def InMemory (jb : DeviceJob R) : Prop :=
  24 * jb.programs.length + (jb.programs.map List.length).sum ≤ addressSpace

/-- A vector can hold the results of programs that are in memory. -/
theorem results_fit {jb : DeviceJob R} (h : InMemory jb) :
    jb.programs.length ≤ vectorMaxSize 48 := by
  have hspace : addressSpace ≤ 24 * vectorMaxSize 48 := by decide
  rw [InMemory] at h
  omega

section

variable [Zero R] [DecidableEq R] [Add R] [Mul R] [Div R] [DoubleRepr R]

/-- Every call stores programs that can be stored. Only `set_programs` stores
    any. -/
theorem deviceStep_stored {img : Image} {s s' : DeviceState R} {c : Call R}
    {out : Except Exn Reply} (hstep : deviceStep img s c = .ok (out, s'))
    (hinv : ∀ h jb, s.jobs.get? h = some jb → Stored jb) :
    ∀ h jb, s'.jobs.get? h = some jb → Stored jb := by
  intro h jb' hget'
  rcases deviceStep_job hstep h with ⟨m, hm⟩
  by_cases hset : m = .setPrograms
  · -- The programs are the ones the copying loop has accepted.
    rcases hm.explains.setsPrograms hset with ⟨format, count, sizes, programs, hop⟩
    rcases c with ⟨op, env⟩
    dsimp only at hop
    subst hop
    have hcall : deviceJobSetPrograms s env (some h) format count sizes programs = .ok (out, s') :=
      hstep
    rcases deviceJobSetPrograms_cases hcall with
      ⟨hs, _⟩ | ⟨i, jb, szs, progs, newPrograms, hi, _, _, hget, _, _, _, hcopy, _, hs⟩
    · rw [sameButGen_jobs hs] at hget'
      exact hinv h jb' hget'
    · rw [Option.some.injEq] at hi
      subst hi
      rw [hs, Heap.get?_set _ _ _ _ hget, if_pos rfl, Option.some.injEq] at hget'
      rw [← hget']
      exact copyPrograms_stored hcopy rfl
  by_cases hcreate : m = .create
  · -- A new job has no programs.
    have hmove := hm.step
    rw [hcreate, hget'] at hmove
    generalize s.jobs.get? h = job at hmove
    cases hmove
    exact stored_nil rfl
  · rcases jobStep_programs hm.step hset hcreate hget' with ⟨jb, hget, _, hprogs⟩
    intro program hp
    rw [hprogs] at hp
    exact hinv h jb hget program hp

/-- The programs of every job of a reachable state can be stored. -/
theorem deviceRuns_stored {img : Image} {s : DeviceState R} {tr : List (DeviceEntry R)}
    (hrun : DeviceRuns img tr s) {h : Nat} {jb : DeviceJob R} (hget : s.jobs.get? h = some jb) :
    Stored jb := by
  refine runs_invariant (C := fun _ _ => True)
    (P := fun _ s => ∀ h jb, s.jobs.get? h = some jb → Stored jb) hrun (fun _ _ => trivial)
    ?_ ?_ h jb hget
  · intro h jb hjb
    exact absurd hjb (by simp only [Heap.get?_empty, reduceCtorEq, not_false_eq_true])
  · intro _ t c out u _ _ hinv _ hstep
    exact deviceStep_stored hstep hinv

end

/-! ## The errors -/

/-- The ways the `try` block of a submission fails: one of its allocations
    does, or the shots are more than their container can hold. -/
def SubmissionFailure (env : Env R) (jb : DeviceJob R) (e : Exn) : Prop :=
  (e = .badAlloc ∧ ∃ k ≤ 2 * jb.programs.length, env.mem k = false) ∨
    (e = .lengthError ∧ vectorMaxSize 32 < jb.numShots)

section

variable [Zero R] [Add R] [Mul R] [Div R] [DoubleRepr R]

/-- A turn fails over its memory or over the number of shots. -/
theorem prepareResult_error {env : Env R} {jb : DeviceJob R} {i : Nat} {program : List UInt8}
    {e : Exn} (hne : program ≠ []) (hlen : program.length ≤ vectorMaxSize 1)
    (h : prepareResult env jb 5 i program = .error e) :
    (e = .badAlloc ∧ ∃ k ≤ 2 * i + 2, env.mem k = false) ∨
      (e = .lengthError ∧ vectorMaxSize 32 < jb.numShots) := by
  rcases outputIndex_succeeds jb hne hlen with ⟨index, hlt, hindex⟩
  rcases paddedShot_succeeds hlt with ⟨shot, hshot⟩
  simp only [prepareResult, hindex, hshot, bind, Except.bind] at h
  split at h
  · rename_i hshots
    exact Or.inr ⟨(Except.error.inj h).symm, hshots⟩
  split at h
  · rename_i hmem
    exact Or.inl ⟨(Except.error.inj h).symm, 2 * i + 1, by omega, hmem.2⟩
  split at h
  · rename_i hmem
    exact Or.inl ⟨(Except.error.inj h).symm, 2 * i + 2, by omega, hmem⟩
  · exact absurd h (by simp only [reduceCtorEq, not_false_eq_true])

/-- The loop fails as one of its turns does. The induction is on the programs
    still to come. -/
theorem prepareResults_error {env : Env R} {jb : DeviceJob R} {e : Exn}
    (programs : List (List UInt8))
    (hprogs : ∀ program ∈ programs, program ≠ [] ∧ program.length ≤ vectorMaxSize 1) :
    ∀ i, (prepareResults env jb 5 i programs).1 = .error e →
      (e = .badAlloc ∧ ∃ k ≤ 2 * (i + programs.length), env.mem k = false) ∨
        (e = .lengthError ∧ vectorMaxSize 32 < jb.numShots) := by
  induction programs with
  | nil =>
      intro i h
      exact absurd h (by simp only [prepareResults, reduceCtorEq, not_false_eq_true])
  | cons program rest ih =>
      intro i h
      have hhead := hprogs program List.mem_cons_self
      rw [prepareResults] at h
      rcases hone : prepareResult env jb 5 i program with d | result
      · rw [hone] at h
        have hd : d = e := Except.error.inj h
        rw [hd] at hone
        -- A turn allocates twice, so its place is within twice the number of turns.
        rcases prepareResult_error hhead.1 hhead.2 hone with ⟨he, k, hk, hmem⟩ | hshots
        · refine Or.inl ⟨he, k, ?_, hmem⟩
          rw [List.length_cons]
          omega
        · exact Or.inr hshots
      · rw [hone] at h
        rcases htail : (prepareResults env jb 5 (i + 1) rest).1 with d | tail
        · simp only [htail, Except.map, Except.error.injEq] at h
          rw [h] at htail
          rcases ih (fun p hp => hprogs p (List.mem_cons_of_mem _ hp)) (i + 1) htail with
            ⟨he, k, hk, hmem⟩ | hshots
          · refine Or.inl ⟨he, k, ?_, hmem⟩
            rw [List.length_cons]
            omega
          · exact Or.inr hshots
        · simp only [htail, Except.map, reduceCtorEq] at h

theorem submitResults_error {env : Env R} {jb : DeviceJob R} {e : Exn} (hstored : Stored jb)
    (hspace : InMemory jb) (h : (submitResults env jb 5).1 = .error e) :
    SubmissionFailure env jb e := by
  have hfits := results_fit hspace
  unfold submitResults at h
  split at h
  · rename_i hlong
    omega
  split at h
  · rename_i hmem
    exact Or.inl ⟨(Except.error.inj h).symm, 0, Nat.zero_le _, hmem⟩
  · rcases prepareResults_error jb.programs hstored 0 h with ⟨he, k, hk, hmem⟩ | ⟨he, hshots⟩
    · exact Or.inl ⟨he, k, by omega, hmem⟩
    · exact Or.inr ⟨he, hshots⟩

/-! ## Submission -/

/-- What a submission does on the way, and how it ends: its query succeeds, the
    marker of each program is its last byte or the one before, no pad is
    negative, and the call succeeds unless an allocation fails or the shots do not fit
    into their vector. -/
structure SubmitsSafely (img : Image) (s : DeviceState R) (env : Env R) (h : Nat)
    (jb : DeviceJob R) : Prop where
  query : deviceSessionQueryDeviceProperty img s (some jb.session) DeviceProperty.qubitsnum.code
    qubitsArgs = .ok { status := .success, value := some (sizeTBytes 5) }
  marker : ∀ program ∈ jb.programs, ∃ back b, (back = 1 ∨ back = 2) ∧ back ≤ program.length ∧
    program[program.length - back]? = some b ∧
    markerIndex jb.format program = .ok (b.toNat % 4)
  pad : ∃ numQubits, submitQubits img s jb.session = .ok numQubits ∧
    ∀ shot ∈ shotOutputs, shot.length ≤ numQubits
  ends : ∃ s',
    deviceJobSubmit img s env (some h) = answer .success s' ∨
    (deviceJobSubmit img s env (some h) = answer .errorOutofmem s' ∧
      ∃ k ≤ 2 * jb.programs.length, env.mem k = false) ∨
    (deviceJobSubmit img s env (some h) = answer .errorFatal s' ∧
      vectorMaxSize 32 < jb.numShots)

/-- A submission ends as its `try` block does. -/
theorem deviceJobSubmit_ends {img : Image} {s : DeviceState R} {env : Env R} {h : Nat}
    {jb : DeviceJob R} (hget : s.jobs.get? h = some jb) (hst : jb.status = .created)
    (hne : jb.programs ≠ []) (hqubits : submitQubits img s jb.session = .ok 5)
    (hstored : Stored jb) (hspace : InMemory jb) : ∃ s',
      deviceJobSubmit img s env (some h) = answer .success s' ∨
      (deviceJobSubmit img s env (some h) = answer .errorOutofmem s' ∧
        ∃ k ≤ 2 * jb.programs.length, env.mem k = false) ∨
      (deviceJobSubmit img s env (some h) = answer .errorFatal s' ∧
        vectorMaxSize 32 < jb.numShots) := by
  rcases hrun : submitResults env jb 5 with ⟨results, turns⟩
  -- The `catch` clauses tell the two kinds of failure apart.
  rcases results with e | results
  · rcases submitResults_error hstored hspace (congrArg Prod.fst hrun) with
      ⟨rfl, hmem⟩ | ⟨rfl, hlong⟩
    · refine ⟨{ s with gen := s.gen + turns * (2 * 2 ^ 5) }, Or.inr (Or.inl ⟨?_, hmem⟩)⟩
      simp only [deviceJobSubmit, hget, hst, hne, hqubits, hrun, ne_eq, not_true_eq_false,
        if_false, show ¬ 32 ≤ 5 by decide]
    · refine ⟨{ s with gen := s.gen + turns * (2 * 2 ^ 5) }, Or.inr (Or.inr ⟨?_, hlong⟩)⟩
      simp only [deviceJobSubmit, hget, hst, hne, hqubits, hrun, ne_eq, not_true_eq_false,
        if_false, show ¬ 32 ≤ 5 by decide]
  · refine ⟨{ s with
      gen := s.gen + turns * (2 * 2 ^ 5)
      status := .busy
      jobs := s.jobs.set h { jb with results, status := .running } }, Or.inl ?_⟩
    simp only [deviceJobSubmit, hget, hst, hne, hqubits, hrun, ne_eq, not_true_eq_false,
      if_false, show ¬ 32 ≤ 5 by decide]

variable [DecidableEq R]

/-- A submission of a configured job of a live session, in any reachable state
    and with any memory, is safe. -/
theorem deviceJobSubmit_safe (img : Image) (tr : List (DeviceEntry R)) (s : DeviceState R)
    (hrun : DeviceRuns img tr s) (env : Env R) (h : Nat) (jb : DeviceJob R)
    (hget : s.jobs.get? h = some jb) (hst : jb.status = .created) (hne : jb.programs ≠ [])
    (hspace : InMemory jb) (sess : DeviceSession)
    (hsess : s.sessions.get? jb.session = some sess) : SubmitsSafely img s env h jb := by
  have hinit := (deviceRuns_inv hrun h jb hget).session sess hsess
  have hstored := deviceRuns_stored hrun hget
  have hqubits := submitQubits_initialized img hsess hinit
  refine ⟨qubitsQuery_initialized img hsess hinit, fun program hp => ?_, ⟨5, hqubits, by decide⟩,
    deviceJobSubmit_ends hget hst hne hqubits hstored hspace⟩
  exact markerIndex_byte jb.format (hstored program hp).1 (hstored program hp).2

end

/-- What is looked at in the state the sample setup leads to: the status of the
    job, its session and its programs. -/
def sampleJob (s : DeviceState ℚ) : Option (JobStatus × SessionStatus × List (List UInt8)) :=
  (s.jobs.get? 0).bind (fun jb => (s.sessions.get? jb.session).map
    (fun sess => (jb.status, sess.status, jb.programs)))

/-- The sample setup leads to a configured job of a live session. -/
theorem deviceRuns_configured : ∃ tr s jb sess, DeviceRuns (R := ℚ) sampleImage tr s ∧
    s.jobs.get? 0 = some jb ∧ s.sessions.get? jb.session = some sess ∧ jb.status = .created ∧
    jb.programs = [[120, 0]] := by
  rcases deviceRuns_evaluated sampleEnv sampleSetup sampleJob (.created, .initialized, [[120, 0]])
    rfl with ⟨tr, s, hrun, _, hv⟩
  rcases Option.bind_eq_some_iff.mp hv with ⟨jb, hget, hjb⟩
  rcases Option.map_eq_some_iff.mp hjb with ⟨sess, hsess, hv'⟩
  rw [Prod.mk.injEq, Prod.mk.injEq] at hv'
  exact ⟨tr, s, jb, sess, hrun, hget, hsess, hv'.1, hv'.2.2⟩

/-- The sample job is submitted safely even when there is no memory. -/
theorem deviceJobSubmit_safe_sample : ∃ tr s jb, DeviceRuns (R := ℚ) sampleImage tr s ∧
    s.jobs.get? 0 = some jb ∧ SubmitsSafely sampleImage s exhaustedEnv 0 jb := by
  rcases deviceRuns_configured with ⟨tr, s, jb, sess, hrun, hget, hsess, hst, hprogs⟩
  have hne : jb.programs ≠ [] := by
    rw [hprogs]
    exact List.cons_ne_nil _ _
  have hspace : InMemory jb := by
    rw [InMemory, hprogs]
    decide
  exact ⟨tr, s, jb, hrun, hget, deviceJobSubmit_safe sampleImage tr s hrun exhaustedEnv 0 jb hget
    hst hne hspace sess hsess⟩

end Qdmi
