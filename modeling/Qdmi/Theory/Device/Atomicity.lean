import Qdmi.Theory.Device.Configure
import Qdmi.Theory.Device.Reachable

/-!
# Failed Calls

A call of the device that does not return success leaves everything but the
generator as it was.

That is one line per entry point once the inversion lemmas are there, since
each of their alternatives is either unchanged or a success. What takes work
is the second half of the promise: a submission that fails while it prepares
its results leaves a job that can be configured anew and submitted. It needs
to know that submission can succeed at all. `submitQubits_initialized`
evaluates the query a submission starts with; `prepareResult_succeeds` says
that with memory no turn of its loop fails, which rests on the programs not
being empty, since the marker of an empty program is read past its end.

## Main definitions

* `qubitsArgs`: The arguments of the query a submission starts with.
* `Submittable`: A job whose results fit into memory.

## Theorems

* `deviceStep_failed`: A call that fails changes the generator only.
* `qubitsQuery_initialized`, `submitQubits_initialized`, `submitQubits_dead`:
  The number of qubits a submission finds.
* `markerIndex_byte`: The byte that selects the output of a program.
* `markerIndex_succeeds`, `paddedShot_succeeds`, `prepareResult_succeeds`,
  `submitResults_succeeds`, `deviceJobSubmit_succeeds`: A submission with
  memory succeeds.
* `job_submittable`: A job in `created` can be configured and submitted.
* `deviceStep_atomic`: A failed call is atomic, and a failed submission can be
  repaired.
-/

namespace Qdmi

variable {R : Type}

section

variable [Zero R] [DecidableEq R] [Add R] [Mul R] [Div R] [DoubleRepr R]

/-- A call that fails changes the generator only. -/
theorem deviceStep_failed {img : Image} {s s' : DeviceState R} {c : Call R}
    {out : Except Exn Reply} (hstep : deviceStep img s c = .ok (out, s'))
    (hfail : ¬ Succeeds out) : SameButGen s s' := by
  rcases c with ⟨op, env⟩
  cases op with
  | deviceInitialize =>
      exact absurd ((answer_eq_ok.mp hstep).1 ▸ succeeds_answer.mpr rfl) hfail
  | deviceFinalize =>
      exact absurd ((answer_eq_ok.mp hstep).1 ▸ succeeds_answer.mpr rfl) hfail
  | sessionAlloc session =>
      -- Every function is one of two outcomes, unchanged or successful.
      rcases deviceSessionAlloc_cases hstep with hs | ⟨hsucc, _⟩
      · exact hs
      · exact absurd hsucc hfail
  | sessionInit session =>
      rcases deviceSessionInit_cases hstep with ⟨hs, _⟩ | ⟨_, _, _, _, _, hsucc, _⟩
      · exact hs
      · exact absurd hsucc hfail
  | sessionFree session => exact absurd (deviceSessionFree_cases hstep).1 hfail
  | sessionSetParameter session param size value =>
      rcases deviceSessionSetParameter_cases hstep with hs | ⟨_, _, _, _, _, _, hsucc, _⟩
      · exact hs
      · exact absurd hsucc hfail
  | createDeviceJob session job =>
      rcases deviceSessionCreateDeviceJob_cases hstep with ⟨hs, _⟩ | ⟨_, _, _, _, _, _, hsucc, _⟩
      · exact hs
      · exact absurd hsucc hfail
  | retrieveDeviceJobById => exact sameButGen_of_answer hstep
  | jobFree job => exact absurd (deviceJobFree_cases hstep).1 hfail
  | jobSetParameter job param size value =>
      rcases deviceJobSetParameter_cases hstep with hs | ⟨_, _, _, _, _, _, hsucc, _⟩
      · exact hs
      · exact absurd hsucc hfail
  | jobSetPrograms job format count sizes programs =>
      rcases deviceJobSetPrograms_cases hstep with
        ⟨hs, _⟩ | ⟨_, _, _, _, _, _, _, _, _, _, _, _, _, hsucc, _⟩
      · exact hs
      · exact absurd hsucc hfail
  | jobGetProgramStatus job i =>
      rw [deviceJobGetProgramStatus_same hstep]
      exact sameButGen_refl s
  | jobSubmit job =>
      rcases deviceJobSubmit_cases hstep with ⟨hs, _⟩ | ⟨_, _, _, _, _, _, _, _, _, _, _, hsucc, _⟩
      · exact hs
      · exact absurd hsucc hfail
  | jobCancel job =>
      rcases deviceJobCancel_cases hstep with hs | ⟨_, _, _, _, _, hsucc, _⟩
      · exact hs
      · exact absurd hsucc hfail
  | jobCheck job status =>
      rcases deviceJobCheck_cases hstep with hs | ⟨_, _, _, _, _, _, hsucc, _⟩
      · exact hs
      · exact absurd hsucc hfail
  | jobWait job =>
      rcases deviceJobWait_cases hstep with hs | ⟨_, _, _, _, _, _, _, hsucc, _⟩
      · exact hs
      · exact absurd hsucc hfail
  | query q out' =>
      rw [(deviceStep_query hstep).2]
      exact sameButGen_refl s

end

/-! ## A submission that succeeds -/

/-- The arguments of the query in `submit`, which has a buffer of eight bytes. -/
def qubitsArgs : OutArgs := { size := 8, value := some (sizeTBytes 0), sizeRet := false }

/-- On an initialized session the query of a submission answers five. -/
theorem qubitsQuery_initialized {s : DeviceState R} {i : Nat} {sess : DeviceSession} (img : Image)
    (hget : s.sessions.get? i = some sess) (hst : sess.status = .initialized) :
    deviceSessionQueryDeviceProperty img s (some i) DeviceProperty.qubitsnum.code qubitsArgs =
      .ok { status := .success, value := some (sizeTBytes 5) } := by
  have hquery : deviceSessionQueryDeviceProperty img s (some i) DeviceProperty.qubitsnum.code
      qubitsArgs = respond qubitsArgs 8 (fun cur => cur.puts (sizeTBytes 5)) := by
    simp [deviceSessionQueryDeviceProperty, hget, hst, qubitsArgs, OutArgs.degenerate,
      isInvalidEnumValue, DeviceProperty.code, DeviceProperty.max, addStringProperty,
      addSingleValueProperty, sizeTBytes]
  rw [hquery]
  rfl

/-- On an initialized session a submission finds five qubits. -/
theorem submitQubits_initialized {s : DeviceState R} {i : Nat} {sess : DeviceSession} (img : Image)
    (hget : s.sessions.get? i = some sess) (hst : sess.status = .initialized) :
    submitQubits img s i = .ok 5 := by
  have hquery := qubitsQuery_initialized img hget hst
  rw [qubitsArgs] at hquery
  rw [submitQubits, hquery]
  rfl

/-- A session that was freed cannot be asked. -/
theorem submitQubits_dead {s : DeviceState R} {i : Nat} (img : Image)
    (hget : s.sessions.get? i = none) : submitQubits img s i = .error .danglingHandle := by
  simp [submitQubits, deviceSessionQueryDeviceProperty, hget, OutArgs.degenerate,
    isInvalidEnumValue, DeviceProperty.code, DeviceProperty.max, bind, Except.bind]

/-- The marker of a program that is not empty is its last byte, or in a text of
    two bytes or more the one before. -/
theorem markerIndex_byte (format : Nat) {program : List UInt8} (hne : program ≠ [])
    (hlen : program.length ≤ vectorMaxSize 1) :
    ∃ back b, (back = 1 ∨ back = 2) ∧ back ≤ program.length ∧
      program[program.length - back]? = some b ∧
      markerIndex format program = .ok (b.toNat % 4) := by
  have hpos : 0 < program.length := List.length_pos_iff.mpr hne
  have hmax : vectorMaxSize 1 = 2 ^ 63 - 1 := rfl
  -- An index from the end does not wrap around while it stays inside the program.
  have hat : ∀ back, 0 < back → back ≤ program.length →
      (program.length + sizeTMod - back) % sizeTMod = program.length - back := by
    intro back hback hle
    have hsub : program.length + sizeTMod - back = program.length - back + sizeTMod := by omega
    have hsmall : program.length - back < sizeTMod := by
      rw [sizeTMod]
      omega
    rw [hsub, Nat.add_mod_right, Nat.mod_eq_of_lt hsmall]
  have hbyte : ∀ back, 0 < back → back ≤ program.length →
      ∃ b, program[program.length - back]? = some b := by
    intro back hback hle
    have hlt : program.length - back < program.length := by omega
    exact ⟨_, List.getElem?_eq_getElem hlt⟩
  -- A text is read one byte further from the end, and only when it has two.
  by_cases htwo : format ≠ ProgramFormat.qirbasemodule.code ∧ 1 < program.length
  · rcases hbyte 2 (by decide) htwo.2 with ⟨b, hb⟩
    refine ⟨2, b, Or.inr rfl, htwo.2, hb, ?_⟩
    simp only [markerIndex, if_pos htwo, hat 2 (by decide) htwo.2, hb]
  · rcases hbyte 1 (by decide) hpos with ⟨b, hb⟩
    refine ⟨1, b, Or.inl rfl, hpos, hb, ?_⟩
    simp only [markerIndex, if_neg htwo, hat 1 (by decide) hpos, hb]

theorem markerIndex_succeeds (format : Nat) {program : List UInt8} (hne : program ≠ [])
    (hlen : program.length ≤ vectorMaxSize 1) :
    ∃ m, m < 4 ∧ markerIndex format program = .ok m := by
  rcases markerIndex_byte format hne hlen with ⟨_, b, _, _, _, hindex⟩
  exact ⟨b.toNat % 4, Nat.mod_lt _ (by decide), hindex⟩

/-- On five qubits every output can be padded. -/
theorem paddedShot_succeeds {index : Nat} (h : index < 4) :
    ∃ shot, paddedShot 5 index = .ok shot := by
  obtain rfl | rfl | rfl | rfl : index = 0 ∨ index = 1 ∨ index = 2 ∨ index = 3 := by omega
  all_goals exact ⟨_, rfl⟩

/-- A job whose results fit into memory. -/
structure Submittable (jb : DeviceJob R) : Prop where
  programs_le : jb.programs.length ≤ vectorMaxSize 48
  programs : ∀ program ∈ jb.programs, program ≠ [] ∧ program.length ≤ vectorMaxSize 1
  shots_le : jb.numShots ≤ vectorMaxSize 32

theorem outputIndex_succeeds (jb : DeviceJob R) {program : List UInt8} (hne : program ≠ [])
    (hlen : program.length ≤ vectorMaxSize 1) : ∃ m, m < 4 ∧ outputIndex jb program = .ok m := by
  unfold outputIndex
  split
  · exact markerIndex_succeeds jb.format hne hlen
  · exact ⟨0, by decide, rfl⟩

section

variable [Zero R] [Add R] [Mul R] [Div R] [DoubleRepr R]

/-- With memory, no turn of a submission fails. -/
theorem prepareResult_succeeds {env : Env R} {jb : DeviceJob R} (hmem : ∀ k, env.mem k = true)
    (hshots : jb.numShots ≤ vectorMaxSize 32) (i : Nat) {program : List UInt8}
    (hne : program ≠ []) (hlen : program.length ≤ vectorMaxSize 1) :
    ∃ result, prepareResult env jb 5 i program = .ok result := by
  rcases outputIndex_succeeds jb hne hlen with ⟨index, hlt, hindex⟩
  rcases paddedShot_succeeds hlt with ⟨shot, hshot⟩
  simp only [prepareResult, hindex, hshot, bind, Except.bind, Nat.not_lt.mpr hshots, hmem,
    Bool.true_eq_false, and_false, if_false]
  exact ⟨_, rfl⟩

theorem prepareResults_succeeds {env : Env R} {jb : DeviceJob R} (hmem : ∀ k, env.mem k = true)
    (hshots : jb.numShots ≤ vectorMaxSize 32) (programs : List (List UInt8))
    (hprogs : ∀ program ∈ programs, program ≠ [] ∧ program.length ≤ vectorMaxSize 1) :
    ∀ i, ∃ results, (prepareResults env jb 5 i programs).1 = .ok results := by
  induction programs with
  | nil => exact fun i => ⟨[], rfl⟩
  | cons program rest ih =>
      intro i
      have hhead := hprogs program List.mem_cons_self
      rcases prepareResult_succeeds hmem hshots i hhead.1 hhead.2 with ⟨result, hresult⟩
      rcases ih (fun p hp => hprogs p (List.mem_cons_of_mem _ hp)) (i + 1) with ⟨tail, htail⟩
      refine ⟨result :: tail, ?_⟩
      simp only [prepareResults, hresult, htail, Except.map]

theorem submitResults_succeeds {env : Env R} {jb : DeviceJob R} (hmem : ∀ k, env.mem k = true)
    (hsub : Submittable jb) : ∃ results, (submitResults env jb 5).1 = .ok results := by
  rcases prepareResults_succeeds hmem hsub.shots_le jb.programs hsub.programs 0 with
    ⟨results, hresults⟩
  refine ⟨results, ?_⟩
  simp only [submitResults, Nat.not_lt.mpr hsub.programs_le, hmem, Bool.true_eq_false, if_false,
    hresults]

/-- With memory, a configured job of an initialized session can be submitted. -/
theorem deviceJobSubmit_succeeds {img : Image} {s : DeviceState R} {env : Env R} {h : Nat}
    {jb : DeviceJob R} {sess : DeviceSession} (hget : s.jobs.get? h = some jb)
    (hst : jb.status = .created) (hne : jb.programs ≠ [])
    (hsess : s.sessions.get? jb.session = some sess) (hinit : sess.status = .initialized)
    (hsub : Submittable jb) (hmem : ∀ k, env.mem k = true) :
    ∃ s', deviceJobSubmit img s env (some h) = answer .success s' := by
  rcases submitResults_succeeds hmem hsub with ⟨results, hresults⟩
  have hqubits := submitQubits_initialized img hsess hinit
  rcases hrun : submitResults env jb 5 with ⟨outcome, turns⟩
  rw [hrun] at hresults
  dsimp only at hresults
  simp only [deviceJobSubmit, hget, hst, hne, hqubits, hrun, hresults, ne_eq, not_true_eq_false,
    if_false, show ¬ 32 ≤ 5 by decide]
  exact ⟨_, rfl⟩

end

/-! ## Atomicity -/

theorem deviceJobSetParameter_shots {s : DeviceState R} {h : Nat} {jb : DeviceJob R}
    (hget : s.jobs.get? h = some jb) (hst : jb.status = .created) (value : Nat → UInt8) :
    ∃ s', deviceJobSetParameter s (some h) DeviceJobParameter.shotsnum 8 (some value) =
        answer .success s' ∧ s'.sessions = s.sessions ∧
      s'.jobs.get? h = some { jb with numShots := leNat (readBytes value 8) } := by
  refine ⟨{ s with jobs := s.jobs.set h { jb with numShots := leNat (readBytes value 8) } },
    ?_, rfl, ?_⟩
  · simp [deviceJobSetParameter, hget, hst, isInvalidEnumValue, DeviceJobParameter.shotsnum,
      DeviceJobParameter.max]
  · rw [Heap.get?_set _ _ _ _ hget, if_pos rfl]

section

variable [Zero R] [Add R] [Mul R] [Div R] [DoubleRepr R]

/-- A job in `created` whose session is live can be given any shots and
    programs there is memory for, and be submitted. -/
theorem job_submittable (img : Image) {s : DeviceState R} {h : Nat} {jb : DeviceJob R}
    {sess : DeviceSession} (hget : s.jobs.get? h = some jb) (hst : jb.status = .created)
    (hsess : s.sessions.get? jb.session = some sess) (hinit : sess.status = .initialized)
    {env : Env R} {shots : Nat → UInt8} {format count : Nat} {szs : Nat → Nat}
    {programs : Nat → Option (Nat → UInt8)} (hmem : MemoryFor env count (some szs))
    (hcount : count ≤ vectorMaxSize 48) (hshots : leNat (readBytes shots 8) ≤ vectorMaxSize 32)
    (hpos : 0 < count) (hfmt : format ∈ supportedProgramFormats)
    (hall : ∀ i < count, WellFormed format (szs i) (programs i)) :
    ∃ s₁ s₂ s₃,
      deviceJobSetParameter s (some h) DeviceJobParameter.shotsnum 8 (some shots) =
        answer .success s₁ ∧
      deviceJobSetPrograms s₁ env (some h) format count (some szs) (some programs) =
        answer .success s₂ ∧
      deviceJobSubmit img s₂ env (some h) = answer .success s₃ := by
  rcases deviceJobSetParameter_shots hget hst shots with ⟨s₁, hcall₁, hsess₁, hget₁⟩
  have hcall₂ := deviceJobSetPrograms_succeeds hget₁ hst hmem hpos hfmt hall
  -- From here on the job is the configured one.
  generalize hjb : configured { jb with numShots := leNat (readBytes shots 8) } format count szs
    programs = jb₂ at hcall₂
  have hlen : jb₂.programs.length = count := by
    rw [← hjb, configured, List.length_map, List.length_range]
  have hne : jb₂.programs ≠ [] := by
    intro hnil
    rw [hnil, List.length_nil] at hlen
    omega
  -- What was accepted as a program fits everywhere it is copied to.
  have hsub : Submittable jb₂ := by
    refine ⟨hlen ▸ hcount, fun program hp => ?_, by rw [← hjb]; exact hshots⟩
    rw [← hjb, configured, List.mem_map] at hp
    rcases hp with ⟨i, hi, rfl⟩
    rw [List.mem_range] at hi
    rcases hall i hi with ⟨_, _, hsize, _⟩
    have hlen' : (programBytes szs programs i).length = szs i := length_readBytes _ _
    refine ⟨fun hnil => ?_, ?_⟩
    · rw [hnil, List.length_nil] at hlen'
      omega
    · rw [hlen']
      exact hmem.sizes_le szs rfl i hi
  have hget₂ : (s₁.jobs.set h jb₂).get? h = some jb₂ := by
    rw [Heap.get?_set _ _ _ _ hget₁, if_pos rfl]
  have hst₂ : jb₂.status = .created := by rw [← hjb]; exact hst
  have hsess₂ : s₁.sessions.get? jb₂.session = some sess := by
    rw [hsess₁, ← hjb]
    exact hsess
  rcases deviceJobSubmit_succeeds (s := { s₁ with jobs := s₁.jobs.set h jb₂ }) hget₂ hst₂ hne
    hsess₂ hinit hsub hmem.mem with ⟨s₃, hcall₃⟩
  exact ⟨s₁, _, s₃, hcall₁, hcall₂, hcall₃⟩

/-- A submission that got as far as preparing results found a live session. -/
theorem deviceJobSubmit_session {img : Image} {s s' : DeviceState R} {env : Env R} {h : Nat}
    {jb : DeviceJob R} {out : Except Exn Reply}
    (hcall : deviceJobSubmit img s env (some h) = .ok (out, s')) (hget : s.jobs.get? h = some jb)
    (hst : jb.status = .created) (hne : jb.programs ≠ []) :
    ∃ sess, s.sessions.get? jb.session = some sess := by
  rcases hsess : s.sessions.get? jb.session with _ | sess
  · simp [deviceJobSubmit, hget, hst, hne, submitQubits_dead img hsess] at hcall
  · exact ⟨sess, rfl⟩

variable [DecidableEq R]

/-- A call that does not succeed leaves every session, every job and the device
    status as they were. If it was a submission that failed over its results,
    the job can be given other shots and programs and be submitted. -/
theorem deviceStep_atomic (img : Image) (tr : List (DeviceEntry R)) (s s' : DeviceState R)
    (hrun : DeviceRuns img tr s) (c : Call R) (out : Except Exn Reply)
    (hstep : deviceStep img s c = .ok (out, s')) (hfail : ¬ Succeeds out) :
    SameButGen s s' ∧
    ∀ h jb, c.op = .jobSubmit (some h) → s.jobs.get? h = some jb → jb.status = .created →
      jb.programs ≠ [] → ∀ (env : Env R) shots format count szs programs,
      MemoryFor env count (some szs) → count ≤ vectorMaxSize 48 →
      leNat (readBytes shots 8) ≤ vectorMaxSize 32 → 0 < count →
      format ∈ supportedProgramFormats → (∀ i < count, WellFormed format (szs i) (programs i)) →
      ∃ s₁ s₂ s₃,
        deviceJobSetParameter s' (some h) DeviceJobParameter.shotsnum 8 (some shots) =
          answer .success s₁ ∧
        deviceJobSetPrograms s₁ env (some h) format count (some szs) (some programs) =
          answer .success s₂ ∧
        deviceJobSubmit img s₂ env (some h) = answer .success s₃ := by
  have hsame := deviceStep_failed hstep hfail
  refine ⟨hsame, fun h jb hop hget hst hne env shots format count szs programs hmem hcount hshots
    hpos hfmt hall => ?_⟩
  rcases c with ⟨op, env₀⟩
  dsimp only at hop
  subst hop
  -- The session of the job is live, hence initialized, and still is afterwards.
  rcases deviceJobSubmit_session hstep hget hst hne with ⟨sess, hsess⟩
  have hinit := (deviceRuns_inv hrun h jb hget).session sess hsess
  rw [← sameButGen_jobs hsame] at hget
  rw [← sameButGen_sessions hsame] at hsess
  exact job_submittable img hget hst hsess hinit hmem hcount hshots hpos hfmt hall

end

/-- An environment without memory. -/
def exhaustedEnv : Env ℚ := { sampleEnv with mem := fun _ => false }

/-- The status of a submission without memory, and that of the first job. -/
def exhaustedSubmit (s : DeviceState ℚ) : Option (Status × JobStatus × Nat × Nat) :=
  match deviceStep sampleImage s ⟨.jobSubmit (some 0), exhaustedEnv⟩ with
  | .ok (.ok reply, _) => (firstJob s).map (fun v => (reply.status, v))
  | _ => none

/-- A submission that runs out of memory leaves the sample job as it was, and
    the job can be given one shot of two programs and be submitted. -/
theorem deviceStep_atomic_sample :
    ∃ tr s out s' s₁ s₂ s₃, DeviceRuns (R := ℚ) sampleImage tr s ∧
      deviceStep sampleImage s ⟨.jobSubmit (some 0), exhaustedEnv⟩ = .ok (out, s') ∧
      ¬ Succeeds out ∧ SameButGen s s' ∧
      deviceJobSetParameter s' (some 0) DeviceJobParameter.shotsnum 8
        (some (fun i => if i = 0 then 1 else 0)) = answer .success s₁ ∧
      deviceJobSetPrograms s₁ sampleEnv (some 0) ProgramFormat.qasm2.code 2
        (some (fun i => i + 2)) (some samplePrograms) = answer .success s₂ ∧
      deviceJobSubmit sampleImage s₂ sampleEnv (some 0) = answer .success s₃ := by
  rcases deviceRuns_evaluated sampleEnv sampleSetup exhaustedSubmit
    (.errorOutofmem, .created, 1, 0) rfl with
    ⟨tr, s, hrun, _, hv⟩
  unfold exhaustedSubmit at hv
  split at hv
  · rename_i reply s' hstep
    rcases Option.map_eq_some_iff.mp hv with ⟨v, hfirst, hpair⟩
    rw [Prod.mk.injEq] at hpair
    rcases hpair with ⟨hreply, hv'⟩
    rcases Option.map_eq_some_iff.mp hfirst with ⟨jb, hget, hjb⟩
    rw [hv', Prod.mk.injEq, Prod.mk.injEq] at hjb
    have hfail : ¬ Succeeds (.ok reply) := by
      rintro ⟨r, hr, hsucc⟩
      rw [← Except.ok.inj hr, hreply] at hsucc
      exact absurd hsucc (by decide)
    have hne : jb.programs ≠ [] := by
      intro hnil
      rw [hnil] at hjb
      exact absurd hjb.2.1 (by decide)
    rcases deviceStep_atomic sampleImage tr s s' hrun _ _ hstep hfail with ⟨hsame, hrepair⟩
    rcases hrepair 0 jb rfl hget hjb.1 hne sampleEnv (fun i => if i = 0 then 1 else 0)
      ProgramFormat.qasm2.code 2 (fun i => i + 2) samplePrograms samplePrograms_memory (by decide)
      (by decide) (by decide) (by decide) samplePrograms_wellFormed with ⟨s₁, s₂, s₃, h₁, h₂, h₃⟩
    exact ⟨tr, s, .ok reply, s', s₁, s₂, s₃, hrun, hstep, hfail, hsame, h₁, h₂, h₃⟩
  · exact absurd hv (by simp only [reduceCtorEq, not_false_eq_true])

end Qdmi
