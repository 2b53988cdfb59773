import Qdmi.Core.Device.Step

/-!
# What One Call Can Do

The inversion lemmas of the device: for every entry point that changes the
state, what the state can be after it. Each lemma says that the call left
everything but the generator alone, or that it succeeded and which single
update it made. All later invariants are derived from these and none unfolds
an entry point again.

`SameButGen` is the first alternative. It is an equality of whole states, so
nothing that is ever added to the state escapes it.

## Main definitions

* `SameButGen`: Two states that differ in the generator only.
* `Succeeds`: A call returned success.
* `programBytes`: The bytes of a program handed in.

## Theorems

* `answer_eq_ok`, `raise_eq_ok`: Reading off how a call ended.
* `sameButGen_of_answer`, `sameButGen_of_raise`: A call that only answers
  changes nothing.
* `failed_of_answer`, `failed_of_raise`: A call that ends in an error changes
  nothing.
* `deviceSessionAlloc_cases`, `deviceSessionInit_cases`,
  `deviceSessionFree_cases`, `deviceSessionSetParameter_cases`: The session
  operations.
* `deviceSessionSetParameter_allocated`: A parameter is accepted in `allocated`
  only.
* `deviceSessionCreateDeviceJob_cases`, `deviceJobFree_cases`,
  `deviceJobSetParameter_cases`, `deviceJobSetPrograms_cases`,
  `deviceJobSubmit_cases`, `deviceJobCancel_cases`, `deviceJobCheck_cases`,
  `deviceJobWait_cases`: The job operations.
* `deviceStep_query`: A query changes nothing.
* `copyPrograms_eq_ok_iff`: When the copying loop succeeds, and what it copies.
* `copyPrograms_ne_nil`, `copyPrograms_returned`: No program that is copied is
  empty, and how the loop returns early.
* `deviceJobGetProgramStatus_same`: The per-program status changes nothing.
* `prepareResult_ok`, `prepareResults_ok`, `submitResults_ok`: What submission
  prepares for each program.
-/

namespace Qdmi

variable {R : Type}

/-- Two states that differ in the generator only. -/
def SameButGen (s s' : DeviceState R) : Prop := s' = { s with gen := s'.gen }

theorem sameButGen_refl (s : DeviceState R) : SameButGen s s := rfl

theorem sameButGen_jobs {s s' : DeviceState R} (h : SameButGen s s') : s'.jobs = s.jobs := by
  rw [h]

theorem sameButGen_sessions {s s' : DeviceState R} (h : SameButGen s s') :
    s'.sessions = s.sessions := by
  rw [h]

/-- A call returned success. -/
def Succeeds (out : Except Exn Reply) : Prop := ∃ r, out = .ok r ∧ r.status = .success

theorem answer_eq_ok {σ : Type} {status : Status} {s s' : σ} {out : Except Exn Reply} :
    answer status s = .ok (out, s') ↔ out = .ok { status := status } ∧ s' = s := by
  rw [answer, Except.ok.injEq, Prod.mk.injEq]
  exact and_congr eq_comm eq_comm

theorem raise_eq_ok {σ : Type} {e : Exn} {s s' : σ} {out : Except Exn Reply} :
    raise e s = .ok (out, s') ↔ out = .error e ∧ s' = s := by
  rw [raise, Except.ok.injEq, Prod.mk.injEq]
  exact and_congr eq_comm eq_comm

theorem sameButGen_of_answer {status : Status} {s s' : DeviceState R} {out : Except Exn Reply}
    (h : answer status s = .ok (out, s')) : SameButGen s s' := by
  rw [(answer_eq_ok.mp h).2]
  exact sameButGen_refl s

theorem sameButGen_of_raise {e : Exn} {s s' : DeviceState R} {out : Except Exn Reply}
    (h : raise e s = .ok (out, s')) : SameButGen s s' := by
  rw [(raise_eq_ok.mp h).2]
  exact sameButGen_refl s

theorem succeeds_answer {status : Status} :
    Succeeds (.ok { status := status }) ↔ status = .success := by
  constructor
  · rintro ⟨r, hr, hst⟩
    rw [Except.ok.injEq] at hr
    rw [← hr] at hst
    exact hst
  · intro h
    exact ⟨_, rfl, h⟩

theorem succeeds_of_toOption {out : Except Exn Reply} {r : Reply} (h : out.toOption = some r)
    (hr : r.status = .success) : Succeeds out := by
  rcases out with e | r'
  · exact absurd h (by simp only [Except.toOption, reduceCtorEq, not_false_eq_true])
  · rw [Except.toOption, Option.some.injEq] at h
    exact ⟨r', rfl, by rw [h, hr]⟩

/-- An exception is not a success. -/
theorem not_succeeds_error (e : Exn) : ¬ Succeeds (.error e) := by
  rintro ⟨r, hr, _⟩
  exact absurd hr (by simp only [reduceCtorEq, not_false_eq_true])

/-- A call that answers with another status changes nothing and fails. -/
theorem failed_of_answer {status : Status} {s t s' : DeviceState R} {out : Except Exn Reply}
    (ht : SameButGen s t) (hne : status ≠ .success) (h : answer status t = .ok (out, s')) :
    SameButGen s s' ∧ ¬ Succeeds out := by
  rcases answer_eq_ok.mp h with ⟨hout, hs⟩
  rw [hs, hout, succeeds_answer]
  exact ⟨ht, hne⟩

theorem failed_of_raise {e : Exn} {s s' : DeviceState R} {out : Except Exn Reply}
    (h : raise e s = .ok (out, s')) : SameButGen s s' ∧ ¬ Succeeds out := by
  rcases raise_eq_ok.mp h with ⟨hout, hs⟩
  rw [hs, hout]
  exact ⟨sameButGen_refl s, not_succeeds_error e⟩

/-! ## Session operations -/

theorem deviceSessionAlloc_cases {s s' : DeviceState R} {env : Env R} {session : Bool}
    {out : Except Exn Reply} (h : deviceSessionAlloc s env session = .ok (out, s')) :
    SameButGen s s' ∨ (Succeeds out ∧ s' = { s with sessions := s.sessions.alloc {} }) := by
  unfold deviceSessionAlloc at h
  split at h
  · exact Or.inl (sameButGen_of_answer h)
  · split at h
    · exact Or.inl (sameButGen_of_raise h)
    · rw [Except.ok.injEq, Prod.mk.injEq] at h
      exact Or.inr ⟨⟨_, h.1.symm, rfl⟩, h.2.symm⟩

theorem deviceSessionInit_cases {s s' : DeviceState R} {session : Option Nat}
    {out : Except Exn Reply} (h : deviceSessionInit s session = .ok (out, s')) :
    (SameButGen s s' ∧ ¬ Succeeds out) ∨ ∃ i sess, session = some i ∧
      s.sessions.get? i = some sess ∧ sess.token ≠ [] ∧ Succeeds out ∧
      s' = { s with sessions := s.sessions.set i { sess with status := .initialized } } := by
  unfold deviceSessionInit at h
  split at h
  · exact Or.inl (failed_of_answer (sameButGen_refl s) (by decide) h)
  · rename_i i
    split at h
    iterate 3 exact Or.inl (failed_of_answer (sameButGen_refl s) (by decide) h)
    split at h
    · exact absurd h (by simp only [reduceCtorEq, not_false_eq_true])
    · rename_i sess hget
      split at h
      · exact Or.inl (failed_of_answer (sameButGen_refl s) (by decide) h)
      · rename_i htok
        rcases answer_eq_ok.mp h with ⟨hout, hs⟩
        exact Or.inr ⟨i, sess, rfl, hget, htok, hout ▸ succeeds_answer.mpr rfl, hs⟩

theorem deviceSessionFree_cases {s s' : DeviceState R} {session : Option Nat}
    {out : Except Exn Reply} (h : deviceSessionFree s session = .ok (out, s')) :
    Succeeds out ∧ (s' = s ∨ ∃ i sess, session = some i ∧ s.sessions.get? i = some sess ∧
      s' = { s with sessions := s.sessions.free i }) := by
  unfold deviceSessionFree at h
  split at h
  · rcases answer_eq_ok.mp h with ⟨hout, hs⟩
    exact ⟨hout ▸ succeeds_answer.mpr rfl, Or.inl hs⟩
  · rename_i i
    split at h
    · exact absurd h (by simp only [reduceCtorEq, not_false_eq_true])
    · rename_i sess hget
      rcases answer_eq_ok.mp h with ⟨hout, hs⟩
      exact ⟨hout ▸ succeeds_answer.mpr rfl, Or.inr ⟨i, sess, rfl, hget, hs⟩⟩

/-- Even a call without a value succeeds on a session in `allocated` only. -/
theorem deviceSessionSetParameter_allocated {s s' : DeviceState R} {env : Env R} {i : Nat}
    {param size : Nat} {value : Option (Nat → UInt8)} {out : Except Exn Reply}
    (h : deviceSessionSetParameter s env (some i) param size value = .ok (out, s'))
    (hsucc : Succeeds out) : ∃ sess, s.sessions.get? i = some sess ∧ sess.status = .allocated := by
  simp only [deviceSessionSetParameter] at h
  split at h
  · exact absurd hsucc (failed_of_answer (sameButGen_refl s) (by decide) h).2
  split at h
  · exact absurd hsucc (failed_of_answer (sameButGen_refl s) (by decide) h).2
  split at h
  · exact absurd h (by simp only [reduceCtorEq, not_false_eq_true])
  rename_i sess hget
  split at h
  · exact absurd hsucc (failed_of_answer (sameButGen_refl s) (by decide) h).2
  · rename_i hst
    exact ⟨sess, hget, not_not.mp hst⟩

theorem deviceSessionSetParameter_cases {s s' : DeviceState R} {env : Env R}
    {session : Option Nat} {param size : Nat} {value : Option (Nat → UInt8)}
    {out : Except Exn Reply}
    (h : deviceSessionSetParameter s env session param size value = .ok (out, s')) :
    SameButGen s s' ∨ ∃ i sess token, session = some i ∧ s.sessions.get? i = some sess ∧
      sess.status = .allocated ∧ Succeeds out ∧
      s' = { s with sessions := s.sessions.set i { sess with token := token } } := by
  unfold deviceSessionSetParameter at h
  split at h
  · exact Or.inl (sameButGen_of_answer h)
  · rename_i i
    split at h
    · exact Or.inl (sameButGen_of_answer h)
    split at h
    · exact Or.inl (sameButGen_of_answer h)
    split at h
    · exact absurd h (by simp only [reduceCtorEq, not_false_eq_true])
    rename_i sess hget
    split at h
    · exact Or.inl (sameButGen_of_answer h)
    rename_i hst
    split at h
    · exact Or.inl (sameButGen_of_answer h)
    split at h
    · exact Or.inl (sameButGen_of_answer h)
    rename_i v _
    -- The token is copied into a string, which takes memory.
    split at h
    · exact Or.inl (sameButGen_of_raise h)
    split at h
    · exact Or.inl (sameButGen_of_raise h)
    rcases answer_eq_ok.mp h with ⟨hout, hs⟩
    exact Or.inr ⟨i, sess, readBytes v size, rfl, hget, not_not.mp hst,
      hout ▸ succeeds_answer.mpr rfl, hs⟩

/-! ## Job operations -/

theorem deviceSessionCreateDeviceJob_cases {s s' : DeviceState R} {env : Env R}
    {session : Option Nat} {job : Bool} {out : Except Exn Reply}
    (h : deviceSessionCreateDeviceJob s env session job = .ok (out, s')) :
    (SameButGen s s' ∧ ¬ Succeeds out) ∨ ∃ i sess, session = some i ∧
      s.sessions.get? i = some sess ∧ sess.status = .initialized ∧
      (job = true ∧ env.mem 0 = true) ∧ Succeeds out ∧
      s' = { s with
        gen := s.gen + 1
        jobs := s.jobs.alloc { session := i, id := env.jobId.val, status := .created } } := by
  unfold deviceSessionCreateDeviceJob at h
  split at h
  · exact Or.inl (failed_of_answer (sameButGen_refl s) (by decide) h)
  · rename_i i
    split at h
    · exact Or.inl (failed_of_answer (sameButGen_refl s) (by decide) h)
    rename_i hjob
    split at h
    · exact absurd h (by simp only [reduceCtorEq, not_false_eq_true])
    rename_i sess hget
    split at h
    · exact Or.inl (failed_of_answer (sameButGen_refl s) (by decide) h)
    rename_i hst
    split at h
    · exact Or.inl (failed_of_raise h)
    rename_i hmem
    -- All checks passed and there was memory.
    rw [Bool.not_eq_true', Bool.not_eq_false] at hjob hmem
    rw [Except.ok.injEq, Prod.mk.injEq] at h
    exact Or.inr ⟨i, sess, rfl, hget, not_not.mp hst, ⟨hjob, hmem⟩, ⟨_, h.1.symm, rfl⟩,
      h.2.symm⟩

theorem deviceJobFree_cases {s s' : DeviceState R} {job : Option Nat} {out : Except Exn Reply}
    (h : deviceJobFree s job = .ok (out, s')) :
    Succeeds out ∧ (s' = s ∨ ∃ i jb, job = some i ∧ s.jobs.get? i = some jb ∧
      s' = { s with jobs := s.jobs.free i }) := by
  unfold deviceJobFree at h
  split at h
  · rcases answer_eq_ok.mp h with ⟨hout, hs⟩
    exact ⟨hout ▸ succeeds_answer.mpr rfl, Or.inl hs⟩
  · rename_i i
    split at h
    · exact absurd h (by simp only [reduceCtorEq, not_false_eq_true])
    · rename_i jb hget
      rcases answer_eq_ok.mp h with ⟨hout, hs⟩
      exact ⟨hout ▸ succeeds_answer.mpr rfl, Or.inr ⟨i, jb, rfl, hget, hs⟩⟩

theorem deviceJobSetParameter_cases {s s' : DeviceState R} {job : Option Nat} {param size : Nat}
    {value : Option (Nat → UInt8)} {out : Except Exn Reply}
    (h : deviceJobSetParameter s job param size value = .ok (out, s')) :
    SameButGen s s' ∨ ∃ i jb n, job = some i ∧ s.jobs.get? i = some jb ∧
      jb.status = .created ∧ Succeeds out ∧
      s' = { s with jobs := s.jobs.set i { jb with numShots := n } } := by
  unfold deviceJobSetParameter at h
  split at h
  · exact Or.inl (sameButGen_of_answer h)
  · rename_i i
    split at h
    · exact Or.inl (sameButGen_of_answer h)
    split at h
    · exact Or.inl (sameButGen_of_answer h)
    split at h
    · exact absurd h (by simp only [reduceCtorEq, not_false_eq_true])
    rename_i jb hget
    split at h
    · exact Or.inl (sameButGen_of_answer h)
    rename_i hst
    split at h
    · exact Or.inl (sameButGen_of_answer h)
    split at h
    · exact Or.inl (sameButGen_of_answer h)
    rename_i v _
    split at h
    · exact Or.inl (sameButGen_of_answer h)
    -- What is left is the number of shots, on a job that was not submitted.
    rcases answer_eq_ok.mp h with ⟨hout, hs⟩
    exact Or.inr ⟨i, jb, leNat (readBytes v 8), rfl, hget, not_not.mp hst,
      hout ▸ succeeds_answer.mpr rfl, hs⟩

/-- The bytes behind the `i`-th program pointer. -/
def programBytes (sizes : Nat → Nat) (programs : Nat → Option (Nat → UInt8)) (i : Nat) :
    List UInt8 :=
  readBytes ((programs i).getD (fun _ => 0)) (sizes i)

theorem copyProgram_eq_ok_iff {env : Env R} {format : Nat} {sizes : Nat → Nat}
    {programs : Nat → Option (Nat → UInt8)} {i : Nat} {program : List UInt8} :
    copyProgram env format sizes programs i = .ok program ↔
      (validProgram format (sizes i) (programs i) = true ∧ sizes i ≤ vectorMaxSize 1 ∧
        env.mem (i + 1) = true) ∧ program = programBytes sizes programs i := by
  unfold copyProgram
  split
  · rename_i hvalid
    rw [Bool.not_eq_true'] at hvalid
    simp only [hvalid, reduceCtorEq, Bool.false_eq_true, false_and]
  rename_i hvalid
  rw [Bool.not_eq_true', Bool.not_eq_false] at hvalid
  split
  · rename_i hlong
    simp only [reduceCtorEq, false_iff, not_and]
    omega
  rename_i hlong
  split
  · rename_i hmem
    rw [Bool.not_eq_true'] at hmem
    simp only [hmem, reduceCtorEq, Bool.false_eq_true, and_false, false_and]
  · rename_i hmem
    rw [Bool.not_eq_true', Bool.not_eq_false] at hmem
    simp only [hvalid, hmem, Nat.le_of_not_lt hlong, and_self, true_and, Except.ok.injEq,
      programBytes]
    exact eq_comm

/-- The copying loop succeeds if every program is valid and there is room for
    the list and for each copy. -/
theorem copyPrograms_eq_ok_iff {env : Env R} {format count : Nat} {sizes : Nat → Nat}
    {programs : Nat → Option (Nat → UInt8)} {newPrograms : List (List UInt8)} :
    copyPrograms env format count sizes programs = .ok newPrograms ↔
      (count ≤ vectorMaxSize 24 ∧ env.mem 0 = true ∧
        ∀ i < count, validProgram format (sizes i) (programs i) = true ∧
          sizes i ≤ vectorMaxSize 1 ∧ env.mem (i + 1) = true) ∧
      newPrograms = (List.range count).map (programBytes sizes programs) := by
  -- A turn that succeeds gives the bytes of its program, so the loop gives those of all.
  have hloop := mapM_eq_ok_iff (programBytes sizes programs)
    (fun i program (h : copyProgram env format sizes programs i = .ok program) =>
      (copyProgram_eq_ok_iff.mp h).2)
    (List.range count) newPrograms
  unfold copyPrograms
  split
  · rename_i hlong
    simp only [reduceCtorEq, false_iff, not_and]
    omega
  rename_i hlong
  split
  · rename_i hmem
    rw [Bool.not_eq_true'] at hmem
    simp only [hmem, reduceCtorEq, Bool.false_eq_true, false_and, and_false]
  · rename_i hmem
    rw [Bool.not_eq_true', Bool.not_eq_false] at hmem
    rw [hloop]
    simp only [List.mem_range, copyProgram_eq_ok_iff, and_true, hmem, Nat.le_of_not_lt hlong,
      true_and]

/-- No program that is copied is empty. -/
theorem copyPrograms_ne_nil {env : Env R} {format count : Nat} {sizes : Nat → Nat}
    {programs : Nat → Option (Nat → UInt8)} {newPrograms : List (List UInt8)}
    (h : copyPrograms env format count sizes programs = .ok newPrograms) :
    ∀ program ∈ newPrograms, program ≠ [] := by
  rcases copyPrograms_eq_ok_iff.mp h with ⟨⟨_, _, hall⟩, hnew⟩
  intro program hp hnil
  rw [hnew, List.mem_map] at hp
  rcases hp with ⟨i, hi, hprogram⟩
  have hvalid := (hall i (List.mem_range.mp hi)).1
  have hsize : sizes i = 0 := by
    rw [← length_readBytes ((programs i).getD (fun _ => 0)) (sizes i)]
    exact List.length_eq_zero_iff.mpr (hprogram.trans hnil)
  unfold validProgram at hvalid
  split at hvalid
  · exact absurd hvalid (by decide)
  · rw [if_pos hsize] at hvalid
    exact absurd hvalid (by decide)

/-- The copying loop returns early for one reason only. -/
theorem copyPrograms_returned {env : Env R} {format count : Nat} {sizes : Nat → Nat}
    {programs : Nat → Option (Nat → UInt8)} {status : Status}
    (h : copyPrograms env format count sizes programs = .error (.returned status)) :
    status = .errorInvalidargument := by
  unfold copyPrograms at h
  split at h
  · exact absurd h (by simp only [Except.error.injEq, reduceCtorEq, not_false_eq_true])
  split at h
  · exact absurd h (by simp only [Except.error.injEq, reduceCtorEq, not_false_eq_true])
  rcases mapM_eq_error h with ⟨i, _, hi⟩
  unfold copyProgram at hi
  split at hi
  · rw [Except.error.injEq, Abort.returned.injEq] at hi
    exact hi.symm
  split at hi
  · exact absurd hi (by simp only [Except.error.injEq, reduceCtorEq, not_false_eq_true])
  split at hi
  · exact absurd hi (by simp only [Except.error.injEq, reduceCtorEq, not_false_eq_true])
  · exact absurd hi (by simp only [reduceCtorEq, not_false_eq_true])

/-- A call without programs succeeds without changing anything; it is the only
    one. -/
theorem deviceJobSetPrograms_cases {s s' : DeviceState R} {env : Env R} {job : Option Nat}
    {format count : Nat} {sizes : Option (Nat → Nat)}
    {programs : Option (Nat → Option (Nat → UInt8))} {out : Except Exn Reply}
    (h : deviceJobSetPrograms s env job format count sizes programs = .ok (out, s')) :
    (SameButGen s s' ∧ (Succeeds out → programs = none)) ∨
    ∃ i jb szs progs newPrograms, job = some i ∧ sizes = some szs ∧
      programs = some progs ∧ s.jobs.get? i = some jb ∧ jb.status = .created ∧
      count ≠ 0 ∧ supportedFormat format = true ∧
      copyPrograms env format count szs progs = .ok newPrograms ∧ Succeeds out ∧
      s' = { s with
        jobs := s.jobs.set i { jb with format := format, programs := newPrograms } } := by
  have hfail : ∀ {status : Status}, status ≠ .success → answer status s = .ok (out, s') →
      SameButGen s s' ∧ (Succeeds out → programs = none) := by
    intro status hne hans
    rcases failed_of_answer (sameButGen_refl s) hne hans with ⟨hs, hf⟩
    exact ⟨hs, fun hsucc => absurd hsucc hf⟩
  unfold deviceJobSetPrograms at h
  split at h
  · exact Or.inl (hfail (by decide) h)
  · rename_i i
    split at h
    · exact Or.inl (hfail (by decide) h)
    rename_i hargs
    push Not at hargs
    split at h
    · exact absurd h (by simp only [reduceCtorEq, not_false_eq_true])
    rename_i jb hget
    split at h
    · exact Or.inl (hfail (by decide) h)
    rename_i hst
    split at h
    · exact Or.inl (hfail (by decide) h)
    rename_i hfmt
    split at h
    · -- A probe for the format.
      exact Or.inl ⟨sameButGen_of_answer h, fun _ => rfl⟩
    rename_i progs
    split at h
    · exact Or.inl (hfail (by decide) h)
    rename_i szs
    split at h
    · -- The loop returns early over a program it cannot take.
      rename_i hcopy
      rw [copyPrograms_returned hcopy] at h
      exact Or.inl (hfail (by decide) h)
    · exact Or.inl (hfail (by decide) h)
    · exact Or.inl (hfail (by decide) h)
    · rcases failed_of_raise h with ⟨hs, hf⟩
      exact Or.inl ⟨hs, fun hsucc => absurd hsucc hf⟩
    rename_i newPrograms hcopy
    rcases answer_eq_ok.mp h with ⟨hout, hs⟩
    exact Or.inr ⟨i, jb, szs, progs, newPrograms, rfl, rfl, rfl, hget, not_not.mp hst,
      hargs.1, Bool.eq_true_of_not_eq_false hfmt, hcopy, hout ▸ succeeds_answer.mpr rfl, hs⟩

theorem deviceJobGetProgramStatus_same {s s' : DeviceState R} {job : Option Nat} {i : Nat}
    {out : Except Exn Reply} (h : deviceJobGetProgramStatus s job i = .ok (out, s')) : s' = s := by
  unfold deviceJobGetProgramStatus at h
  split at h
  · exact (answer_eq_ok.mp h).2
  · split at h
    · exact absurd h (by simp only [reduceCtorEq, not_false_eq_true])
    · split at h
      · exact (answer_eq_ok.mp h).2
      · split at h
        · exact (answer_eq_ok.mp h).2
        · exact (answer_eq_ok.mp h).2

section

variable [Zero R] [Add R] [Mul R] [Div R] [DoubleRepr R]

theorem length_randomStateVec (draws : Nat → R) (dim : Nat) :
    (randomStateVec draws dim).length = dim := by
  simp only [randomStateVec, List.length_map, List.length_range]

/-- What one turn of submission prepares. -/
theorem prepareResult_ok {env : Env R} {jb : DeviceJob R} {n i : Nat} {program : List UInt8}
    {result : ResultData R} (h : prepareResult env jb n i program = .ok result) :
    ∃ shot draws, result = {
      shots := List.replicate jb.numShots shot
      stateVec := randomStateVec draws (2 ^ n) } := by
  unfold prepareResult at h
  rcases bind_eq_ok h with ⟨index, _, h₁⟩
  rcases bind_eq_ok h₁ with ⟨shot, _, h₂⟩
  split at h₂
  · exact absurd h₂ (by simp only [reduceCtorEq, not_false_eq_true])
  split at h₂
  · exact absurd h₂ (by simp only [reduceCtorEq, not_false_eq_true])
  split at h₂
  · exact absurd h₂ (by simp only [reduceCtorEq, not_false_eq_true])
  · exact ⟨shot, _, (Except.ok.inj h₂).symm⟩

/-- Submission prepares one result per program. -/
theorem prepareResults_ok {env : Env R} {jb : DeviceJob R} {n : Nat} :
    ∀ (programs : List (List UInt8)) (i : Nat) (results : List (ResultData R)),
      (prepareResults env jb n i programs).1 = .ok results →
        results.length = programs.length ∧ ∀ result ∈ results, ∃ shot draws, result = {
          shots := List.replicate jb.numShots shot
          stateVec := randomStateVec draws (2 ^ n) } := by
  intro programs
  induction programs with
  | nil =>
      intro i results h
      simp only [prepareResults, Except.ok.injEq] at h
      rw [← h]
      exact ⟨rfl, fun result hr => absurd hr List.not_mem_nil⟩
  | cons program rest ih =>
      intro i results h
      rw [prepareResults] at h
      -- A turn that fails ends the loop, so this one and all behind it succeed.
      rcases hone : prepareResult env jb n i program with e | result
      · rw [hone] at h
        exact absurd h (by simp only [reduceCtorEq, not_false_eq_true])
      · rw [hone] at h
        rcases htail : (prepareResults env jb n (i + 1) rest).1 with e | tail
        · simp only [htail, Except.map, reduceCtorEq] at h
        · simp only [htail, Except.map, Except.ok.injEq] at h
          rcases ih (i + 1) tail htail with ⟨hlen, hall⟩
          rw [← h]
          refine ⟨by rw [List.length_cons, List.length_cons, hlen], fun r hr => ?_⟩
          rcases List.mem_cons.mp hr with hr | hr
          · rw [hr]
            exact prepareResult_ok hone
          · exact hall r hr

theorem submitResults_ok {env : Env R} {jb : DeviceJob R} {n : Nat}
    {results : List (ResultData R)} (h : (submitResults env jb n).1 = .ok results) :
    results.length = jb.programs.length ∧ ∀ result ∈ results, ∃ shot draws, result = {
      shots := List.replicate jb.numShots shot
      stateVec := randomStateVec draws (2 ^ n) } := by
  unfold submitResults at h
  split at h
  · exact absurd h (by simp only [reduceCtorEq, not_false_eq_true])
  · split at h
    · exact absurd h (by simp only [reduceCtorEq, not_false_eq_true])
    · exact prepareResults_ok jb.programs 0 results h

theorem deviceJobSubmit_cases {img : Image} {s s' : DeviceState R} {env : Env R}
    {job : Option Nat} {out : Except Exn Reply}
    (h : deviceJobSubmit img s env job = .ok (out, s')) :
    (SameButGen s s' ∧ ¬ Succeeds out) ∨ ∃ i jb n results, job = some i ∧
      s.jobs.get? i = some jb ∧ jb.status = .created ∧ jb.programs ≠ [] ∧
      submitQubits img s jb.session = .ok n ∧ n < 32 ∧ (submitResults env jb n).1 = .ok results ∧
      Succeeds out ∧
      s' = { s with
        gen := s'.gen
        status := .busy
        jobs := s.jobs.set i { jb with results := results, status := .running } } := by
  unfold deviceJobSubmit at h
  split at h
  · exact Or.inl (failed_of_answer (sameButGen_refl s) (by decide) h)
  · rename_i i
    split at h
    · exact absurd h (by simp only [reduceCtorEq, not_false_eq_true])
    rename_i jb hget
    split at h
    · exact Or.inl (failed_of_answer (sameButGen_refl s) (by decide) h)
    rename_i hst
    split at h
    · exact Or.inl (failed_of_answer (sameButGen_refl s) (by decide) h)
    rename_i hne
    split at h
    · exact absurd h (by simp only [reduceCtorEq, not_false_eq_true])
    rename_i n hn
    split at h
    · exact absurd h (by simp only [reduceCtorEq, not_false_eq_true])
    rename_i hlt
    -- The state returned on failure differs from `s` by the values drawn.
    rcases hrun : submitResults env jb n with ⟨results, turns⟩
    simp only [hrun] at h
    split at h
    · exact Or.inl (failed_of_answer (by rfl) (by decide) h)
    · exact Or.inl (failed_of_answer (by rfl) (by decide) h)
    · rename_i results
      rcases answer_eq_ok.mp h with ⟨hout, hs⟩
      refine Or.inr ⟨i, jb, n, results, rfl, hget, not_not.mp hst, hne, hn,
        Nat.lt_of_not_le hlt, congrArg Prod.fst hrun, hout ▸ succeeds_answer.mpr rfl, ?_⟩
      rw [hs]

end

theorem deviceJobCancel_cases {s s' : DeviceState R} {job : Option Nat} {out : Except Exn Reply}
    (h : deviceJobCancel s job = .ok (out, s')) :
    SameButGen s s' ∨ ∃ i jb, job = some i ∧ s.jobs.get? i = some jb ∧ jb.status ≠ .done ∧
      Succeeds out ∧
      s' = { s with status := .idle, jobs := s.jobs.set i { jb with status := .canceled } } := by
  unfold deviceJobCancel at h
  split at h
  · exact Or.inl (sameButGen_of_answer h)
  · rename_i i
    split at h
    · exact absurd h (by simp only [reduceCtorEq, not_false_eq_true])
    rename_i jb hget
    split at h
    · exact Or.inl (sameButGen_of_answer h)
    rename_i hst
    rcases answer_eq_ok.mp h with ⟨hout, hs⟩
    exact Or.inr ⟨i, jb, rfl, hget, hst, hout ▸ succeeds_answer.mpr rfl, hs⟩

/-- A check finishes a running job when the bit it draws is set. -/
theorem deviceJobCheck_cases {s s' : DeviceState R} {env : Env R} {job : Option Nat}
    {status : Bool} {out : Except Exn Reply}
    (h : deviceJobCheck s env job status = .ok (out, s')) :
    SameButGen s s' ∨ ∃ i jb, job = some i ∧ s.jobs.get? i = some jb ∧ jb.status = .running ∧
      (status = true ∧ env.bit = true) ∧ Succeeds out ∧
      s' = { s with
        gen := s.gen + 1
        status := .idle
        jobs := s.jobs.set i { jb with status := .done } } := by
  unfold deviceJobCheck at h
  split at h
  · exact Or.inl (sameButGen_of_answer h)
  · rename_i i
    split at h
    · exact Or.inl (sameButGen_of_answer h)
    rename_i hstatus
    split at h
    · exact absurd h (by simp only [reduceCtorEq, not_false_eq_true])
    rename_i jb hget
    split at h
    · rw [Except.ok.injEq, Prod.mk.injEq] at h
      rw [← h.2]
      exact Or.inl (sameButGen_refl s)
    rename_i hst
    -- The job runs, and a random bit decides whether it is done.
    split at h
    · rename_i hbit
      rw [Except.ok.injEq, Prod.mk.injEq] at h
      rw [Bool.not_eq_true', Bool.not_eq_false] at hstatus
      exact Or.inr ⟨i, jb, rfl, hget, not_not.mp hst, ⟨hstatus, hbit⟩, ⟨_, h.1.symm, rfl⟩,
        h.2.symm⟩
    · rw [Except.ok.injEq, Prod.mk.injEq] at h
      exact Or.inl (by rw [← h.2]; rfl)

theorem deviceJobWait_cases {s s' : DeviceState R} {job : Option Nat} {out : Except Exn Reply}
    (h : deviceJobWait s job = .ok (out, s')) :
    SameButGen s s' ∨ ∃ i jb, job = some i ∧ s.jobs.get? i = some jb ∧ jb.status ≠ .done ∧
      jb.status ≠ .canceled ∧ jb.status ≠ .failed ∧ Succeeds out ∧
      s' = { s with status := .idle, jobs := s.jobs.set i { jb with status := .done } } := by
  unfold deviceJobWait at h
  split at h
  · exact Or.inl (sameButGen_of_answer h)
  · rename_i i
    split at h
    · exact absurd h (by simp only [reduceCtorEq, not_false_eq_true])
    rename_i jb hget
    split at h
    · exact Or.inl (sameButGen_of_answer h)
    rename_i hst
    rcases answer_eq_ok.mp h with ⟨hout, hs⟩
    push Not at hst
    exact Or.inr ⟨i, jb, rfl, hget, hst.1, hst.2.1, hst.2.2, hout ▸ succeeds_answer.mpr rfl, hs⟩

/-! ## Queries -/

section

variable [Zero R] [DecidableEq R] [Add R] [Mul R] [Div R] [DoubleRepr R]

/-- A query answers and changes nothing. -/
theorem deviceStep_query {img : Image} {s s' : DeviceState R} {q : Query} {args : OutArgs}
    {env : Env R} {out : Except Exn Reply}
    (hstep : deviceStep img s ⟨.query q args, env⟩ = .ok (out, s')) :
    deviceQuery img s env.mem q args = .ok out ∧ s' = s := by
  rcases map_eq_ok hstep with ⟨reply, hquery, hpair⟩
  rw [Prod.mk.injEq] at hpair
  rw [← hpair.1, ← hpair.2]
  exact ⟨hquery, rfl⟩

end

end Qdmi
