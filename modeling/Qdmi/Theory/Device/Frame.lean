import Qdmi.Theory.Device.Reachable

/-!
# What a Call Leaves Alone

The frame of a call, for jobs: it updates at most the job it names, and of that
job it keeps the identity and the session.

`deviceStep_jobs` says it for the whole heap of jobs, so that the two facts
read off it, what happens to the named job and that nothing happens to any
other, need no second case analysis of the entry points.

## Main definitions

* `jobOf`: The job a call names.

## Theorems

* `deviceStep_jobs`: The ways a call changes the jobs.
* `deviceStep_create`: A creation on an initialized session.
* `deviceStep_frame`: A job that is not named stays as it is.
-/

namespace Qdmi

variable {R : Type}

/-- The job a call names, if it can change one. -/
def jobOf : Op → Option Nat
  | .jobFree job => job
  | .jobSetParameter job _ _ _ => job
  | .jobSetPrograms job _ _ _ _ => job
  | .jobSubmit job => job
  | .jobCancel job => job
  | .jobCheck job _ => job
  | .jobWait job => job
  | _ => none

section

variable [Zero R] [DecidableEq R] [Add R] [Mul R] [Div R] [DoubleRepr R]

/-- The ways a call changes the jobs: it leaves them alone, creates one with the
    drawn identity on an initialized session, updates the one it names, or
    frees it. -/
theorem deviceStep_jobs {img : Image} {s s' : DeviceState R} {c : Call R} {out : Except Exn Reply}
    (hstep : deviceStep img s c = .ok (out, s')) :
    s'.jobs = s.jobs ∨
      (∃ i sess, c.op = .createDeviceJob (some i) true ∧ s.sessions.get? i = some sess ∧
        sess.status = .initialized ∧ c.env.mem 0 = true ∧
        s'.jobs = s.jobs.alloc { session := i, id := c.env.jobId.val, status := .created }) ∨
      (∃ h jb jb', jobOf c.op = some h ∧ s.jobs.get? h = some jb ∧ s'.jobs = s.jobs.set h jb' ∧
        jb'.id = jb.id ∧ jb'.session = jb.session) ∨
      ∃ h, c.op = .jobFree (some h) ∧ s'.jobs = s.jobs.free h := by
  rcases c with ⟨op, env⟩
  -- Every update is of the job the call names, and keeps its identity.
  have hset : ∀ {h : Nat} {jb : DeviceJob R} (jb' : DeviceJob R), jobOf op = some h →
      s.jobs.get? h = some jb → s'.jobs = s.jobs.set h jb' → jb'.id = jb.id →
      jb'.session = jb.session → ∃ h jb jb', jobOf op = some h ∧ s.jobs.get? h = some jb ∧
        s'.jobs = s.jobs.set h jb' ∧ jb'.id = jb.id ∧ jb'.session = jb.session :=
    fun jb' hop hget hjobs hid hsession => ⟨_, _, jb', hop, hget, hjobs, hid, hsession⟩
  cases op with
  | deviceInitialize => exact Or.inl (by rw [(answer_eq_ok.mp hstep).2])
  | deviceFinalize => exact Or.inl (by rw [(answer_eq_ok.mp hstep).2])
  | sessionAlloc session =>
      rcases deviceSessionAlloc_cases hstep with hs | ⟨_, hs⟩
      · exact Or.inl (sameButGen_jobs hs)
      · exact Or.inl (by rw [hs])
  | sessionInit session =>
      rcases deviceSessionInit_cases hstep with ⟨hs, _⟩ | ⟨_, _, _, _, _, _, hs⟩
      · exact Or.inl (sameButGen_jobs hs)
      · exact Or.inl (by rw [hs])
  | sessionFree session =>
      rcases deviceSessionFree_cases hstep with ⟨_, hs | ⟨_, _, _, _, hs⟩⟩
      · exact Or.inl (by rw [hs])
      · exact Or.inl (by rw [hs])
  | sessionSetParameter session param size value =>
      rcases deviceSessionSetParameter_cases hstep with hs | ⟨_, _, _, _, _, _, _, hs⟩
      · exact Or.inl (sameButGen_jobs hs)
      · exact Or.inl (by rw [hs])
  | createDeviceJob session job =>
      rcases deviceSessionCreateDeviceJob_cases hstep with
        ⟨hs, _⟩ | ⟨i, sess, hsession, hsess, hst, ⟨hjob, hmem⟩, _, hs⟩
      · exact Or.inl (sameButGen_jobs hs)
      · exact Or.inr (Or.inl ⟨i, sess, by rw [hsession, hjob], hsess, hst, hmem, by rw [hs]⟩)
  | retrieveDeviceJobById => exact Or.inl (by rw [(answer_eq_ok.mp hstep).2])
  | jobFree job =>
      rcases deviceJobFree_cases hstep with ⟨_, hs | ⟨i, jb, hjob, _, hs⟩⟩
      · exact Or.inl (by rw [hs])
      · exact Or.inr (Or.inr (Or.inr ⟨i, by rw [hjob], by rw [hs]⟩))
  | jobSetParameter job param size value =>
      rcases deviceJobSetParameter_cases hstep with hs | ⟨i, jb, n, hjob, hget, _, _, hs⟩
      · exact Or.inl (sameButGen_jobs hs)
      · exact Or.inr (Or.inr (Or.inl
          (hset { jb with numShots := n } hjob hget (by rw [hs]) rfl rfl)))
  | jobSetPrograms job format count sizes programs =>
      rcases deviceJobSetPrograms_cases hstep with
        ⟨hs, _⟩ | ⟨i, jb, _, _, newPrograms, hjob, _, _, hget, _, _, _, _, _, hs⟩
      · exact Or.inl (sameButGen_jobs hs)
      · exact Or.inr (Or.inr (Or.inl (hset { jb with format := format, programs := newPrograms }
          hjob hget (by rw [hs]) rfl rfl)))
  | jobGetProgramStatus job i => exact Or.inl (by rw [deviceJobGetProgramStatus_same hstep])
  | jobSubmit job =>
      rcases deviceJobSubmit_cases hstep with
        ⟨hs, _⟩ | ⟨i, jb, _, results, hjob, hget, _, _, _, _, _, _, hs⟩
      · exact Or.inl (sameButGen_jobs hs)
      · exact Or.inr (Or.inr (Or.inl (hset { jb with results := results, status := .running }
          hjob hget (by rw [hs]) rfl rfl)))
  | jobCancel job =>
      rcases deviceJobCancel_cases hstep with hs | ⟨i, jb, hjob, hget, _, _, hs⟩
      · exact Or.inl (sameButGen_jobs hs)
      · exact Or.inr (Or.inr (Or.inl
          (hset { jb with status := .canceled } hjob hget (by rw [hs]) rfl rfl)))
  | jobCheck job status =>
      rcases deviceJobCheck_cases hstep with hs | ⟨i, jb, hjob, hget, _, _, _, hs⟩
      · exact Or.inl (sameButGen_jobs hs)
      · exact Or.inr (Or.inr (Or.inl
          (hset { jb with status := .done } hjob hget (by rw [hs]) rfl rfl)))
  | jobWait job =>
      rcases deviceJobWait_cases hstep with hs | ⟨i, jb, hjob, hget, _, _, _, _, hs⟩
      · exact Or.inl (sameButGen_jobs hs)
      · exact Or.inr (Or.inr (Or.inl
          (hset { jb with status := .done } hjob hget (by rw [hs]) rfl rfl)))
  | query q args => exact Or.inl (by rw [(deviceStep_query hstep).2])

/-- A creation that succeeds puts a job with the drawn number behind a new
    handle. -/
theorem deviceStep_create {img : Image} {s s' : DeviceState R} {c : Call R}
    {out : Except Exn Reply} (hstep : deviceStep img s c = .ok (out, s')) {i : Nat}
    {sess : DeviceSession} (hop : c.op = .createDeviceJob (some i) true)
    (hget : s.sessions.get? i = some sess) (hst : sess.status = .initialized)
    (hmem : c.env.mem 0 = true) :
    out = .ok { status := .success, handle := some s.jobs.next } ∧
      s' = { s with
        gen := s.gen + 1
        jobs := s.jobs.alloc { session := i, id := c.env.jobId.val, status := .created } } := by
  simp only [deviceStep, hop, deviceSessionCreateDeviceJob, hget, hst, hmem, Bool.not_true,
    Bool.false_eq_true, ne_eq, not_true_eq_false, if_false, Except.ok.injEq, Prod.mk.injEq] at hstep
  exact ⟨hstep.1.symm, hstep.2.symm⟩

/-- A live job stays as it is under a call that does not name it. -/
theorem deviceStep_frame {img : Image} {s s' : DeviceState R} {c : Call R} {out : Except Exn Reply}
    (hstep : deviceStep img s c = .ok (out, s')) {h : Nat} {jb : DeviceJob R}
    (hget : s.jobs.get? h = some jb) (hname : jobOf c.op ≠ some h) :
    s'.jobs.get? h = some jb := by
  rcases deviceStep_jobs hstep with
    hs | ⟨_, _, _, _, _, _, hs⟩ | ⟨j, jb₁, jb₁', hj, hget₁, hs, _, _⟩ | ⟨j, hj, hs⟩
  · rw [hs, hget]
  · -- A new handle is not one in use.
    rw [hs, Heap.get?_alloc, if_neg (Nat.ne_of_lt (Heap.get?_lt_next hget)), hget]
  · have hne : h ≠ j := by
      intro hc
      rw [hc] at hname
      exact hname hj
    rw [hs, Heap.get?_set _ _ _ _ hget₁, if_neg hne, hget]
  · have hne : h ≠ j := by
      intro hc
      rw [hj, hc] at hname
      exact hname rfl
    rw [hs, Heap.get?_free, if_neg hne, hget]

end

end Qdmi
