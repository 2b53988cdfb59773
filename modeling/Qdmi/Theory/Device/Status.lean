import Qdmi.Theory.Device.Reachable
import Qdmi.Theory.SizeProtocol

/-!
# The Device Status

Whether the device is busy is one field, written by the operations of every
job. The law it is to follow is about all jobs at once: the device is busy if
and only if some live job is running, and idle otherwise.

A submission raises the status and makes a job run. Canceling a job, a check
that finds it finished and waiting for it lower the status, and none of the
three looks whether another job is running; `deviceStep_lowers` and
`deviceStep_raises` say what one call does to both sides of the law.
`deviceRuns_status_iff` draws the line: between an initialization and a
finalization the law holds in every state if and only if the status is never
lowered while another job runs.

## Main definitions

* `RunningAt`, `Running`: A live job is running.
* `StatusLaw`: The law of the device status.
* `Lowers`: A call lowers the status on behalf of a job.
* `LowersAlone`: It does so while no other job runs.
* `KeepsInitialized`, `FreesStopped`: The device is neither initialized nor
  finalized, and no running job is freed.
* `SameRunningBut`: The same jobs run, one handle aside.

## Theorems

* `statusQuery_answers`: The status query reports the device status.
* `deviceStep_lowers`, `deviceStep_raises`: What one call does to the status and
  the running jobs.
* `statusLaw_iff_lowersAlone`: The law after one call.
* `deviceRuns_status_iff`: When the law holds in every state of a run.
-/

namespace Qdmi

variable {R : Type}

/-- The job behind a handle is running. -/
def RunningAt (s : DeviceState R) (h : Nat) : Prop :=
  ∃ jb, s.jobs.get? h = some jb ∧ jb.status = .running

/-- Some live job is running. -/
def Running (s : DeviceState R) : Prop := ∃ h, RunningAt s h

/-- The device is busy if and only if a job is running, and idle otherwise. -/
structure StatusLaw (s : DeviceState R) : Prop where
  busy : s.status = .busy ↔ Running s
  idle : ¬ Running s → s.status = .idle

/-- A call lowers the device status on behalf of a job: it cancels a job that is
    not done, finds a running one finished, or waits for one that is not
    terminal. -/
def Lowers (s : DeviceState R) (c : Call R) (h : Nat) : Prop :=
  ∃ jb, s.jobs.get? h = some jb ∧
    ((c.op = .jobCancel (some h) ∧ jb.status ≠ .done) ∨
      (c.op = .jobCheck (some h) true ∧ jb.status = .running ∧ c.env.bit = true) ∨
      (c.op = .jobWait (some h) ∧ jb.status ≠ .done ∧ jb.status ≠ .canceled ∧
        jb.status ≠ .failed))

/-- The status is lowered on behalf of a job only while no other job runs. -/
def LowersAlone (s : DeviceState R) (c : Call R) : Prop :=
  ∀ h, Lowers s c h → ∀ h', h' ≠ h → ¬ RunningAt s h'

/-- The device is neither initialized nor finalized. -/
def KeepsInitialized (_ : DeviceState R) (c : Call R) : Prop :=
  c.op ≠ .deviceInitialize ∧ c.op ≠ .deviceFinalize

/-- No running job is freed. -/
def FreesStopped (s : DeviceState R) (c : Call R) : Prop :=
  ∀ h, c.op = .jobFree (some h) → ¬ RunningAt s h

/-- Two states in which the same jobs run, one handle aside. -/
def SameRunningBut (h : Nat) (s s' : DeviceState R) : Prop :=
  ∀ h', h' ≠ h → (RunningAt s' h' ↔ RunningAt s h')

theorem runningAt_of_jobs_eq {s s' : DeviceState R} (hjobs : s'.jobs = s.jobs) (h : Nat) :
    RunningAt s' h ↔ RunningAt s h := by
  rw [RunningAt, RunningAt, hjobs]

/-- After an update of one job, only that job may have started or stopped. -/
theorem runningAt_of_jobs_set {s s' : DeviceState R} {i : Nat} {jb jb' : DeviceJob R}
    (hget : s.jobs.get? i = some jb) (hjobs : s'.jobs = s.jobs.set i jb') :
    (RunningAt s' i ↔ jb'.status = .running) ∧ SameRunningBut i s s' := by
  have hcell : ∀ h, s'.jobs.get? h = if h = i then some jb' else s.jobs.get? h := by
    intro h
    rw [hjobs, Heap.get?_set _ _ _ _ hget]
  refine ⟨?_, fun h hne => ?_⟩
  · rw [RunningAt, hcell, if_pos rfl]
    constructor
    · rintro ⟨jb₁, hjb₁, hst⟩
      rw [Option.some.inj hjb₁]
      exact hst
    · exact fun hst => ⟨jb', rfl, hst⟩
  · rw [RunningAt, hcell, if_neg hne, RunningAt]

/-- An update that keeps the status of a job changes nothing about what runs. -/
theorem runningAt_of_same_status {s s' : DeviceState R} {i : Nat} {jb jb' : DeviceJob R}
    (hget : s.jobs.get? i = some jb) (hjobs : s'.jobs = s.jobs.set i jb')
    (hst : jb'.status = jb.status) (h : Nat) : RunningAt s' h ↔ RunningAt s h := by
  rcases runningAt_of_jobs_set hget hjobs with ⟨hat, hother⟩
  by_cases hi : h = i
  · rw [hi, hat, hst, RunningAt, hget]
    constructor
    · exact fun hrun => ⟨jb, rfl, hrun⟩
    · rintro ⟨jb₁, hjb₁, hrun⟩
      rw [Option.some.inj hjb₁]
      exact hrun
  · exact hother h hi

/-- The status query of an initialized session reports the device status. -/
theorem statusQuery_answers (img : Image) {s : DeviceState R} {i : Nat} {sess : DeviceSession}
    (hget : s.sessions.get? i = some sess) (hinit : sess.status = .initialized) :
    Answers (deviceSessionQueryDeviceProperty img s (some i) DeviceProperty.status.code)
      (enumBytes s.status.code) := by
  unfold deviceSessionQueryDeviceProperty
  refine guarded_answers ?_ (by decide)
  -- The macros in front of the status are for other properties.
  have hother : ∀ p : DeviceProperty, p ≠ .status →
      DeviceProperty.status.code ≠ p.code := by
    intro p hp
    cases p
    all_goals first | exact absurd rfl hp | decide
  simp only [hget, hinit, ne_eq, not_true_eq_false, if_false, addStringProperty,
    if_neg (hother .id (by decide)), if_neg (hother .name (by decide)),
    if_neg (hother .version (by decide)), if_neg (hother .libraryversion (by decide))]
  exact addSingleValueProperty_answers _ _ _

section

variable [Zero R] [DecidableEq R] [Add R] [Mul R] [Div R] [DoubleRepr R]

/-- A call that lowers the status makes the device idle, and its job is not
    running afterwards. -/
theorem deviceStep_lowers {img : Image} {s s' : DeviceState R} {c : Call R}
    {out : Except Exn Reply} (hstep : deviceStep img s c = .ok (out, s')) {h : Nat}
    (hlow : Lowers s c h) :
    s'.status = .idle ∧ SameRunningBut h s s' ∧ ¬ RunningAt s' h := by
  rcases hlow with ⟨jb, hget, hcase⟩
  -- In each case the job is set to a status that is not `running`.
  have hset : ∀ st, st ≠ JobStatus.running → s'.status = .idle →
      s'.jobs = s.jobs.set h { jb with status := st } →
      s'.status = .idle ∧ SameRunningBut h s s' ∧ ¬ RunningAt s' h := by
    intro st hne hidle hjobs
    rcases runningAt_of_jobs_set hget hjobs with ⟨hat, hother⟩
    exact ⟨hidle, hother, fun hrun => hne (hat.mp hrun)⟩
  rcases hcase with ⟨hop, hdone⟩ | ⟨hop, hst, hbit⟩ | ⟨hop, hdone, hcan, hfail⟩
  · simp only [deviceStep, hop, deviceJobCancel, hget, if_neg hdone] at hstep
    have hs := (answer_eq_ok.mp hstep).2
    exact hset .canceled (by decide) (by rw [hs]) (by rw [hs])
  · simp only [deviceStep, hop, deviceJobCheck, hget, hst, hbit, Bool.not_true, ne_eq,
      not_true_eq_false, if_true, if_false, Bool.false_eq_true, Except.ok.injEq,
      Prod.mk.injEq] at hstep
    have hs := hstep.2.symm
    exact hset .done (by decide) (by rw [hs]) (by rw [hs])
  · simp only [deviceStep, hop, deviceJobWait, hget, hdone, hcan, hfail, or_self, if_false]
      at hstep
    have hs := (answer_eq_ok.mp hstep).2
    exact hset .done (by decide) (by rw [hs]) (by rw [hs])

/-- Any other call keeps the device status and the running jobs, unless it frees
    a job or submits one. -/
theorem deviceStep_raises {img : Image} {s s' : DeviceState R} {c : Call R}
    {out : Except Exn Reply} (hstep : deviceStep img s c = .ok (out, s'))
    (hkeeps : KeepsInitialized s c) (hlow : ∀ h, ¬ Lowers s c h) :
    (s'.status = s.status ∧ ∀ h, RunningAt s' h ↔ RunningAt s h) ∨
    (∃ h, c.op = .jobFree (some h) ∧ s'.status = s.status ∧ SameRunningBut h s s' ∧
      ¬ RunningAt s' h) ∨
    (s'.status = .busy ∧ Running s') := by
  rcases c with ⟨op, env⟩
  have hsame : SameButGen s s' →
      (s'.status = s.status ∧ ∀ h, RunningAt s' h ↔ RunningAt s h) := by
    intro hs
    refine ⟨by rw [hs], fun h => runningAt_of_jobs_eq (sameButGen_jobs hs) h⟩
  cases op with
  | deviceInitialize => exact absurd rfl hkeeps.1
  | deviceFinalize => exact absurd rfl hkeeps.2
  | sessionAlloc session =>
      rcases deviceSessionAlloc_cases hstep with hs | ⟨_, hs⟩
      · exact Or.inl (hsame hs)
      · exact Or.inl ⟨by rw [hs], runningAt_of_jobs_eq (by rw [hs])⟩
  | sessionInit session =>
      rcases deviceSessionInit_cases hstep with ⟨hs, _⟩ | ⟨_, _, _, _, _, _, hs⟩
      · exact Or.inl (hsame hs)
      · exact Or.inl ⟨by rw [hs], runningAt_of_jobs_eq (by rw [hs])⟩
  | sessionFree session =>
      rcases deviceSessionFree_cases hstep with ⟨_, hs | ⟨_, _, _, _, hs⟩⟩
      · exact Or.inl ⟨by rw [hs], runningAt_of_jobs_eq (by rw [hs])⟩
      · exact Or.inl ⟨by rw [hs], runningAt_of_jobs_eq (by rw [hs])⟩
  | sessionSetParameter session param size value =>
      rcases deviceSessionSetParameter_cases hstep with hs | ⟨_, _, _, _, _, _, _, hs⟩
      · exact Or.inl (hsame hs)
      · exact Or.inl ⟨by rw [hs], runningAt_of_jobs_eq (by rw [hs])⟩
  | createDeviceJob session job =>
      rcases deviceSessionCreateDeviceJob_cases hstep with ⟨hs, _⟩ | ⟨i, sess, _, _, _, _, _, hs⟩
      · exact Or.inl (hsame hs)
      · refine Or.inl ⟨by rw [hs], fun h => ?_⟩
        rw [RunningAt, RunningAt, hs, Heap.get?_alloc]
        by_cases hnext : h = s.jobs.next
        · -- The new job is in `created`, and nothing was behind its handle.
          rw [if_pos hnext, hnext, Heap.get?_next]
          simp only [Option.some.injEq, exists_eq_left', reduceCtorEq, false_and, exists_false]
        · rw [if_neg hnext]
  | retrieveDeviceJobById =>
      rw [(answer_eq_ok.mp hstep).2]
      exact Or.inl ⟨rfl, fun _ => Iff.rfl⟩
  | jobFree job =>
      rcases deviceJobFree_cases hstep with ⟨_, hs | ⟨i, jb, hjob, _, hs⟩⟩
      · rw [hs]
        exact Or.inl ⟨rfl, fun _ => Iff.rfl⟩
      · refine Or.inr (Or.inl ⟨i, by rw [hjob], by rw [hs], fun h hne => ?_, ?_⟩)
        · rw [RunningAt, RunningAt, hs, Heap.get?_free, if_neg hne]
        · rw [RunningAt, hs, Heap.get?_free, if_pos rfl]
          simp only [reduceCtorEq, false_and, exists_false, not_false_eq_true]
  | jobSetParameter job param size value =>
      rcases deviceJobSetParameter_cases hstep with hs | ⟨i, jb, n, _, hget, _, _, hs⟩
      · exact Or.inl (hsame hs)
      · exact Or.inl ⟨by rw [hs], runningAt_of_same_status hget (congrArg DeviceState.jobs hs) rfl⟩
  | jobSetPrograms job format count sizes programs =>
      rcases deviceJobSetPrograms_cases hstep with
        ⟨hs, _⟩ | ⟨i, jb, _, _, _, _, _, _, hget, _, _, _, _, _, hs⟩
      · exact Or.inl (hsame hs)
      · exact Or.inl ⟨by rw [hs], runningAt_of_same_status hget (congrArg DeviceState.jobs hs) rfl⟩
  | jobGetProgramStatus job i =>
      rw [deviceJobGetProgramStatus_same hstep]
      exact Or.inl ⟨rfl, fun _ => Iff.rfl⟩
  | jobSubmit job =>
      rcases deviceJobSubmit_cases hstep with ⟨hs, _⟩ | ⟨i, jb, n, results, _, hget, _, _, _, _, _,
        _, hs⟩
      · exact Or.inl (hsame hs)
      · refine Or.inr (Or.inr ⟨by rw [hs], i, ?_⟩)
        rw [(runningAt_of_jobs_set hget (by rw [hs])).1]
  | jobCancel job =>
      rcases deviceJobCancel_cases hstep with hs | ⟨i, jb, hjob, hget, hst, _, hs⟩
      · exact Or.inl (hsame hs)
      · exact absurd ⟨jb, hget, Or.inl ⟨by rw [hjob], hst⟩⟩ (hlow i)
  | jobCheck job status =>
      rcases deviceJobCheck_cases hstep with hs | ⟨i, jb, hjob, hget, hst, ⟨hstatus, hbit⟩, _, hs⟩
      · exact Or.inl (hsame hs)
      · exact absurd ⟨jb, hget, Or.inr (Or.inl ⟨by rw [hjob, hstatus], hst, hbit⟩)⟩ (hlow i)
  | jobWait job =>
      rcases deviceJobWait_cases hstep with hs | ⟨i, jb, hjob, hget, hdone, hcan, hfail, _, hs⟩
      · exact Or.inl (hsame hs)
      · exact absurd ⟨jb, hget, Or.inr (Or.inr ⟨by rw [hjob], hdone, hcan, hfail⟩)⟩ (hlow i)
  | query q args =>
      rw [(deviceStep_query hstep).2]
      exact Or.inl ⟨rfl, fun _ => Iff.rfl⟩

/-- The law holds after a call if and only if the call lowers the status for the
    last running job. -/
theorem statusLaw_iff_lowersAlone {img : Image} {s s' : DeviceState R} {c : Call R}
    {out : Except Exn Reply} (hstep : deviceStep img s c = .ok (out, s'))
    (hkeeps : KeepsInitialized s c) (hfree : FreesStopped s c) (hlaw : StatusLaw s) :
    StatusLaw s' ↔ LowersAlone s c := by
  by_cases hlow : ∃ h, Lowers s c h
  · rcases hlow with ⟨h, hl⟩
    rcases deviceStep_lowers hstep hl with ⟨hidle, hother, hat⟩
    constructor
    · intro hlaw' h₁ hl₁ h' hne hrun
      -- The job behind `h'` runs on, but the device is idle.
      rcases deviceStep_lowers hstep hl₁ with ⟨_, hother₁, _⟩
      have hbusy := hlaw'.busy.mpr ⟨h', (hother₁ h' hne).mpr hrun⟩
      exact absurd (hidle.symm.trans hbusy) (by decide)
    · intro halone
      have hnone : ¬ Running s' := by
        rintro ⟨h', hrun⟩
        by_cases hh : h' = h
        · rw [hh] at hrun
          exact hat hrun
        · exact halone h hl h' hh ((hother h' hh).mp hrun)
      refine ⟨?_, fun _ => hidle⟩
      rw [hidle]
      exact ⟨fun hc => absurd hc (by decide), fun hrun => absurd hrun hnone⟩
  · have hnot : ∀ h, ¬ Lowers s c h := fun h hl => hlow ⟨h, hl⟩
    refine ⟨fun _ h hl => absurd hl (hnot h), fun _ => ?_⟩
    -- A law that only looks at the status and at the running jobs is kept.
    have hkept : s'.status = s.status → (∀ h, RunningAt s' h ↔ RunningAt s h) → StatusLaw s' := by
      intro hst hrun
      have hiff : Running s' ↔ Running s := exists_congr hrun
      exact ⟨by rw [hst, hiff, hlaw.busy], fun hn => by rw [hst, hlaw.idle (hiff.not.mp hn)]⟩
    rcases deviceStep_raises hstep hkeeps hnot with
      ⟨hst, hrun⟩ | ⟨h, hop, hst, hother, hat⟩ | ⟨hbusy, hrun⟩
    · exact hkept hst hrun
    · refine hkept hst fun h' => ?_
      by_cases hh : h' = h
      · rw [hh]
        exact ⟨fun hr => absurd hr hat, fun hr => absurd hr (hfree h hop)⟩
      · exact hother h' hh
    · exact ⟨⟨fun _ => hrun, fun _ => hbusy⟩, fun hn => absurd hrun hn⟩

/-- Between an initialization and a finalization, with jobs freed only when they
    are not running, the law holds in every state if and only if no job was
    running at the start and the status is never lowered while another job
    runs; and an initialized session is told the status as it is. -/
theorem deviceRuns_status_iff (img : Image) (tr : List (DeviceEntry R)) (s₀ s₁ s : DeviceState R)
    (env : Env R) (out : Except Exn Reply)
    (hstart : deviceStep img s₀ ⟨.deviceInitialize, env⟩ = .ok (out, s₁))
    (hrun : Runs (deviceStep img) s₁ tr s) (hkeeps : Respects KeepsInitialized tr)
    (hfree : Respects FreesStopped tr) :
    ((StatusLaw s₁ ∧ ∀ e ∈ tr, StatusLaw e.post) ↔ ¬ Running s₀ ∧ Respects LowersAlone tr) ∧
    ∀ (t : DeviceState R) i sess, t.sessions.get? i = some sess → sess.status = .initialized →
      Answers (deviceSessionQueryDeviceProperty img t (some i) DeviceProperty.status.code)
        (enumBytes t.status.code) := by
  refine ⟨?_, fun t i sess hget hinit => statusQuery_answers img hget hinit⟩
  have hs₁ : s₁ = { s₀ with status := .idle } := (answer_eq_ok.mp hstart).2
  have hsame : Running s₁ ↔ Running s₀ :=
    exists_congr (runningAt_of_jobs_eq (by rw [hs₁]))
  -- The device is idle at the start, so the law holds there if nothing runs.
  have hfirst : StatusLaw s₁ ↔ ¬ Running s₀ := by
    rw [← hsame]
    have hidle : s₁.status = .idle := by rw [hs₁]
    refine ⟨fun hlaw hrunning => ?_, fun hnone => ⟨⟨fun hbusy => ?_, fun hr => absurd hr hnone⟩,
      fun _ => hidle⟩⟩
    · exact absurd (hidle.symm.trans (hlaw.busy.mpr hrunning)) (by decide)
    · exact absurd (hidle.symm.trans hbusy) (by decide)
  rw [← hfirst]
  refine and_congr_right fun hlaw => ?_
  refine runs_forall_iff (D := fun s c => KeepsInitialized s c ∧ FreesStopped s c) hrun
    (fun e he => ⟨hkeeps e he, hfree e he⟩) hlaw ?_
  exact fun _ _ _ _ hD hstep hlaw => statusLaw_iff_lowersAlone hstep hD.1 hD.2 hlaw

end

/-- A call that neither initializes nor finalizes the device nor frees a job. -/
def keepsObjects : Op → Bool
  | .deviceInitialize | .deviceFinalize | .jobFree _ => false
  | _ => true

theorem keepsInitialized_of_keepsObjects {s : DeviceState R} {c : Call R}
    (h : keepsObjects c.op = true) : KeepsInitialized s c ∧ FreesStopped s c := by
  refine ⟨⟨fun hop => ?_, fun hop => ?_⟩, fun i hop => ?_⟩
  all_goals
    rw [hop] at h
    exact absurd h (by simp only [keepsObjects, Bool.false_eq_true, not_false_eq_true])

/-- The job on whose behalf a call may lower the device status. -/
def lowersFor : Op → Option Nat
  | .jobCancel job => job
  | .jobCheck job true => job
  | .jobWait job => job
  | _ => none

/-- Whether the jobs that run are all the one a call may lower the status for. -/
def othersRest (s : DeviceState R) (op : Op) : Bool :=
  (List.range s.jobs.next).all (fun i =>
    (s.jobs.get? i).all (fun jb => jb.status != .running || (lowersFor op).all (fun h => h == i)))

theorem lowersAlone_of_othersRest {s : DeviceState R} {c : Call R}
    (h : othersRest s c.op = true) : LowersAlone s c := by
  rintro i ⟨_, _, hlow⟩ i' hne ⟨jb, hget, hst⟩
  have hop : lowersFor c.op = some i := by
    rcases hlow with ⟨hop, _⟩ | ⟨hop, _⟩ | ⟨hop, _⟩
    all_goals
      rw [hop]
      rfl
  have hall := List.all_eq_true.mp h i' (List.mem_range.mpr (Heap.get?_lt_next hget))
  simp only [hget, hst, hop, Option.all_some, bne_self_eq_false, Bool.false_or,
    beq_iff_eq] at hall
  exact hne hall.symm

/-- The calls behind the initialization of the device, with a job that runs. -/
def sampleJobs : List Op := sampleSetup.tail ++ [.jobSubmit (some 0)]

/-- Create and configure another job. -/
def secondJob : List Op := [
  .createDeviceJob (some 0) true,
  .jobSetPrograms (some 1) ProgramFormat.qasm2.code 1 (some (fun _ => 2))
    (some (fun _ => some (fun i => if i = 0 then 120 else 0)))]

/-- The device status, and the statuses of the first two jobs. -/
def statusView (s : DeviceState ℚ) : DeviceStatus × Option JobStatus × Option JobStatus :=
  (s.status, (s.jobs.get? 0).map DeviceJob.status, (s.jobs.get? 1).map DeviceJob.status)

/-- The law holds through a run of two jobs, the second of which is waited for after
    the first has been found done. -/
theorem deviceRuns_status_sample :
    ∃ tr s₁ s, Runs (deviceStep (R := ℚ) sampleImage) s₁ tr s ∧
      statusView s = (.idle, some .done, some .done) ∧ StatusLaw s₁ ∧
      ∀ e ∈ tr, StatusLaw e.post := by
  rcases runs_played { status := .idle }
    (callsIn sampleEnv (sampleJobs ++ secondJob ++ [.jobCheck (some 0) true, .jobSubmit (some 1),
      .jobWait (some 1)]))
    (fun p => some (p.1.all (fun e => keepsObjects e.label.op && othersRest e.pre e.label.op),
      statusView p.2))
    (true, .idle, some .done, some .done) rfl with ⟨tr, s, hrun, _, hv⟩
  rw [Option.some.injEq, Prod.mk.injEq, List.all_eq_true] at hv
  have hcheck : ∀ e ∈ tr, keepsObjects e.label.op = true ∧ othersRest e.pre e.label.op = true :=
    fun e he => (Bool.and_eq_true _ _).mp (hv.1 e he)
  have hnone : ¬ Running ({} : DeviceState ℚ) := by
    rintro ⟨h, jb, hget, _⟩
    exact absurd hget (by simp only [Heap.get?_empty, reduceCtorEq, not_false_eq_true])
  have hlaw := (deviceRuns_status_iff sampleImage tr {} _ s sampleEnv _ rfl hrun
    (fun e he => (keepsInitialized_of_keepsObjects (hcheck e he).1).1)
    (fun e he => (keepsInitialized_of_keepsObjects (hcheck e he).1).2)).1.mpr
    ⟨hnone, fun e he => lowersAlone_of_othersRest (hcheck e he).2⟩
  exact ⟨tr, _, s, hrun, hv.2, hlaw.1, hlaw.2⟩

/-- Canceling one of two running jobs makes the device idle. -/
theorem idle_while_running :
    ∃ tr s₁ s, deviceStep (R := ℚ) sampleImage {} ⟨.deviceInitialize, sampleEnv⟩ =
        .ok (.ok { status := .success }, s₁) ∧
      Runs (deviceStep sampleImage) s₁ tr s ∧ Respects KeepsInitialized tr ∧
      Respects FreesStopped tr ∧ Running s ∧ ¬ StatusLaw s := by
  rcases runs_played { status := .idle }
    (callsIn sampleEnv (sampleJobs ++ secondJob ++ [.jobSubmit (some 1), .jobCancel (some 0)]))
    (fun p => some (p.1.all (fun e => keepsObjects e.label.op), statusView p.2))
    (true, .idle, some .canceled, some .running) rfl with ⟨tr, s, hrun, _, hv⟩
  rw [Option.some.injEq, Prod.mk.injEq, List.all_eq_true, statusView, Prod.mk.injEq,
    Prod.mk.injEq] at hv
  rcases hv with ⟨hcheck, hidle, _, hsecond⟩
  rcases Option.map_eq_some_iff.mp hsecond with ⟨jb, hget, hst⟩
  have hrunning : Running s := ⟨1, jb, hget, hst⟩
  refine ⟨tr, _, s, rfl, hrun, fun e he => (keepsInitialized_of_keepsObjects (hcheck e he)).1,
    fun e he => (keepsInitialized_of_keepsObjects (hcheck e he)).2, hrunning, fun hlaw => ?_⟩
  exact absurd (hidle.symm.trans (hlaw.busy.mpr hrunning)) (by decide)

end Qdmi
