import Qdmi.Theory.Device.Lifecycle
import Qdmi.Theory.Driver.Discipline
import Qdmi.Theory.Stack.Run

/-!
# What a Client Holds and What Lives in the Libraries

The client of the driver holds sessions, devices and jobs of the driver. The
libraries keep device sessions and device jobs of their own, which no client ever
sees. In every state that clients can reach the two sides correspond one to one:
behind every device a client could use there is one device session, behind every
job one device job of the session of its device, and there is nothing else in any
library. In particular nothing is left when the last session is freed.

The correspondence is a reading of the invariant of the stack. The books name
things by the numbers of the driver, and their names are taken away here.

## Main definitions

* `sessionBehind`, `jobBehind`: What is behind a device and behind a job.
* `Corresponds`: The two sides correspond one to one.

## Theorems

* `stackRuns_corresponds`: They do behind every run.
-/

namespace Qdmi

namespace Driver

variable {R : Type}

/-- The library and the device session behind a device. -/
def sessionBehind (t : Stack R) (dev : DeviceHandle) : Option ((Nat × List UInt8) × Nat) :=
  (deviceOf t.driver dev).bind (fun d =>
    ((t.world d.library.key).session d.deviceSession).map (fun p => (d.library.key, p)))

/-- The library and the device job behind a job. -/
def jobBehind (t : Stack R) (j : Nat) : Option ((Nat × List UInt8) × Nat) :=
  (t.driver.jobs.get? j).bind (fun jb => (deviceOf t.driver jb.device).bind (fun d =>
    ((t.world d.library.key).job jb.deviceJob).map (fun p => (d.library.key, p))))

/-- What a client holds and what lives in the libraries correspond one to one. -/
structure Corresponds (t : Stack R) : Prop where
  online : ∀ key, (t.world key).device.status ≠ .offline ↔
    key ∈ t.driver.libraries.map Library.key
  sessions : ∀ key p, (∃ sess, (t.world key).device.sessions.get? p = some sess) ↔
    ∃! dev, sessionBehind t dev = some (key, p)
  jobs : ∀ key p, (∃ djb, (t.world key).device.jobs.get? p = some djb) ↔
    ∃! j, jobBehind t j = some (key, p)
  session : ∀ dev sess d, deviceAt t.driver dev = some (sess, d) → ∃ key p token,
    sessionBehind t dev = some (key, p) ∧ sess.token = some token ∧
    (t.world key).device.sessions.get? p = some { token := token ++ [0], status := .initialized }
  job : ∀ j jb, t.driver.jobs.get? j = some jb → ∃ key p djb, jobBehind t j = some (key, p) ∧
    (t.world key).device.jobs.get? p = some djb ∧
    sessionBehind t jb.device = some (key, djb.session)
  idle : t.driver.count = 0 → ∀ key, (t.world key).device.status = .offline ∧
    (∀ p, (t.world key).device.sessions.get? p = none) ∧
    ∀ p, (t.world key).device.jobs.get? p = none

theorem sessionBehind_eq_some {t : Stack R} {dev : DeviceHandle} {key : Nat × List UInt8}
    {p : Nat} :
    sessionBehind t dev = some (key, p) ↔ ∃ d, deviceOf t.driver dev = some d ∧
      d.library.key = key ∧ (t.world d.library.key).session d.deviceSession = some p := by
  simp only [sessionBehind, Option.bind_eq_some_iff, Option.map_eq_some_iff, Prod.mk.injEq]
  refine exists_congr fun d => and_congr_right fun _ => ?_
  exact ⟨fun ⟨q, hq, hkey, hp⟩ => ⟨hkey, hp ▸ hq⟩, fun ⟨hkey, hp⟩ => ⟨p, hp, hkey, rfl⟩⟩

theorem jobBehind_eq_some {t : Stack R} {j : Nat} {key : Nat × List UInt8} {p : Nat} :
    jobBehind t j = some (key, p) ↔ ∃ jb d, t.driver.jobs.get? j = some jb ∧
      deviceOf t.driver jb.device = some d ∧ d.library.key = key ∧
      (t.world d.library.key).job jb.deviceJob = some p := by
  simp only [jobBehind, Option.bind_eq_some_iff, Option.map_eq_some_iff, Prod.mk.injEq]
  constructor
  · rintro ⟨jb, hget, d, hdev, q, hq, hkey, rfl⟩
    exact ⟨jb, d, hget, hdev, hkey, hq⟩
  · rintro ⟨jb, d, hget, hdev, hkey, hp⟩
    exact ⟨jb, hget, d, hdev, p, hp, hkey, rfl⟩

/-- A number that is held belongs to a device, and to one only. -/
theorem sessions_correspond {t : Stack R} (hinv : StackInv t) (key : Nat × List UInt8) (p : Nat) :
    (∃ sess, (t.world key).device.sessions.get? p = some sess) ↔
      ∃! dev, sessionBehind t dev = some (key, p) := by
  have hnamed := (hinv.mirrors key).sessions
  constructor
  · rintro ⟨sess, hget⟩
    rcases hnamed.named p sess hget with ⟨n, ⟨dev, d, hdev, rfl, rfl⟩, hp⟩
    refine ⟨dev, sessionBehind_eq_some.mpr ⟨d, hdev, rfl, hp⟩, fun dev' hdev' => ?_⟩
    rcases sessionBehind_eq_some.mp hdev' with ⟨d', hd', hkey, hp'⟩
    rw [hkey] at hp'
    have hheld' : (owned t.driver).held d.library.key (.session d'.deviceSession) :=
      ⟨dev', d', hd', hkey.symm, rfl⟩
    exact hinv.driver.sessionUnique dev' dev d' d hd' hdev
      (hnamed.unique _ _ p hheld' ⟨dev, d, hdev, rfl, rfl⟩ hp' hp)
  · rintro ⟨dev, hdev, _⟩
    rcases sessionBehind_eq_some.mp hdev with ⟨d, hd, rfl, hp⟩
    rcases hnamed.live d.deviceSession ⟨dev, d, hd, rfl, rfl⟩ with ⟨q, sess, hq, hget⟩
    rw [hp, Option.some.injEq] at hq
    exact ⟨sess, hq ▸ hget⟩

/-- The same for jobs. -/
theorem jobs_correspond {t : Stack R} (hinv : StackInv t) (key : Nat × List UInt8) (p : Nat) :
    (∃ djb, (t.world key).device.jobs.get? p = some djb) ↔
      ∃! j, jobBehind t j = some (key, p) := by
  have hnamed := (hinv.mirrors key).jobs
  constructor
  · rintro ⟨djb, hget⟩
    rcases hnamed.named p djb hget with ⟨n, ⟨j, jb, d, hj, hdev, rfl, rfl⟩, hp⟩
    refine ⟨j, jobBehind_eq_some.mpr ⟨jb, d, hj, hdev, rfl, hp⟩, fun j' hj' => ?_⟩
    rcases jobBehind_eq_some.mp hj' with ⟨jb', d', hget', hdev', hkey, hp'⟩
    rw [hkey] at hp'
    have hheld' : (owned t.driver).held d.library.key (.job jb'.deviceJob) :=
      ⟨j', jb', d', hget', hdev', hkey.symm, rfl⟩
    exact hinv.driver.jobUnique j' j jb' jb hget' hj
      (hnamed.unique _ _ p hheld' ⟨j, jb, d, hj, hdev, rfl, rfl⟩ hp' hp)
  · rintro ⟨j, hj, _⟩
    rcases jobBehind_eq_some.mp hj with ⟨jb, d, hget, hdev, rfl, hp⟩
    rcases hnamed.live jb.deviceJob ⟨j, jb, d, hget, hdev, rfl, rfl⟩ with ⟨q, djb, hq, hlive⟩
    rw [hp, Option.some.injEq] at hq
    exact ⟨djb, hq ▸ hlive⟩

/-- The correspondence, read off the invariant. -/
theorem corresponds_of_inv {t : Stack R} (hinv : StackInv t) : Corresponds t where
  online key := ((hinv.mirrors key).opened).symm
  sessions := sessions_correspond hinv
  jobs := jobs_correspond hinv
  session dev sess d hdev := by
    rcases hinv.ready dev sess d hdev with ⟨token, htoken, hat⟩
    rcases Option.bind_eq_some_iff.mp hat with ⟨p, hp, hget⟩
    exact ⟨_, p, token, sessionBehind_eq_some.mpr ⟨d, (deviceOf_of_deviceAt hdev).2, rfl, hp⟩,
      htoken, hget⟩
  job j jb hget := by
    rcases hinv.driver.jobDevice j jb hget with ⟨d, hdev⟩
    rcases hinv.joined j jb d hget hdev with ⟨djb, hat, hname⟩
    rcases Option.bind_eq_some_iff.mp hat with ⟨p, hp, hlive⟩
    exact ⟨_, p, djb, jobBehind_eq_some.mpr ⟨jb, d, hget, hdev, rfl, hp⟩, hlive,
      sessionBehind_eq_some.mpr ⟨d, hdev, rfl, hname⟩⟩
  idle hzero key := by
    have hempty := owned_empty hinv.driver hzero
    have hkey := hinv.mirrors key
    rw [hempty] at hkey
    exact ⟨not_not.mp (fun hne => hkey.opened.mpr hne), named_dead hkey.sessions (fun _ h => h),
      named_dead hkey.jobs (fun _ h => h)⟩

section

variable [Zero R] [DecidableEq R] [Add R] [Mul R] [Div R] [DoubleRepr R]

/-- Behind every run of clients that free jobs before their session, what they
    hold and what lives in the libraries correspond one to one. -/
theorem stackRuns_corresponds (addr : DeviceHandle → Nat) (img : Nat × List UInt8 → Image)
    (tr : List (StackEntry R)) (t : Stack R) (hrun : StackRuns addr img tr t)
    (hrule : Respects FreesJobs tr) : Corresponds t :=
  corresponds_of_inv (stackRuns_inv hrun hrule)

end

/-! ## A run of the stack -/

/-- Calls of a client, in an environment in which everything goes well. -/
def stackCalls (ops : List DriverOp) : List (StackCall ℚ) :=
  ops.map (fun op => ⟨⟨op, sampleEnv⟩, fun _ => Qdmi.sampleEnv, fun _ => true⟩)

/-- A client opens both devices of the sample configuration and submits a job on
    the second. -/
def submitOps : List DriverOp := [
  .sessionAlloc true,
  .sessionSetParameter (some 0) SessionParameter.token 2 (some (fun i => if i = 0 then 116 else 0)),
  .sessionInit (some 0), .sessionAlloc true,
  .deviceCreateJob (some { session := 0, index := 1 }) true,
  .jobSetPrograms (some 0) ProgramFormat.qasm2.code 1 (some (fun _ => 2))
    (some (fun _ => some (fun i => if i = 0 then 120 else 0))),
  .jobSubmit (some 0)]

/-- Calls whose run evaluates to some value, if its clients left no job. -/
theorem stackRuns_evaluated {α : Type} (ops : List DriverOp)
    (f : List (StackEntry ℚ) × Stack ℚ → Option α) (v : α)
    (h : (play (stackStep (R := ℚ) (fun _ => 0) (fun _ => sampleImage)) {}
      (stackCalls ops)).toOption.bind (fun p =>
        if (p.1.flatMap driverPart).all jobless then f p else none) = some v) :
    ∃ tr t, StackRuns (R := ℚ) (fun _ => 0) (fun _ => sampleImage) tr t ∧
      Respects FreesJobs tr ∧ f (tr, t) = some v := by
  rcases runs_of_evaluated h with ⟨tr, t, hrun, _, hv⟩
  dsimp only at hv
  split at hv
  · rename_i hjobless
    refine ⟨tr, t, hrun, fun e he => ?_, hv⟩
    exact freesJobsFirst_of_jobless hjobless _
      (List.mem_flatMap.mpr ⟨e, he, List.mem_singleton.mpr rfl⟩)
  · exact absurd hv (by simp only [reduceCtorEq, not_false_eq_true])

/-- Calls of a client behind other calls, if both evaluate and no job is left when
    a session is freed. -/
theorem stackRuns_continued {α : Type} (ops ops' : List DriverOp)
    (f : Stack ℚ → List (StackEntry ℚ) → Stack ℚ → Option α) (v : α)
    (h : (play (stackStep (R := ℚ) (fun _ => 0) (fun _ => sampleImage)) {}
      (stackCalls ops)).toOption.bind (fun p =>
        (play (stackStep (R := ℚ) (fun _ => 0) (fun _ => sampleImage)) p.2
          (stackCalls ops')).toOption.bind (fun q =>
            if ((p.1 ++ q.1).flatMap driverPart).all jobless then f p.2 q.1 q.2 else none)) =
              some v) :
    ∃ tr tr' t u, StackRuns (R := ℚ) (fun _ => 0) (fun _ => sampleImage) tr t ∧
      Respects FreesJobs tr ∧ Runs (stackStep (fun _ => 0) (fun _ => sampleImage)) t tr' u ∧
      Respects FreesJobs tr' ∧ tr'.map Entry.label = stackCalls ops' ∧ f t tr' u = some v := by
  rcases runs_of_evaluated h with ⟨tr, t, hrun, _, hcont⟩
  rcases runs_of_evaluated hcont with ⟨tr', u, hrun', hlabels, hv⟩
  dsimp only at hv
  split at hv
  · rename_i hjobless
    have hrules : Respects FreesJobs (tr ++ tr') := fun e he =>
      freesJobsFirst_of_jobless hjobless _
        (List.mem_flatMap.mpr ⟨e, he, List.mem_singleton.mpr rfl⟩)
    rcases respects_append.mp hrules with ⟨hrule, hrule'⟩
    exact ⟨tr, tr', t, u, hrun, hrule, hrun', hrule', hlabels, hv⟩
  · exact absurd hv (by simp only [reduceCtorEq, not_false_eq_true])

/-- The job is behind the job of the library, in the second device session. -/
theorem stackRuns_corresponds_sample :
    ∃ tr t, StackRuns (R := ℚ) (fun _ => 0) (fun _ => sampleImage) tr t ∧ tr.length = 7 ∧
      jobBehind t 0 = some ((0, [65]), 0) ∧
      sessionBehind t { session := 0, index := 1 } = some ((0, [65]), 1) ∧ Corresponds t := by
  rcases stackRuns_evaluated submitOps (fun p => some (p.1.length, jobBehind p.2 0,
    sessionBehind p.2 { session := 0, index := 1 }))
    (7, some ((0, [65]), 0), some ((0, [65]), 1)) rfl with ⟨tr, t, hrun, hrule, hv⟩
  rw [Option.some.injEq, Prod.mk.injEq, Prod.mk.injEq] at hv
  exact ⟨tr, t, hrun, hv.1, hv.2.1, hv.2.2,
    stackRuns_corresponds (fun _ => 0) (fun _ => sampleImage) tr t hrun hrule⟩

end Driver

end Qdmi
