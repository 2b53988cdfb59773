import Qdmi.Theory.Driver.Passing
import Qdmi.Theory.Stack.Correspondence

/-!
# The Jobs of a Client Through the Stack

What a client may rely on between two of its calls on a job, whatever else
happens: other sessions and jobs come and go, other clients fail to open theirs,
and libraries are used under the same configuration by everybody.

A job persists until its client frees it (`stackStep_job`). It stays behind the
same handle of the same library, it keeps what the life cycle of a device job
promises, and it changes only in calls that name it. Both follow from the frame
of the libraries: the driver holds the number of the job on both sides of a call,
and a call that carries the number is one that names the job, since no two live
jobs share a number.

## Main definitions

* `deviceJobOf`: The device job behind a job.
* `JobPersists`: What is kept of a job from one state to another.
* `KeepsJob`, `Spares`: A client does not free a job, and does not name it.

## Theorems

* `stackStep_job`: One call of a client.
* `stackRuns_whileKept`: From one call to any number of them.
* `stackRuns_persists`: A job until it is freed.
* `stackRuns_isolated`: A job that is not named.
-/

namespace Qdmi

namespace Driver

variable {R : Type}

/-- The device job behind a job of a client. -/
def deviceJobOf (t : Stack R) (j : Nat) : Option (DeviceJob R) :=
  (jobBehind t j).bind (fun x => (t.world x.1).device.jobs.get? x.2)

/-- A client does not free a job. -/
def KeepsJob (j : Nat) (c : StackCall R) : Prop := c.call.op ≠ .jobFree (some j)

/-- A client does not name a job, neither to use it nor to free it. -/
def Spares (j : Nat) (c : StackCall R) : Prop :=
  KeepsJob j c ∧ ∀ jc, jobCallOf c.call.op ≠ some (j, jc)

/-- A job stays where it is: the same device, the same library, the same handle
    there. Its device job keeps its session and what its life cycle promises. -/
structure JobPersists (t t' : Stack R) (j : Nat) : Prop where
  live : t'.driver.jobs.get? j = t.driver.jobs.get? j
  behind : jobBehind t' j = jobBehind t j
  kept : ∀ djb, deviceJobOf t j = some djb → ∃ djb', deviceJobOf t' j = some djb' ∧
    djb'.session = djb.session ∧ JobKept (some djb) (some djb')

theorem jobPersists_refl (t : Stack R) (j : Nat) : JobPersists t t j :=
  ⟨rfl, rfl, fun djb h => ⟨djb, h, rfl, jobStep_kept (JobStep.stay _)⟩⟩

theorem jobPersists_trans {t t' t'' : Stack R} {j : Nat} (h : JobPersists t t' j)
    (h' : JobPersists t' t'' j) : JobPersists t t'' j := by
  refine ⟨h'.live.trans h.live, h'.behind.trans h.behind, fun djb hdjb => ?_⟩
  rcases h.kept djb hdjb with ⟨djb', hdjb', hsession, hkept⟩
  rcases h'.kept djb' hdjb' with ⟨djb'', hdjb'', hsession', hkept'⟩
  exact ⟨djb'', hdjb'', hsession'.trans hsession, jobKept_trans hkept hkept'⟩

/-- A job and its device, given both: what is behind it is what the library has
    under its number. -/
theorem behind_of_job {t : Stack R} {j : Nat} {jb : Job} {d : Device}
    (hget : t.driver.jobs.get? j = some jb) (hdev : deviceOf t.driver jb.device = some d) :
    jobBehind t j = ((t.world d.library.key).job jb.deviceJob).map (fun p => (d.library.key, p)) ∧
      deviceJobOf t j = jobAt (t.world d.library.key) jb.deviceJob := by
  have hbehind : jobBehind t j =
      ((t.world d.library.key).job jb.deviceJob).map (fun p => (d.library.key, p)) := by
    rw [jobBehind, hget, Option.bind_some, hdev, Option.bind_some]
  refine ⟨hbehind, ?_⟩
  rw [deviceJobOf, hbehind, jobAt]
  rcases (t.world d.library.key).job jb.deviceJob with _ | p
  · rfl
  · rfl

section

variable [Zero R] [DecidableEq R] [Add R] [Mul R] [Div R] [DoubleRepr R]
variable {addr : DeviceHandle → Nat} {img : Nat × List UInt8 → Image}
variable {t t' u : Stack R} {c : StackCall R} {out : StackOut R} {j : Nat} {jb : Job}

/-- A call on the libraries that carries the number of a job is one that names
    the job. -/
theorem stackStep_names (hinv : StackInv t) (hstep : stackStep addr img t c = .ok (out, t'))
    (hget : t.driver.jobs.get? j = some jb) {key : Nat × List UInt8} {jc : JobCall}
    (hmem : .call key (.deviceJob jb.deviceJob jc) ∈ out.driver.events) :
    jobCallOf c.call.op = some (j, jc) := by
  rcases stackStep_cases hstep with ⟨hdriver, _, _⟩
  rcases driverStep_passed hdriver hmem rfl with
    ⟨_, i, _, hcall, hop⟩ | ⟨_, _, _, hcall, _⟩
  swap
  · exact absurd hcall (by simp only [reduceCtorEq, not_false_eq_true])
  rw [← (LibraryCall.deviceJob.inj hcall).2] at hop
  rcases driverStep_jobCall hop hdriver with ⟨jb', sess, d, hget', _, _, hevents, _⟩
  rw [hevents, List.mem_singleton, Event.call.injEq] at hmem
  rw [hinv.driver.jobUnique j i jb jb' hget hget' (LibraryCall.deviceJob.inj hmem.2).1]
  exact hop

/-- One call of a client that does not free the job. -/
theorem stackStep_job (hinv : StackInv t) (hrule : FreesJobs t c) (hkeep : KeepsJob j c)
    (hstep : stackStep addr img t c = .ok (out, t')) (hget : t.driver.jobs.get? j = some jb) :
    JobPersists t t' j ∧ (Spares j c → deviceJobOf t' j = deviceJobOf t j) := by
  rcases stackStep_cases hstep with ⟨hdriver, hworld, hfollow⟩
  have hmove := driverStep_move hdriver
  have hkeeps := driverMove_keeps hmove hinv.driver hrule
  rcases driverMove_keepsJob hmove hinv.driver hrule hget hkeep with ⟨hget', hsame⟩
  rcases hinv.driver.jobDevice j jb hget with ⟨d, hdev⟩
  have hdev' := hsame.trans hdev
  -- The device job is held on both sides.
  have hheld := (owned_job hinv.driver hget hdev).2
  have hheld' := (owned_job hkeeps.inv hget' hdev').2
  have hleads : Leads (owned t.driver) (dealsOf out.world) (owned t'.driver) := by
    rw [dealsOf_follow hfollow]
    exact hkeeps.leads
  have hback : Deal.returns d.library.key (.job jb.deviceJob) ∉ dealsOf out.world := by
    rw [dealsOf_follow hfollow]
    exact driverMove_not_returns hmove hinv.driver hkeeps.leads hheld hheld'
  have hstays := worldRuns_job hinv.mirrors hworld hleads hheld hback
  rcases behind_of_job hget hdev with ⟨hbehind, hjob⟩
  rcases behind_of_job hget' hdev' with ⟨hbehind', hjob'⟩
  refine ⟨⟨by rw [hget', hget], by rw [hbehind', hbehind, hstays.name], ?_⟩, fun hspares => ?_⟩
  · rw [hjob, hjob']
    exact hstays.kept
  · rw [hjob, hjob']
    refine worldRuns_frame hinv.mirrors hworld hleads hheld hback ?_
    rintro e he call hevent ⟨jc, rfl⟩
    have hmem : .call d.library.key (.deviceJob jb.deviceJob jc) ∈ out.driver.events := by
      rw [← hfollow, ← hevent]
      exact List.mem_map_of_mem (f := fun e : WorldEntry R => e.label.event) he
    exact hspares.2 jc (stackStep_names hinv hstep hget hmem)

/-- What every such call keeps, a run keeps. -/
theorem stackRuns_whileKept {C : Stack R → StackCall R → Prop} {K : Stack R → Stack R → Prop}
    (hrefl : ∀ t, K t t) (htrans : ∀ t t' t'', K t t' → K t' t'' → K t t'')
    (hkeep : ∀ t t' c out, StackInv t → FreesJobs t c → C t c →
      stackStep addr img t c = .ok (out, t') → t.driver.jobs.get? j = some jb →
      K t t' ∧ t'.driver.jobs.get? j = some jb)
    {tr : List (StackEntry R)} (hinv : StackInv t) (hrun : Runs (stackStep addr img) t tr u)
    (hrule : Respects FreesJobs tr) (hC : Respects C tr)
    (hget : t.driver.jobs.get? j = some jb) :
    StackInv u ∧ K t u ∧ u.driver.jobs.get? j = some jb := by
  refine runs_invariant (C := fun t c => FreesJobs t c ∧ C t c)
    (P := fun _ u => StackInv u ∧ K t u ∧ u.driver.jobs.get? j = some jb) hrun
    (fun e he => ⟨hrule e he, hC e he⟩) ⟨hinv, hrefl t, hget⟩ ?_
  intro _ v c out w _ _ ih hc hstep
  rcases hkeep v w c out ih.1 hc.1 hc.2 hstep ih.2.2 with ⟨hk, hlive⟩
  exact ⟨stackStep_keeps ih.1 hc.1 hstep, htrans _ _ _ ih.2.1 hk, hlive⟩

/-- A job stays where it is until it is freed. -/
theorem stackRuns_persists (addr : DeviceHandle → Nat) (img : Nat × List UInt8 → Image)
    (tr tr' : List (StackEntry R)) (t u : Stack R) (hrun : StackRuns addr img tr t)
    (hrule : Respects FreesJobs tr) (hcont : Runs (stackStep addr img) t tr' u)
    (hrule' : Respects FreesJobs tr') (j : Nat) (jb : Job)
    (hget : t.driver.jobs.get? j = some jb) (hkeep : Respects (fun _ c => KeepsJob j c) tr') :
    JobPersists t u j :=
  (stackRuns_whileKept (K := fun t t' => JobPersists t t' j)
    (fun t => jobPersists_refl t j) (fun _ _ _ => jobPersists_trans)
    (fun _ _ _ _ hinv hr hc hstep hj => by
      have hpersists := (stackStep_job hinv hr hc hstep hj).1
      exact ⟨hpersists, hpersists.live.trans hj⟩)
    (stackRuns_inv hrun hrule) hcont hrule' hkeep hget).2.1

/-- A job that is not named is left alone. -/
theorem stackRuns_isolated (addr : DeviceHandle → Nat) (img : Nat × List UInt8 → Image)
    (tr tr' : List (StackEntry R)) (t u : Stack R) (hrun : StackRuns addr img tr t)
    (hrule : Respects FreesJobs tr) (hcont : Runs (stackStep addr img) t tr' u)
    (hrule' : Respects FreesJobs tr') (j : Nat) (jb : Job)
    (hget : t.driver.jobs.get? j = some jb) (hspares : Respects (fun _ c => Spares j c) tr') :
    u.driver.jobs.get? j = some jb ∧ jobBehind u j = jobBehind t j ∧
      deviceJobOf u j = deviceJobOf t j := by
  have hkept := stackRuns_whileKept (K := fun t t' => jobBehind t' j = jobBehind t j ∧
      deviceJobOf t' j = deviceJobOf t j)
    (fun _ => ⟨rfl, rfl⟩) (fun _ _ _ h h' => ⟨h'.1.trans h.1, h'.2.trans h.2⟩)
    (fun _ _ _ _ hinv hr hc hstep hj => by
      rcases stackStep_job hinv hr hc.1 hstep hj with ⟨hpersists, hframe⟩
      exact ⟨⟨hpersists.behind, hframe hc⟩, hpersists.live.trans hj⟩)
    (stackRuns_inv hrun hrule) hcont hrule' hspares hget
  exact ⟨hkept.2.2, hkept.2.1⟩

end

/-! ## A job through the calls of another client -/

/-- A rule about the calls of a client holds along their run. -/
theorem respects_of_calls {P : StackCall ℚ → Prop} {ops : List DriverOp}
    {tr : List (StackEntry ℚ)} (hlabels : tr.map Entry.label = stackCalls ops)
    (hP : ∀ c ∈ stackCalls ops, P c) : Respects (fun _ c => P c) tr := by
  intro e he
  refine hP e.label ?_
  rw [← hlabels]
  exact List.mem_map_of_mem he

/-- Another client opens a session, submits a job on the same device, cancels it
    and frees it. -/
def otherOps : List DriverOp := [
  .sessionSetParameter (some 1) SessionParameter.token 2 (some (fun i => if i = 0 then 117 else 0)),
  .sessionInit (some 1), .deviceCreateJob (some { session := 1, index := 1 }) true,
  .jobSetPrograms (some 1) ProgramFormat.qasm3.code 1 (some (fun _ => 1))
    (some (fun _ => some (fun _ => 0))),
  .jobSubmit (some 1), .jobCancel (some 1), .jobFree (some 1)]

theorem otherOps_spares : ∀ c ∈ stackCalls otherOps, Spares 0 c := by
  intro c hc
  simp only [stackCalls, otherOps, List.map_cons, List.map_nil, List.mem_cons,
    List.not_mem_nil, or_false] at hc
  rcases hc with rfl | rfl | rfl | rfl | rfl | rfl | rfl
  all_goals simp [Spares, KeepsJob, jobCallOf]

/-- Meanwhile the job runs. -/
theorem stackRuns_isolated_sample :
    ∃ tr tr' t u, StackRuns (R := ℚ) (fun _ => 0) (fun _ => sampleImage) tr t ∧
      Runs (stackStep (fun _ => 0) (fun _ => sampleImage)) t tr' u ∧ tr'.length = 7 ∧
      (deviceJobOf u 0).map DeviceJob.status = some .running := by
  rcases stackRuns_continued submitOps otherOps (fun t tr' _ => (t.driver.jobs.get? 0).map
    (fun jb => (jb, tr'.length, (deviceJobOf t 0).map DeviceJob.status)))
    (⟨⟨0, 1⟩, 2⟩, 7, some .running) rfl with
    ⟨tr, tr', t, u, hrun, hrule, hrun', hrule', hlabels, hv⟩
  rcases Option.map_eq_some_iff.mp hv with ⟨jb, hget, hjb⟩
  rw [Prod.mk.injEq, Prod.mk.injEq] at hjb
  refine ⟨tr, tr', t, u, hrun, hrun', hjb.2.1, ?_⟩
  rw [(stackRuns_isolated (fun _ => 0) (fun _ => sampleImage) tr tr' t u hrun hrule hrun' hrule' 0
    jb hget (respects_of_calls hlabels otherOps_spares)).2.2]
  exact hjb.2.2

/-- If it is waited for in between, it is done, and nothing else about it is new. -/
theorem stackRuns_persists_sample :
    ∃ tr tr' t u, StackRuns (R := ℚ) (fun _ => 0) (fun _ => sampleImage) tr t ∧
      Runs (stackStep (fun _ => 0) (fun _ => sampleImage)) t tr' u ∧ tr'.length = 8 ∧
      (deviceJobOf t 0).map DeviceJob.status = some .running ∧
      (deviceJobOf u 0).map DeviceJob.status = some .done ∧ JobPersists t u 0 := by
  rcases stackRuns_continued submitOps (.jobWait (some 0) 0 :: otherOps)
    (fun t tr' u => (t.driver.jobs.get? 0).map (fun jb => (jb, tr'.length,
      (deviceJobOf t 0).map DeviceJob.status, (deviceJobOf u 0).map DeviceJob.status)))
    (⟨⟨0, 1⟩, 2⟩, 8, some .running, some .done) rfl with
    ⟨tr, tr', t, u, hrun, hrule, hrun', hrule', hlabels, hv⟩
  rcases Option.map_eq_some_iff.mp hv with ⟨jb, hget, hjb⟩
  rw [Prod.mk.injEq, Prod.mk.injEq, Prod.mk.injEq] at hjb
  refine ⟨tr, tr', t, u, hrun, hrun', hjb.2.1, hjb.2.2.1, hjb.2.2.2,
    stackRuns_persists (fun _ => 0) (fun _ => sampleImage) tr tr' t u hrun hrule hrun' hrule' 0 jb
      hget (respects_of_calls hlabels fun c hc => ?_)⟩
  rcases List.mem_cons.mp hc with rfl | hother
  · exact fun hfree => absurd hfree (by simp only [reduceCtorEq, not_false_eq_true])
  · exact (otherOps_spares c hother).1

end Driver

end Qdmi
