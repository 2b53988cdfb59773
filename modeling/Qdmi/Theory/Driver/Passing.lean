import Qdmi.Theory.Driver.Change
import Qdmi.Theory.Driver.Turns

/-!
# Calls That Are Passed On

The functions of a job are passed on to the library that has the job, each in one
call, and so are the queries of a device, except the one for its ID. This module
says which call that is, read off the call of the client alone, and that no other
call of a client leads to one.

A job keeps its library and its number there until its client frees it. Nobody
else can end it, because a session is freed after the jobs on its devices.

## Main definitions

* `jobCallOf`: The job a client names, and the function it calls.
* `queryCallOf`: The device a client names, and the query it makes.
* `LibraryCall.passed`: A call that is passed on.

## Theorems

* `driverStep_jobCall`, `driverStep_queryCall`: Such calls are passed on.
* `driverMove_passed`, `driverStep_passed`: Nothing else is.
* `driverMove_keepsJob`: A job that is not freed.
-/

namespace Qdmi

namespace Driver

/-- The job a client names, and the function it calls. -/
def jobCallOf : DriverOp → Option (Nat × JobCall)
  | .jobSetParameter (some j) param size value => some (j, .setParameter param size value)
  | .jobSetPrograms (some j) format count sizes programs =>
    some (j, .setPrograms format count sizes programs)
  | .jobGetProgram (some j) i out => some (j, .getProgram i out)
  | .jobGetProgramStatus (some j) i true => some (j, .getProgramStatus i)
  | .jobQueryProperty (some j) prop out => some (j, .queryProperty prop out)
  | .jobSubmit (some j) => some (j, .submit)
  | .jobCancel (some j) => some (j, .cancel)
  | .jobCheck (some j) status => some (j, .check status)
  | .jobWait (some j) timeout => some (j, .wait timeout)
  | .jobGetResults (some j) i result out => some (j, .getResults i result out)
  | _ => none

/-- The device a client names, and the query it makes. The driver answers the one
    for the ID itself. -/
def queryCallOf : DriverOp → Option (DeviceHandle × QueryCall)
  | .deviceQueryDeviceProperty (some dev) prop out =>
    if prop = DeviceProperty.id.code then none else some (dev, .deviceProperty prop out)
  | .deviceQuerySiteProperty (some dev) site prop out => some (dev, .siteProperty site prop out)
  | .deviceQueryOperationProperty (some dev) operation args prop out =>
    some (dev, .operationProperty operation args prop out)
  | _ => none

/-- A call that is passed on. -/
def LibraryCall.passed : LibraryCall → Bool
  | .deviceJob _ _ => true
  | .deviceQuery _ _ => true
  | _ => false

section

variable {addr : DeviceHandle → Nat} {s t : DriverState} {c : DriverCall} {out : DriverOut}
variable {j : Nat} {jb : Job} {jc : JobCall} {dev : DeviceHandle} {qc : QueryCall}

theorem passJob_eq_ok {env : DriverEnv} (hstep : passJob s env (some j) jc = .ok (out, t)) :
    ∃ jb sess d, s.jobs.get? j = some jb ∧ deviceAt s jb.device = some (sess, d) ∧
      out.reply = .ok env.reply ∧
      out.events = [.call d.library.key (.deviceJob jb.deviceJob jc)] ∧ t = s := by
  unfold passJob at hstep
  rcases hget : s.jobs.get? j with _ | jb
  · simp only [hget, reduceCtorEq] at hstep
  simp only [hget] at hstep
  rcases hdev : deviceAt s jb.device with _ | ⟨sess, d⟩
  · simp only [hdev, reduceCtorEq] at hstep
  simp only [hdev, Except.ok.injEq, Prod.mk.injEq] at hstep
  rw [← hstep.1]
  exact ⟨jb, sess, d, rfl, hdev, rfl, rfl, hstep.2.symm⟩

/-- A function of a job is passed on to the library that has the job. -/
theorem driverStep_jobCall (hop : jobCallOf c.op = some (j, jc))
    (hstep : driverStep addr s c = .ok (out, t)) :
    ∃ jb sess d, s.jobs.get? j = some jb ∧ deviceAt s jb.device = some (sess, d) ∧
      out.reply = .ok c.env.reply ∧
      out.events = [.call d.library.key (.deviceJob jb.deviceJob jc)] ∧ t = s := by
  rcases c with ⟨op, env⟩
  unfold jobCallOf at hop
  split at hop
  case h_11 => exact absurd hop (by simp only [reduceCtorEq, not_false_eq_true])
  all_goals
    rename_i heq
    rw [Option.some.injEq, Prod.mk.injEq] at hop
    dsimp only at heq
    rw [heq] at hstep
    rw [← hop.1, ← hop.2]
    exact passJob_eq_ok hstep

theorem passQuery_eq_ok {env : DriverEnv} (hstep : passQuery s env (some dev) qc = .ok (out, t)) :
    ∃ sess d, deviceAt s dev = some (sess, d) ∧ out.reply = .ok env.reply ∧
      out.events = [.call d.library.key (.deviceQuery d.deviceSession qc)] ∧ t = s := by
  unfold passQuery at hstep
  rcases hdev : deviceAt s dev with _ | ⟨sess, d⟩
  · simp only [hdev, reduceCtorEq] at hstep
  simp only [hdev, Except.ok.injEq, Prod.mk.injEq] at hstep
  rw [← hstep.1]
  exact ⟨sess, d, rfl, rfl, rfl, hstep.2.symm⟩

/-- A query of a device is passed on to the library of the device. -/
theorem driverStep_queryCall (hop : queryCallOf c.op = some (dev, qc))
    (hstep : driverStep addr s c = .ok (out, t)) :
    ∃ sess d, deviceAt s dev = some (sess, d) ∧ out.reply = .ok c.env.reply ∧
      out.events = [.call d.library.key (.deviceQuery d.deviceSession qc)] ∧ t = s := by
  rcases c with ⟨op, env⟩
  dsimp only at hop ⊢
  unfold queryCallOf at hop
  split at hop
  · split at hop
    · exact absurd hop (by simp only [reduceCtorEq, not_false_eq_true])
    rename_i hid
    rw [Option.some.injEq, Prod.mk.injEq] at hop
    rw [← hop.1, ← hop.2]
    simp only [driverStep, deviceQueryDeviceProperty, if_neg hid] at hstep
    exact passQuery_eq_ok hstep
  · rw [Option.some.injEq, Prod.mk.injEq] at hop
    rw [← hop.1, ← hop.2]
    exact passQuery_eq_ok hstep
  · rw [Option.some.injEq, Prod.mk.injEq] at hop
    rw [← hop.1, ← hop.2]
    exact passQuery_eq_ok hstep
  · exact absurd hop (by simp only [reduceCtorEq, not_false_eq_true])

/-- The calls that open sessions, load libraries or ask for jobs are not passed
    on. -/
theorem driverMove_passed (hmove : DriverMove s c out t) {key : Nat × List UInt8}
    {call : LibraryCall} (hmem : .call key call ∈ out.events) (hpassed : call.passed = true) :
    ¬ Grants c.op := by
  have hload : LoadsOnly out.events → False := by
    intro h
    rcases h key call hmem with ⟨status, rfl⟩ | rfl
    all_goals exact absurd hpassed (by simp only [LibraryCall.passed, Bool.false_eq_true,
      not_false_eq_true])
  have hsessions : SessionsOnly out.events → False := by
    intro h
    have hkind := h key call hmem
    cases call
    case deviceJob | deviceQuery =>
      exact absurd hkind (by simp only [LibraryCall.ofSession, Bool.false_eq_true,
        not_false_eq_true])
    all_goals exact absurd hpassed (by simp only [LibraryCall.passed, Bool.false_eq_true,
      not_false_eq_true])
  have hasked : ∀ {d : Device} {status : Status} {job : Option Nat} {call' : LibraryCall},
      jobRequest d status job call' → out.events ≠ [.call d.library.key call'] := by
    intro d status job call' hcall hevents
    rw [hevents] at hmem
    rw [(Event.call.inj (List.mem_singleton.mp hmem)).2] at hpassed
    rcases hcall with rfl | ⟨_, rfl⟩
    all_goals exact absurd hpassed (by simp only [LibraryCall.passed, Bool.false_eq_true,
      not_false_eq_true])
  cases hmove with
  | stay => exact absurd hmem List.not_mem_nil
  | loadFails events status hop hzero hinit =>
      exact (hload (initializeDriver_loadsOnly hinit)).elim
  | allocFirst events libraries configuredDevices hop hzero hinit =>
      exact (hload (loadsOnly_append (initializeDriver_loadsOnly hinit)
        (loadsOnly_unloadAll _))).elim
  | allocNext | setToken => exact absurd hmem List.not_mem_nil
  | initFails h sess token o abort hop hget hst htoken hopen =>
      exact (hsessions (sessionsOnly_append (openDevices_sessionsOnly hopen)
        (sessionsOnly_freeDevices _))).elim
  | init h sess token o hop hget hst htoken hopen =>
      exact (hsessions (openDevices_sessionsOnly hopen)).elim
  | free h sess hop | freeLast h sess hop =>
      rw [hop]
      exact fun hc => hc
  | refuseJob dev sess d status call' hop hdev hmode hstatus hcall =>
      exact absurd rfl (hasked hcall)
  | adoptJob dev sess d call' hop hdev hmode hcall => exact absurd rfl (hasked hcall)
  | freeJob j jb sess d hop =>
      rw [hop]
      exact fun hc => hc
  | passJob j jb sess d call' hop => exact hop
  | passQuery dev sess d call' hop => exact hop

/-- A call that is passed on is the one the client has made. What is left besides
    makes no calls or gives something back. -/
theorem driverStep_passed {key : Nat × List UInt8} {call : LibraryCall}
    (hstep : driverStep addr s c = .ok (out, t)) (hmem : .call key call ∈ out.events)
    (hpassed : call.passed = true) :
    (∃ n j jc, call = .deviceJob n jc ∧ jobCallOf c.op = some (j, jc)) ∨
      ∃ n dev qc, call = .deviceQuery n qc ∧ queryCallOf c.op = some (dev, qc) := by
  have hgrants := driverMove_passed (driverStep_move hstep) hmem hpassed
  have hnone : ∀ {status : Status} {s' : DriverState}, finish status [] s' ≠ .ok (out, t) := by
    intro status s' hfin
    rw [finish, Except.ok.injEq, Prod.mk.injEq] at hfin
    rw [← hfin.1] at hmem
    exact absurd hmem List.not_mem_nil
  have hescape : ∀ {e : Exn} {s' : DriverState}, escape e s' ≠ .ok (out, t) := by
    intro e s' hfin
    rw [escape, Except.ok.injEq, Prod.mk.injEq] at hfin
    rw [← hfin.1] at hmem
    exact absurd hmem List.not_mem_nil
  have hanswer : ∀ {q : Except Fault Reply}, q.map (fun reply =>
      (({ reply := .ok reply, events := [] } : DriverOut), s)) ≠ .ok (out, t) := by
    intro q hq
    rcases q with e | reply
    · exact absurd hq (by simp only [Except.map, reduceCtorEq, not_false_eq_true])
    · rw [Except.map, Except.ok.injEq, Prod.mk.injEq] at hq
      rw [← hq.1] at hmem
      exact absurd hmem List.not_mem_nil
  have hpass : ∀ {env : DriverEnv} {job : Option Nat} {jc : JobCall},
      passJob s env job jc = .ok (out, t) → ∃ n j, job = some j ∧ call = .deviceJob n jc := by
    intro env job jc hp
    rcases job with _ | j
    · exact absurd hp hnone
    rcases passJob_eq_ok hp with ⟨jb, sess, d, _, _, _, hevents, _⟩
    rw [hevents, List.mem_singleton, Event.call.injEq] at hmem
    exact ⟨_, j, rfl, hmem.2⟩
  have hquery : ∀ {env : DriverEnv} {dev : Option DeviceHandle} {qc : QueryCall},
      passQuery s env dev qc = .ok (out, t) →
        ∃ n dev', dev = some dev' ∧ call = .deviceQuery n qc := by
    intro env dev qc hp
    rcases dev with _ | dev
    · exact absurd hp hnone
    rcases passQuery_eq_ok hp with ⟨sess, d, _, _, hevents, _⟩
    rw [hevents, List.mem_singleton, Event.call.injEq] at hmem
    exact ⟨_, dev, rfl, hmem.2⟩
  have hback : ∀ {events : List Event}, out.events = events →
      (∀ key call, .call key call ∈ events → call.passed = false) → False := by
    intro events hevents hall
    rw [hevents] at hmem
    rw [hall key call hmem] at hpassed
    exact absurd hpassed (by simp only [Bool.false_eq_true, not_false_eq_true])
  have hfreed : ∀ devices key call, .call key call ∈ freeDevices devices →
      call.passed = false := by
    intro devices key call hin
    rcases List.mem_map.mp hin with ⟨d, _, heq⟩
    rw [← (Event.call.inj heq).2]
    rfl
  rcases c with ⟨op, env⟩
  cases op with
  | sessionAlloc | sessionInit | deviceCreateJob | sessionRetrieveJobById =>
      exact absurd trivial hgrants
  | sessionFree session =>
      simp only [driverStep, sessionFree] at hstep
      rcases session with _ | h
      · exact absurd hstep hnone
      rcases hget : s.sessions.get? h with _ | sess
      · simp only [hget, reduceCtorEq] at hstep
      simp only [hget] at hstep
      split at hstep
      all_goals rw [finish, Except.ok.injEq, Prod.mk.injEq] at hstep
      · refine (hback (congrArg DriverOut.events hstep.1).symm fun key call hin => ?_).elim
        rcases List.mem_append.mp hin with hin | hin
        · exact hfreed _ key call hin
        · rcases loadsOnly_unloadAll _ key call hin with ⟨_, rfl⟩ | rfl
          all_goals rfl
      · exact (hback (congrArg DriverOut.events hstep.1).symm (hfreed _)).elim
  | sessionSetParameter session param size value =>
      simp only [driverStep, sessionSetParameter] at hstep
      repeat' split at hstep
      all_goals first
        | exact absurd hstep hnone
        | exact absurd hstep hescape
        | exact absurd hstep (by simp only [reduceCtorEq, not_false_eq_true])
  | sessionQuerySessionProperty session prop o => exact absurd hstep hanswer
  | jobFree job =>
      simp only [driverStep, jobFree] at hstep
      rcases job with _ | j
      · exact absurd hstep hnone
      rcases hget : s.jobs.get? j with _ | jb
      · simp only [hget, reduceCtorEq] at hstep
      simp only [hget] at hstep
      rcases hdev : deviceAt s jb.device with _ | ⟨sess, d⟩
      · simp only [hdev, reduceCtorEq] at hstep
      simp only [hdev, finish, Except.ok.injEq, Prod.mk.injEq] at hstep
      refine (hback (congrArg DriverOut.events hstep.1).symm fun key call hin => ?_).elim
      rw [(Event.call.inj (List.mem_singleton.mp hin)).2]
      rfl
  | jobGetProgramStatus job i status =>
      simp only [driverStep, jobGetProgramStatus] at hstep
      rcases status with _ | _
      · exact absurd hstep hnone
      rcases hpass hstep with ⟨n, j, rfl, rfl⟩
      exact Or.inl ⟨n, j, _, rfl, rfl⟩
  | jobSetParameter | jobSetPrograms | jobGetProgram | jobQueryProperty | jobSubmit | jobCancel
  | jobCheck | jobWait | jobGetResults =>
      rcases hpass hstep with ⟨n, j, rfl, rfl⟩
      exact Or.inl ⟨n, j, _, rfl, rfl⟩
  | deviceQueryDeviceProperty dev prop o =>
      simp only [driverStep, deviceQueryDeviceProperty] at hstep
      split at hstep
      · rcases dev with _ | dev
        · exact absurd hstep hnone
        rcases hdev : deviceAt s dev with _ | ⟨sess, d⟩
        · simp only [hdev, reduceCtorEq] at hstep
        simp only [hdev] at hstep
        exact absurd hstep hanswer
      · rename_i hid
        rcases hquery hstep with ⟨n, dev', rfl, rfl⟩
        exact Or.inr ⟨n, dev', _, rfl, if_neg hid⟩
  | deviceQuerySiteProperty dev site prop o =>
      rcases hquery hstep with ⟨n, dev', rfl, rfl⟩
      exact Or.inr ⟨n, dev', _, rfl, rfl⟩
  | deviceQueryOperationProperty dev operation args prop o =>
      rcases hquery hstep with ⟨n, dev', rfl, rfl⟩
      exact Or.inr ⟨n, dev', _, rfl, rfl⟩

/-- A job that is not freed stays, and so does its device. -/
theorem driverMove_keepsJob (hmove : DriverMove s c out t) (hinv : DriverInv s)
    (hrule : FreesJobsFirst s c) (hget : s.jobs.get? j = some jb)
    (hfree : c.op ≠ .jobFree (some j)) :
    t.jobs.get? j = some jb ∧ deviceOf t jb.device = deviceOf s jb.device := by
  cases hmove with
  | stay | loadFails | refuseJob | passJob | passQuery => exact ⟨hget, rfl⟩
  | allocFirst | allocNext => exact ⟨hget, deviceOf_alloc rfl⟩
  | initFails h sess token o abort hop hget' => exact ⟨hget, deviceOf_set_same hget' rfl rfl⟩
  | setToken h sess token hop hget' => exact ⟨hget, deviceOf_set_same hget' rfl rfl⟩
  | init h sess token o hop hget' hst =>
      refine ⟨hget, ?_⟩
      -- The session that is opened had no devices, so the job is on another one.
      rw [deviceOf_set hget' rfl, if_neg]
      intro hh
      rcases hinv.jobDevice j jb hget with ⟨d, hd⟩
      rw [deviceOf_eq hget' hh, sess.bare hst, List.getElem?_nil] at hd
      exact absurd hd (by simp only [reduceCtorEq, not_false_eq_true])
  | free h sess hop | freeLast h sess hop =>
      exact ⟨hget, by rw [deviceOf_free rfl, if_neg (hrule h hop j jb hget)]⟩
  | adoptJob =>
      refine ⟨?_, rfl⟩
      dsimp only
      rw [Heap.get?_alloc, if_neg (Nat.ne_of_lt (Heap.get?_lt_next hget)), hget]
  | freeJob i jb' sess d hop =>
      refine ⟨?_, rfl⟩
      dsimp only
      rw [Heap.get?_free, if_neg, hget]
      rintro rfl
      exact hfree hop

end

end Driver

end Qdmi
