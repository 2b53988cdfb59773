import Qdmi.Core.Driver.Step

/-!
# What a Call to the Driver Can Do

The twenty-one functions of the client interface change the driver in a dozen
ways. `DriverMove` lists them, each with the conditions the source has checked
by then, what the client is told and what the libraries receive;
`driverStep_move` says that every call is one of them. The theorems about runs
of the driver go through the moves and never look into a function.

`stay` is every call that neither changes anything nor reaches a library. A
call that was asked for a session or a job, or to initialize a session, does
not succeed that way.

## Main definitions

* `Succeeds`: The client is told that the call succeeded.
* `Grants`: A call whose success gives the client something.
* `AsksForJob`: The two ways to ask a device for a job.
* `DriverMove`: The ways a call changes the driver.

## Theorems

* `driverStep_move`: Every call is one of the moves.
-/

namespace Qdmi

namespace Driver

/-- The client is told that the call succeeded. -/
def Succeeds : Except Exn Reply → Prop
  | .ok reply => reply.status = .success
  | .error _ => False

/-- A call whose success gives the client a session, a job or the devices of a
    session. -/
def Grants : DriverOp → Prop
  | .sessionAlloc _ => True
  | .sessionInit _ => True
  | .deviceCreateJob _ _ => True
  | .sessionRetrieveJobById _ _ _ => True
  | _ => False

/-- A call asks a device for a job. -/
def AsksForJob (dev : DeviceHandle) : DriverOp → Prop
  | .deviceCreateJob dev' _ => dev' = some dev
  | .sessionRetrieveJobById dev' _ _ => dev' = some dev
  | _ => False

/-- What a library receives when it is asked for a job. -/
def jobRequest (d : Device) (status : Status) (job : Option Nat) (call : LibraryCall) : Prop :=
  call = .deviceSessionCreateDeviceJob d.deviceSession status job ∨
    ∃ jobId, call = .deviceSessionRetrieveDeviceJobById d.deviceSession jobId status job

/-- A session after `QDMI_session_init` has looked at its token. -/
def withMode (sess : Session) (token : List UInt8) : Session :=
  { sess with mode := tokenMode token }

/-- A session after `QDMI_session_init` has opened its devices. -/
def withDeviceList (sess : Session) (token : List UInt8) (devices : List Device) : Session :=
  { withMode sess token with deviceList := devices, status := .initialized, bare := nofun }

/-- The ways a call changes the driver. -/
inductive DriverMove (s : DriverState) : DriverCall → DriverOut → DriverState → Prop where
  | stay (c : DriverCall) (reply : Except Exn Reply) (h : Grants c.op → ¬ Succeeds reply) :
      DriverMove s c { reply := reply, events := [] } s
  | loadFails (c : DriverCall) (events : List Event) (status : Status)
      (hop : c.op = .sessionAlloc true) (hzero : s.count = 0)
      (hload : initializeDriver c.env = (events, .error status)) :
      DriverMove s c { reply := .ok { status := status }, events := events } s
  | allocFirst (c : DriverCall) (events : List Event) (libraries : List Library)
      (configuredDevices : List Configured) (hop : c.op = .sessionAlloc true) (hzero : s.count = 0)
      (hload : initializeDriver c.env = (events, .ok (libraries, configuredDevices))) :
      DriverMove s c
        { reply := .ok { status := .success, handle := some s.sessions.next }
          events := events ++ unloadAll s.libraries }
        { s with libraries, configuredDevices, count := 1, sessions := s.sessions.alloc {} }
  | allocNext (c : DriverCall) (hop : c.op = .sessionAlloc true) (hpos : s.count ≠ 0) :
      DriverMove s c
        { reply := .ok { status := .success, handle := some s.sessions.next }, events := [] }
        { s with count := s.count + 1, sessions := s.sessions.alloc {} }
  | initFails (c : DriverCall) (h : Nat) (sess : Session) (token : List UInt8) (o : Opening)
      (abort : Abort) (hop : c.op = .sessionInit (some h)) (hget : s.sessions.get? h = some sess)
      (hst : sess.status = .allocated) (htoken : sess.token = some token)
      (hopen : openDevices c.env token 0 s.configuredDevices { next := s.nextHandle } =
        (o, some abort)) :
      DriverMove s c
        { reply := .ok { status := abortStatus abort }
          events := o.events ++ freeDevices o.devices }
        { s with sessions := s.sessions.set h (withMode sess token), nextHandle := o.next }
  | init (c : DriverCall) (h : Nat) (sess : Session) (token : List UInt8) (o : Opening)
      (hop : c.op = .sessionInit (some h)) (hget : s.sessions.get? h = some sess)
      (hst : sess.status = .allocated) (htoken : sess.token = some token)
      (hopen : openDevices c.env token 0 s.configuredDevices { next := s.nextHandle } = (o, none)) :
      DriverMove s c { reply := .ok { status := .success }, events := o.events }
        { s with
          sessions := s.sessions.set h
            (withDeviceList sess token o.devices)
          nextHandle := o.next }
  | free (c : DriverCall) (h : Nat) (sess : Session) (hop : c.op = .sessionFree (some h))
      (hget : s.sessions.get? h = some sess) (hpos : countDown s.count ≠ 0) :
      DriverMove s c
        { reply := .ok { status := .success }, events := freeDevices sess.deviceList }
        { s with sessions := s.sessions.free h, count := countDown s.count }
  | freeLast (c : DriverCall) (h : Nat) (sess : Session) (hop : c.op = .sessionFree (some h))
      (hget : s.sessions.get? h = some sess) (hzero : countDown s.count = 0) :
      DriverMove s c
        { reply := .ok { status := .success }
          events := freeDevices sess.deviceList ++ unloadAll s.libraries }
        { s with
          libraries := []
          configuredDevices := []
          count := countDown s.count
          sessions := s.sessions.free h }
  | setToken (c : DriverCall) (h : Nat) (sess : Session) (token : List UInt8)
      (hop : ∃ param size value, c.op = .sessionSetParameter (some h) param size value)
      (hget : s.sessions.get? h = some sess) (hst : sess.status = .allocated) :
      DriverMove s c { reply := .ok { status := .success }, events := [] }
        { s with sessions := s.sessions.set h { sess with token := some token } }
  | refuseJob (c : DriverCall) (dev : DeviceHandle) (sess : Session) (d : Device)
      (status : Status) (call : LibraryCall) (hop : AsksForJob dev c.op)
      (hdev : deviceAt s dev = some (sess, d)) (hmode : sess.mode = .readwrite)
      (hstatus : status ≠ .success) (hcall : jobRequest d status none call) :
      DriverMove s c
        { reply := .ok { status := status }, events := [.call d.library.key call] } s
  | adoptJob (c : DriverCall) (dev : DeviceHandle) (sess : Session) (d : Device)
      (call : LibraryCall) (hop : AsksForJob dev c.op) (hdev : deviceAt s dev = some (sess, d))
      (hmode : sess.mode = .readwrite) (hcall : jobRequest d .success (some s.nextHandle) call) :
      DriverMove s c
        { reply := .ok { status := .success, handle := some s.jobs.next }
          events := [.call d.library.key call] }
        { s with
          jobs := s.jobs.alloc { device := dev, deviceJob := s.nextHandle }
          nextHandle := s.nextHandle + 1 }
  | freeJob (c : DriverCall) (j : Nat) (jb : Job) (sess : Session) (d : Device)
      (hop : c.op = .jobFree (some j)) (hget : s.jobs.get? j = some jb)
      (hdev : deviceAt s jb.device = some (sess, d)) :
      DriverMove s c
        { reply := .ok { status := .success }
          events := [.call d.library.key (.deviceJobFree jb.deviceJob)] }
        { s with jobs := s.jobs.free j }
  | passJob (c : DriverCall) (j : Nat) (jb : Job) (sess : Session) (d : Device) (call : JobCall)
      (hop : ¬ Grants c.op) (hget : s.jobs.get? j = some jb)
      (hdev : deviceAt s jb.device = some (sess, d)) :
      DriverMove s c
        { reply := .ok c.env.reply
          events := [.call d.library.key (.deviceJob jb.deviceJob call)] } s
  | passQuery (c : DriverCall) (dev : DeviceHandle) (sess : Session) (d : Device)
      (call : QueryCall) (hop : ¬ Grants c.op) (hdev : deviceAt s dev = some (sess, d)) :
      DriverMove s c
        { reply := .ok c.env.reply
          events := [.call d.library.key (.deviceQuery d.deviceSession call)] } s

section

variable {s s' : DriverState} {c : DriverCall} {out : DriverOut}

/-- A status that is returned without further ado. -/
theorem move_finish {status : Status} (h : Grants c.op → status ≠ .success)
    (hstep : finish status [] s = .ok (out, s')) : DriverMove s c out s' := by
  unfold finish at hstep
  rw [Except.ok.injEq, Prod.mk.injEq] at hstep
  rw [← hstep.1, ← hstep.2]
  exact DriverMove.stay c _ h

theorem move_escape {e : Exn} (hstep : escape e s = .ok (out, s')) : DriverMove s c out s' := by
  unfold escape at hstep
  rw [Except.ok.injEq, Prod.mk.injEq] at hstep
  rw [← hstep.1, ← hstep.2]
  exact DriverMove.stay c _ (fun _ hc => hc)

theorem move_sessionAlloc {env : DriverEnv} {session : Bool}
    (hstep : sessionAlloc s env session = .ok (out, s')) :
    DriverMove s ⟨.sessionAlloc session, env⟩ out s' := by
  unfold sessionAlloc at hstep
  split at hstep
  · exact move_finish (fun _ => by decide) hstep
  rename_i hsession
  have hgiven : session = true := by simpa using hsession
  subst hgiven
  split at hstep
  · exact move_finish (fun _ => by decide) hstep
  split at hstep
  -- The first session loads the configuration.
  · rename_i hzero
    rcases hload : initializeDriver env with ⟨events, status | ⟨libraries, configuredDevices⟩⟩
    · simp only [hload, finish, Except.ok.injEq, Prod.mk.injEq] at hstep
      rw [← hstep.1, ← hstep.2]
      exact DriverMove.loadFails _ events status rfl hzero hload
    · simp only [hload, Except.ok.injEq, Prod.mk.injEq] at hstep
      rw [← hstep.1, ← hstep.2]
      exact DriverMove.allocFirst _ events libraries configuredDevices rfl hzero hload
  · rename_i hpos
    simp only [Except.ok.injEq, Prod.mk.injEq] at hstep
    rw [← hstep.1, ← hstep.2]
    exact DriverMove.allocNext _ rfl hpos

theorem move_sessionInit {env : DriverEnv} {session : Option Nat}
    (hstep : sessionInit s env session = .ok (out, s')) :
    DriverMove s ⟨.sessionInit session, env⟩ out s' := by
  unfold sessionInit at hstep
  rcases session with _ | h
  · exact move_finish (fun _ => by decide) hstep
  rcases hget : s.sessions.get? h with _ | sess
  · simp only [hget, reduceCtorEq] at hstep
  simp only [hget] at hstep
  split at hstep
  · exact move_finish (fun _ => by decide) hstep
  rename_i hst
  have hst := not_not.mp hst
  split at hstep
  · exact move_finish (fun _ => by decide) hstep
  rename_i token htoken
  -- The checks are done, and the loop over the devices decides.
  rcases hopen : openDevices env token 0 s.configuredDevices { next := s.nextHandle } with
    ⟨o, _ | abort⟩
  · simp only [hopen, finish, Except.ok.injEq, Prod.mk.injEq] at hstep
    rw [← hstep.1, ← hstep.2]
    exact DriverMove.init ⟨.sessionInit (some h), env⟩ h sess token o rfl hget hst htoken hopen
  · simp only [hopen, finish, Except.ok.injEq, Prod.mk.injEq] at hstep
    rw [← hstep.1, ← hstep.2]
    exact DriverMove.initFails ⟨.sessionInit (some h), env⟩ h sess token o abort rfl hget hst htoken
      hopen

theorem move_sessionFree {env : DriverEnv} {session : Option Nat}
    (hstep : sessionFree s session = .ok (out, s')) :
    DriverMove s ⟨.sessionFree session, env⟩ out s' := by
  unfold sessionFree at hstep
  rcases session with _ | h
  · exact move_finish (fun hc => absurd hc (fun hf => hf)) hstep
  rcases hget : s.sessions.get? h with _ | sess
  · simp only [hget, reduceCtorEq] at hstep
  simp only [hget] at hstep
  split at hstep
  · rename_i hzero
    simp only [finish, Except.ok.injEq, Prod.mk.injEq] at hstep
    rw [← hstep.1, ← hstep.2]
    exact DriverMove.freeLast _ h sess rfl hget hzero
  · rename_i hpos
    simp only [finish, Except.ok.injEq, Prod.mk.injEq] at hstep
    rw [← hstep.1, ← hstep.2]
    exact DriverMove.free _ h sess rfl hget hpos

theorem move_sessionSetParameter {env : DriverEnv} {session : Option Nat} {param size : Nat}
    {value : Option (Nat → UInt8)}
    (hstep : sessionSetParameter s env session param size value = .ok (out, s')) :
    DriverMove s ⟨.sessionSetParameter session param size value, env⟩ out s' := by
  have hfinish : ∀ {status : Status}, finish status [] s = .ok (out, s') →
      DriverMove s ⟨.sessionSetParameter session param size value, env⟩ out s' :=
    fun h => move_finish (fun hc => absurd hc (fun hf => hf)) h
  -- The checks answer before anything is stored.
  unfold sessionSetParameter at hstep
  rcases session with _ | h
  · exact hfinish hstep
  dsimp only at hstep
  split at hstep
  · exact hfinish hstep
  split at hstep
  · exact hfinish hstep
  rcases hget : s.sessions.get? h with _ | sess
  · simp only [hget, reduceCtorEq] at hstep
  simp only [hget] at hstep
  split at hstep
  · exact hfinish hstep
  rename_i hst
  split at hstep
  · exact hfinish hstep
  rcases value with _ | v
  · exact hfinish hstep
  dsimp only at hstep
  split at hstep
  · exact move_escape hstep
  split at hstep
  · exact move_escape hstep
  simp only [finish, Except.ok.injEq, Prod.mk.injEq] at hstep
  rw [← hstep.1, ← hstep.2]
  exact DriverMove.setToken _ h sess _ ⟨param, size, some v, rfl⟩ hget (not_not.mp hst)

/-- The end of both functions that make jobs. -/
theorem move_adoptJob {env : DriverEnv} {op : DriverOp} {dev : DeviceHandle} {sess : Session}
    {d : Device} {call : LibraryCall} (hop : AsksForJob dev op)
    (hdev : deviceAt s dev = some (sess, d)) (hmode : sess.mode = .readwrite)
    (hcall : jobRequest d (env.status 0) (handleFor (env.gives 0) s.nextHandle) call)
    (hstep : adoptJob s dev (env.status 0) [.call d.library.key call] = .ok (out, s')) :
    DriverMove s ⟨op, env⟩ out s' := by
  unfold adoptJob at hstep
  by_cases hstatus : env.status 0 = .success
  · rw [hstatus, handleFor_of_success hstatus] at hcall
    simp only [hstatus, ne_eq, not_true_eq_false, if_false, Except.ok.injEq, Prod.mk.injEq] at hstep
    rw [← hstep.1, ← hstep.2]
    exact DriverMove.adoptJob _ dev sess d call hop hdev hmode hcall
  · rw [if_pos hstatus, finish, Except.ok.injEq, Prod.mk.injEq] at hstep
    rw [handleFor_of_failure hstatus] at hcall
    rw [← hstep.1, ← hstep.2]
    exact DriverMove.refuseJob _ dev sess d _ call hop hdev hmode hstatus hcall

theorem move_deviceCreateJob {env : DriverEnv} {dev : Option DeviceHandle} {job : Bool}
    (hstep : deviceCreateJob s env dev job = .ok (out, s')) :
    DriverMove s ⟨.deviceCreateJob dev job, env⟩ out s' := by
  unfold deviceCreateJob at hstep
  rcases dev with _ | dev
  · exact move_finish (fun _ => by decide) hstep
  dsimp only at hstep
  split at hstep
  · exact move_finish (fun _ => by decide) hstep
  rcases hdev : deviceAt s dev with _ | ⟨sess, d⟩
  · simp only [hdev, reduceCtorEq] at hstep
  simp only [hdev] at hstep
  split at hstep
  · exact move_finish (fun _ => by decide) hstep
  rename_i hmode
  split at hstep
  · exact move_finish (fun _ => by decide) hstep
  · exact move_adoptJob rfl hdev (not_not.mp hmode) (Or.inl rfl) hstep

theorem move_sessionRetrieveJobById {env : DriverEnv} {dev : Option DeviceHandle}
    {jobId : Option CString} {job : Bool}
    (hstep : sessionRetrieveJobById s env dev jobId job = .ok (out, s')) :
    DriverMove s ⟨.sessionRetrieveJobById dev jobId job, env⟩ out s' := by
  unfold sessionRetrieveJobById at hstep
  rcases dev with _ | dev
  · exact move_finish (fun _ => by decide) hstep
  rcases jobId with _ | jobId
  · exact move_finish (fun _ => by decide) hstep
  dsimp only at hstep
  split at hstep
  · exact move_finish (fun _ => by decide) hstep
  split at hstep
  · exact move_finish (fun _ => by decide) hstep
  rcases hdev : deviceAt s dev with _ | ⟨sess, d⟩
  · simp only [hdev, reduceCtorEq] at hstep
  simp only [hdev] at hstep
  split at hstep
  · exact move_finish (fun _ => by decide) hstep
  -- Only a device of a session with access hands out jobs.
  rename_i hmode
  split at hstep
  · exact move_finish (fun _ => by decide) hstep
  split at hstep
  · exact move_escape hstep
  · exact move_adoptJob rfl hdev (not_not.mp hmode) (Or.inr ⟨_, rfl⟩) hstep

theorem move_jobFree {env : DriverEnv} {job : Option Nat}
    (hstep : jobFree s job = .ok (out, s')) : DriverMove s ⟨.jobFree job, env⟩ out s' := by
  unfold jobFree at hstep
  rcases job with _ | j
  · exact move_finish (fun hc => absurd hc (fun hf => hf)) hstep
  rcases hget : s.jobs.get? j with _ | jb
  · simp only [hget, reduceCtorEq] at hstep
  simp only [hget] at hstep
  rcases hdev : deviceAt s jb.device with _ | ⟨sess, d⟩
  · simp only [hdev, reduceCtorEq] at hstep
  simp only [hdev, finish, Except.ok.injEq, Prod.mk.injEq] at hstep
  rw [← hstep.1, ← hstep.2]
  exact DriverMove.freeJob _ j jb sess d rfl hget hdev

theorem move_passJob {job : Option Nat} {call : JobCall} (hop : ¬ Grants c.op)
    (hstep : passJob s c.env job call = .ok (out, s')) : DriverMove s c out s' := by
  unfold passJob at hstep
  rcases job with _ | j
  · exact move_finish (fun hc => absurd hc hop) hstep
  rcases hget : s.jobs.get? j with _ | jb
  · simp only [hget, reduceCtorEq] at hstep
  simp only [hget] at hstep
  rcases hdev : deviceAt s jb.device with _ | ⟨sess, d⟩
  · simp only [hdev, reduceCtorEq] at hstep
  simp only [hdev, Except.ok.injEq, Prod.mk.injEq] at hstep
  rw [← hstep.1, ← hstep.2]
  exact DriverMove.passJob _ j jb sess d call hop hget hdev

theorem move_passQuery {dev : Option DeviceHandle} {call : QueryCall} (hop : ¬ Grants c.op)
    (hstep : passQuery s c.env dev call = .ok (out, s')) : DriverMove s c out s' := by
  unfold passQuery at hstep
  rcases dev with _ | dev
  · exact move_finish (fun hc => absurd hc hop) hstep
  rcases hdev : deviceAt s dev with _ | ⟨sess, d⟩
  · simp only [hdev, reduceCtorEq] at hstep
  simp only [hdev, Except.ok.injEq, Prod.mk.injEq] at hstep
  rw [← hstep.1, ← hstep.2]
  exact DriverMove.passQuery _ dev sess d call hop hdev

/-- An answer the driver computes itself. -/
theorem move_answer {q : Except Fault Reply} (hop : ¬ Grants c.op)
    (hstep : q.map (fun reply => (({ reply := .ok reply, events := [] } : DriverOut), s)) =
      .ok (out, s')) : DriverMove s c out s' := by
  rcases q with e | reply
  · exact absurd hstep (by simp only [Except.map, reduceCtorEq, not_false_eq_true])
  · rw [Except.map, Except.ok.injEq, Prod.mk.injEq] at hstep
    rw [← hstep.1, ← hstep.2]
    exact DriverMove.stay c _ (fun hc => absurd hc hop)

theorem move_deviceQueryDeviceProperty {env : DriverEnv} {dev : Option DeviceHandle} {prop : Nat}
    {o : OutArgs} (hstep : deviceQueryDeviceProperty s env dev prop o = .ok (out, s')) :
    DriverMove s ⟨.deviceQueryDeviceProperty dev prop o, env⟩ out s' := by
  have hop : ¬ Grants (.deviceQueryDeviceProperty dev prop o) := fun hf => hf
  unfold deviceQueryDeviceProperty at hstep
  split at hstep
  · rcases dev with _ | dev
    · exact move_finish (fun hc => absurd hc hop) hstep
    rcases hdev : deviceAt s dev with _ | ⟨sess, d⟩
    · simp only [hdev, reduceCtorEq] at hstep
    simp only [hdev] at hstep
    exact move_answer hop hstep
  · exact move_passQuery hop hstep

end

/-- Every call is one of the moves. -/
theorem driverStep_move {addr : DeviceHandle → Nat} {s s' : DriverState} {c : DriverCall}
    {out : DriverOut} (hstep : driverStep addr s c = .ok (out, s')) : DriverMove s c out s' := by
  rcases c with ⟨op, env⟩
  cases op with
  | sessionAlloc session => exact move_sessionAlloc hstep
  | sessionInit session => exact move_sessionInit hstep
  | sessionFree session => exact move_sessionFree hstep
  | sessionSetParameter session param size value => exact move_sessionSetParameter hstep
  | sessionQuerySessionProperty session prop o => exact move_answer (fun hf => hf) hstep
  | deviceCreateJob dev job => exact move_deviceCreateJob hstep
  | sessionRetrieveJobById dev jobId job => exact move_sessionRetrieveJobById hstep
  | jobFree job => exact move_jobFree hstep
  | jobGetProgramStatus job i status =>
      -- It checks its own arguments before it passes the call on.
      have hop : ¬ Grants (.jobGetProgramStatus job i status) := fun hf => hf
      simp only [driverStep, jobGetProgramStatus] at hstep
      split at hstep
      · exact move_finish (fun hc => absurd hc hop) hstep
      · exact move_passJob hop hstep
  | jobSetParameter job param size value => exact move_passJob (fun hf => hf) hstep
  | jobSetPrograms job format count sizes programs => exact move_passJob (fun hf => hf) hstep
  | jobGetProgram job i o => exact move_passJob (fun hf => hf) hstep
  | jobQueryProperty job prop o => exact move_passJob (fun hf => hf) hstep
  | jobSubmit job => exact move_passJob (fun hf => hf) hstep
  | jobCancel job => exact move_passJob (fun hf => hf) hstep
  | jobCheck job status => exact move_passJob (fun hf => hf) hstep
  | jobWait job timeout => exact move_passJob (fun hf => hf) hstep
  | jobGetResults job i result o => exact move_passJob (fun hf => hf) hstep
  | deviceQueryDeviceProperty dev prop o => exact move_deviceQueryDeviceProperty hstep
  | deviceQuerySiteProperty dev site prop o => exact move_passQuery (fun hf => hf) hstep
  | deviceQueryOperationProperty dev operation args prop o =>
      exact move_passQuery (fun hf => hf) hstep

end Driver

end Qdmi
