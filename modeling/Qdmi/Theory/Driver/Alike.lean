import Mathlib.Data.List.Forall2
import Qdmi.Theory.Driver.Session

/-!
# States a Client Cannot Tell Apart

The driver keeps two things a client never sees: the handles of its device
sessions and device jobs, and the access mode of a session that has not been
initialized yet. Two states that differ in nothing else are `StateAlike`, and
`clientStep_alike` says that every call gets the same answer in both and leads
to such states again, as long as the libraries answer alike.

## Main definitions

* `DeviceAlike`, `SessionAlike`, `StateAlike`: Equal but for what is not seen.
* `ResultAlike`: Equal answers, and states that are alike.

## Theorems

* `deviceAt_alike`: The device behind a handle.
* `openDevices_alike`: The loop of `QDMI_session_init`.
* `clientStep_alike`: One call.
* `outputs_alike`: Any number of calls.
-/

namespace Qdmi

namespace Driver

/-- Devices that differ in their device session only. -/
def DeviceAlike (d d' : Device) : Prop := d.library = d'.library ∧ d.id = d'.id

/-- Sessions that differ in their device sessions and, before they are
    initialized, in their access mode. -/
structure SessionAlike (sess sess' : Session) : Prop where
  status : sess.status = sess'.status
  token : sess.token = sess'.token
  mode : sess.status = .initialized → sess.mode = sess'.mode
  devices : List.Forall₂ DeviceAlike sess.deviceList sess'.deviceList

/-- Driver states that a client cannot tell apart. -/
structure StateAlike (s t : DriverState) : Prop where
  libraries : s.libraries = t.libraries
  configured : s.configuredDevices = t.configuredDevices
  count : s.count = t.count
  sessions : s.sessions.Rel SessionAlike t.sessions
  jobs : s.jobs.Rel (fun jb jb' => jb.device = jb'.device) t.jobs

/-- Calls that go wrong alike, or answer alike and lead to states that are
    alike. -/
def ResultAlike (x y : DriverResult) : Prop :=
  (∃ e, x = .error e ∧ y = .error e) ∨
    ∃ out out' s t, x = .ok (out, s) ∧ y = .ok (out', t) ∧ out.reply = out'.reply ∧ StateAlike s t

theorem deviceAlike_refl (devices : List Device) : List.Forall₂ DeviceAlike devices devices :=
  List.forall₂_same.mpr (fun _ _ => ⟨rfl, rfl⟩)

theorem stateAlike_refl (s : DriverState) : StateAlike s s where
  libraries := rfl
  configured := rfl
  count := rfl
  sessions := Heap.rel_refl (fun _ _ _ => ⟨rfl, rfl, fun _ => rfl, deviceAlike_refl _⟩)
  jobs := Heap.rel_refl (fun _ _ _ => rfl)

section

variable {s t : DriverState} {env : DriverEnv}

theorem finish_alike (h : StateAlike s t) (status : Status) (events events' : List Event) :
    ResultAlike (finish status events s) (finish status events' t) :=
  Or.inr ⟨_, _, s, t, rfl, rfl, rfl, h⟩

theorem escape_alike (h : StateAlike s t) (e : Exn) : ResultAlike (escape e s) (escape e t) :=
  Or.inr ⟨_, _, s, t, rfl, rfl, rfl, h⟩

theorem fault_alike (e : Fault) : ResultAlike (.error e) (.error e) := Or.inl ⟨e, rfl, rfl⟩

/-- The same reply, whatever the libraries have received. -/
theorem reply_alike {s' t' : DriverState} (h : StateAlike s' t') (reply : Except Exn Reply)
    (events events' : List Event) :
    ResultAlike (.ok ({ reply := reply, events := events }, s'))
      (.ok ({ reply := reply, events := events' }, t')) :=
  Or.inr ⟨_, _, s', t', rfl, rfl, rfl, h⟩

/-- The session behind a handle. -/
theorem session_alike (h : StateAlike s t) (i : Nat) :
    (s.sessions.get? i = none ∧ t.sessions.get? i = none) ∨
      ∃ sess sess', s.sessions.get? i = some sess ∧ t.sessions.get? i = some sess' ∧
        SessionAlike sess sess' := h.sessions.2 i

/-- The device behind a handle. A session with a device has been initialized,
    so its mode is the same. -/
theorem deviceAt_alike (h : StateAlike s t) (dev : DeviceHandle) :
    (deviceAt s dev = none ∧ deviceAt t dev = none) ∨
      ∃ sess sess' d d', deviceAt s dev = some (sess, d) ∧ deviceAt t dev = some (sess', d') ∧
        sess.mode = sess'.mode ∧ DeviceAlike d d' := by
  rcases session_alike h dev.session with ⟨hs, ht⟩ | ⟨sess, sess', hs, ht, halike⟩
  · exact Or.inl ⟨by rw [deviceAt, hs, Option.bind_none], by rw [deviceAt, ht, Option.bind_none]⟩
  rw [deviceAt, deviceAt, hs, ht, Option.bind_some, Option.bind_some]
  have hlen := halike.devices.length_eq
  by_cases hi : dev.index < sess.deviceList.length
  · have hi' : dev.index < sess'.deviceList.length := hlen ▸ hi
    have hd := halike.devices.get hi hi'
    rw [List.getElem?_eq_getElem hi, List.getElem?_eq_getElem hi']
    -- A session that is only allocated has no devices.
    have hinit : sess.status = .initialized := by
      rcases hst : sess.status with _ | _
      · rw [sess.bare hst] at hi
        exact absurd hi (Nat.not_lt_zero _)
      · rfl
    exact Or.inr ⟨sess, sess', _, _, rfl, rfl, halike.mode hinit, hd⟩
  · rw [List.getElem?_eq_none (Nat.le_of_not_lt hi),
      List.getElem?_eq_none (hlen ▸ Nat.le_of_not_lt hi)]
    exact Or.inl ⟨rfl, rfl⟩

/-- One turn of `QDMI_session_init`. -/
theorem openDevice_alike (token : List UInt8) (k : Nat) (cfg : Configured) {o o' : Opening}
    (h : List.Forall₂ DeviceAlike o.devices o'.devices) :
    List.Forall₂ DeviceAlike (openDevice env token k cfg o).1.devices
        (openDevice env token k cfg o').1.devices ∧
      (openDevice env token k cfg o).2 = (openDevice env token k cfg o').2 := by
  unfold openDevice
  split
  · exact ⟨h, rfl⟩
  split
  · exact ⟨h, rfl⟩
  dsimp only
  split
  · exact ⟨h, rfl⟩
  split
  · exact ⟨h, rfl⟩
  split
  · exact ⟨h, rfl⟩
  · exact ⟨List.rel_append h (List.Forall₂.cons ⟨rfl, rfl⟩ List.Forall₂.nil), rfl⟩

/-- The loop of `QDMI_session_init`, from different handles. -/
theorem openDevices_alike (env : DriverEnv) (token : List UInt8) (cfgs : List Configured)
    (n n' : Nat) :
    List.Forall₂ DeviceAlike (openDevices env token 0 cfgs { next := n }).1.devices
        (openDevices env token 0 cfgs { next := n' }).1.devices ∧
      (openDevices env token 0 cfgs { next := n }).2 =
        (openDevices env token 0 cfgs { next := n' }).2 :=
  loopFrom_rel (R := fun o o' : Opening => List.Forall₂ DeviceAlike o.devices o'.devices)
    (fun k cfg _ _ h => openDevice_alike token k cfg h) cfgs 0 _ _ List.Forall₂.nil

/-! ## The functions of the interface -/

theorem sessionAlloc_alike (h : StateAlike s t) (session : Bool) :
    ResultAlike (sessionAlloc s env session) (sessionAlloc t env session) := by
  unfold sessionAlloc
  split
  · exact finish_alike h _ _ _
  split
  · exact finish_alike h _ _ _
  -- The two heaps give out the same handle.
  have hnew := Heap.rel_alloc h.sessions (a := {}) (b := {})
    ⟨rfl, rfl, fun _ => rfl, List.Forall₂.nil⟩
  rw [← h.count, h.sessions.1]
  dsimp only
  split
  · rcases initializeDriver env with ⟨events, status | ⟨libraries, configuredDevices⟩⟩
    · exact finish_alike h _ _ _
    · refine reply_alike ?_ _ _ _
      exact ⟨rfl, rfl, rfl, hnew, h.jobs⟩
  · refine reply_alike ?_ _ _ _
    exact ⟨h.libraries, h.configured, rfl, hnew, h.jobs⟩

theorem sessionInit_alike (h : StateAlike s t) (session : Option Nat) :
    ResultAlike (sessionInit s env session) (sessionInit t env session) := by
  unfold sessionInit
  rcases session with _ | i
  · exact finish_alike h _ _ _
  rcases session_alike h i with ⟨hs, ht⟩ | ⟨sess, sess', hs, ht, halike⟩
  · simp only [hs, ht]
    exact fault_alike _
  simp only [hs, ht, ← halike.status, ← halike.token]
  split
  · exact finish_alike h _ _ _
  split
  · exact finish_alike h _ _ _
  rename_i token _
  have hopen := openDevices_alike env token s.configuredDevices s.nextHandle t.nextHandle
  rw [← h.configured]
  -- The two loops end alike, so the handlers are the same.
  rcases hloop : openDevices env token 0 s.configuredDevices { next := s.nextHandle } with ⟨o, r⟩
  rcases hloop' : openDevices env token 0 s.configuredDevices { next := t.nextHandle } with ⟨o', r'⟩
  rw [hloop, hloop'] at hopen
  have hr : r = r' := hopen.2
  subst hr
  rcases r with _ | abort
  · refine finish_alike ?_ _ _ _
    refine ⟨h.libraries, rfl, h.count, ?_, h.jobs⟩
    exact Heap.rel_set h.sessions hs ht ⟨rfl, rfl, fun _ => rfl, hopen.1⟩
  · refine finish_alike ?_ _ _ _
    refine ⟨h.libraries, rfl, h.count, ?_, h.jobs⟩
    exact Heap.rel_set h.sessions hs ht ⟨rfl, rfl, fun _ => rfl, halike.devices⟩

theorem sessionFree_alike (h : StateAlike s t) (session : Option Nat) :
    ResultAlike (sessionFree s session) (sessionFree t session) := by
  unfold sessionFree
  rcases session with _ | i
  · exact finish_alike h _ _ _
  rcases session_alike h i with ⟨hs, ht⟩ | ⟨sess, sess', hs, ht, halike⟩
  · simp only [hs, ht]
    exact fault_alike _
  simp only [hs, ht, ← h.count]
  split
  · refine finish_alike ?_ _ _ _
    exact ⟨rfl, rfl, rfl, Heap.rel_free h.sessions i, h.jobs⟩
  · refine finish_alike ?_ _ _ _
    exact ⟨h.libraries, h.configured, rfl, Heap.rel_free h.sessions i, h.jobs⟩

theorem sessionSetParameter_alike (h : StateAlike s t) (session : Option Nat) (param size : Nat)
    (value : Option (Nat → UInt8)) : 
      ResultAlike (sessionSetParameter s env session param size value)
        (sessionSetParameter t env session param size value) := by
  unfold sessionSetParameter
  rcases session with _ | i
  · exact finish_alike h _ _ _
  dsimp only
  split
  · exact finish_alike h _ _ _
  split
  · exact finish_alike h _ _ _
  rcases session_alike h i with ⟨hs, ht⟩ | ⟨sess, sess', hs, ht, halike⟩
  · simp only [hs, ht]
    exact fault_alike _
  -- Alike sessions have the same status, so the same checks go through.
  simp only [hs, ht, ← halike.status]
  split
  · exact finish_alike h _ _ _
  split
  · exact finish_alike h _ _ _
  rcases value with _ | v
  · exact finish_alike h _ _ _
  dsimp only
  split
  · exact escape_alike h _
  split
  · exact escape_alike h _
  · refine finish_alike ?_ _ _ _
    refine ⟨h.libraries, h.configured, h.count, ?_, h.jobs⟩
    exact Heap.rel_set h.sessions hs ht ⟨rfl, rfl, halike.mode, halike.devices⟩

/-- The list of devices is the same, as their addresses are. -/
theorem sessionQuerySessionProperty_alike (addr : DeviceHandle → Nat) (h : StateAlike s t)
    (session : Option Nat) (prop : Nat) (out : OutArgs) :
    sessionQuerySessionProperty addr s session prop out =
      sessionQuerySessionProperty addr t session prop out := by
  unfold sessionQuerySessionProperty
  rcases session with _ | i
  · rfl
  rcases session_alike h i with ⟨hs, ht⟩ | ⟨sess, sess', hs, ht, halike⟩
  · simp only [hs, ht]
  · simp only [hs, ht, halike.status, halike.devices.length_eq]

theorem adoptJob_alike (h : StateAlike s t) (dev : DeviceHandle) (status : Status)
    (events events' : List Event) :
    ResultAlike (adoptJob s dev status events) (adoptJob t dev status events') := by
  unfold adoptJob
  split
  · exact finish_alike h _ _ _
  · rw [h.jobs.1]
    refine reply_alike ?_ _ _ _
    exact ⟨h.libraries, h.configured, h.count, h.sessions, Heap.rel_alloc h.jobs rfl⟩

theorem deviceCreateJob_alike (h : StateAlike s t) (dev : Option DeviceHandle) (job : Bool) :
    ResultAlike (deviceCreateJob s env dev job) (deviceCreateJob t env dev job) := by
  unfold deviceCreateJob
  rcases dev with _ | dev
  · exact finish_alike h _ _ _
  dsimp only
  split
  · exact finish_alike h _ _ _
  rcases deviceAt_alike h dev with ⟨hs, ht⟩ | ⟨sess, sess', d, d', hs, ht, hmode, hd⟩
  · simp only [hs, ht]
    exact fault_alike _
  simp only [hs, ht, ← hmode]
  split
  · exact finish_alike h _ _ _
  split
  · exact finish_alike h _ _ _
  · exact adoptJob_alike h _ _ _ _

theorem sessionRetrieveJobById_alike (h : StateAlike s t) (dev : Option DeviceHandle)
    (jobId : Option CString) (job : Bool) : ResultAlike (sessionRetrieveJobById s env dev jobId job)
      (sessionRetrieveJobById t env dev jobId job) := by
  unfold sessionRetrieveJobById
  rcases dev with _ | dev
  · exact finish_alike h _ _ _
  rcases jobId with _ | jobId
  · exact finish_alike h _ _ _
  dsimp only
  split
  · exact finish_alike h _ _ _
  split
  · exact finish_alike h _ _ _
  -- From here on both calls look at devices with the same table and mode.
  rcases deviceAt_alike h dev with ⟨hs, ht⟩ | ⟨sess, sess', d, d', hs, ht, hmode, hd⟩
  · simp only [hs, ht]
    exact fault_alike _
  simp only [hs, ht, ← hmode, ← hd.1]
  split
  · exact finish_alike h _ _ _
  split
  · exact finish_alike h _ _ _
  split
  · exact escape_alike h _
  · exact adoptJob_alike h _ _ _ _

/-- The job behind a handle, and the device it is on. -/
theorem job_alike (h : StateAlike s t) (j : Nat) :
    (s.jobs.get? j = none ∧ t.jobs.get? j = none) ∨ ∃ jb jb', s.jobs.get? j = some jb ∧
      t.jobs.get? j = some jb' ∧ jb.device = jb'.device := h.jobs.2 j

theorem jobFree_alike (h : StateAlike s t) (job : Option Nat) :
    ResultAlike (jobFree s job) (jobFree t job) := by
  unfold jobFree
  rcases job with _ | j
  · exact finish_alike h _ _ _
  rcases job_alike h j with ⟨hs, ht⟩ | ⟨jb, jb', hs, ht, hdev⟩
  · simp only [hs, ht]
    exact fault_alike _
  simp only [hs, ht, ← hdev]
  rcases deviceAt_alike h jb.device with ⟨hs', ht'⟩ | ⟨sess, sess', d, d', hs', ht', _, hd⟩
  · simp only [hs', ht']
    exact fault_alike _
  · simp only [hs', ht']
    refine finish_alike ?_ _ _ _
    exact ⟨h.libraries, h.configured, h.count, h.sessions, Heap.rel_free h.jobs j⟩

theorem passJob_alike (h : StateAlike s t) (job : Option Nat) (call : JobCall) :
    ResultAlike (passJob s env job call) (passJob t env job call) := by
  unfold passJob
  rcases job with _ | j
  · exact finish_alike h _ _ _
  rcases job_alike h j with ⟨hs, ht⟩ | ⟨jb, jb', hs, ht, hdev⟩
  · simp only [hs, ht]
    exact fault_alike _
  simp only [hs, ht, ← hdev]
  rcases deviceAt_alike h jb.device with ⟨hs', ht'⟩ | ⟨sess, sess', d, d', hs', ht', _, hd⟩
  · simp only [hs', ht']
    exact fault_alike _
  · simp only [hs', ht']
    exact reply_alike h _ _ _

theorem passQuery_alike (h : StateAlike s t) (dev : Option DeviceHandle) (call : QueryCall) :
    ResultAlike (passQuery s env dev call) (passQuery t env dev call) := by
  unfold passQuery
  rcases dev with _ | dev
  · exact finish_alike h _ _ _
  rcases deviceAt_alike h dev with ⟨hs, ht⟩ | ⟨sess, sess', d, d', hs, ht, _, hd⟩
  · simp only [hs, ht]
    exact fault_alike _
  · simp only [hs, ht]
    exact reply_alike h _ _ _

/-- An answer that is worked out from the state alone. -/
theorem map_alike (h : StateAlike s t) (x : Except Fault Reply) :
    ResultAlike (x.map (fun reply => ({ reply := .ok reply, events := [] }, s)))
      (x.map (fun reply => ({ reply := .ok reply, events := [] }, t))) := by
  rcases x with e | reply
  · exact fault_alike e
  · exact reply_alike h _ _ _

theorem deviceQueryDeviceProperty_alike (h : StateAlike s t) (dev : Option DeviceHandle)
    (prop : Nat) (out : OutArgs) : ResultAlike (deviceQueryDeviceProperty s env dev prop out)
      (deviceQueryDeviceProperty t env dev prop out) := by
  unfold deviceQueryDeviceProperty
  split
  · rcases dev with _ | dev
    · exact finish_alike h _ _ _
    rcases deviceAt_alike h dev with ⟨hs, ht⟩ | ⟨sess, sess', d, d', hs, ht, _, hd⟩
    · simp only [hs, ht]
      exact fault_alike _
    · simp only [hs, ht, queryDeviceId, ← hd.2]
      exact map_alike h _
  · exact passQuery_alike h _ _

theorem jobGetProgramStatus_alike (h : StateAlike s t) (job : Option Nat) (i : Nat)
    (status : Bool) : ResultAlike (jobGetProgramStatus s env job i status)
      (jobGetProgramStatus t env job i status) := by
  unfold jobGetProgramStatus
  split
  · exact finish_alike h _ _ _
  · exact passJob_alike h _ _

end

/-- Every call goes alike in states that are alike. -/
theorem driverStep_alike (addr : DeviceHandle → Nat) {s t : DriverState} (h : StateAlike s t)
    (c : DriverCall) : ResultAlike (driverStep addr s c) (driverStep addr t c) := by
  rcases c with ⟨op, env⟩
  cases op with
  | sessionAlloc session => exact sessionAlloc_alike h session
  | sessionInit session => exact sessionInit_alike h session
  | sessionFree session => exact sessionFree_alike h session
  | sessionSetParameter session param size value =>
      exact sessionSetParameter_alike h session param size value
  | sessionQuerySessionProperty session prop out =>
      simp only [driverStep, sessionQuerySessionProperty_alike addr h session prop out]
      exact map_alike h _
  | deviceCreateJob dev job => exact deviceCreateJob_alike h dev job
  | sessionRetrieveJobById dev jobId job => exact sessionRetrieveJobById_alike h dev jobId job
  | jobFree job => exact jobFree_alike h job
  | jobGetProgramStatus job i status => exact jobGetProgramStatus_alike h job i status
  | jobSetParameter job param size value => exact passJob_alike h job _
  | jobSetPrograms job format count sizes programs => exact passJob_alike h job _
  | jobGetProgram job i out => exact passJob_alike h job _
  | jobQueryProperty job prop out => exact passJob_alike h job _
  | jobSubmit job => exact passJob_alike h job _
  | jobCancel job => exact passJob_alike h job _
  | jobCheck job status => exact passJob_alike h job _
  | jobWait job timeout => exact passJob_alike h job _
  | jobGetResults job i result out => exact passJob_alike h job _
  | deviceQueryDeviceProperty dev prop out => exact deviceQueryDeviceProperty_alike h dev prop out
  | deviceQuerySiteProperty dev site prop out => exact passQuery_alike h dev _
  | deviceQueryOperationProperty dev operation args prop out => exact passQuery_alike h dev _

/-- A client gets the same answers from states that are alike, whatever it
    calls. -/
theorem outputs_alike {addr : DeviceHandle → Nat} {s t : DriverState} (h : StateAlike s t)
    (calls : List DriverCall) :
    outputs (clientStep addr) s calls = outputs (clientStep addr) t calls := by
  refine outputs_eq_of_bisim (R := StateAlike) (fun s t c h => ?_) calls s t h
  rcases driverStep_alike addr h c with
    ⟨e, hs, ht⟩ | ⟨out, out', s', t', hs, ht, hout, h'⟩
  · exact Or.inl ⟨e, by rw [clientStep, hs]; rfl, by rw [clientStep, ht]; rfl⟩
  · refine Or.inr ⟨out.reply, s', t', by rw [clientStep, hs]; rfl, ?_, h'⟩
    rw [clientStep, ht, hout]
    rfl

end Driver

end Qdmi
