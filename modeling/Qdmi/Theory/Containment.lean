import Qdmi.Theory.Device.Atomicity
import Qdmi.Theory.Device.Containment
import Qdmi.Theory.Driver.Spared

/-!
# Exceptions in Device and Driver

The driver has two `try` blocks, around the loading of the configuration and
around the opening of the devices, and two allocations that report failure by
a null pointer. In the blocks a failure can strike after any number of lines or
devices. Opening the devices goes as it would with memory up to the turn that ends
it (`openDevices_spared`). Loading the configuration does not: a stream keeps a
failed allocation to itself, and what was read is cut short without a word
(`ReadsCutShort`).

A token is copied and a retrieved job is made outside of the blocks. With the
allocations of the device and the lookup of an operation these are all that an
exception can escape from, and `step_contained_iff` says so for every call in every
state. The counterexample `sessionAlloc_throws` is the first call any client makes.

## Main definitions

* `DriverCall.spared`: The same call with memory.
* `ReadsCutShort`: The call that does not report a failure.
* `CopiesToken`, `RetrievesJob`, `Exposed`, `TooLong`: The allocations of the
  driver outside every handler.

## Theorems

* `openDevices_spared`: The loop over the devices.
* `sessionAlloc_contained_iff`: When reading the configuration is contained.
* `driverStep_contained_iff`: The calls of the driver that are contained.
* `step_contained_iff`: The calls of both that are contained.
* `sessionAlloc_throws`: A call that is not.
-/

namespace Qdmi

namespace Driver

/-- The same call, with memory for everything. -/
def DriverCall.spared (c : DriverCall) : DriverCall := { c with env := c.env.spared }

/-! ## The guarded blocks -/

/-- One configured device. -/
theorem openDevice_spared (env : DriverEnv) (token : List UInt8) (k : Nat) (cfg : Configured)
    (o : Opening) : openDevice env token k cfg o = openDevice env.spared token k cfg o ∨
      ∃ e, (openDevice env token k cfg o).2 = some e ∧ e = .thrown .badAlloc := by
  unfold openDevice
  split
  · exact Or.inr ⟨_, rfl, rfl⟩
  simp only [DriverEnv.spared, Bool.not_true, Bool.or_self, Bool.false_eq_true, if_false]
  iterate 3
    split
    · exact Or.inl rfl
  split
  · exact Or.inr ⟨_, rfl, rfl⟩
  · exact Or.inl rfl

/-- Opening the devices goes as it would with memory, or ends in
    `bad_alloc`. -/
theorem openDevices_spared (env : DriverEnv) (token : List UInt8) (cfgs : List Configured)
    (o : Opening) : openDevices env token 0 cfgs o = openDevices env.spared token 0 cfgs o ∨
      (openDevices env token 0 cfgs o).2 = some (.thrown .badAlloc) := by
  rcases loopFrom_same_or (openDevice_spared env token) cfgs 0 o with hsame | ⟨e, he, rfl⟩
  · exact Or.inl hsame
  · exact Or.inr he

section

variable {s : DriverState}

theorem replies_finish (status : Status) (events : List Event) :
    Replies DriverOut.reply (finish status events s) := replies_ok rfl

/-- `QDMI_session_alloc` reads a configuration, with success, that is cut short. -/
def ReadsCutShort (s : DriverState) (env : DriverEnv) (session : Bool) : Prop :=
  session = true ∧ s.count = 0 ∧ env.mem 0 = true ∧
    ∃ content, env.config = .text content ∧ Configurable env content ∧ CutShort env.mem content

/-- A call that succeeds in reading its configuration does not report a failure, so it
    has to go as with memory. -/
theorem contained_reads_iff {events events' : List Event} {libraries : List Library}
    {devices : List Configured} {r : Except Status (List Library × List Configured)} :
    Contained DriverOut.reply
        (.ok ({ reply := .ok { status := .success, handle := some s.sessions.next }
                events := events ++ unloadAll s.libraries },
          { s with libraries, configuredDevices := devices, count := 1
                   sessions := s.sessions.alloc {} }))
        (match (events', r) with
        | (events, .error status) => finish status events s
        | (events, .ok (libraries, configuredDevices)) =>
          .ok ({ reply := .ok { status := .success, handle := some s.sessions.next }
                 events := events ++ unloadAll s.libraries },
            { s with libraries, configuredDevices, count := 1
                     sessions := s.sessions.alloc {} })) ↔
      (events', r) = (events, .ok (libraries, devices)) := by
  constructor
  · intro h
    rcases h _ _ rfl with ⟨reply, hreply, hsame | hst | hst⟩
    · rcases r with status | ⟨libraries', devices'⟩
      · have hout := (Prod.mk.inj (Except.ok.inj hsame)).1
        have hhandle := congrArg Reply.handle (Except.ok.inj (congrArg DriverOut.reply hout))
        exact absurd hhandle (by simp only [reduceCtorEq, not_false_eq_true])
      · rcases Prod.mk.inj (Except.ok.inj hsame) with ⟨hout, hstate⟩
        have hevents := List.append_cancel_right (congrArg DriverOut.events hout)
        have hlibs := congrArg DriverState.libraries hstate
        have hdevices := congrArg DriverState.configuredDevices hstate
        dsimp only at hevents hlibs hdevices
        rw [hevents, hlibs, hdevices]
    all_goals
      rw [← Except.ok.inj hreply] at hst
      exact absurd hst (by simp only [reduceCtorEq, not_false_eq_true])
  · intro hsame
    rw [hsame]
    exact contained_same (replies_ok rfl)

theorem sessionAlloc_contained_iff {s : DriverState} {env : DriverEnv} {session : Bool} :
    Contained DriverOut.reply (sessionAlloc s env session) (sessionAlloc s env.spared session) ↔
      ¬ ReadsCutShort s env session := by
  unfold sessionAlloc
  cases session with
  | false =>
      exact iff_of_true (contained_same (replies_finish _ _)) (fun h => Bool.false_ne_true h.1)
  | true =>
      cases hmem : env.mem 0 with
      | false =>
          refine iff_of_true (contained_failed rfl (Or.inl rfl)) (fun h => ?_)
          exact Bool.false_ne_true (hmem.symm.trans h.2.2.1)
      | true =>
          rw [if_neg (c := (!env.spared.mem 0) = true) Bool.false_ne_true]
          simp only [Bool.not_true, Bool.false_eq_true, if_false]
          by_cases hzero : s.count = 0
          · simp only [if_pos hzero]
            rcases hinit : initializeDriver env with ⟨events, (status | ⟨libraries, devices⟩)⟩
            · -- A call that fails says so.
              refine iff_of_true (contained_failed rfl (initializeDriver_failed hinit)) ?_
              rintro ⟨_, _, _, content, hconfig, hall, _⟩
              rcases (initializeDriver_ok_iff env).mpr ⟨content, hconfig, hall⟩ with ⟨_, _, hok⟩
              rw [hinit] at hok
              exact absurd hok (by simp only [reduceCtorEq, not_false_eq_true])
            · rcases (initializeDriver_ok_iff env).mp ⟨_, _, congrArg Prod.snd hinit⟩ with
                ⟨content, hconfig, hall⟩
              have hshort : ReadsCutShort s env true ↔ CutShort env.mem content := by
                constructor
                · rintro ⟨_, _, _, content', hconfig', _, hcut⟩
                  rw [hconfig, ConfigSource.text.injEq] at hconfig'
                  rwa [hconfig']
                · exact fun hcut => ⟨rfl, hzero, hmem, content, hconfig, hall, hcut⟩
              rw [hshort, ← initializeDriver_spared_iff hinit hconfig, hinit]
              exact contained_reads_iff
          · simp only [if_neg hzero]
            refine iff_of_true ?_ (fun h => hzero h.2.1)
            exact contained_same (replies_ok rfl)

/-- A configuration of two devices, of which the second is lost. -/
example : (driverStep (fun _ => 0) {} ⟨.sessionAlloc true,
    { sampleEnv with mem := fun k => k != 10 }⟩).toOption.map
      (fun r => (r.1.reply.toOption.map Reply.status, catalogue r.2)) =
    some (some .success, [ascii "one"]) := rfl

theorem sessionInit_contained (s : DriverState) (env : DriverEnv) (session : Option Nat) :
    Contained DriverOut.reply (sessionInit s env session) (sessionInit s env.spared session) := by
  unfold sessionInit
  split
  · exact contained_same (replies_finish _ _)
  split
  · exact contained_same (replies_fault _)
  split
  · exact contained_same (replies_finish _ _)
  split
  · exact contained_same (replies_finish _ _)
  rename_i token _
  dsimp only
  -- Opening the devices is all that needs memory.
  rcases openDevices_spared env token s.configuredDevices { next := s.nextHandle } with
    hsame | hbad
  · rw [← hsame]
    refine contained_same ?_
    rcases openDevices env token 0 s.configuredDevices { next := s.nextHandle } with
      ⟨o, _ | abort⟩
    · exact replies_finish _ _
    · exact replies_finish _ _
  · rcases hloop : openDevices env token 0 s.configuredDevices { next := s.nextHandle } with ⟨o, r⟩
    rw [hloop] at hbad
    have hr : r = some (.thrown .badAlloc) := hbad
    rw [hr]
    exact contained_failed rfl (Or.inl rfl)

theorem replies_adoptJob (dev : DeviceHandle) (status : Status) (events : List Event) :
    Replies DriverOut.reply (adoptJob s dev status events) := by
  unfold adoptJob
  split
  · exact replies_finish _ _
  · exact replies_ok rfl

theorem deviceCreateJob_contained (s : DriverState) (env : DriverEnv) (dev : Option DeviceHandle)
    (job : Bool) :
    Contained DriverOut.reply (deviceCreateJob s env dev job)
      (deviceCreateJob s env.spared dev job) := by
  unfold deviceCreateJob
  split
  · exact contained_same (replies_finish _ _)
  split
  · exact contained_same (replies_finish _ _)
  split
  · exact contained_same (replies_fault _)
  split
  · exact contained_same (replies_finish _ _)
  split
  · exact contained_failed rfl (Or.inl rfl)
  · rw [if_neg (c := (!env.spared.mem 0) = true) Bool.false_ne_true]
    exact contained_same (replies_adoptJob _ _ _)

/-! ## Calls that do not allocate -/

theorem sessionFree_replies (session : Option Nat) :
    Replies DriverOut.reply (sessionFree s session) := by
  unfold sessionFree
  split
  · exact replies_finish _ _
  split
  · exact replies_fault _
  dsimp only
  split
  · exact replies_finish _ _
  · exact replies_finish _ _

theorem jobFree_replies (job : Option Nat) : Replies DriverOut.reply (jobFree s job) := by
  unfold jobFree
  split
  · exact replies_finish _ _
  split
  · exact replies_fault _
  split
  · exact replies_fault _
  · exact replies_finish _ _

theorem passJob_contained (s : DriverState) (env : DriverEnv) (job : Option Nat) (call : JobCall) :
    Contained DriverOut.reply (passJob s env job call) (passJob s env.spared job call) := by
  unfold passJob
  split
  · exact contained_same (replies_finish _ _)
  split
  · exact contained_same (replies_fault _)
  split
  · exact contained_same (replies_fault _)
  · exact contained_same (replies_ok rfl)

theorem jobGetProgramStatus_contained (s : DriverState) (env : DriverEnv) (job : Option Nat)
    (i : Nat) (status : Bool) :
    Contained DriverOut.reply (jobGetProgramStatus s env job i status)
      (jobGetProgramStatus s env.spared job i status) := by
  unfold jobGetProgramStatus
  split
  · exact contained_same (replies_finish _ _)
  · exact passJob_contained s env job _

theorem passQuery_contained (s : DriverState) (env : DriverEnv) (dev : Option DeviceHandle)
    (call : QueryCall) :
    Contained DriverOut.reply (passQuery s env dev call) (passQuery s env.spared dev call) := by
  unfold passQuery
  split
  · exact contained_same (replies_finish _ _)
  split
  · exact contained_same (replies_fault _)
  · exact contained_same (replies_ok rfl)

/-- A query the driver answers itself. -/
theorem replies_answered (x : Except Fault Reply) :
    Replies DriverOut.reply
      (x.map (fun reply => (({ reply := .ok reply, events := [] } : DriverOut), s))) := by
  rcases x with e | reply
  · exact replies_fault e
  · exact replies_ok rfl

theorem deviceQueryDeviceProperty_contained (s : DriverState) (env : DriverEnv)
    (dev : Option DeviceHandle) (prop : Nat) (out : OutArgs) :
    Contained DriverOut.reply (deviceQueryDeviceProperty s env dev prop out)
      (deviceQueryDeviceProperty s env.spared dev prop out) := by
  unfold deviceQueryDeviceProperty
  split
  · refine contained_same ?_
    split
    · exact replies_finish _ _
    split
    · exact replies_fault _
    · exact replies_answered _
  · exact passQuery_contained s env dev _

end

/-! ## Allocations outside the handlers -/

/-- `QDMI_session_set_parameter` gets as far as copying a token. -/
def CopiesToken (s : DriverState) (session : Option Nat) (param size : Nat)
    (value : Option (Nat → UInt8)) : Prop :=
  ∃ h sess, session = some h ∧ s.sessions.get? h = some sess ∧ sess.status = .allocated ∧
    param = SessionParameter.token ∧ value.isSome = true ∧ size ≠ 0

/-- `QDMI_session_retrieve_job_by_id` gets as far as making a job. -/
def RetrievesJob (s : DriverState) (dev : Option DeviceHandle) (jobId : Option CString)
    (job : Bool) : Prop :=
  ∃ h str sess d, dev = some h ∧ jobId = some str ∧ str.chars ≠ [] ∧ job = true ∧
    deviceAt s h = some (sess, d) ∧ sess.mode = .readwrite ∧ d.library.retrieve = true

/-- The call makes its first allocation, and nothing catches what it throws. -/
def Exposed (s : DriverState) (op : DriverOp) : Prop :=
  match op with
  | .sessionSetParameter session param size value => CopiesToken s session param size value
  | .sessionRetrieveJobById dev jobId job => RetrievesJob s dev jobId job
  | _ => False

/-- The call copies more bytes than a string can have. The last byte of the
    value is not copied. -/
def TooLong (s : DriverState) (op : DriverOp) : Prop :=
  match op with
  | .sessionSetParameter session param size value =>
    CopiesToken s session param size value ∧ vectorMaxSize 1 < size - 1
  | _ => False

theorem sessionSetParameter_contained_iff {s : DriverState} {env : DriverEnv}
    {session : Option Nat} {param size : Nat} {value : Option (Nat → UInt8)} :
    Contained DriverOut.reply (sessionSetParameter s env session param size value)
        (sessionSetParameter s env.spared session param size value) ↔
      (CopiesToken s session param size value →
        size - 1 ≤ vectorMaxSize 1 ∧ env.mem 0 = true) := by
  by_cases hcopies : CopiesToken s session param size value
  · rw [imp_iff_right hcopies]
    rcases hcopies with ⟨h, sess, rfl, hget, hst, rfl, hvalue, hsize⟩
    rcases value with _ | v
    · exact absurd hvalue Bool.false_ne_true
    have hvalid : isInvalidEnumValue SessionParameter.token SessionParameter.max = false := by
      decide
    simp only [sessionSetParameter, hget, hst, hvalid, hsize, Option.isSome_some, Bool.true_and,
      beq_iff_eq, Bool.false_eq_true, if_false, ne_eq, not_true_eq_false]
    exact contained_copy (b := env.mem 0) rfl rfl rfl rfl (replies_finish _ _)
  · refine iff_of_true ?_ (fun hc => absurd hc hcopies)
    unfold sessionSetParameter
    split
    · exact contained_same (replies_finish _ _)
    rename_i h
    split
    · exact contained_same (replies_finish _ _)
    rename_i hnull
    split
    · exact contained_same (replies_finish _ _)
    split
    · exact contained_same (replies_fault _)
    rename_i sess hget
    split
    · exact contained_same (replies_finish _ _)
    rename_i hst
    split
    · exact contained_same (replies_finish _ _)
    rename_i hparam
    split
    · exact contained_same (replies_finish _ _)
    -- A call that gets here copies the token.
    refine absurd ⟨h, sess, rfl, hget, not_not.mp hst, not_not.mp hparam, rfl, ?_⟩ hcopies
    simpa only [Option.isSome_some, Bool.true_and, beq_iff_eq] using hnull

theorem sessionRetrieveJobById_contained_iff {s : DriverState} {env : DriverEnv}
    {dev : Option DeviceHandle} {jobId : Option CString} {job : Bool} :
    Contained DriverOut.reply (sessionRetrieveJobById s env dev jobId job)
        (sessionRetrieveJobById s env.spared dev jobId job) ↔
      (RetrievesJob s dev jobId job → env.mem 0 = true) := by
  by_cases hretrieves : RetrievesJob s dev jobId job
  · rw [imp_iff_right hretrieves]
    rcases hretrieves with ⟨h, str, sess, d, rfl, rfl, hstr, rfl, hdev, hmode, hlib⟩
    simp only [sessionRetrieveJobById, hstr, hdev, hmode, hlib, Bool.not_true, Bool.false_eq_true,
      if_false, ne_eq, not_true_eq_false]
    exact contained_guard (b := env.mem 0) rfl rfl (replies_adoptJob _ _ _)
  · refine iff_of_true ?_ (fun hr => absurd hr hretrieves)
    unfold sessionRetrieveJobById
    split
    · rename_i h str
      split
      · exact contained_same (replies_finish _ _)
      rename_i hstr
      split
      · exact contained_same (replies_finish _ _)
      rename_i hjob
      split
      · exact contained_same (replies_fault _)
      rename_i sess d hdev
      split
      · exact contained_same (replies_finish _ _)
      rename_i hmode
      split
      · exact contained_same (replies_finish _ _)
      rename_i hlib
      -- A call that gets here makes a job.
      rw [Bool.not_eq_true', Bool.not_eq_false] at hjob hlib
      exact absurd ⟨h, str, sess, d, rfl, rfl, hstr, hjob, hdev, not_not.mp hmode, hlib⟩ hretrieves
    · exact contained_same (replies_finish _ _)

/-- The call reads a configuration that is cut short. -/
def Misreads (s : DriverState) (env : DriverEnv) (op : DriverOp) : Prop :=
  match op with
  | .sessionAlloc session => ReadsCutShort s env session
  | _ => False

/-- A call of the driver is contained when its allocation outside the handlers
    succeeds, its token is no longer than a string can be, and it does not take a
    configuration that is cut short for a whole one. -/
theorem driverStep_contained_iff (addr : DeviceHandle → Nat) (s : DriverState) (c : DriverCall) :
    Contained DriverOut.reply (driverStep addr s c) (driverStep addr s c.spared) ↔
      (Exposed s c.op → c.env.mem 0 = true) ∧ ¬ TooLong s c.op ∧ ¬ Misreads s c.env c.op := by
  rcases c with ⟨op, env⟩
  -- Where nothing is exposed the right side holds.
  have hclosed : ∀ {x y : DriverResult}, Contained DriverOut.reply x y → ¬ Exposed s op →
      ¬ TooLong s op → ¬ Misreads s env op → (Contained DriverOut.reply x y ↔
        (Exposed s op → env.mem 0 = true) ∧ ¬ TooLong s op ∧ ¬ Misreads s env op) :=
    fun hxy hnone hlong hreads => iff_of_true hxy ⟨fun h => absurd h hnone, hlong, hreads⟩
  cases op with
  | sessionAlloc session =>
      refine sessionAlloc_contained_iff.trans ?_
      exact ⟨fun h => ⟨fun hexp => absurd hexp id, id, h⟩, fun h => h.2.2⟩
  | sessionInit session => exact hclosed (sessionInit_contained s env session) id id id
  | sessionFree session => exact hclosed (contained_same (sessionFree_replies session)) id id id
  | sessionSetParameter session param size value =>
      refine sessionSetParameter_contained_iff.trans ?_
      constructor
      · intro h
        exact ⟨fun hc => (h hc).2,
          fun hlong => absurd (h hlong.1).1 (Nat.not_le_of_lt hlong.2), id⟩
      · rintro ⟨hmem, hlong, _⟩ hc
        exact ⟨Nat.le_of_not_lt (fun hlt => hlong ⟨hc, hlt⟩), hmem hc⟩
  | sessionQuerySessionProperty session prop out =>
      exact hclosed (contained_same (replies_answered _)) id id id
  | deviceCreateJob dev job => exact hclosed (deviceCreateJob_contained s env dev job) id id id
  | sessionRetrieveJobById dev jobId job =>
      exact sessionRetrieveJobById_contained_iff.trans (and_iff_left ⟨id, id⟩).symm
  | jobFree job => exact hclosed (contained_same (jobFree_replies job)) id id id
  | jobGetProgramStatus job i status =>
      exact hclosed (jobGetProgramStatus_contained s env job i status) id id id
  | jobSetParameter job | jobSetPrograms job | jobGetProgram job | jobQueryProperty job
  | jobSubmit job | jobCancel job | jobCheck job | jobWait job | jobGetResults job =>
      exact hclosed (passJob_contained s env job _) id id id
  | deviceQueryDeviceProperty dev prop out =>
      exact hclosed (deviceQueryDeviceProperty_contained s env dev prop out) id id id
  | deviceQuerySiteProperty dev | deviceQueryOperationProperty dev =>
      exact hclosed (passQuery_contained s env dev _) id id id

end Driver

section

variable {R : Type} [Zero R] [DecidableEq R] [Add R] [Mul R] [Div R] [DoubleRepr R]

/-- The calls of device and driver that are contained. -/
theorem step_contained_iff (img : Image) (addr : Driver.DeviceHandle → Nat) :
    (∀ (s : DeviceState R) (c : Call R),
      Contained id (deviceStep img s c) (deviceStep img s c.spared) ↔
        (∀ k, Exposed s c.op k → c.env.mem k = true) ∧ ¬ TooLong s c.op ∧
          ¬ LooksUpForeign c.op) ∧
    ∀ (s : Driver.DriverState) (c : Driver.DriverCall),
      Contained Driver.DriverOut.reply (Driver.driverStep addr s c)
          (Driver.driverStep addr s c.spared) ↔
        (Driver.Exposed s c.op → c.env.mem 0 = true) ∧ ¬ Driver.TooLong s c.op ∧
          ¬ Driver.Misreads s c.env c.op :=
  ⟨deviceStep_contained_iff img, Driver.driverStep_contained_iff addr⟩

end

/-- The first call of a client throws when there is no memory for the session. -/
theorem sessionAlloc_throws :
    (∃ s', deviceStep sampleImage {} ⟨.sessionAlloc true, exhaustedEnv⟩ =
      .ok (.error .badAlloc, s')) ∧
    ¬ Contained id (deviceStep sampleImage {} ⟨.sessionAlloc true, exhaustedEnv⟩)
      (deviceStep sampleImage {} (Call.spared ⟨.sessionAlloc true, exhaustedEnv⟩)) :=
  ⟨⟨{}, rfl⟩, not_contained_error rfl⟩

end Qdmi
