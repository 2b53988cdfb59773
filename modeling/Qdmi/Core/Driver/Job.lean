import Qdmi.Core.Driver.Session

/-!
# Jobs and Devices of the Driver

The functions of the client job and device interfaces.

Two functions make jobs. They check the access mode of the session the device
belongs to, ask the library for a job and hand out an object of their own that
remembers the device. All other functions check their handle for null and pass
the call on to the library of the device; `passJob` and `passQuery` are what
they have in common, and each of them is one of these with its own arguments.
The device ID is the one property the driver answers itself.

## Main definitions

* `deviceCreateJob`, `sessionRetrieveJobById`, `jobFree`: The life of a job.
* `passJob`, `passQuery`: Passing a call on.
* `jobSetParameter`, `jobSetPrograms`, `jobGetProgram`, `jobGetProgramStatus`,
  `jobQueryProperty`, `jobSubmit`, `jobCancel`, `jobCheck`, `jobWait`,
  `jobGetResults`: The functions of a job.
* `deviceQueryDeviceProperty`, `deviceQuerySiteProperty`,
  `deviceQueryOperationProperty`: The queries of a device.
-/

namespace Qdmi

namespace Driver

/-- The state and the reply after a library was asked for a job of a device. -/
def adoptJob (s : DriverState) (dev : DeviceHandle) (status : Status) (events : List Event) :
    DriverResult :=
  if status ≠ .success then finish status events s
  else
    .ok ({ reply := .ok { status := .success, handle := some s.jobs.next }, events := events },
      { s with
        jobs := s.jobs.alloc { device := dev, deviceJob := s.nextHandle }
        nextHandle := s.nextHandle + 1 })

/-- `QDMI_device_create_job`; `job` says whether the out parameter is given. -/
def deviceCreateJob (s : DriverState) (env : DriverEnv) (dev : Option DeviceHandle) (job : Bool) :
    DriverResult :=
  match dev with
  | none => finish .errorInvalidargument [] s
  | some dev =>
    if !job then finish .errorInvalidargument [] s
    else
      match deviceAt s dev with
      | none => .error .danglingHandle
      | some (sess, d) =>
        if sess.mode ≠ .readwrite then finish .errorPermissiondenied [] s
        else if !env.mem 0 then finish .errorOutofmem [] s
        else
          adoptJob s dev (env.status 0) [.call d.library.key (.deviceSessionCreateDeviceJob
            d.deviceSession (env.status 0) (handleFor (env.gives 0) s.nextHandle))]

/-- `QDMI_session_retrieve_job_by_id`. Unlike the function above it does not
    catch the exception of its allocation. -/
def sessionRetrieveJobById (s : DriverState) (env : DriverEnv) (dev : Option DeviceHandle)
    (jobId : Option CString) (job : Bool) : DriverResult :=
  match dev, jobId with
  | some dev, some jobId =>
    if jobId.chars = [] then finish .errorInvalidargument [] s
    else if !job then finish .errorInvalidargument [] s
    else
      match deviceAt s dev with
      | none => .error .danglingHandle
      | some (sess, d) =>
        if sess.mode ≠ .readwrite then finish .errorPermissiondenied [] s
        else if !d.library.retrieve then finish .errorNotsupported [] s
        else if !env.mem 0 then escape .badAlloc s
        else
          adoptJob s dev (env.status 0) [.call d.library.key (.deviceSessionRetrieveDeviceJobById
            d.deviceSession jobId.chars (env.status 0) (handleFor (env.gives 0) s.nextHandle))]
  | _, _ => finish .errorInvalidargument [] s

/-- `QDMI_job_free`. -/
def jobFree (s : DriverState) (job : Option Nat) : DriverResult :=
  match job with
  | none => finish .success [] s
  | some j =>
    match s.jobs.get? j with
    | none => .error .danglingHandle
    | some jb =>
      match deviceAt s jb.device with
      | none => .error .danglingHandle
      | some (_, d) =>
        finish .success [.call d.library.key (.deviceJobFree jb.deviceJob)]
          { s with jobs := s.jobs.free j }

/-! ## Passing calls on -/

/-- Pass a call on to the job behind a handle. -/
def passJob (s : DriverState) (env : DriverEnv) (job : Option Nat) (call : JobCall) :
    DriverResult :=
  match job with
  | none => finish .errorInvalidargument [] s
  | some j =>
    match s.jobs.get? j with
    | none => .error .danglingHandle
    | some jb =>
      match deviceAt s jb.device with
      | none => .error .danglingHandle
      | some (_, d) =>
        let event : Event := .call d.library.key (.deviceJob jb.deviceJob call)
        .ok ({ reply := .ok env.reply, events := [event] }, s)

/-- `QDMI_job_set_parameter`. -/
def jobSetParameter (s : DriverState) (env : DriverEnv) (job : Option Nat) (param size : Nat)
    (value : Option (Nat → UInt8)) : DriverResult :=
  passJob s env job (.setParameter param size value)

/-- `QDMI_job_set_programs`. -/
def jobSetPrograms (s : DriverState) (env : DriverEnv) (job : Option Nat) (format count : Nat)
    (sizes : Option (Nat → Nat)) (programs : Option (Nat → Option (Nat → UInt8))) : DriverResult :=
  passJob s env job (.setPrograms format count sizes programs)

/-- `QDMI_job_get_program`. -/
def jobGetProgram (s : DriverState) (env : DriverEnv) (job : Option Nat) (programIndex : Nat)
    (out : OutArgs) : DriverResult :=
  passJob s env job (.getProgram programIndex out)

/-- `QDMI_job_get_program_status`. It is the one function that checks its out
    parameter as well. -/
def jobGetProgramStatus (s : DriverState) (env : DriverEnv) (job : Option Nat)
    (programIndex : Nat) (status : Bool) : DriverResult :=
  if !status then finish .errorInvalidargument [] s
  else passJob s env job (.getProgramStatus programIndex)

/-- `QDMI_job_query_property`. -/
def jobQueryProperty (s : DriverState) (env : DriverEnv) (job : Option Nat) (prop : Nat)
    (out : OutArgs) : DriverResult :=
  passJob s env job (.queryProperty prop out)

/-- `QDMI_job_submit`. -/
def jobSubmit (s : DriverState) (env : DriverEnv) (job : Option Nat) : DriverResult :=
  passJob s env job .submit

/-- `QDMI_job_cancel`. -/
def jobCancel (s : DriverState) (env : DriverEnv) (job : Option Nat) : DriverResult :=
  passJob s env job .cancel

/-- `QDMI_job_check`. -/
def jobCheck (s : DriverState) (env : DriverEnv) (job : Option Nat) (status : Bool) :
    DriverResult :=
  passJob s env job (.check status)

/-- `QDMI_job_wait`. -/
def jobWait (s : DriverState) (env : DriverEnv) (job : Option Nat) (timeout : Nat) :
    DriverResult :=
  passJob s env job (.wait timeout)

/-- `QDMI_job_get_results`. -/
def jobGetResults (s : DriverState) (env : DriverEnv) (job : Option Nat)
    (programIndex result : Nat) (out : OutArgs) : DriverResult :=
  passJob s env job (.getResults programIndex result out)

/-- Pass a query on to the device session of a device. -/
def passQuery (s : DriverState) (env : DriverEnv) (dev : Option DeviceHandle) (call : QueryCall) :
    DriverResult :=
  match dev with
  | none => finish .errorInvalidargument [] s
  | some dev =>
    match deviceAt s dev with
    | none => .error .danglingHandle
    | some (_, d) =>
      let event : Event := .call d.library.key (.deviceQuery d.deviceSession call)
      .ok ({ reply := .ok env.reply, events := [event] }, s)

/-- The device ID, as `QDMI_device_query_device_property` reports it. -/
def queryDeviceId (d : Device) (out : OutArgs) : Except Fault Reply :=
  respond out (d.id.length + 1) (fun cur => cur.puts (d.id ++ [0]))

/-- `QDMI_device_query_device_property`. -/
def deviceQueryDeviceProperty (s : DriverState) (env : DriverEnv) (dev : Option DeviceHandle)
    (prop : Nat) (out : OutArgs) : DriverResult :=
  if prop = DeviceProperty.id.code then
    match dev with
    | none => finish .errorInvalidargument [] s
    | some dev =>
      match deviceAt s dev with
      | none => .error .danglingHandle
      | some (_, d) =>
        (queryDeviceId d out).map (fun reply => ({ reply := .ok reply, events := [] }, s))
  else passQuery s env dev (.deviceProperty prop out)

/-- `QDMI_device_query_site_property`. -/
def deviceQuerySiteProperty (s : DriverState) (env : DriverEnv) (dev : Option DeviceHandle)
    (site : Option Nat) (prop : Nat) (out : OutArgs) : DriverResult :=
  passQuery s env dev (.siteProperty site prop out)

/-- `QDMI_device_query_operation_property`. -/
def deviceQueryOperationProperty (s : DriverState) (env : DriverEnv) (dev : Option DeviceHandle)
    (operation : Option Nat) (args : OperationArgs) (prop : Nat) (out : OutArgs) : DriverResult :=
  passQuery s env dev (.operationProperty operation args prop out)

end Driver

end Qdmi
