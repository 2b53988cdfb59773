import Qdmi.Core.Call
import Qdmi.Lib.Heap

/-!
# State of the Example Driver

The structures of `qdmi_example_driver.cpp`, and what a call leaves behind in
the device libraries.

A device library is code the driver has never seen. All the model knows of one
is which calls it receives, so every call into a library is recorded as an
`Event`, together with the opening and closing of library files. The answers
come from the environment `DriverEnv` of the client's call. What the driver relies
on in them is its field `givesOnSuccess`: a library hands out a handle exactly when
it answers `SUCCESS`. The handle is a new one.

Objects that the source reaches through a pointer are kept behind the handle a
client uses for it: a device by its session and its place in the device list,
and a session or a job by its own handle. A pointer to a `QDMI_Library` is a
copy of the library, since the fields kept here never change.

## Main definitions

* `Library`, `Configured`: A loaded library, and an entry of the configuration.
* `Device`, `Session`, `Job`: The objects handed out to clients.
* `DriverState`: The driver state and the live objects.
* `JobCall`, `QueryCall`, `LibraryCall`, `Event`: What a library sees.
* `ConfigSource`, `DriverEnv`: What the environment decides for one call.
* `handleFor`: The handle of an answer.
* `DriverResult`: The outcome of a call.
* `deviceAt`: The session and the device behind a device handle.
-/

namespace Qdmi

namespace Driver

/-- `QDMI_DEVICE_MODE`. -/
inductive Mode where
  | readonly
  | readwrite
  deriving DecidableEq, Repr

/-- `QDMI_Library`, from when it is initialized. `retrieve` says whether the one
    optional function was found. -/
structure Library where
  handle : Nat
  libPrefix : List UInt8
  retrieve : Bool
  deriving DecidableEq, Repr

/-- What tells two loaded libraries apart. -/
def Library.key (lib : Library) : Nat × List UInt8 := (lib.handle, lib.libPrefix)

/-- `QDMI_Configured_Device`. -/
structure Configured where
  library : Library
  id : List UInt8
  deriving DecidableEq, Repr

/-- `QDMI_Device_impl_d`. The session is part of its handle. -/
structure Device where
  library : Library
  deviceSession : Nat
  id : List UInt8
  deriving DecidableEq, Repr

/-- A device as clients name it: its session and its place in the device list. -/
structure DeviceHandle where
  session : Nat
  index : Nat
  deriving DecidableEq, Repr

/-- The session a client is given has no devices. -/
theorem noDevices {status : SessionStatus} : status = .allocated → ([] : List Device) = [] :=
  fun _ => rfl

/-- `QDMI_Session_impl_d`. A session has devices only once it is initialized. -/
structure Session where
  status : SessionStatus := .allocated
  deviceList : List Device := []
  token : Option (List UInt8) := none
  mode : Mode := .readonly
  bare : status = .allocated → deviceList = [] := by exact noDevices
  deriving DecidableEq, Repr

/-- `QDMI_Job_impl_d`. -/
structure Job where
  device : DeviceHandle
  deviceJob : Nat
  deriving DecidableEq, Repr

/-- `QDMI_Driver_State` and the objects handed out to clients. `nextHandle` is
    the next handle a library hands out. -/
structure DriverState where
  libraries : List Library := []
  configuredDevices : List Configured := []
  count : Nat := 0
  sessions : Heap Session := {}
  jobs : Heap Job := {}
  nextHandle : Nat := 0

/-- The session and the device behind a device handle. -/
def deviceAt (s : DriverState) (dev : DeviceHandle) : Option (Session × Device) :=
  (s.sessions.get? dev.session).bind (fun sess =>
    sess.deviceList[dev.index]?.map (fun d => (sess, d)))

/-! ## Calls into the libraries -/

/-- The functions of a job that are passed on, with their arguments. -/
inductive JobCall where
  | setParameter (param size : Nat) (value : Option (Nat → UInt8))
  | setPrograms (format count : Nat) (sizes : Option (Nat → Nat))
      (programs : Option (Nat → Option (Nat → UInt8)))
  | getProgram (programIndex : Nat) (out : OutArgs)
  | getProgramStatus (programIndex : Nat)
  | queryProperty (prop : Nat) (out : OutArgs)
  | submit
  | cancel
  | check (status : Bool)
  | wait (timeout : Nat)
  | getResults (programIndex result : Nat) (out : OutArgs)

/-- The queries of a device that are passed on, with their arguments. -/
inductive QueryCall where
  | deviceProperty (prop : Nat) (out : OutArgs)
  | siteProperty (site : Option Nat) (prop : Nat) (out : OutArgs)
  | operationProperty (operation : Option Nat) (args : OperationArgs) (prop : Nat) (out : OutArgs)

/-- A call a library receives, with the status it answers where the driver
    looks at it and the handle it hands out. -/
inductive LibraryCall where
  | deviceInitialize (status : Status)
  | deviceFinalize
  | deviceSessionAlloc (status : Status) (session : Option Nat)
  | deviceSessionSetParameter (session param : Nat) (value : List UInt8) (status : Status)
  | deviceSessionInit (session : Nat) (status : Status)
  | deviceSessionFree (session : Nat)
  | deviceSessionCreateDeviceJob (session : Nat) (status : Status) (job : Option Nat)
  | deviceSessionRetrieveDeviceJobById (session : Nat) (jobId : List UInt8) (status : Status)
      (job : Option Nat)
  | deviceJobFree (job : Nat)
  | deviceJob (job : Nat) (call : JobCall)
  | deviceQuery (session : Nat) (call : QueryCall)

/-- What happens outside the driver: a library file is opened or closed, or the
    library with a given key receives a call. -/
inductive Event where
  | dlopen (handle : Nat)
  | dlclose (handle : Nat)
  | call (key : Nat × List UInt8) (call : LibraryCall)

/-- How reading the configuration goes until its text is at hand. -/
inductive ConfigSource where
  | throws (e : Exn)
  | notAllowed
  | cannotOpen
  | text (content : List UInt8)

/-- A library that gives a handle with `SUCCESS` and not otherwise. -/
theorem gives_of_status {status : Nat → Status} (k : Nat) :
    decide (status k = .success) = true ↔ status k = .success := decide_eq_true_iff

/-- What the environment decides for one call: its allocations, the
    configuration and the libraries it finds, and what the libraries answer. Each of
    their calls has a status, and the ones that are to hand out a handle do so or
    not, as the interface of the libraries demands. -/
structure DriverEnv where
  mem : Alloc
  config : ConfigSource
  dlopen : List UInt8 → Option Nat
  dlsym : Nat → List UInt8 → Bool
  status : Nat → Status
  gives : Nat → Bool := fun k => decide (status k = .success)
  givesOnSuccess : ∀ k, gives k = true ↔ status k = .success := by exact gives_of_status
  reply : Reply

/-- The handle of an answer, if the library gives one. -/
def handleFor (gives : Bool) (next : Nat) : Option Nat := if gives then some next else none

theorem handleFor_of_success {env : DriverEnv} {k : Nat} (h : env.status k = .success)
    (next : Nat) : handleFor (env.gives k) next = some next := by
  rw [handleFor, if_pos ((env.givesOnSuccess k).mpr h)]

theorem handleFor_of_failure {env : DriverEnv} {k : Nat} (h : env.status k ≠ .success)
    (next : Nat) : handleFor (env.gives k) next = none := by
  rw [handleFor, if_neg (fun hgives => h ((env.givesOnSuccess k).mp hgives))]

/-- What a call hands back, and what happened outside the driver meanwhile. -/
structure DriverOut where
  reply : Except Exn Reply
  events : List Event

/-- The outcome of a call. -/
abbrev DriverResult := Except Fault (DriverOut × DriverState)

/-- Return a status. -/
def finish (status : Status) (events : List Event) (s : DriverState) : DriverResult :=
  .ok ({ reply := .ok { status := status }, events := events }, s)

/-- Let an exception escape. -/
def escape (e : Exn) (s : DriverState) : DriverResult :=
  .ok ({ reply := .error e, events := [] }, s)

end Driver

end Qdmi
