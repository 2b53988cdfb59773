import Qdmi.Core.Driver.Job
import Qdmi.Lib.Runs

/-!
# The Driver as a System

One step of the example driver: a client calls some function with some
arguments, in an environment that decides the allocations of the call, the
configuration and libraries it would find, and what the libraries answer. A run
of the driver is a run of `driverStep` from the state of a fresh process.

`clientStep` is the same step as a client sees it, without the calls the
libraries receive.

## Main definitions

* `DriverOp`: A call of a client.
* `DriverCall`: A call with its environment.
* `driverStep`: The step function.
* `clientStep`: What a client sees of a step.
* `DriverRuns`: The runs of a fresh process.
* `eventsOf`: What happened outside the driver during a run.
-/

namespace Qdmi

namespace Driver

/-- A call of a client. Handles are `none` for null pointers, and a `Bool` says
    whether an out parameter is given. -/
inductive DriverOp where
  | sessionAlloc (session : Bool)
  | sessionInit (session : Option Nat)
  | sessionFree (session : Option Nat)
  | sessionSetParameter (session : Option Nat) (param size : Nat) (value : Option (Nat → UInt8))
  | sessionQuerySessionProperty (session : Option Nat) (prop : Nat) (out : OutArgs)
  | deviceCreateJob (dev : Option DeviceHandle) (job : Bool)
  | sessionRetrieveJobById (dev : Option DeviceHandle) (jobId : Option CString) (job : Bool)
  | jobFree (job : Option Nat)
  | jobSetParameter (job : Option Nat) (param size : Nat) (value : Option (Nat → UInt8))
  | jobSetPrograms (job : Option Nat) (format count : Nat) (sizes : Option (Nat → Nat))
      (programs : Option (Nat → Option (Nat → UInt8)))
  | jobGetProgram (job : Option Nat) (programIndex : Nat) (out : OutArgs)
  | jobGetProgramStatus (job : Option Nat) (programIndex : Nat) (status : Bool)
  | jobQueryProperty (job : Option Nat) (prop : Nat) (out : OutArgs)
  | jobSubmit (job : Option Nat)
  | jobCancel (job : Option Nat)
  | jobCheck (job : Option Nat) (status : Bool)
  | jobWait (job : Option Nat) (timeout : Nat)
  | jobGetResults (job : Option Nat) (programIndex result : Nat) (out : OutArgs)
  | deviceQueryDeviceProperty (dev : Option DeviceHandle) (prop : Nat) (out : OutArgs)
  | deviceQuerySiteProperty (dev : Option DeviceHandle) (site : Option Nat) (prop : Nat)
      (out : OutArgs)
  | deviceQueryOperationProperty (dev : Option DeviceHandle) (operation : Option Nat)
      (args : OperationArgs) (prop : Nat) (out : OutArgs)

/-- A call with its environment. -/
structure DriverCall where
  op : DriverOp
  env : DriverEnv

/-- One call of a client. -/
def driverStep (addr : DeviceHandle → Nat) (s : DriverState) (c : DriverCall) : DriverResult :=
  match c.op with
  | .sessionAlloc session => sessionAlloc s c.env session
  | .sessionInit session => sessionInit s c.env session
  | .sessionFree session => sessionFree s session
  | .sessionSetParameter session param size value =>
    sessionSetParameter s c.env session param size value
  | .sessionQuerySessionProperty session prop out =>
    (sessionQuerySessionProperty addr s session prop out).map
      (fun reply => ({ reply := .ok reply, events := [] }, s))
  | .deviceCreateJob dev job => deviceCreateJob s c.env dev job
  | .sessionRetrieveJobById dev jobId job => sessionRetrieveJobById s c.env dev jobId job
  | .jobFree job => jobFree s job
  | .jobSetParameter job param size value => jobSetParameter s c.env job param size value
  | .jobSetPrograms job format count sizes programs =>
    jobSetPrograms s c.env job format count sizes programs
  | .jobGetProgram job i out => jobGetProgram s c.env job i out
  | .jobGetProgramStatus job i status => jobGetProgramStatus s c.env job i status
  | .jobQueryProperty job prop out => jobQueryProperty s c.env job prop out
  | .jobSubmit job => jobSubmit s c.env job
  | .jobCancel job => jobCancel s c.env job
  | .jobCheck job status => jobCheck s c.env job status
  | .jobWait job timeout => jobWait s c.env job timeout
  | .jobGetResults job i result out => jobGetResults s c.env job i result out
  | .deviceQueryDeviceProperty dev prop out => deviceQueryDeviceProperty s c.env dev prop out
  | .deviceQuerySiteProperty dev site prop out =>
    deviceQuerySiteProperty s c.env dev site prop out
  | .deviceQueryOperationProperty dev operation args prop out =>
    deviceQueryOperationProperty s c.env dev operation args prop out

/-- What a client sees of a step. -/
def clientStep (addr : DeviceHandle → Nat) (s : DriverState) (c : DriverCall) :
    Except Fault (Except Exn Reply × DriverState) :=
  (driverStep addr s c).map (fun r => (r.1.reply, r.2))

/-- A step of a run of the driver. -/
abbrev DriverEntry := Entry DriverState DriverCall DriverOut

/-- The runs of a fresh process. -/
def DriverRuns (addr : DeviceHandle → Nat) (tr : List DriverEntry) (s : DriverState) : Prop :=
  Runs (driverStep addr) {} tr s

/-- What happened outside the driver during a run. -/
def eventsOf (tr : List DriverEntry) : List Event := tr.flatMap (fun e => e.out.events)

end Driver

end Qdmi
