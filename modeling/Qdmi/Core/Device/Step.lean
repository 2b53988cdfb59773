import Qdmi.Core.Device.Results
import Qdmi.Lib.Runs

/-!
# The Device as a System

One step of the example device: some entry point is called with some
arguments, in an environment that decides its allocations and the values it
draws. A run of the device is a run of `deviceStep`.

The size-reporting queries are one constructor of `Op`, since none of them changes
the state. There are six kinds, and an operation query is also made with a handle
that is none of the device's operations.

## Main definitions

* `Query`: A size-reporting query with its arguments.
* `deviceQuery`: The answer to a query.
* `Op`: A call of an entry point.
* `Call`: A call with its environment.
* `deviceStep`: The step function.
* `DeviceRuns`: The runs of a freshly loaded device.
-/

namespace Qdmi

variable {R : Type}

/-- A size-reporting query with its arguments. -/
inductive Query where
  | jobProgram (job : Option Nat) (programIndex : Nat)
  | jobProperty (job : Option Nat) (prop : Nat)
  | jobResults (job : Option Nat) (programIndex kind : Nat)
  | deviceProperty (session : Option Nat) (prop : Nat)
  | siteProperty (session site : Option Nat) (prop : Nat)
  | operationProperty (session : Option Nat) (operation : Option Operation)
      (args : OperationArgs) (prop : Nat)
  | foreignOperation (session : Option Nat) (args : OperationArgs) (prop : Nat)

/-- A call of an entry point. Handles are `none` for null pointers, and a
    `Bool` says whether an out parameter is given. -/
inductive Op where
  | deviceInitialize
  | deviceFinalize
  | sessionAlloc (session : Bool)
  | sessionInit (session : Option Nat)
  | sessionFree (session : Option Nat)
  | sessionSetParameter (session : Option Nat) (param size : Nat) (value : Option (Nat → UInt8))
  | createDeviceJob (session : Option Nat) (job : Bool)
  | retrieveDeviceJobById
  | jobFree (job : Option Nat)
  | jobSetParameter (job : Option Nat) (param size : Nat) (value : Option (Nat → UInt8))
  | jobSetPrograms (job : Option Nat) (format count : Nat) (sizes : Option (Nat → Nat))
      (programs : Option (Nat → Option (Nat → UInt8)))
  | jobGetProgramStatus (job : Option Nat) (programIndex : Nat)
  | jobSubmit (job : Option Nat)
  | jobCancel (job : Option Nat)
  | jobCheck (job : Option Nat) (status : Bool)
  | jobWait (job : Option Nat)
  | query (q : Query) (out : OutArgs)

/-- A call with its environment. -/
structure Call (R : Type) where
  op : Op
  env : Env R

section

variable [Zero R] [DecidableEq R] [Add R] [Mul R] [Div R] [DoubleRepr R]

/-- The answer to a query. -/
def deviceQuery (img : Image) (s : DeviceState R) (mem : Alloc) (q : Query) (out : OutArgs) :
    Except Fault (Except Exn Reply) :=
  match q with
  | .jobProgram job i => (deviceJobGetProgram s job i out).map .ok
  | .jobProperty job prop => (deviceJobQueryProperty s job prop out).map .ok
  | .jobResults job i kind => deviceJobGetResults s mem job i kind out
  | .deviceProperty session prop =>
    (deviceSessionQueryDeviceProperty img s session prop out).map .ok
  | .siteProperty session site prop =>
    (deviceSessionQuerySiteProperty session site prop out).map .ok
  | .operationProperty session operation args prop =>
    (deviceSessionQueryOperationProperty img session operation args prop out).map .ok
  | .foreignOperation session args prop =>
    deviceSessionQueryForeignOperation session args prop out

/-- One call of an entry point. -/
def deviceStep (img : Image) (s : DeviceState R) (c : Call R) : Result (DeviceState R) :=
  match c.op with
  | .deviceInitialize => deviceInitialize s
  | .deviceFinalize => deviceFinalize s
  | .sessionAlloc session => deviceSessionAlloc s c.env session
  | .sessionInit session => deviceSessionInit s session
  | .sessionFree session => deviceSessionFree s session
  | .sessionSetParameter session param size value =>
    deviceSessionSetParameter s c.env session param size value
  | .createDeviceJob session job => deviceSessionCreateDeviceJob s c.env session job
  | .retrieveDeviceJobById => deviceSessionRetrieveDeviceJobById s
  | .jobFree job => deviceJobFree s job
  | .jobSetParameter job param size value => deviceJobSetParameter s job param size value
  | .jobSetPrograms job format count sizes programs =>
    deviceJobSetPrograms s c.env job format count sizes programs
  | .jobGetProgramStatus job i => deviceJobGetProgramStatus s job i
  | .jobSubmit job => deviceJobSubmit img s c.env job
  | .jobCancel job => deviceJobCancel s job
  | .jobCheck job status => deviceJobCheck s c.env job status
  | .jobWait job => deviceJobWait s job
  | .query q out => (deviceQuery img s c.env.mem q out).map (fun reply => (reply, s))

/-- A step of a run of the device. -/
abbrev DeviceEntry (R : Type) := Entry (DeviceState R) (Call R) (Except Exn Reply)

/-- The runs of a freshly loaded device. -/
def DeviceRuns (img : Image) (tr : List (DeviceEntry R)) (s : DeviceState R) : Prop :=
  Runs (deviceStep img) {} tr s

end

end Qdmi
