import Mathlib.Logic.Function.Basic
import Qdmi.Core.Device.Step
import Qdmi.Core.Driver.Step

/-!
# The Driver on Top of the Example Device

What the examples build and their tests run: the example driver, with the
example device behind every library it loads.

The driver model takes the answers of the libraries from its environment and
reports the calls they receive. Here each of these calls is made, on the device
state the library keeps, and the answers the driver was given have to be the
ones the libraries give. A step whose answers are not is `misheard` and is no
step of the stack; which answers a driver hears is thereby determined by the
libraries.

The driver numbers the handles that libraries hand out. A library has its own
name for each of them, which `LibraryState` keeps, so a number stands for a
pointer, and a client's site and operation handles are addresses in the image of
the library. A made-up address is no handle.

A library that is loaded again may have stayed in memory or not. Whether its
state is a fresh one is left to the environment, each time it is initialized.

A library may let an exception escape. `QDMI_session_init` catches it, and a
function that passes a call on does not.

## Main definitions

* `LibraryState`, `World`: A library in memory, and all of them.
* `pointer`, `handleOf`: A pointer that is followed, and one that is returned.
* `siteAt`, `operationAt`, `siteIndex`: The objects behind addresses.
* `JobCall.op`, `QueryCall.op`, `LibraryCall.op`: A call of the driver as a call
  of an entry point.
* `heardStatus`, `LibraryCall.hears`: What the driver hears of an outcome.
* `LibraryState.after`: A library after a call.
* `Delivery`, `worldStep`: One event outside the driver.
* `Stack`, `StackCall`, `StackOut`: The system, a call of a client, and what
  comes of it.
* `stackStep`: The step function.
* `StackRuns`: The runs of a fresh process.
-/

namespace Qdmi

namespace Driver

variable {R : Type}

/-! ## Calls of the driver as calls of entry points -/

/-- The site at an address. -/
def siteAt (img : Image) (addr : Nat) : Option Nat :=
  deviceSites.find? (fun i => img.siteAddr i == addr)

/-- The operation at an address. -/
def operationAt (img : Image) (addr : Nat) : Option Operation :=
  deviceOperations.find? (fun op => img.operationAddr op == addr)

/-- An address in a tuple of sites. It is compared and never followed, so an
    address of no site is as good as any other. -/
def siteIndex (img : Image) (addr : Nat) : Nat :=
  (siteAt img addr).getD (deviceSites.length + addr)

/-- A library in memory: its device, and what it calls the sessions and jobs that
    the driver numbers. -/
structure LibraryState (R : Type) where
  device : DeviceState R := {}
  session : Nat → Option Nat := fun _ => none
  job : Nat → Option Nat := fun _ => none

/-- All libraries. -/
abbrev World (R : Type) := Nat × List UInt8 → LibraryState R

/-- A pointer that is followed. -/
def pointer (p : Option Nat) : Except Fault Nat :=
  match p with
  | none => .error .danglingHandle
  | some p => .ok p

/-- A function of a job, as the entry point of the library. The codes of the job
    parameters and properties are those of the device interface. -/
def JobCall.op (job : Nat) : JobCall → Op
  | .setParameter param size value => .jobSetParameter (some job) param size value
  | .setPrograms format count sizes programs =>
    .jobSetPrograms (some job) format count sizes programs
  | .getProgram i out => .query (.jobProgram (some job) i) out
  | .getProgramStatus i => .jobGetProgramStatus (some job) i
  | .queryProperty prop out => .query (.jobProperty (some job) prop) out
  | .submit => .jobSubmit (some job)
  | .cancel => .jobCancel (some job)
  | .check status => .jobCheck (some job) status
  | .wait _ => .jobWait (some job)
  | .getResults i result out => .query (.jobResults (some job) i result) out

/-- A query of a device, as the entry point of the library. -/
def QueryCall.op (img : Image) (session : Nat) : QueryCall → Except Fault Op
  | .deviceProperty prop out => .ok (.query (.deviceProperty (some session) prop) out)
  | .siteProperty none prop out => .ok (.query (.siteProperty (some session) none prop) out)
  | .siteProperty (some addr) prop out =>
    match siteAt img addr with
    | none => .error .danglingHandle
    | some site => .ok (.query (.siteProperty (some session) (some site) prop) out)
  | .operationProperty none args prop out =>
    .ok (.query (.operationProperty (some session) none args prop) out)
  | .operationProperty (some addr) args prop out =>
    match operationAt img addr with
    | none => .error .danglingHandle
    | some operation =>
      let args := { args with sites := args.sites.map (fun sites i => siteIndex img (sites i)) }
      .ok (.query (.operationProperty (some session) (some operation) args prop) out)

/-- A call of the driver, as the entry point of the library. -/
def LibraryCall.op (img : Image) (l : LibraryState R) : LibraryCall → Except Fault Op
  | .deviceInitialize _ => .ok .deviceInitialize
  | .deviceFinalize => .ok .deviceFinalize
  | .deviceSessionAlloc _ _ => .ok (.sessionAlloc true)
  | .deviceSessionSetParameter n param value _ => (pointer (l.session n)).map (fun session =>
    .sessionSetParameter (some session) param value.length (some (fun i => value.getD i 0)))
  | .deviceSessionInit n _ =>
    (pointer (l.session n)).map (fun session => .sessionInit (some session))
  | .deviceSessionFree n =>
    (pointer (l.session n)).map (fun session => .sessionFree (some session))
  | .deviceSessionCreateDeviceJob n _ _ =>
    (pointer (l.session n)).map (fun session => .createDeviceJob (some session) true)
  | .deviceSessionRetrieveDeviceJobById n _ _ _ =>
    (pointer (l.session n)).map (fun _ => .retrieveDeviceJobById)
  | .deviceJobFree n => (pointer (l.job n)).map (fun job => .jobFree (some job))
  | .deviceJob n call => (pointer (l.job n)).map (fun job => call.op job)
  | .deviceQuery n call => (pointer (l.session n)).bind (fun session => call.op img session)

/-! ## What the driver hears -/

/-- The status of an outcome; an exception counts as the handlers of the driver
    count it. -/
def heardStatus : Except Exn Reply → Status
  | .ok reply => reply.status
  | .error e => abortStatus (.thrown e)

/-- The answer the driver was given is the one of the library. A library hands
    out a handle exactly when it answers `SUCCESS`. -/
def LibraryCall.hears (outcome : Except Exn Reply) : LibraryCall → Bool
  | .deviceInitialize status => status == heardStatus outcome
  | .deviceSessionAlloc status session =>
    status == heardStatus outcome && session.isSome == (status == .success)
  | .deviceSessionSetParameter _ _ _ status => status == heardStatus outcome
  | .deviceSessionInit _ status => status == heardStatus outcome
  | .deviceSessionCreateDeviceJob _ status job =>
    status == heardStatus outcome && job.isSome == (status == .success)
  | .deviceSessionRetrieveDeviceJobById _ _ status job =>
    status == heardStatus outcome && job.isSome == (status == .success)
  | _ => true

/-- The handle a call returned through its out parameter. -/
def handleOf (outcome : Except Exn Reply) : Option Nat := outcome.toOption.bind Reply.handle

/-- A library after a call. Its name for a handle is kept under the number the
    driver gives it. -/
def LibraryState.after (l : LibraryState R) (s : DeviceState R) (outcome : Except Exn Reply) :
    LibraryCall → LibraryState R
  | .deviceSessionAlloc _ (some n) =>
    { l with device := s, session := Function.update l.session n (handleOf outcome) }
  | .deviceSessionCreateDeviceJob _ _ (some n) =>
    { l with device := s, job := Function.update l.job n (handleOf outcome) }
  | .deviceSessionRetrieveDeviceJobById _ _ _ (some n) =>
    { l with device := s, job := Function.update l.job n (handleOf outcome) }
  | _ => { l with device := s }

/-- What a client gets from a function of the driver that makes one call. The
    answers to functions of jobs and to queries are passed on, and where a job
    is made an exception passes through. -/
def LibraryCall.returned (outcome driver : Except Exn Reply) : LibraryCall → Except Exn Reply
  | .deviceJob _ _ => outcome
  | .deviceQuery _ _ => outcome
  | .deviceSessionCreateDeviceJob _ _ _ | .deviceSessionRetrieveDeviceJobById _ _ _ _ =>
    match outcome with
    | .error e => .error e
    | .ok _ => driver
  | _ => driver

/-- Why a step of the stack does not go through. -/
inductive Stuck where
  | fault (e : Fault)
  | misheard
  deriving DecidableEq, Repr

/-! ## The steps -/

/-- An event outside the driver, with what the environment decides for the
    library: its allocations and draws, and whether it finds a fresh state when
    it is initialized. -/
structure Delivery (R : Type) where
  event : Event
  env : Env R
  fresh : Bool

/-- The device a library has when it receives a call. -/
def LibraryState.found (l : LibraryState R) (fresh : Bool) : LibraryCall → DeviceState R
  | .deviceInitialize _ => if fresh then {} else l.device
  | _ => l.device

section

variable [Zero R] [DecidableEq R] [Add R] [Mul R] [Div R] [DoubleRepr R]

/-- One event outside the driver. What is observed is the call an entry point
    receives, and its outcome. -/
def worldStep (img : Nat × List UInt8 → Image) (w : World R) (a : Delivery R) :
    Except Stuck (Option (Call R × Except Exn Reply) × World R) :=
  match a.event with
  | .dlopen _ => .ok (none, w)
  | .dlclose _ => .ok (none, w)
  | .call key call =>
    match call.op (img key) (w key) with
    | .error e => .error (.fault e)
    | .ok op =>
      match deviceStep (img key) ((w key).found a.fresh call) ⟨op, a.env⟩ with
      | .error e => .error (.fault e)
      | .ok (outcome, s) =>
        if call.hears outcome then
          .ok (some (⟨op, a.env⟩, outcome), Function.update w key ((w key).after s outcome call))
        else .error .misheard

/-- A step of the libraries. -/
abbrev WorldEntry (R : Type) :=
  Entry (World R) (Delivery R) (Option (Call R × Except Exn Reply))

/-- The driver and the libraries. -/
structure Stack (R : Type) where
  driver : DriverState := {}
  world : World R := fun _ => {}

/-- A call of a client, with the environment of the driver and, for each event
    the call leads to, that of the library. -/
structure StackCall (R : Type) where
  call : DriverCall
  env : Nat → Env R
  fresh : Nat → Bool

/-- The events of a call, with their environments. -/
def StackCall.deliveries (c : StackCall R) (events : List Event) : List (Delivery R) :=
  events.mapIdx (fun i event => ⟨event, c.env i, c.fresh i⟩)

/-- What comes of a call: what the driver reports, and the steps of the
    libraries. -/
structure StackOut (R : Type) where
  driver : DriverOut
  world : List (WorldEntry R)

/-- What a client gets back. -/
def StackOut.reply (out : StackOut R) : Except Exn Reply :=
  match out.world with
  | [⟨_, ⟨.call _ call, _, _⟩, some (_, outcome), _⟩] => call.returned outcome out.driver.reply
  | _ => out.driver.reply

/-- One call of a client. -/
def stackStep (addr : DeviceHandle → Nat) (img : Nat × List UInt8 → Image) (t : Stack R)
    (c : StackCall R) : Except Stuck (StackOut R × Stack R) :=
  match driverStep addr t.driver c.call with
  | .error e => .error (.fault e)
  | .ok (out, driver) =>
    match play (worldStep img) t.world (c.deliveries out.events) with
    | .error e => .error e
    | .ok (entries, world) => .ok (⟨out, entries⟩, ⟨driver, world⟩)

/-- A step of a run of the stack. -/
abbrev StackEntry (R : Type) := Entry (Stack R) (StackCall R) (StackOut R)

/-- The runs of a fresh process. -/
def StackRuns (addr : DeviceHandle → Nat) (img : Nat × List UInt8 → Image)
    (tr : List (StackEntry R)) (t : Stack R) : Prop :=
  Runs (stackStep addr img) {} tr t

end

end Driver

end Qdmi
