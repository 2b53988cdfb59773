import Qdmi.Core.Constants
import Qdmi.Lib.Memory

/-!
# Calls Across the Interface

What every entry point has in common: what it is given to write into, what it
hands back, and the size protocol its queries follow.

A call that returns hands back a `Reply`. A call that throws hands back an
exception, and both leave a state behind. A call that runs into undefined
behaviour hands back nothing, so a `Result` is a `Fault` or an outcome with a
state, and a proof about the state after a call never has to say what a fault
leaves.

`respond` is the body shared by the three property macros and by the
hand-written queries. It is given the size it needs and the write it makes.
The buffer is touched after the size check only, and the size is reported
last, so a call that fails on the size reports none.

A parameter value is the memory behind the pointer, as a function of the
offset: the caller promises `size` readable bytes. `readBytes` is what a call
copies out of it.

`CString` is a string of the source passed as `const char *`. Its second field
is what makes `strlen` the length of the list.

## Main definitions

* `Reply`: What a returning call hands back.
* `Result`: The outcome of a call on a state.
* `answer`, `raise`: The two ways a call ends.
* `Abort`: How a loop inside a `try` ends early.
* `SessionStatus`: The states of a session, in the driver and in the device.
* `readBytes`: The bytes a call copies from the caller.
* `OutArgs`: The size, value and size return arguments of a query.
* `OperationArgs`: The site and parameter arguments of an operation query.
* `OutArgs.degenerate`: The check every query makes on its buffer.
* `respond`: The common body of the queries.
* `CString`: A string without an inner terminator.
* `addSingleValueProperty`, `addStringProperty`, `addListProperty`: The
  property macros.
-/

namespace Qdmi

/-- What a returning call hands back: the status, the handle or job status
    written through an out parameter, the caller's buffer afterwards and the
    size written through the size return pointer. -/
structure Reply where
  status : Status
  handle : Option Nat := none
  jobStatus : Option JobStatus := none
  value : Option Buffer := none
  sizeRet : Option Nat := none
  deriving DecidableEq, Repr

/-- The outcome of a call on a state. -/
abbrev Result (σ : Type) := Except Fault (Except Exn Reply × σ)

/-- Return a status and nothing else. -/
def answer {σ : Type} (status : Status) (s : σ) : Result σ := .ok (.ok { status := status }, s)

/-- Let an exception escape. -/
def raise {σ : Type} (e : Exn) (s : σ) : Result σ := .ok (.error e, s)

/-- How a loop inside a `try` ends early: with a `return` or with an
    exception. -/
inductive Abort where
  | returned (status : Status)
  | thrown (e : Exn)
  deriving DecidableEq, Repr

/-- `CXX_QDMI_DEVICE_SESSION_STATUS`, and the driver's `QDMI_SESSION_STATUS`. -/
inductive SessionStatus where
  | allocated
  | initialized
  deriving DecidableEq, Repr

/-- The first `size` bytes behind a pointer. -/
def readBytes (value : Nat → UInt8) (size : Nat) : List UInt8 := (List.range size).map value

@[simp]
theorem length_readBytes (value : Nat → UInt8) (size : Nat) :
    (readBytes value size).length = size := by
  rw [readBytes, List.length_map, List.length_range]

/-- A `size_t` or `uint64_t`. -/
def sizeTBytes (n : Nat) : List UInt8 := leBytes 8 n

/-- The arguments a query writes through: the size the caller states, the
    buffer, and whether a size return pointer was passed. -/
structure OutArgs where
  size : Nat
  value : Option Buffer
  sizeRet : Bool
  deriving DecidableEq, Repr

/-- The site and parameter arguments of an operation query. The parameter
    values are never read, so only their presence is kept. -/
structure OperationArgs where
  numSites : Nat
  sites : Option (Nat → Nat)
  numParams : Nat
  params : Bool

namespace OutArgs

/-- `value != nullptr && size == 0`. -/
def degenerate (out : OutArgs) : Bool := out.value.isSome && out.size == 0

/-- The size as reported through the size return pointer. -/
def reported (out : OutArgs) (need : Nat) : Option Nat := if out.sizeRet then some need else none

/-- Reject a call, leaving the buffer as it is. -/
def reject (out : OutArgs) (status : Status) : Reply := { status := status, value := out.value }

end OutArgs

/-- The common body of the queries: check the size, write, report the size. -/
def respond (out : OutArgs) (need : Nat) (write : Cursor → Except Fault Cursor) :
    Except Fault Reply :=
  match out.value with
  | none => .ok { status := .success, sizeRet := out.reported need }
  | some buf =>
    if out.size < need then .ok (out.reject .errorInvalidargument)
    else do
      let cur ← write (Cursor.start buf)
      .ok { status := .success, value := some cur.buf, sizeRet := out.reported need }

/-- A string passed as `const char *`, without its terminator. -/
structure CString where
  chars : List UInt8
  noNul : ∀ c ∈ chars, c ≠ 0

/-- `strncpy` followed by the store of a terminator in the last byte. -/
def CString.writeTo (str : CString) (size : Nat) (cur : Cursor) : Except Fault Cursor := do
  let cur ← cur.puts (str.chars.take size ++ List.replicate (size - str.chars.length) 0)
  cur.patchBack 0

/-- `ADD_SINGLE_VALUE_PROPERTY`, with the value given by its bytes; `rest` is
    the code behind the macro. -/
def addSingleValueProperty (name : Nat) (bytes : List UInt8) (prop : Nat) (out : OutArgs)
    (rest : Except Fault Reply) : Except Fault Reply :=
  if prop = name then respond out bytes.length (fun cur => cur.puts bytes) else rest

/-- `ADD_STRING_PROPERTY`. -/
def addStringProperty (name : Nat) (str : CString) (prop : Nat) (out : OutArgs)
    (rest : Except Fault Reply) : Except Fault Reply :=
  if prop = name then respond out (str.chars.length + 1) (str.writeTo out.size) else rest

/-- `ADD_LIST_PROPERTY`, with each element given by its bytes. -/
def addListProperty (name : Nat) (elems : List (List UInt8)) (prop : Nat) (out : OutArgs)
    (rest : Except Fault Reply) : Except Fault Reply :=
  if prop = name then respond out elems.flatten.length (fun cur => cur.puts elems.flatten)
  else rest

end Qdmi
