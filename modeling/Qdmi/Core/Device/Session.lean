import Qdmi.Core.Device.State

/-!
# Device and Session Operations

`CXX_QDMI_device_initialize`, `CXX_QDMI_device_finalize` and the functions of
the device session interface.

A handle argument is `none` for a null pointer. A handle that is not live has
been freed, or was never handed out; using one is a fault. The guards run in
the order of the source, so a call that is rejected before it looks behind the
handle is rejected for a dead handle as well.

## Main definitions

* `deviceInitialize`, `deviceFinalize`: The device becomes idle or offline.
* `deviceSessionAlloc`, `deviceSessionInit`, `deviceSessionFree`: The life of a
  session.
* `deviceSessionSetParameter`: Setting the token.
-/

namespace Qdmi

variable {R : Type}

/-- `CXX_QDMI_device_initialize`. -/
def deviceInitialize (s : DeviceState R) : Result (DeviceState R) :=
  answer .success { s with status := .idle }

/-- `CXX_QDMI_device_finalize`. -/
def deviceFinalize (s : DeviceState R) : Result (DeviceState R) :=
  answer .success { s with status := .offline }

/-- `CXX_QDMI_device_session_alloc`; `session` says whether the out parameter
    is given. The `new` is not guarded, so a failing allocation throws. -/
def deviceSessionAlloc (s : DeviceState R) (env : Env R) (session : Bool) :
    Result (DeviceState R) :=
  if !session then answer .errorInvalidargument s
  else if !env.mem 0 then raise .badAlloc s
  else .ok (.ok { status := .success, handle := some s.sessions.next },
    { s with sessions := s.sessions.alloc {} })

/-- `CXX_QDMI_device_session_init`. -/
def deviceSessionInit (s : DeviceState R) (session : Option Nat) : Result (DeviceState R) :=
  match session with
  | none => answer .errorInvalidargument s
  | some h =>
    match s.status with
    | .error | .offline | .maintenance => answer .errorFatal s
    | _ =>
      match s.sessions.get? h with
      | none => .error .danglingHandle
      | some sess =>
        if sess.token = [] then answer .errorPermissiondenied s
        else answer .success
          { s with sessions := s.sessions.set h { sess with status := .initialized } }

/-- `CXX_QDMI_device_session_free`; deleting a null pointer does nothing. -/
def deviceSessionFree (s : DeviceState R) (session : Option Nat) : Result (DeviceState R) :=
  match session with
  | none => answer .success s
  | some h =>
    match s.sessions.get? h with
    | none => .error .danglingHandle
    | some _ => answer .success { s with sessions := s.sessions.free h }

/-- `CXX_QDMI_device_session_set_parameter`. The token keeps all `size` bytes,
    its terminator included. Its copy is one allocation whatever its length: one that
    is short enough to be kept inside the string may fail here as well. -/
def deviceSessionSetParameter (s : DeviceState R) (env : Env R) (session : Option Nat)
    (param size : Nat) (value : Option (Nat → UInt8)) : Result (DeviceState R) :=
  match session with
  | none => answer .errorInvalidargument s
  | some h =>
    if value.isSome && size == 0 then answer .errorInvalidargument s
    else if isInvalidEnumValue param DeviceSessionParameter.max then
      answer .errorInvalidargument s
    else
      match s.sessions.get? h with
      | none => .error .danglingHandle
      | some sess =>
        if sess.status ≠ .allocated then answer .errorBadstate s
        else if param ≠ DeviceSessionParameter.token then answer .errorNotsupported s
        else
          match value with
          | none => answer .success s
          | some v =>
            if vectorMaxSize 1 < size then raise .lengthError s
            else if !env.mem 0 then raise .badAlloc s
            else answer .success
              { s with sessions := s.sessions.set h { sess with token := readBytes v size } }

end Qdmi
