import Qdmi.Core.Driver.Library

/-!
# Sessions of the Driver

The functions of the client session interface.

`QDMI_session_init` fills a vector of devices and moves it into the session
when every device is open. `Opening` is that vector. A device that cannot be
opened all the way is destroyed on the spot, and the devices before it when
the vector goes out of scope; the session itself is touched at the end only,
apart from its access mode, which is written first.

Allocations are numbered as the library calls are: the turn for device `k`
makes three of each, for the device, its ID and its place in the vector, and
to allocate, authenticate and initialize its device session.

## Main definitions

* `sessionAlloc`, `sessionFree`: The life of a session.
* `sessionVariable`: The out parameter of `sessionAlloc`.
* `sessionSetParameter`: Setting the token.
* `freeDevices`: The destructors of devices.
* `Opening`, `openDevice`, `openDevices`: The loop of `QDMI_session_init`.
* `sessionInit`: Opening every configured device.
* `sessionQuerySessionProperty`: The list of devices.
-/

namespace Qdmi

namespace Driver

/-- `QDMI_session_alloc`; `session` says whether the out parameter is given.
    The session that counts from zero reads the configuration. -/
def sessionAlloc (s : DriverState) (env : DriverEnv) (session : Bool) : DriverResult :=
  if !session then finish .errorInvalidargument [] s
  else if !env.mem 0 then finish .errorOutofmem [] s
  else
    let reply : Reply := { status := .success, handle := some s.sessions.next }
    if s.count = 0 then
      match initializeDriver env with
      | (events, .error status) => finish status events s
      | (events, .ok (libraries, configuredDevices)) =>
        -- Moving the vectors in destroys the ones that were there.
        .ok ({ reply := .ok reply, events := events ++ unloadAll s.libraries },
          { s with libraries, configuredDevices, count := 1, sessions := s.sessions.alloc {} })
    else
      .ok ({ reply := .ok reply, events := [] },
        { s with count := s.count + 1, sessions := s.sessions.alloc {} })

/-- What `*session` holds after `QDMI_session_alloc`: the function stores a null
    pointer in it before anything can fail, and the new session at its end. -/
def sessionVariable (out : DriverOut) : Option Nat := out.reply.toOption.bind Reply.handle

/-- The destructor of a device. -/
def freeDevice (d : Device) : Event := .call d.library.key (.deviceSessionFree d.deviceSession)

/-- The destructors of a list of devices. -/
def freeDevices (devices : List Device) : List Event := devices.map freeDevice

/-- The vector `QDMI_session_init` fills, what happened so far, and the next
    handle a library hands out. -/
structure Opening where
  devices : List Device := []
  events : List Event := []
  next : Nat

/-- The turn of `QDMI_session_init` for the configured device at index `k`. -/
def openDevice (env : DriverEnv) (token : List UInt8) (k : Nat) (cfg : Configured) (o : Opening) :
    Opening × Option Abort :=
  if !env.mem (3 * k) || !env.mem (3 * k + 1) then (o, some (.thrown .badAlloc))
  else if env.status (3 * k) ≠ .success then
    ({ o with events := o.events ++
      [.call cfg.library.key (.deviceSessionAlloc (env.status (3 * k))
        (handleFor (env.gives (3 * k)) o.next))] },
      some (.returned (env.status (3 * k))))
  else
    let d : Device := { library := cfg.library, deviceSession := o.next, id := cfg.id }
    let allocated : Event := .call d.library.key (.deviceSessionAlloc .success
      (handleFor (env.gives (3 * k)) o.next))
    -- The token is passed with its terminator.
    let authenticated : Event := .call d.library.key (.deviceSessionSetParameter o.next
      DeviceSessionParameter.token (token ++ [0]) (env.status (3 * k + 1)))
    let initialized : Event :=
      .call d.library.key (.deviceSessionInit o.next (env.status (3 * k + 2)))
    if env.status (3 * k + 1) ≠ .success ∧ env.status (3 * k + 1) ≠ .errorNotsupported then
      ({ o with
          events := o.events ++ [allocated, authenticated, freeDevice d]
          next := o.next + 1 },
        some (.returned (env.status (3 * k + 1))))
    else if env.status (3 * k + 2) ≠ .success then
      ({ o with
          events := o.events ++ [allocated, authenticated, initialized, freeDevice d]
          next := o.next + 1 },
        some (.returned (env.status (3 * k + 2))))
    else if !env.mem (3 * k + 2) then
      ({ o with
          events := o.events ++ [allocated, authenticated, initialized, freeDevice d]
          next := o.next + 1 },
        some (.thrown .badAlloc))
    else
      ({ devices := o.devices ++ [d]
         events := o.events ++ [allocated, authenticated, initialized]
         next := o.next + 1 }, none)

/-- The loop of `QDMI_session_init`, from the configured device at index `k` on. -/
def openDevices (env : DriverEnv) (token : List UInt8) :
    Nat → List Configured → Opening → Opening × Option Abort :=
  loopFrom (openDevice env token)

/-- The access mode for a token. -/
def tokenMode (token : List UInt8) : Mode := if token = [] then .readonly else .readwrite

/-- `QDMI_session_init`. -/
def sessionInit (s : DriverState) (env : DriverEnv) (session : Option Nat) : DriverResult :=
  match session with
  | none => finish .errorInvalidargument [] s
  | some h =>
    match s.sessions.get? h with
    | none => .error .danglingHandle
    | some sess =>
      if sess.status ≠ .allocated then finish .errorBadstate [] s
      else
        match sess.token with
        | none => finish .errorPermissiondenied [] s
        | some token =>
          let sess := { sess with mode := tokenMode token }
          match openDevices env token 0 s.configuredDevices { next := s.nextHandle } with
          | (o, some abort) =>
            finish (abortStatus abort) (o.events ++ freeDevices o.devices)
              { s with sessions := s.sessions.set h sess, nextHandle := o.next }
          | (o, none) =>
            let sess := { sess with deviceList := o.devices, status := .initialized, bare := nofun }
            finish .success o.events
              { s with sessions := s.sessions.set h sess, nextHandle := o.next }

/-- `--driver_state->sessions` on a `size_t`. -/
def countDown : Nat → Nat
  | 0 => sizeTMod - 1
  | n + 1 => n

/-- `QDMI_session_free`. The last session unloads the libraries. -/
def sessionFree (s : DriverState) (session : Option Nat) : DriverResult :=
  match session with
  | none => finish .success [] s
  | some h =>
    match s.sessions.get? h with
    | none => .error .danglingHandle
    | some sess =>
      let freed := { s with sessions := s.sessions.free h, count := countDown s.count }
      if countDown s.count = 0 then
        finish .success (freeDevices sess.deviceList ++ unloadAll s.libraries)
          { freed with libraries := [], configuredDevices := [] }
      else finish .success (freeDevices sess.deviceList) freed

/-- `QDMI_session_set_parameter`. The last byte of the value is taken for the
    terminator and left out. The copy is one allocation whatever its length: one that
    is short enough to be kept inside the string may fail here as well. -/
def sessionSetParameter (s : DriverState) (env : DriverEnv) (session : Option Nat)
    (param size : Nat) (value : Option (Nat → UInt8)) : DriverResult :=
  match session with
  | none => finish .errorInvalidargument [] s
  | some h =>
    if value.isSome && size == 0 then finish .errorInvalidargument [] s
    else if isInvalidEnumValue param SessionParameter.max then finish .errorInvalidargument [] s
    else
      match s.sessions.get? h with
      | none => .error .danglingHandle
      | some sess =>
        if sess.status ≠ .allocated then finish .errorBadstate [] s
        else if param ≠ SessionParameter.token then finish .errorNotsupported [] s
        else
          match value with
          | none => finish .success [] s
          | some v =>
            if vectorMaxSize 1 < size - 1 then escape .lengthError s
            else if !env.mem 0 then escape .badAlloc s
            else
              let sess := { sess with token := some (readBytes v (size - 1)) }
              finish .success [] { s with sessions := s.sessions.set h sess }

/-- `QDMI_session_query_session_property`; `addr` gives the addresses of the
    device objects. -/
def sessionQuerySessionProperty (addr : DeviceHandle → Nat) (s : DriverState)
    (session : Option Nat) (prop : Nat) (out : OutArgs) : Except Fault Reply :=
  match session with
  | none => .ok (out.reject .errorInvalidargument)
  | some h =>
    if out.degenerate || isInvalidEnumValue prop SessionProperty.max then
      .ok (out.reject .errorInvalidargument)
    else
      match s.sessions.get? h with
      | none => .error .danglingHandle
      | some sess =>
        if sess.status ≠ .initialized then .ok (out.reject .errorBadstate)
        else if prop ≠ SessionProperty.devices then .ok (out.reject .errorNotsupported)
        else
          respond out (sess.deviceList.length * 8) (fun cur =>
            (List.range sess.deviceList.length).foldlM
              (fun cur i => cur.puts (sizeTBytes (addr { session := h, index := i }))) cur)

end Driver

end Qdmi
