import Qdmi.Core.Driver.State

/-!
# Loading the Device Libraries

`QDMI_library_load` and `QDMI_initialize_driver`.

Both are written with destructors in mind. A `QDMI_Library` that goes out of
scope finalizes itself if it was initialized and closes its file, so every
early exit of the source does so without saying it. Here the events of an exit
are spelled out, and `unload` is the destructor.

`Loading` is the pair of vectors `QDMI_initialize_driver` fills, with what has
happened so far. A line that fails leaves it as it is, and the caller unloads
the libraries in it. The set of device IDs is the list of IDs of the
configured devices: an ID is put into it right before its line is configured
or everything is given up.

The allocations of a call are numbered. The first is the session of
`QDMI_session_alloc`; line `k` makes nine more, for its text, for the stream on
it, for the first three fields, for a fourth, for its ID in the set, for the
library, for the prefix and the symbol names, for the entry in the list of
libraries and for the configured device. A string counts as one allocation,
whatever its length. The texts of the exceptions are printed and dropped, and so
are their allocations here.

Not all of them end in an exception. A stream keeps what is thrown while it is
read to itself and is in a bad state afterwards, which looks like the end of what
there is to read. So a line whose text finds no memory ends the file
(`readLines`), as an error of the file does, whose text is then what could be read
before it. A field that finds no memory is not there (`lineFields`): without one
of the first three the line is rejected, and without the fourth it is accepted.

## Main definitions

* `requiredSymbols`, `symbolName`: The symbols of a library.
* `unload`, `unloadAll`: The destructor of a library.
* `resolved`, `libraryLoad`: `QDMI_library_load`.
* `isSpace`, `configFields`, `configLines`: The syntax of the configuration.
* `readLines`, `lineFields`: What is read of it.
* `configureLine`, `configureLines`: The loop of `QDMI_initialize_driver`.
* `abortStatus`: Its handlers.
* `initializeDriver`: `QDMI_initialize_driver`.
-/

namespace Qdmi

namespace Driver

/-- The symbols every library has to define, in the order they are loaded. -/
def requiredSymbols : List String := [
  "device_initialize", "device_finalize", "device_session_alloc", "device_session_init",
  "device_session_free", "device_session_set_parameter", "device_session_create_device_job",
  "device_job_free", "device_job_set_parameter", "device_job_set_programs",
  "device_job_get_program", "device_job_get_program_status", "device_job_query_property",
  "device_job_submit", "device_job_cancel", "device_job_check", "device_job_wait",
  "device_job_get_results", "device_session_query_device_property",
  "device_session_query_site_property", "device_session_query_operation_property"]

/-- The symbol a library may leave out. -/
def optionalSymbol : String := "device_session_retrieve_device_job_by_id"

/-- The name of a symbol in a library with the given prefix. -/
def symbolName (libPrefix : List UInt8) (symbol : String) : List UInt8 :=
  libPrefix ++ ascii "_QDMI_" ++ ascii symbol

/-- The destructor of an initialized library. -/
def unload (lib : Library) : List Event := [.call lib.key .deviceFinalize, .dlclose lib.handle]

/-- The destructor of a list of libraries. -/
def unloadAll (libraries : List Library) : List Event := libraries.flatMap unload

/-- The vectors `QDMI_initialize_driver` fills, and what happened so far. -/
structure Loading where
  libraries : List Library := []
  configuredDevices : List Configured := []
  events : List Event := []

/-- Record some events. -/
def Loading.log (l : Loading) (events : List Event) : Loading :=
  { l with events := l.events ++ events }

/-- A library whose symbols have been loaded. -/
def resolved (env : DriverEnv) (handle : Nat) (libPrefix : List UInt8) : Library where
  handle := handle
  libPrefix := libPrefix
  retrieve := env.dlsym handle (symbolName libPrefix optionalSymbol)

/-- `QDMI_library_load`, for line `k` of the configuration. -/
def libraryLoad (env : DriverEnv) (k : Nat) (l : Loading) (libName libPrefix : List UInt8) :
    Loading × Except Exn Library :=
  if !env.mem (9 * k + 6) then (l, .error .badAlloc)
  else
    match env.dlopen libName with
    | none => (l, .error .runtimeError)
    | some handle =>
      match l.libraries.find? (fun loaded => loaded.key == (handle, libPrefix)) with
      -- The library is loaded already; its second reference is dropped.
      | some loaded => (l.log [.dlopen handle, .dlclose handle], .ok loaded)
      | none =>
        if !env.mem (9 * k + 7) then (l.log [.dlopen handle, .dlclose handle], .error .badAlloc)
        else if !requiredSymbols.all (fun sym => env.dlsym handle (symbolName libPrefix sym)) then
          (l.log [.dlopen handle, .dlclose handle], .error .runtimeError)
        else
          let library := resolved env handle libPrefix
          let initialized : Event := .call library.key (.deviceInitialize (env.status k))
          if env.status k ≠ .success then
            (l.log [.dlopen handle, initialized, .dlclose handle], .error .runtimeError)
          else if !env.mem (9 * k + 8) then
            (l.log ([.dlopen handle, initialized] ++ unload library), .error .badAlloc)
          else
            ({ l.log [.dlopen handle, initialized] with libraries := l.libraries ++ [library] },
              .ok library)

/-- `std::isspace` in the classic locale. -/
def isSpace (c : UInt8) : Bool := c == 32 || (9 ≤ c && c ≤ 13)

/-- The fields of a line. -/
def configFields (line : List UInt8) : List (List UInt8) :=
  (line.splitOnP isSpace).filter (fun field => !field.isEmpty)

/-- The lines of a configuration. Behind a final newline stands an empty line
    here, which the loop skips. -/
def configLines (content : List UInt8) : List (List UInt8) := content.splitOn 10

/-- The lines `std::getline` reads, from line `k` on. -/
def readLines (mem : Alloc) : Nat → List (List UInt8) → List (List UInt8)
  | _, [] => []
  | k, line :: lines => if mem (9 * k + 1) then line :: readLines mem (k + 1) lines else []

/-- The fields `operator>>` reads from line `k`: three, and then one more if there
    is one. -/
def lineFields (mem : Alloc) (k : Nat) (line : List UInt8) : List (List UInt8) :=
  if !mem (9 * k + 3) then []
  else if !mem (9 * k + 4) then (configFields line).take 3
  else configFields line

/-- The body of the loop of `QDMI_initialize_driver`, for line `k`. -/
def configureLine (env : DriverEnv) (k : Nat) (line : List UInt8) (l : Loading) :
    Loading × Option Abort :=
  if line = [] ∨ line.head? = some 35 then (l, none)
  else if !env.mem (9 * k + 2) then (l, some (.thrown .badAlloc))
  else
    match lineFields env.mem k line with
    | [libName, libPrefix, deviceId] =>
      if !env.mem (9 * k + 5) then (l, some (.thrown .badAlloc))
      else if (l.configuredDevices.map Configured.id).contains deviceId then
        (l, some (.returned .errorFatal))
      else
        match libraryLoad env k l libName libPrefix with
        | (l, .error e) => (l, some (.thrown e))
        | (l, .ok library) =>
          if !env.mem (9 * k + 9) then (l, some (.thrown .badAlloc))
          else
            ({ l with configuredDevices := l.configuredDevices ++ [{ library, id := deviceId }] },
              none)
    | _ => (l, some (.returned .errorFatal))

/-- The loop of `QDMI_initialize_driver`, from line `k` on. -/
def configureLines (env : DriverEnv) : Nat → List (List UInt8) → Loading → Loading × Option Abort :=
  loopFrom (configureLine env)

/-- What the handlers of `QDMI_initialize_driver` return. -/
def abortStatus : Abort → Status
  | .returned status => status
  | .thrown .badAlloc => .errorOutofmem
  | .thrown _ => .errorFatal

/-- `QDMI_initialize_driver`: the events, and the new libraries and configured
    devices or the status of the failure. -/
def initializeDriver (env : DriverEnv) :
    List Event × Except Status (List Library × List Configured) :=
  match env.config with
  | .throws e => ([], .error (abortStatus (.thrown e)))
  | .notAllowed => ([], .error .errorFatal)
  | .cannotOpen => ([], .error .errorFatal)
  | .text content =>
    match configureLines env 0 (readLines env.mem 0 (configLines content)) {} with
    | (l, some abort) => (l.events ++ unloadAll l.libraries, .error (abortStatus abort))
    | (l, none) => (l.events, .ok (l.libraries, l.configuredDevices))

end Driver

end Qdmi
