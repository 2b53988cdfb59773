import Qdmi.Core.Driver.Step
import Qdmi.Lib.Paths

/-!
# The Configuration File

`Is_path_allowed`, and how `QDMI_initialize_driver` comes to the text of its
configuration.

The file that an environment variable names is read only if it is in the working
directory or in the home directory, after all links have been followed. The file
system belongs to the environment, `FileEnv`. It resolves paths, which can fail,
and the paths it resolves to are normal. It may be another one in the next call, but
not within one. An allocation that fails on the way is an exception of the step it
belongs to.

A `FileCall` is a call whose configuration comes out of such a file system.

## Main definitions

* `FileEnv`: What the environment decides about files for one call.
* `configFile`: The name of the configuration.
* `allowlist`, `isPathAllowed`: `Is_path_allowed`.
* `configSource`: The way to the text of the configuration.
* `FileCall`, `fileStep`, `FileRuns`: The driver on top of a file system.
-/

namespace Qdmi

namespace Driver

/-- What the environment decides about files for one call: two environment
    variables, the working directory, what paths resolve to, and what can be read
    from a file, if it can be opened. -/
structure FileEnv where
  qdmiConf : Option (List UInt8)
  home : Option (List UInt8)
  currentPath : Except Exn (List UInt8)
  canonical : List UInt8 → Except Exn (List UInt8)
  read : List UInt8 → Option (List UInt8)
  canonical_normal : ∀ path resolved, canonical path = .ok resolved →
    Paths.Normal 47 46 resolved

/-- `config_file`. -/
def configFile (files : FileEnv) : List UInt8 := files.qdmiConf.getD (ascii "qdmi.conf")

/-- The allowed directories of `Is_path_allowed`. A home directory that does not
    resolve is left out. -/
def allowlist (files : FileEnv) : Except Exn (List (List UInt8)) :=
  match files.currentPath with
  | .error e => .error e
  | .ok current =>
    match files.canonical current with
    | .error e => .error e
    | .ok working =>
      match files.home with
      | none => .ok [working]
      | some homeEnv =>
        match files.canonical homeEnv with
        | .ok home => .ok [working, home]
        | .error .filesystemError => .ok [working]
        | .error e => .error e

/-- `Is_path_allowed`. Comparing the elements gets to the end of those of an allowed
    directory. -/
def isPathAllowed (files : FileEnv) (resolvedPath : List UInt8) : Except Exn Bool :=
  (allowlist files).map (fun allowed => allowed.any (fun allowedPath =>
    (Paths.elements 47 allowedPath).isPrefixOf (Paths.elements 47 resolvedPath)))

/-- How `QDMI_initialize_driver` comes to the text of its configuration. -/
def configSource (files : FileEnv) : ConfigSource :=
  match files.canonical (configFile files) with
  | .error e => .throws e
  | .ok configPath =>
    match isPathAllowed files configPath with
    | .error e => .throws e
    | .ok false => .notAllowed
    | .ok true =>
      match files.read configPath with
      | none => .cannotOpen
      | some content => .text content

/-- A call of a client of the driver on a machine with files. -/
structure FileCall where
  op : DriverOp
  env : DriverEnv
  files : FileEnv

/-- The call with the configuration that the files hold. -/
def FileCall.call (c : FileCall) : DriverCall :=
  { op := c.op, env := { c.env with config := configSource c.files } }

/-- One call. -/
def fileStep (addr : DeviceHandle → Nat) (s : DriverState) (c : FileCall) : DriverResult :=
  driverStep addr s c.call

/-- A step of such a run. -/
abbrev FileEntry := Entry DriverState FileCall DriverOut

/-- The runs of a fresh process on a machine whose files may change. -/
def FileRuns (addr : DeviceHandle → Nat) (tr : List FileEntry) (s : DriverState) : Prop :=
  Runs (fileStep addr) {} tr s

end Driver

end Qdmi
