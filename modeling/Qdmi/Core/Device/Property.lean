import Qdmi.Core.Device.Session

/-!
# Device, Site and Operation Queries

The three property queries of the example device, and the tables they answer
from.

Each query is its guards followed by a column of macros. A macro returns when
its property is the one asked for and otherwise falls through to the code
behind it, which is the last argument of its definition; the definitions below
therefore read like the source, one macro a line.

Literals of type `double` are written by their fraction and stored by their
bits; integers are stored in the width of their C type. A site is named by its
index and stored as its address in the image.

An operation handle is compared and looked up in two tables but never followed, so
a query about a handle that is none of the device's operations is well defined. It
has a definition of its own, since the lookup of the name, `.at`, throws then.

## Main definitions

* `deviceSites`, `deviceCouplingMap`, `deviceOperations`: The static lists.
* `operationProperties`, `operationFidelities`: The tables of the operations.
* `supportedProgramFormats`: The formats the device takes.
* `deviceSessionQueryDeviceProperty`, `deviceSessionQuerySiteProperty`,
  `deviceSessionQueryOperationProperty`: The queries.
* `deviceSessionQueryForeignOperation`: The last one for any other handle.
-/

namespace Qdmi

variable {R : Type}

/-- The terminator of a string literal is not one of its characters. -/
def literal (s : String) (h : (ascii s).all (fun c => c != 0) = true := by decide) : CString :=
  ⟨ascii s, fun c hc => bne_iff_ne.mp (List.all_eq_true.mp h c hc)⟩

/-- An enumeration member. -/
def enumBytes (code : Nat) : List UInt8 := leBytes 4 code

/-- A `double` literal `num / den`. -/
def doubleBytes (num den : Nat) : List UInt8 := leBytes 8 (doubleBits num den)

/-- `CXX_DEVICE_SITES`, by the index of each site. -/
def deviceSites : List Nat := [0, 1, 2, 3, 4]

/-- `DEVICE_COUPLING_MAP`, by the index of each site. -/
def deviceCouplingMap : List Nat :=
  [0, 1, 1, 0, 1, 2, 2, 1, 2, 3, 3, 2, 3, 4, 4, 3, 4, 0, 0, 4]

/-- `CXX_DEVICE_OPERATIONS`. -/
def deviceOperations : List Operation := [.rx, .ry, .rz, .cx]

/-- `OPERATION_PROPERTIES`: the name and the raw duration of an operation. -/
def operationProperties : Operation → CString × Nat
  | .rx => (literal "rx", 10)
  | .ry => (literal "ry", 10)
  | .rz => (literal "rz", 10)
  | .cx => (literal "cx", 100)

/-- `OPERATION_FIDELITIES`, in hundredths; only `cx` has an entry. -/
def operationFidelities : Operation → Option (List ((Nat × Nat) × Nat))
  | .cx => some [((0, 1), 99), ((1, 0), 99), ((1, 2), 98), ((2, 1), 98), ((2, 3), 97),
      ((3, 2), 97), ((3, 4), 96), ((4, 3), 96), ((4, 0), 95), ((0, 4), 95)]
  | _ => none

/-- `SUPPORTED_PROGRAM_FORMATS`. -/
def supportedProgramFormats : List Nat :=
  [ProgramFormat.qasm2.code, ProgramFormat.qirbasestring.code, ProgramFormat.qirbasemodule.code]

/-- A list of site handles, as the addresses of the sites. -/
def siteHandles (img : Image) (sites : List Nat) : List (List UInt8) :=
  sites.map (fun i => sizeTBytes (img.siteAddr i))

/-- `CXX_QDMI_device_session_query_device_property`. -/
def deviceSessionQueryDeviceProperty (img : Image) (s : DeviceState R) (session : Option Nat)
    (prop : Nat) (out : OutArgs) : Except Fault Reply :=
  match session with
  | none => .ok (out.reject .errorInvalidargument)
  | some h =>
    if out.degenerate || isInvalidEnumValue prop DeviceProperty.max then
      .ok (out.reject .errorInvalidargument)
    else
      match s.sessions.get? h with
      | none => .error .danglingHandle
      | some sess =>
        if sess.status ≠ .initialized then .ok (out.reject .errorBadstate)
        else
          addStringProperty DeviceProperty.id.code img.deviceId prop out <|
          addStringProperty DeviceProperty.name.code (literal "C++ Device with 5 qubits") prop
            out <|
          addStringProperty DeviceProperty.version.code img.deviceVersion prop out <|
          addStringProperty DeviceProperty.libraryversion.code img.qdmiVersion prop out <|
          addSingleValueProperty DeviceProperty.status.code (enumBytes s.status.code) prop out <|
          addSingleValueProperty DeviceProperty.qubitsnum.code (sizeTBytes 5) prop out <|
          addListProperty DeviceProperty.sites.code (siteHandles img deviceSites) prop out <|
          addListProperty DeviceProperty.operations.code
            (deviceOperations.map (fun op => sizeTBytes (img.operationAddr op))) prop out <|
          addListProperty DeviceProperty.couplingmap.code (siteHandles img deviceCouplingMap)
            prop out <|
          addStringProperty DeviceProperty.lengthunit.code (literal "um") prop out <|
          addSingleValueProperty DeviceProperty.lengthscalefactor.code (doubleBytes 1 1) prop
            out <|
          addStringProperty DeviceProperty.durationunit.code (literal "us") prop out <|
          addSingleValueProperty DeviceProperty.durationscalefactor.code (doubleBytes 1 1000)
            prop out <|
          addListProperty DeviceProperty.supportedprogramformats.code
            (supportedProgramFormats.map enumBytes) prop out <|
          .ok (out.reject .errorNotsupported)

/-- `CXX_QDMI_device_session_query_site_property`. The session is checked for
    null but not looked at; a site handle is the index of its site. -/
def deviceSessionQuerySiteProperty (session site : Option Nat) (prop : Nat) (out : OutArgs) :
    Except Fault Reply :=
  match session, site with
  | some _, some i =>
    if out.degenerate || isInvalidEnumValue prop SiteProperty.max then
      .ok (out.reject .errorInvalidargument)
    else
      addSingleValueProperty SiteProperty.index.code (sizeTBytes i) prop out <|
      addSingleValueProperty SiteProperty.moduleindex.code (sizeTBytes 0) prop out <|
      addSingleValueProperty SiteProperty.t1.code (sizeTBytes 1000000) prop out <|
      addSingleValueProperty SiteProperty.t2.code (sizeTBytes 100000000) prop out <|
      .ok (out.reject .errorNotsupported)
  | _, _ => .ok (out.reject .errorInvalidargument)

/-- The `cx` branch of the operation query. -/
def queryCxProperty (img : Image) (args : OperationArgs) (prop : Nat) (out : OutArgs) :
    Except Fault Reply :=
  if args.sites.isSome && args.numSites != 2 then .ok (out.reject .errorInvalidargument)
  else
    addSingleValueProperty OperationProperty.parametersnum.code (sizeTBytes 0) prop out <|
    addSingleValueProperty OperationProperty.duration.code
      (sizeTBytes (operationProperties .cx).2) prop out <|
    addListProperty OperationProperty.sites.code (siteHandles img deviceCouplingMap) prop out <|
    match args.sites with
    | none =>
      addSingleValueProperty OperationProperty.qubitsnum.code (sizeTBytes 2) prop out <|
      .ok (out.reject .errorNotsupported)
    | some sites =>
      if sites 0 = sites 1 then .ok (out.reject .errorInvalidargument)
      else
        match operationFidelities .cx with
        | none => .ok (out.reject .errorInvalidargument)
        | some fidelities =>
          match fidelities.lookup (sites 0, sites 1) with
          | none => .ok (out.reject .errorInvalidargument)
          | some fidelity =>
            addSingleValueProperty OperationProperty.fidelity.code (doubleBytes fidelity 100)
              prop out <|
            .ok (out.reject .errorNotsupported)

/-- The single-qubit branch of the operation query. -/
def queryRotationProperty (img : Image) (args : OperationArgs) (prop : Nat) (out : OutArgs) :
    Except Fault Reply :=
  if (args.sites.isSome && args.numSites != 1) || (args.params && args.numParams != 1) then
    .ok (out.reject .errorInvalidargument)
  else
    addSingleValueProperty OperationProperty.duration.code (doubleBytes 1 100) prop out <|
    addSingleValueProperty OperationProperty.qubitsnum.code (sizeTBytes 1) prop out <|
    addSingleValueProperty OperationProperty.parametersnum.code (sizeTBytes 1) prop out <|
    addSingleValueProperty OperationProperty.fidelity.code (doubleBytes 999 1000) prop out <|
    addListProperty OperationProperty.sites.code (siteHandles img deviceSites) prop out <|
    .ok (out.reject .errorNotsupported)

/-- `CXX_QDMI_device_session_query_operation_property`, for null and the operations of
    the device. Like the site query it checks the session for null only. -/
def deviceSessionQueryOperationProperty (img : Image) (session : Option Nat)
    (operation : Option Operation) (args : OperationArgs) (prop : Nat) (out : OutArgs) :
    Except Fault Reply :=
  match session, operation with
  | some _, some op =>
    if (args.sites.isSome && args.numSites == 0) || (args.params && args.numParams == 0) ||
        out.degenerate || isInvalidEnumValue prop OperationProperty.max then
      .ok (out.reject .errorInvalidargument)
    else
      addStringProperty OperationProperty.name.code (operationProperties op).1 prop out <|
      addSingleValueProperty OperationProperty.iszoned.code [0] prop out <|
      match op with
      | .cx => queryCxProperty img args prop out
      | .rx | .ry | .rz => queryRotationProperty img args prop out
  | _, _ => .ok (out.reject .errorInvalidargument)

/-- `CXX_QDMI_device_session_query_operation_property`, for a handle that is none of the
    operations of the device. No branch is about it. -/
def deviceSessionQueryForeignOperation (session : Option Nat) (args : OperationArgs) (prop : Nat)
    (out : OutArgs) : Except Fault (Except Exn Reply) :=
  match session with
  | none => .ok (.ok (out.reject .errorInvalidargument))
  | some _ =>
    if (args.sites.isSome && args.numSites == 0) || (args.params && args.numParams == 0) ||
        out.degenerate || isInvalidEnumValue prop OperationProperty.max then
      .ok (.ok (out.reject .errorInvalidargument))
    else if prop = OperationProperty.name.code then
      -- The macro looks up the name where it measures it, and not before.
      if out.value.isSome || out.sizeRet then .ok (.error .outOfRange)
      else .ok (.ok { status := .success })
    else
      (addSingleValueProperty OperationProperty.iszoned.code [0] prop out
        (.ok (out.reject .errorNotsupported))).map .ok

end Qdmi
