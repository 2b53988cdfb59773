/-!
# Constants of the Interface

The enumerations of `constants.h`, as far as the modelled functions use them.

Statuses only travel outwards, so they are inductive types. `Status` has one
constructor more than the header has names: a device library returns a plain
`int`, and the driver passes on whatever it gets.

Parameters, properties, formats and result kinds travel inwards, and a caller
may pass any number for them. They stay numbers in the argument lists; each
enumeration is an inductive type whose `code` is the number the header gives
the name, and `isInvalidEnumValue` is the check every entry point makes before
it looks at the names.

## Main definitions

* `Status`: The codes a call returns.
* `JobStatus`, `DeviceStatus`: The states of a job and of a device.
* `isInvalidEnumValue`: The range check on an enumeration argument.
* `makeVersion`, `versionMajor`, `versionMinor`, `versionPatch`: A release in
  32 bits.
* `ProgramFormat`, `JobResult`, `DeviceProperty`, `SiteProperty`,
  `OperationProperty`, `DeviceJobProperty`: Names and their codes.
* `DeviceSessionParameter`, `DeviceJobParameter`, `SessionParameter`,
  `SessionProperty`: The enumerations with one name the code asks for.
-/

namespace Qdmi

/-- `QDMI_MAKE_VERSION`. The arguments are cast to 32 bits before they are
    masked. -/
def makeVersion (major minor patch : Nat) : UInt32 :=
  ((UInt32.ofNat major &&& 0x3FF) <<< 22) ||| ((UInt32.ofNat minor &&& 0x3FF) <<< 12) |||
    (UInt32.ofNat patch &&& 0xFFF)

/-- `QDMI_VERSION_MAJOR`. -/
def versionMajor (version : UInt32) : UInt32 := (version >>> 22) &&& 0x3FF

/-- `QDMI_VERSION_MINOR`. -/
def versionMinor (version : UInt32) : UInt32 := (version >>> 12) &&& 0x3FF

/-- `QDMI_VERSION_PATCH`. -/
def versionPatch (version : UInt32) : UInt32 := version &&& 0xFFF

/-- `QDMI_STATUS`, and the numbers it does not name. -/
inductive Status where
  | warnGeneral
  | success
  | errorFatal
  | errorOutofmem
  | errorNotimplemented
  | errorLibnotfound
  | errorNotfound
  | errorOutofrange
  | errorInvalidargument
  | errorPermissiondenied
  | errorNotsupported
  | errorBadstate
  | errorTimeout
  | other (code : Int)
  deriving DecidableEq, Repr

/-- `QDMI_JOB_STATUS_T`. -/
inductive JobStatus where
  | created
  | submitted
  | queued
  | running
  | done
  | canceled
  | failed
  deriving DecidableEq, Repr

/-- `QDMI_DEVICE_STATUS_T`. -/
inductive DeviceStatus where
  | offline
  | idle
  | busy
  | error
  | maintenance
  | calibration
  deriving DecidableEq, Repr

/-- The number of a device status, as a query writes it. -/
def DeviceStatus.code : DeviceStatus → Nat
  | .offline => 0
  | .idle => 1
  | .busy => 2
  | .error => 3
  | .maintenance => 4
  | .calibration => 5

/-- `QDMI_IS_INVALID_ENUM_VALUE`. The five custom members have the same codes
    in every enumeration. -/
def isInvalidEnumValue (value max : Nat) : Bool :=
  decide (max ≤ value) && value != 999999995 && value != 999999996 && value != 999999997 &&
    value != 999999998 && value != 999999999

/-- `QDMI_PROGRAM_FORMAT_T`. -/
inductive ProgramFormat where
  | qasm2
  | qasm3
  | qirbasestring
  | qirbasemodule
  | qiradaptivestring
  | qiradaptivemodule
  | qpy
  | iqmjson
  | max
  | custom1
  | custom5
  deriving DecidableEq, Repr

/-- The codes of the program formats; 6 and 9 are reserved. -/
def ProgramFormat.code : ProgramFormat → Nat
  | .qasm2 => 0
  | .qasm3 => 1
  | .qirbasestring => 2
  | .qirbasemodule => 3
  | .qiradaptivestring => 4
  | .qiradaptivemodule => 5
  | .qpy => 7
  | .iqmjson => 8
  | .max => 10
  | .custom1 => 999999995
  | .custom5 => 999999999

/-- `QDMI_JOB_RESULT_T`. -/
inductive JobResult where
  | shots
  | histKeys
  | histValues
  | statevectorDense
  | probabilitiesDense
  | statevectorSparseKeys
  | statevectorSparseValues
  | probabilitiesSparseKeys
  | probabilitiesSparseValues
  deriving DecidableEq, Repr

/-- The codes of the result kinds. -/
def JobResult.code : JobResult → Nat
  | .shots => 0
  | .histKeys => 1
  | .histValues => 2
  | .statevectorDense => 3
  | .probabilitiesDense => 4
  | .statevectorSparseKeys => 5
  | .statevectorSparseValues => 6
  | .probabilitiesSparseKeys => 7
  | .probabilitiesSparseValues => 8

/-- `QDMI_JOB_RESULT_MAX`. -/
def JobResult.max : Nat := 9

/-- `QDMI_DEVICE_PROPERTY_T`, the members the example device reports. -/
inductive DeviceProperty where
  | name
  | version
  | status
  | libraryversion
  | qubitsnum
  | sites
  | operations
  | couplingmap
  | lengthunit
  | lengthscalefactor
  | durationunit
  | durationscalefactor
  | supportedprogramformats
  | id
  deriving DecidableEq, Repr

/-- The codes of the device properties. -/
def DeviceProperty.code : DeviceProperty → Nat
  | .name => 0
  | .version => 1
  | .status => 2
  | .libraryversion => 3
  | .qubitsnum => 4
  | .sites => 5
  | .operations => 6
  | .couplingmap => 7
  | .lengthunit => 10
  | .lengthscalefactor => 11
  | .durationunit => 12
  | .durationscalefactor => 13
  | .supportedprogramformats => 15
  | .id => 18

/-- `QDMI_DEVICE_PROPERTY_MAX`. -/
def DeviceProperty.max : Nat := 19

/-- `QDMI_SITE_PROPERTY_T`, the members the example device reports. -/
inductive SiteProperty where
  | index
  | t1
  | t2
  | moduleindex
  deriving DecidableEq, Repr

/-- The codes of the site properties. -/
def SiteProperty.code : SiteProperty → Nat
  | .index => 0
  | .t1 => 1
  | .t2 => 2
  | .moduleindex => 11

/-- `QDMI_SITE_PROPERTY_MAX`. -/
def SiteProperty.max : Nat := 13

/-- `QDMI_OPERATION_PROPERTY_T`, the members the example device reports. -/
inductive OperationProperty where
  | name
  | qubitsnum
  | parametersnum
  | duration
  | fidelity
  | iszoned
  | sites
  deriving DecidableEq, Repr

/-- The codes of the operation properties. -/
def OperationProperty.code : OperationProperty → Nat
  | .name => 0
  | .qubitsnum => 1
  | .parametersnum => 2
  | .duration => 3
  | .fidelity => 4
  | .iszoned => 8
  | .sites => 9

/-- `QDMI_OPERATION_PROPERTY_MAX`. -/
def OperationProperty.max : Nat := 11

/-- `QDMI_DEVICE_JOB_PROPERTY_T`, the members the example device reports. -/
inductive DeviceJobProperty where
  | id
  | programformat
  | shotsnum
  | programsnum
  deriving DecidableEq, Repr

/-- The codes of the job properties; 2 is reserved. -/
def DeviceJobProperty.code : DeviceJobProperty → Nat
  | .id => 0
  | .programformat => 1
  | .shotsnum => 3
  | .programsnum => 5

/-- `QDMI_DEVICE_JOB_PROPERTY_MAX`. -/
def DeviceJobProperty.max : Nat := 6

/-- `QDMI_DEVICE_SESSION_PARAMETER_TOKEN`. -/
def DeviceSessionParameter.token : Nat := 1

/-- `QDMI_DEVICE_SESSION_PARAMETER_MAX`. -/
def DeviceSessionParameter.max : Nat := 7

/-- `QDMI_DEVICE_JOB_PARAMETER_SHOTSNUM`. -/
def DeviceJobParameter.shotsnum : Nat := 2

/-- `QDMI_DEVICE_JOB_PARAMETER_MAX`. -/
def DeviceJobParameter.max : Nat := 3

/-- `QDMI_SESSION_PARAMETER_TOKEN`. -/
def SessionParameter.token : Nat := 0

/-- `QDMI_SESSION_PARAMETER_MAX`. -/
def SessionParameter.max : Nat := 6

/-- `QDMI_SESSION_PROPERTY_DEVICES`. -/
def SessionProperty.devices : Nat := 0

/-- `QDMI_SESSION_PROPERTY_MAX`. -/
def SessionProperty.max : Nat := 1

end Qdmi
