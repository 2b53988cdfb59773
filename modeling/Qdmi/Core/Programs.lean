import Qdmi.Core.Driver.State
import Qdmi.Core.Tool
import Qdmi.Lib.Asking
import Qdmi.Lib.OrderedMap
import Qdmi.Lib.Records

/-!
# The Library and the Tool as Programs

What `example_fomac.cpp` and `example_tool.cpp` do with a device, call by call.

A function of the library makes several calls of the client interface, and other
clients call in between. So each is a program that asks, not a function of a
device: what a device has answered before says nothing about the next answer,
unless the device is known to be one that answers alike. For such a device the
programs that have a counterpart in the functional model return the same.

A list is read in two calls. The first reports a size; the vector gets as many
elements as fit, but the device is told the size that it reported itself.
Allocations succeed unless the size is beyond any vector.

## Main definitions

* `FomacProgram`: What the library does with a device.
* `askOrThrow`, `askSize`, `askValue`: Single calls.
* `askList`, `askString`: The two calls for a list and for a string.
* `Fomac.getQubitsNum`, `Fomac.getOperationMap`, `Fomac.getCouplingMap`,
  `Fomac.getSites`, `Fomac.getSiteId`, `Fomac.getUsScaleFactor`,
  `Fomac.getSiteT1`, `Fomac.getSiteT2`, `Fomac.getOperandsNum`,
  `Fomac.getParametersNum`, `Fomac.getSupportedProgramFormats`: The library.
* `compileProgram`: The tool.
-/

namespace Qdmi

open Driver (QueryCall)

/-- What the library does with a device. -/
abbrev FomacProgram (α : Type) := Asking QueryCall Reply Thrown α

/-- One call, with its status checked. -/
def askOrThrow (query : QueryCall) (message : List UInt8) : FomacProgram Reply := do
  let reply ← Asking.question query
  Asking.ofExcept (throwIfError reply.status message)
  return reply

/-- A call for a size, into a variable that starts at zero. -/
def askSize (query : OutArgs → QueryCall) (message : List UInt8) : FomacProgram Nat := do
  let reply ← askOrThrow (query { size := 0, value := none, sizeRet := true }) message
  return reply.sizeRet.getD 0

/-- A call for a value of `size` bytes, into a buffer that holds `init`. The data
    pointer of an empty vector is null. -/
def askValue (query : OutArgs → QueryCall) (size : Nat) (init : Buffer) (message : List UInt8) :
    FomacProgram Buffer := do
  let value := if init = [] then none else some init
  let reply ← askOrThrow (query { size := size, value := value, sizeRet := false }) message
  return reply.value.getD init

/-- A list of values of `width` bytes. -/
def askList (width : Nat) (query : OutArgs → QueryCall) (sizeMessage message : List UInt8) :
    FomacProgram (List Nat) := do
  let size ← askSize query sizeMessage
  let count := size / width
  if vectorMaxSize width < count then .threw .lengthError
  else do
    let buf ← askValue query size (List.replicate (count * width) 0) message
    return (List.range count).map (fun i => leNat (field width buf i))

/-- A string. Its length is computed in `size_t`, so a reported size of zero wraps
    around; the buffer holds the terminator of the string too. -/
def askString (query : OutArgs → QueryCall) (sizeMessage message : List UInt8) :
    FomacProgram (List UInt8) := do
  let size ← askSize query sizeMessage
  let length := (size + sizeTMod - 1) % sizeTMod
  if vectorMaxSize 1 < length then .threw .lengthError
  else do
    let buf ← askValue query size (List.replicate (length + 1) 0) message
    return buf.take length

/-- A word that was read as a pointer. -/
def pointerTo (word : Nat) : Option Nat := if word = 0 then none else some word

/-- A query of a site. -/
def siteQuery (site prop : Nat) (out : OutArgs) : QueryCall :=
  .siteProperty (pointerTo site) prop out

/-- A query of an operation without sites and parameters. -/
def operationQuery (op prop : Nat) (out : OutArgs) : QueryCall :=
  .operationProperty (pointerTo op)
    { numSites := 0, sites := none, numParams := 0, params := false } prop out

namespace Fomac

/-- `FoMaC::get_qubits_num`. -/
def getQubitsNum : FomacProgram Nat := do
  let buf ← askValue (.deviceProperty DeviceProperty.qubitsnum.code) 8 (sizeTBytes 0)
    (ascii "Failed to query the number of qubits.")
  return leNat buf

/-- `FoMaC::get_operation_map`. -/
def getOperationMap : FomacProgram (OrderedMap (List UInt8) Nat) := do
  let ops ← askList 8 (.deviceProperty DeviceProperty.operations.code)
    (ascii "Failed to get the operations list size.") (ascii "Failed to retrieve operations.")
  ops.foldlM (fun opsMap op => do
    let name ← askString (operationQuery op OperationProperty.name.code)
      (ascii "Failed to retrieve operation name length.")
      (ascii "Failed to retrieve operation name.")
    return opsMap.emplace name op) OrderedMap.empty

/-- `FoMaC::get_coupling_map`. -/
def getCouplingMap : FomacProgram (List (Nat × Nat)) := do
  let size ← askSize (.deviceProperty DeviceProperty.couplingmap.code)
    (ascii "Failed to query the coupling map size.")
  let couplingMapSize := size / 8
  if couplingMapSize % 2 ≠ 0 then
    .threw (.runtimeError (ascii "The coupling map needs to have an even number of elements."))
  else if vectorMaxSize 16 < couplingMapSize / 2 then .threw .lengthError
  else do
    let pairs := couplingMapSize / 2
    let buf ← askValue (.deviceProperty DeviceProperty.couplingmap.code) size
      (List.replicate (16 * pairs) 0) (ascii "Failed to query the coupling map.")
    return (List.range pairs).map (sitePair buf)

/-- `FoMaC::get_sites`. -/
def getSites : FomacProgram (List Nat) :=
  askList 8 (.deviceProperty DeviceProperty.sites.code)
    (ascii "Failed to get the sites list size.") (ascii "Failed to get the sites.")

/-- `FoMaC::get_site_id`. -/
def getSiteId (site : Nat) : FomacProgram Nat := do
  let buf ← askValue (siteQuery site SiteProperty.index.code) 8 (sizeTBytes 0)
    (ascii "Failed to query the site ID")
  return leNat buf

section

variable {K : Type} [Field K] [DoubleValue K]

/-- `FoMaC::get_us_scale_factor`. -/
def getUsScaleFactor : FomacProgram K := do
  let size ← askSize (.deviceProperty DeviceProperty.durationunit.code)
    (ascii "Failed to retrieve the device's duration unit size.")
  let length := (size + sizeTMod - 1) % sizeTMod
  if vectorMaxSize 1 < length then .threw .lengthError
  else do
    let unit ← askValue (.deviceProperty DeviceProperty.durationunit.code) (length + 1)
      (List.replicate (length + 1) 0) (ascii "Failed to retrieve the device's duration unit.")
    let scaleFactor ← askValue (.deviceProperty DeviceProperty.durationscalefactor.code) 8
      (List.replicate 8 0) (ascii "Failed to query the duration scale factor")
    Asking.ofExcept (usScaleFactor (unit.take length) (DoubleValue.ofBytes scaleFactor))

/-- The body shared by `FoMaC::get_site_t1` and `FoMaC::get_site_t2`. -/
def getSiteTime (prop : Nat) (message : List UInt8) (site : Nat) : FomacProgram K := do
  let buf ← askValue (siteQuery site prop) 8 (sizeTBytes 0) message
  let factor ← getUsScaleFactor
  return (leNat buf : K) * factor

/-- `FoMaC::get_site_t1`. -/
def getSiteT1 (site : Nat) : FomacProgram K :=
  getSiteTime SiteProperty.t1.code (ascii "Failed to query the T1 time") site

/-- `FoMaC::get_site_t2`. -/
def getSiteT2 (site : Nat) : FomacProgram K :=
  getSiteTime SiteProperty.t2.code (ascii "Failed to query the T2 time") site

end

/-- The body shared by `FoMaC::get_operands_num` and `FoMaC::get_parameters_num`. -/
def getOperationNum (prop : Nat) (message : List UInt8) (op : Nat) : FomacProgram Nat := do
  let buf ← askValue (operationQuery op prop) 8 (sizeTBytes 0) message
  return leNat buf

/-- `FoMaC::get_operands_num`. -/
def getOperandsNum (op : Nat) : FomacProgram Nat :=
  getOperationNum OperationProperty.qubitsnum.code (ascii "Failed to query the operand number") op

/-- `FoMaC::get_parameters_num`. -/
def getParametersNum (op : Nat) : FomacProgram Nat :=
  getOperationNum OperationProperty.parametersnum.code
    (ascii "Failed to query the parameter number") op

/-- `FoMaC::get_supported_program_formats`. -/
def getSupportedProgramFormats : FomacProgram (List Nat) :=
  askList 4 (.deviceProperty DeviceProperty.supportedprogramformats.code)
    (ascii "Failed to query the supported program formats size.")
    (ascii "Failed to query the supported program formats.")

end Fomac

/-- `Tool::compile`. What it throws is thrown by the program. -/
def compileProgram (qasmString : List UInt8) : FomacProgram Compiled :=
  match registerSizes qasmString with
  | [] => .threw (.invalidArgument (ascii "The circuit does not declare any qubits."))
  | _ :: _ :: _ =>
    .threw (.invalidArgument (ascii "The circuit declares more than one qubit register."))
  | [numQubits] =>
    if 2 < numQubits then
      .threw (.invalidArgument (ascii ("The circuit uses more than two qubits but " ++
        "this tool only supports up to two qubits.")))
    else do
      let available ← Fomac.getQubitsNum
      if available < numQubits then
        .threw (.invalidArgument
          (ascii "The device does not provide enough qubits for the circuit."))
      else do
        let couplingMap ← Fomac.getCouplingMap
        match couplingMap with
        | [] => return .undefined .readPastEnd
        | edge :: _ => do
          let id0 ← Fomac.getSiteId edge.1
          let id1 ← Fomac.getSiteId edge.2
          let available ← Fomac.getQubitsNum
          return rewrite qasmString numQubits available id0 id1

end Qdmi
