import Mathlib.Algebra.Field.Rat
import Qdmi.Core.Device.Property

/-!
# Figures of Merit of a Device

The part of `example_fomac.cpp` that turns raw times into microseconds, and
what the tool of `example_tool.cpp` asks a device.

The library is a client: all it knows of a device is what two queries of the
client interface answer. `ClientDevice` is those two functions, so a statement
about every `ClientDevice` is one about every driver and device library. The
queries do not change the device between the calls of one function.

A `double` is an element of a field and the arithmetic on it is exact;
`DoubleValue` reads it from the bytes a query writes. What a warning prints is
left out, and so is a failing allocation of one of the short strings.

## Main definitions

* `Thrown`: The exceptions of the library, with their texts.
* `ClientDevice`: A device behind the client interface.
* `DoubleValue`: Reading a number from the bytes of a `double`.
* `throwIfError`: Turning a status into an exception.
* `queryDeviceSize`, `queryDeviceValue`: The two kinds of device queries.
* `getQubitsNum`, `getCouplingMap`, `getSiteId`: The qubits of a device, the
  pairs it connects and the index of a site.
* `usScaleFactor`, `getUsScaleFactor`: From raw values to microseconds.
* `getSiteTime`, `getSiteT1`, `getSiteT2`: The times of a site.
-/

namespace Qdmi

/-- The exceptions of the library, with what `what()` returns where the source
    chooses it. -/
inductive Thrown where
  | invalidArgument (what : List UInt8)
  | runtimeError (what : List UInt8)
  | outOfRange (what : List UInt8)
  | badAlloc
  | lengthError
  deriving DecidableEq, Repr

/-- A device behind the client interface. -/
structure ClientDevice where
  queryDeviceProperty : Nat → OutArgs → Reply
  querySiteProperty : Nat → Nat → OutArgs → Reply

/-- Reading a number from the bytes of a `double`. -/
class DoubleValue (K : Type) where
  ofBytes : List UInt8 → K

/-- The value of a finite `double`. Infinities and NaNs have no exact value,
    and what is returned for them means nothing. -/
def doubleOfBits (bits : Nat) : ℚ :=
  let exponent : Nat := bits / 2 ^ 52 % 2 ^ 11
  let fraction : Nat := bits % 2 ^ 52
  let magnitude : ℚ :=
    if exponent = 0 then fraction / 2 ^ 1074
    else (2 ^ 52 + fraction) * 2 ^ exponent / 2 ^ 1075
  if bits / 2 ^ 63 % 2 = 1 then -magnitude else magnitude

instance : DoubleValue ℚ where
  ofBytes bytes := doubleOfBits (leNat bytes)

/-- `FoMaC::throw_if_error`. -/
def throwIfError (status : Status) (message : List UInt8) : Except Thrown Unit :=
  if status = .success then .ok ()
  else if status = .warnGeneral then .ok ()
  else if message ≠ [] then
    if status = .errorInvalidargument then .error (.invalidArgument message)
    else .error (.runtimeError message)
  else
    match status with
    | .errorFatal => .error (.runtimeError (ascii "A fatal error."))
    | .errorOutofmem => .error .badAlloc
    | .errorNotimplemented => .error (.runtimeError (ascii "Not implemented."))
    | .errorLibnotfound => .error (.runtimeError (ascii "Library not found."))
    | .errorNotfound => .error (.runtimeError (ascii "Element not found."))
    | .errorOutofrange => .error (.outOfRange (ascii "Out of range."))
    | .errorInvalidargument => .error (.invalidArgument (ascii "Invalid argument."))
    | .errorPermissiondenied => .error (.runtimeError (ascii "Permission denied."))
    | .errorNotsupported => .error (.runtimeError (ascii "Operation is not supported."))
    -- The remaining codes have no branch of their own and pass unnoticed.
    | _ => .ok ()

/-- A device query for a size, into a variable that starts at zero. -/
def queryDeviceSize (device : ClientDevice) (prop : Nat) (message : List UInt8) :
    Except Thrown Nat := do
  let reply := device.queryDeviceProperty prop { size := 0, value := none, sizeRet := true }
  throwIfError reply.status message
  .ok (reply.sizeRet.getD 0)

/-- A device query for a value, into a buffer that holds `init`. -/
def queryDeviceValue (device : ClientDevice) (prop : Nat) (init : Buffer) (message : List UInt8) :
    Except Thrown Buffer := do
  let reply := device.queryDeviceProperty prop
    { size := init.length, value := some init, sizeRet := false }
  throwIfError reply.status message
  .ok (reply.value.getD init)

/-- `FoMaC::get_qubits_num`. -/
def getQubitsNum (device : ClientDevice) : Except Thrown Nat := do
  let bytes ← queryDeviceValue device DeviceProperty.qubitsnum.code (sizeTBytes 0)
    (ascii "Failed to query the number of qubits.")
  .ok (leNat bytes)

/-- The pair of site handles at position `i` of a buffer of such pairs. -/
def sitePair (buf : Buffer) (i : Nat) : Nat × Nat :=
  (leNat ((buf.drop (16 * i)).take 8), leNat ((buf.drop (16 * i + 8)).take 8))

/-- `FoMaC::get_coupling_map`. The vector holds the pairs, but the device is
    told the size that it reported itself. -/
def getCouplingMap (device : ClientDevice) : Except Thrown (List (Nat × Nat)) := do
  let size ← queryDeviceSize device DeviceProperty.couplingmap.code
    (ascii "Failed to query the coupling map size.")
  let couplingMapSize := size / 8
  if couplingMapSize % 2 ≠ 0 then
    .error (.runtimeError (ascii "The coupling map needs to have an even number of elements."))
  else if vectorMaxSize 16 < couplingMapSize / 2 then .error .lengthError
  else do
    let pairs := couplingMapSize / 2
    let init : Buffer := List.replicate (16 * pairs) 0
    -- The data pointer of an empty vector is null.
    let reply := device.queryDeviceProperty DeviceProperty.couplingmap.code
      { size := size, value := if pairs = 0 then none else some init, sizeRet := false }
    throwIfError reply.status (ascii "Failed to query the coupling map.")
    .ok ((List.range pairs).map (sitePair (reply.value.getD init)))

/-- `FoMaC::get_site_id`. -/
def getSiteId (device : ClientDevice) (site : Nat) : Except Thrown Nat := do
  let reply := device.querySiteProperty site SiteProperty.index.code
    { size := 8, value := some (sizeTBytes 0), sizeRet := false }
  throwIfError reply.status (ascii "Failed to query the site ID")
  .ok (leNat (reply.value.getD (sizeTBytes 0)))

section

variable {K : Type} [Field K] [DoubleValue K]

/-- The end of `FoMaC::get_us_scale_factor`: the factor for a reported unit. -/
def usScaleFactor (unit : List UInt8) (scaleFactor : K) : Except Thrown K :=
  if unit = ascii "ms" then .ok (scaleFactor / 1000)
  else if unit = ascii "ns" then .ok (scaleFactor * 1000)
  else if unit ≠ ascii "us" then .error (.runtimeError (ascii "Unrecognized unit: " ++ unit))
  else .ok scaleFactor

/-- `FoMaC::get_us_scale_factor`. The length of the string is computed in
    `size_t`, so a reported size of zero wraps around. -/
def getUsScaleFactor (device : ClientDevice) : Except Thrown K := do
  let size ← queryDeviceSize device DeviceProperty.durationunit.code
    (ascii "Failed to retrieve the device's duration unit size.")
  let length := (size + sizeTMod - 1) % sizeTMod
  if vectorMaxSize 1 < length then .error .lengthError
  else do
    let unit ← queryDeviceValue device DeviceProperty.durationunit.code
      (List.replicate (length + 1) 0) (ascii "Failed to retrieve the device's duration unit.")
    let scaleFactor ← queryDeviceValue device DeviceProperty.durationscalefactor.code
      (List.replicate 8 0) (ascii "Failed to query the duration scale factor")
    usScaleFactor (unit.take length) (DoubleValue.ofBytes scaleFactor)

/-- The body shared by `FoMaC::get_site_t1` and `FoMaC::get_site_t2`. -/
def getSiteTime (prop : Nat) (message : List UInt8) (device : ClientDevice) (site : Nat) :
    Except Thrown K := do
  let reply := device.querySiteProperty site prop
    { size := 8, value := some (sizeTBytes 0), sizeRet := false }
  throwIfError reply.status message
  let factor ← getUsScaleFactor device
  .ok ((leNat (reply.value.getD (sizeTBytes 0)) : K) * factor)

/-- `FoMaC::get_site_t1`. -/
def getSiteT1 (device : ClientDevice) (site : Nat) : Except Thrown K :=
  getSiteTime SiteProperty.t1.code (ascii "Failed to query the T1 time") device site

/-- `FoMaC::get_site_t2`. -/
def getSiteT2 (device : ClientDevice) (site : Nat) : Except Thrown K :=
  getSiteTime SiteProperty.t2.code (ascii "Failed to query the T2 time") device site

end

end Qdmi
