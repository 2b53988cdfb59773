import Mathlib.Algebra.Field.Rat
import Qdmi.Core.Call
import Qdmi.Lib.Heap

/-!
# State of the Example Device

The structures of `cxx_device.cpp`: sessions, jobs with their results, and the
one device state all of them share.

Amplitudes are generic. The device computes with `double` and only adds,
multiplies, divides, takes a square root and compares with zero, so the model
takes any type with those operations; `DoubleRepr` adds the eight bytes a
query copies out. The rational numbers are the instance the examples run on.

The random generator is deterministic in the source, but no caller may rely on
what it yields. The values drawn are therefore part of the environment `Env` of
a call, next to the outcome of each of its allocations, and the state keeps
only how many values have been drawn.

`Image` holds what the build and the loader decide: the strings compiled in
and the addresses of the static sites and operations.

## Main definitions

* `DoubleRepr`: What the model needs of `double` beyond its arithmetic.
* `DeviceSession`: `CXX_QDMI_Device_Session_impl_d`.
* `ResultData`, `DeviceJob`: `CXX_QDMI_Device_Job_impl_d`.
* `DeviceState`: The device state and the live objects.
* `Env`: What the environment decides for one call.
* `Operation`, `Image`: The static objects of the library.
* `doubleBits`: The bits of a positive `double` literal.
* `ratBits`: The bits of the `double` nearest to a rational number.
-/

namespace Qdmi

/-- What the model needs of `double` beyond its arithmetic: the square root and
    the eight bytes of a value. -/
class DoubleRepr (R : Type) where
  sqrt : R → R
  bytes : R → List UInt8
  length_bytes : ∀ x, (bytes x).length = 8

attribute [simp] DoubleRepr.length_bytes

/-- `CXX_QDMI_Device_Session_impl_d`. -/
structure DeviceSession where
  token : List UInt8 := []
  status : SessionStatus := .allocated
  deriving DecidableEq, Repr

/-- `Result_data`: the results of one program. An amplitude is its real and
    imaginary part. -/
structure ResultData (R : Type) where
  shots : List (List UInt8)
  stateVec : List (R × R)
  deriving DecidableEq, Repr

/-- `CXX_QDMI_Device_Job_impl_d`. The format is the number it was set to. -/
structure DeviceJob (R : Type) where
  session : Nat
  id : Nat := 0
  format : Nat := ProgramFormat.max.code
  programs : List (List UInt8) := []
  status : JobStatus := .submitted
  numShots : Nat := 0
  results : List (ResultData R) := []
  deriving DecidableEq, Repr

/-- `CXX_QDMI_Device_State` and the objects handed out to the caller. `gen` is
    the number of values drawn from the generator. -/
structure DeviceState (R : Type) where
  status : DeviceStatus := .offline
  gen : Nat := 0
  sessions : Heap DeviceSession := {}
  jobs : Heap (DeviceJob R) := {}

/-- What the environment decides for one call: its allocations, and the values
    the generator yields to it. -/
structure Env (R : Type) where
  mem : Alloc
  jobId : Fin (2 ^ 31)
  bit : Bool
  real : Nat → R

/-- The operations of the device, in the order of `CXX_DEVICE_OPERATIONS`. -/
inductive Operation where
  | rx
  | ry
  | rz
  | cx
  deriving DecidableEq, Repr

/-- What the build and the loader decide: the strings compiled in, and the
    addresses of the static sites and operations. -/
structure Image where
  deviceId : CString
  deviceVersion : CString
  qdmiVersion : CString
  siteAddr : Nat → Nat
  operationAddr : Operation → Nat

/-- The bits of the `double` nearest to `num / den`, for a positive fraction in
    the normal range. The exponent is found first, then the significand is
    rounded to 53 bits, ties to even. -/
def doubleBits (num den : Nat) : Nat :=
  -- `num / den` lies between `2 ^ (a - b - 1)` and `2 ^ (a - b + 1)`.
  let a := num.log2
  let b := den.log2
  let low := if num * 2 ^ b < den * 2 ^ a then 1 else 0
  let up := 53 + b + low
  let scaled := num * 2 ^ up
  let unit := den * 2 ^ (a + 1)
  let quot := scaled / unit
  let rem := scaled % unit
  let round := if unit < 2 * rem ∨ (2 * rem = unit ∧ quot % 2 = 1) then 1 else 0
  -- A significand that rounds up to `2 ^ 53` carries into the exponent field.
  (1023 + a - b - low) * 2 ^ 52 + (quot + round - 2 ^ 52)

example : doubleBits 1 1 = 0x3FF0000000000000 := by decide

example : doubleBits 999 1000 = 0x3FEFF7CED916872B := by decide

/-- The bits of the `double` nearest to a rational number. -/
def ratBits (q : ℚ) : Nat :=
  if q = 0 then 0
  else (if q < 0 then 2 ^ 63 else 0) + doubleBits q.num.natAbs q.den

/-- Rational numbers as amplitudes; the square root is exact on squares. -/
instance : DoubleRepr ℚ where
  sqrt q := (Nat.sqrt q.num.natAbs : ℚ) / (Nat.sqrt q.den : ℚ)
  bytes q := leBytes 8 (ratBits q)
  length_bytes q := length_leBytes 8 (ratBits q)

end Qdmi
