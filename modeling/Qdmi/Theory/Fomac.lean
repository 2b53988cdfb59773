import Mathlib
import Qdmi.Core.Fomac
import Qdmi.Lib.Outcome

/-!
# Times in Microseconds

What the times of a site mean, and when the library returns that.

A device reports a time as three answers: a raw value, a scale factor and the
symbol of a unit. `durationUnits` is the table of `constants.h`, each symbol
with the power of ten of a second it stands for, and `physicalTime` is the
product the documentation asks a client to form, in microseconds.

The library divides for milliseconds and multiplies for nanoseconds, which is
the conversion into the other direction. `getSiteTimes_conversion` says exactly
when the value is right all the same: the device reports microseconds, or the
time is zero. Between two devices that report the same physical time the values
agree exactly when the units do, or when that time is zero.

## Main definitions

* `durationUnits`, `unitLength`: The documented units and their lengths.
* `reportedUnit`, `reportedScale`, `reportedTime`: What a device reports.
* `physicalTime`: The physical duration a report stands for.
* `AcceptedLength`: The units the library accepts, with their lengths.
* `TimeConversion`: What the returned time of a site is.

## Theorems

* `usScaleFactor_eq_ok`: The conversion divides by the length of the unit.
* `getUsScaleFactor_eq_ok`, `getSiteTime_eq_ok`, `getSiteTime_returns`: Reading
  off the answers a returned time was computed from.
* `acceptedLength_sq`: Accepted units are told apart by their lengths.
* `getSiteTime_eq_div`: A returned time in terms of the physical one.
* `getSiteTime_physical_iff`, `getSiteTime_eq_iff`: When a time is the physical
  duration, and when two times agree.
* `getSiteTimes_conversion`: The same for both times of a site.
-/

namespace Qdmi

/-- The duration units of the interface with their decimal exponents, relative
    to the second. -/
def durationUnits : List (List UInt8 × ℤ) :=
  [(ascii "qs", -30), (ascii "rs", -27), (ascii "ys", -24), (ascii "zs", -21), (ascii "as", -18),
    (ascii "fs", -15), (ascii "ps", -12), (ascii "ns", -9), (ascii "us", -6), (ascii "ms", -3),
    (ascii "cs", -2), (ascii "ds", -1), (ascii "s", 0), (ascii "das", 1), (ascii "hs", 2),
    (ascii "ks", 3), (ascii "Ms", 6), (ascii "Gs", 9), (ascii "Ts", 12), (ascii "Ps", 15),
    (ascii "Es", 18), (ascii "Zs", 21), (ascii "Ys", 24), (ascii "Rs", 27), (ascii "Qs", 30)]

/-- What a device answers when it is asked for its duration unit the way the
    library asks. -/
def reportedUnit (device : ClientDevice) : List UInt8 :=
  let probe := device.queryDeviceProperty DeviceProperty.durationunit.code
    { size := 0, value := none, sizeRet := true }
  let length := (probe.sizeRet.getD 0 + sizeTMod - 1) % sizeTMod
  let init := List.replicate (length + 1) 0
  let reply := device.queryDeviceProperty DeviceProperty.durationunit.code
    { size := init.length, value := some init, sizeRet := false }
  (reply.value.getD init).take length

/-- The raw time a device reports for a site. -/
def reportedTime (device : ClientDevice) (prop : SiteProperty) (site : Nat) : Nat :=
  leNat (((device.querySiteProperty site prop.code
    { size := 8, value := some (sizeTBytes 0), sizeRet := false }).value).getD (sizeTBytes 0))

/-- The raw time of a site was reported. -/
def Reports (device : ClientDevice) (prop : SiteProperty) (site : Nat) : Prop :=
  (device.querySiteProperty site prop.code
    { size := 8, value := some (sizeTBytes 0), sizeRet := false }).status = .success

section

variable {K : Type} [Field K]

/-- The length of a unit in microseconds. -/
def unitLength (unit : List UInt8) : Option K :=
  (durationUnits.lookup unit).map (fun e => (10 : K) ^ (e + 6))

theorem unitLength_us : unitLength (ascii "us") = some (1 : K) := by
  have hlookup : durationUnits.lookup (ascii "us") = some (-6) := by decide
  rw [unitLength, hlookup, Option.map_some]
  norm_num

theorem unitLength_ms : unitLength (ascii "ms") = some (1000 : K) := by
  have hlookup : durationUnits.lookup (ascii "ms") = some (-3) := by decide
  rw [unitLength, hlookup, Option.map_some]
  norm_num

theorem unitLength_ns : unitLength (ascii "ns") = some (1 / 1000 : K) := by
  have hlookup : durationUnits.lookup (ascii "ns") = some (-9) := by decide
  rw [unitLength, hlookup, Option.map_some]
  norm_num [zpow_neg]

/-- The units the library accepts, with their lengths. -/
def AcceptedLength (unit : List UInt8) (length : K) : Prop :=
  (unit = ascii "us" ∨ unit = ascii "ms" ∨ unit = ascii "ns") ∧ unitLength unit = some length

theorem acceptedLength_cases {unit : List UInt8} {length : K} (h : AcceptedLength unit length) :
    (unit = ascii "us" ∧ length = 1) ∨ (unit = ascii "ms" ∧ length = 1000) ∨
      (unit = ascii "ns" ∧ length = 1 / 1000) := by
  rcases h with ⟨hu | hu | hu, hl⟩ <;> rw [hu] at hl
  · exact Or.inl ⟨hu, (Option.some.inj (unitLength_us.symm.trans hl)).symm⟩
  · exact Or.inr (Or.inl ⟨hu, (Option.some.inj (unitLength_ms.symm.trans hl)).symm⟩)
  · exact Or.inr (Or.inr ⟨hu, (Option.some.inj (unitLength_ns.symm.trans hl)).symm⟩)

/-- Every unit that is accepted has a length, and the conversion divides by it
    where a factor into microseconds would multiply. -/
theorem usScaleFactor_eq_ok {unit : List UInt8} {scale factor : K}
    (h : usScaleFactor unit scale = .ok factor) :
    ∃ length, AcceptedLength unit length ∧ factor = scale / length := by
  unfold usScaleFactor at h
  split at h
  · rename_i hms
    exact ⟨1000, ⟨Or.inr (Or.inl hms), by rw [hms, unitLength_ms]⟩, (Except.ok.inj h).symm⟩
  · split at h
    · rename_i hns
      refine ⟨1 / 1000, ⟨Or.inr (Or.inr hns), by rw [hns, unitLength_ns]⟩, ?_⟩
      rw [← Except.ok.inj h, one_div, div_inv_eq_mul]
    · split at h
      · exact absurd h (by simp only [reduceCtorEq, not_false_eq_true])
      · -- What is left after the three tests is the microsecond itself.
        rename_i hus
        have hus := not_not.mp hus
        refine ⟨1, ⟨Or.inl hus, by rw [hus, unitLength_us]⟩, ?_⟩
        rw [← Except.ok.inj h, div_one]

variable [DoubleValue K]

/-- The duration scale factor a device reports. -/
def reportedScale (device : ClientDevice) : K :=
  let init := List.replicate 8 0
  DoubleValue.ofBytes ((device.queryDeviceProperty DeviceProperty.durationscalefactor.code
    { size := init.length, value := some init, sizeRet := false }).value.getD init)

/-- The physical duration in microseconds that a device reports for a site. -/
def physicalTime (device : ClientDevice) (prop : SiteProperty) (site : Nat) : Option K :=
  (unitLength (reportedUnit device)).map
    (fun length => reportedTime device prop site * reportedScale device * length)

/-- The factor the library arrives at is computed from what it was told. -/
theorem getUsScaleFactor_eq_ok {device : ClientDevice} {factor : K}
    (h : getUsScaleFactor device = .ok factor) :
    usScaleFactor (reportedUnit device) (reportedScale device) = .ok factor := by
  rcases bind_eq_ok h with ⟨size, hsize, h⟩
  rcases bind_eq_ok hsize with ⟨_, _, hret⟩
  have hret := Except.ok.inj hret
  dsimp only at h
  split at h
  · exact absurd h (by simp only [reduceCtorEq, not_false_eq_true])
  · rcases bind_eq_ok h with ⟨unit, hunit, h⟩
    rcases bind_eq_ok hunit with ⟨_, _, hunit⟩
    rcases bind_eq_ok h with ⟨bytes, hbytes, h⟩
    rcases bind_eq_ok hbytes with ⟨_, _, hbytes⟩
    rw [← Except.ok.inj hunit, ← Except.ok.inj hbytes, ← hret] at h
    exact h

/-- A returned time is the raw time multiplied by an accepted factor. -/
theorem getSiteTime_eq_ok {prop : SiteProperty} {message : List UInt8} {device : ClientDevice}
    {site : Nat} {t : K} (h : getSiteTime prop.code message device site = .ok t) :
    ∃ factor, getUsScaleFactor device = .ok factor ∧
      t = reportedTime device prop site * factor := by
  rcases bind_eq_ok h with ⟨_, _, h⟩
  rcases bind_eq_ok h with ⟨factor, hfactor, h⟩
  exact ⟨factor, hfactor, (Except.ok.inj h).symm⟩

/-- Conversely the library returns a time whenever it accepts the device and
    the raw time was reported. -/
theorem getSiteTime_returns {prop : SiteProperty} {device : ClientDevice} {factor : K}
    (haccept : getUsScaleFactor device = .ok factor) {site : Nat}
    (hreports : Reports device prop site) (message : List UInt8) :
    ∃ t : K, getSiteTime prop.code message device site = .ok t := by
  have hcheck : throwIfError (device.querySiteProperty site prop.code
      { size := 8, value := some (sizeTBytes 0), sizeRet := false }).status message = .ok () := by
    rw [hreports]
    rfl
  refine ⟨reportedTime device prop site * factor, ?_⟩
  simp only [getSiteTime, hcheck, haccept, bind, Except.bind, reportedTime]

end

section

variable {K : Type} [Field K] [CharZero K]

/-- Two accepted units are the same when the squares of their lengths are. -/
theorem acceptedLength_sq {unit unit' : List UInt8} {length length' : K}
    (h : AcceptedLength unit length) (h' : AcceptedLength unit' length') :
    length ^ 2 = length' ^ 2 ↔ unit = unit' := by
  rcases acceptedLength_cases h with ⟨hu, hl⟩ | ⟨hu, hl⟩ | ⟨hu, hl⟩ <;>
    rcases acceptedLength_cases h' with ⟨hu', hl'⟩ | ⟨hu', hl'⟩ | ⟨hu', hl'⟩ <;>
    rw [hu, hu', hl, hl']
  · simp only
  · exact iff_of_false (by norm_num) (by decide)
  · exact iff_of_false (by norm_num) (by decide)
  · exact iff_of_false (by norm_num) (by decide)
  · simp only
  · exact iff_of_false (by norm_num) (by decide)
  · exact iff_of_false (by norm_num) (by decide)
  · exact iff_of_false (by norm_num) (by decide)
  · simp only

theorem acceptedLength_ne_zero {unit : List UInt8} {length : K} (h : AcceptedLength unit length) :
    length ≠ 0 := by
  rcases acceptedLength_cases h with ⟨_, hl⟩ | ⟨_, hl⟩ | ⟨_, hl⟩ <;> rw [hl] <;> norm_num

variable [DoubleValue K]

/-- A returned time is the physical one divided by the length of the unit
    twice. -/
theorem getSiteTime_eq_div {prop : SiteProperty} {message : List UInt8} {device : ClientDevice}
    {site : Nat} {t : K} (h : getSiteTime prop.code message device site = .ok t) :
    ∃ length : K, AcceptedLength (reportedUnit device) length ∧
      t = reportedTime device prop site * (reportedScale device / length) ∧
      physicalTime device prop site = some (t * length ^ 2) := by
  rcases getSiteTime_eq_ok h with ⟨factor, hfactor, ht⟩
  rcases usScaleFactor_eq_ok (getUsScaleFactor_eq_ok hfactor) with ⟨length, hunit, hdiv⟩
  rw [hdiv] at ht
  refine ⟨length, hunit, ht, ?_⟩
  rw [physicalTime, hunit.2, Option.map_some, Option.some.injEq, ht, pow_two, mul_assoc,
    mul_assoc, ← mul_assoc (reportedScale device / length),
    div_mul_cancel₀ _ (acceptedLength_ne_zero hunit)]

/-- The returned time is the physical one exactly for microseconds and for a
    time of zero. -/
theorem getSiteTime_physical_iff {prop : SiteProperty} {message : List UInt8}
    {device : ClientDevice} {site : Nat} {t : K}
    (h : getSiteTime prop.code message device site = .ok t) :
    physicalTime device prop site = some t ↔ reportedUnit device = ascii "us" ∨
      (reportedScale device : K) = 0 ∨ reportedTime device prop site = 0 := by
  rcases getSiteTime_eq_div h with ⟨length, hunit, ht, hphys⟩
  have hus : length ^ 2 = 1 ↔ reportedUnit device = ascii "us" := by
    rw [← one_pow 2]
    exact acceptedLength_sq hunit ⟨Or.inl rfl, unitLength_us⟩
  have hzero : t = 0 ↔ (reportedScale device : K) = 0 ∨ reportedTime device prop site = 0 := by
    rw [ht, mul_eq_zero, div_eq_zero_iff, or_iff_left (acceptedLength_ne_zero hunit),
      Nat.cast_eq_zero, or_comm]
  rw [hphys, Option.some.injEq, mul_right_eq_self₀, hus, hzero]

/-- Two devices that report the same physical time get the same value exactly
    when they report it in the same unit, or when it is zero. -/
theorem getSiteTime_eq_iff {prop : SiteProperty} {message : List UInt8}
    {device device' : ClientDevice} {site site' : Nat} {t t' : K}
    (h : getSiteTime prop.code message device site = .ok t)
    (h' : getSiteTime prop.code message device' site' = .ok t')
    (hsame : (physicalTime device prop site : Option K) = physicalTime device' prop site') :
    t = t' ↔ reportedUnit device = reportedUnit device' ∨
      physicalTime device prop site = some (0 : K) := by
  rcases getSiteTime_eq_div h with ⟨length, hunit, _, hphys⟩
  rcases getSiteTime_eq_div h' with ⟨length', hunit', _, hphys'⟩
  have hsq := acceptedLength_sq hunit hunit'
  have hne : length ^ 2 ≠ 0 := pow_ne_zero 2 (acceptedLength_ne_zero hunit)
  rw [hphys, hphys', Option.some.injEq] at hsame
  rw [hphys, Option.some.injEq, mul_eq_zero, or_iff_left hne, ← hsq]
  -- The two units count the same, or the time is zero and the unit does not matter.
  constructor
  · intro heq
    rw [heq] at hsame
    rcases mul_eq_mul_left_iff.mp hsame with hlen | hzero
    · exact Or.inl hlen
    · exact Or.inr (heq.trans hzero)
  · rintro (hlen | hzero)
    · rw [hlen] at hsame hne
      exact mul_right_cancel₀ hne hsame
    · have hne' : length' ^ 2 ≠ 0 := pow_ne_zero 2 (acceptedLength_ne_zero hunit')
      rw [hzero, zero_mul] at hsame
      rw [hzero, (mul_eq_zero_iff_right hne').mp hsame.symm]

/-- What a time of a site is, for one of the two functions that return one:
    it is returned whenever the raw time was reported, and it is the physical
    duration, and agrees between devices, under the stated conditions only. -/
structure TimeConversion (get : ClientDevice → Nat → Except Thrown K) (prop : SiteProperty)
    (device : ClientDevice) : Prop where
  returns : ∀ site, Reports device prop site → ∃ t, get device site = .ok t
  physical : ∀ site t, get device site = .ok t →
    (physicalTime device prop site = some t ↔ reportedUnit device = ascii "us" ∨
      (reportedScale device : K) = 0 ∨ reportedTime device prop site = 0)
  agree : ∀ device' site site' t t', get device site = .ok t → get device' site' = .ok t' →
    (physicalTime device prop site : Option K) = physicalTime device' prop site' →
    (t = t' ↔ reportedUnit device = reportedUnit device' ∨
      physicalTime device prop site = some (0 : K))

/-- The two times of a site, for every device the scale factor is accepted
    of. -/
theorem getSiteTimes_conversion {device : ClientDevice} {factor : K}
    (haccept : getUsScaleFactor device = .ok factor) :
    TimeConversion (K := K) getSiteT1 .t1 device ∧ TimeConversion (K := K) getSiteT2 .t2 device :=
  ⟨⟨fun _ hreports => getSiteTime_returns haccept hreports _,
      fun _ _ h => getSiteTime_physical_iff h,
      fun _ _ _ _ _ h h' hsame => getSiteTime_eq_iff h h' hsame⟩,
    ⟨fun _ hreports => getSiteTime_returns haccept hreports _,
      fun _ _ h => getSiteTime_physical_iff h,
      fun _ _ _ _ _ h h' hsame => getSiteTime_eq_iff h h' hsame⟩⟩

end

/-- A device that reports one raw time for every site. -/
def sampleClientDevice (unit : CString) (scale : List UInt8) (raw : Nat) : ClientDevice where
  queryDeviceProperty prop out :=
    (addStringProperty DeviceProperty.durationunit.code unit prop out <|
      addSingleValueProperty DeviceProperty.durationscalefactor.code scale prop out <|
      .ok (out.reject .errorNotsupported)).toOption.getD (out.reject .errorFatal)
  querySiteProperty _ prop out :=
    (addSingleValueProperty SiteProperty.t1.code (sizeTBytes raw) prop out <|
      addSingleValueProperty SiteProperty.t2.code (sizeTBytes raw) prop out <|
      .ok (out.reject .errorNotsupported)).toOption.getD (out.reject .errorFatal)

theorem getSiteTimes_conversion_sample :
    getUsScaleFactor (sampleClientDevice (literal "us") (doubleBytes 1 1) 5) = .ok (1 : ℚ) ∧
      TimeConversion (K := ℚ) getSiteT1 .t1
        (sampleClientDevice (literal "us") (doubleBytes 1 1) 5) ∧
      TimeConversion (K := ℚ) getSiteT2 .t2
        (sampleClientDevice (literal "us") (doubleBytes 1 1) 5) := by
  have haccept : getUsScaleFactor (sampleClientDevice (literal "us") (doubleBytes 1 1) 5) =
      .ok (1 : ℚ) := by decide +kernel
  exact ⟨haccept, getSiteTimes_conversion haccept⟩

/-- Five milliseconds come out as five thousandths of a microsecond, and five
    thousand microseconds as themselves. -/
theorem milliseconds_divided :
    getSiteT1 (sampleClientDevice (literal "ms") (doubleBytes 1 1) 5) 0 = .ok (5 / 1000 : ℚ) ∧
      physicalTime (sampleClientDevice (literal "ms") (doubleBytes 1 1) 5) .t1 0 =
        some (5000 : ℚ) ∧
      getSiteT1 (sampleClientDevice (literal "us") (doubleBytes 1 1) 5000) 0 = .ok (5000 : ℚ) ∧
      physicalTime (sampleClientDevice (literal "us") (doubleBytes 1 1) 5000) .t1 0 =
        some (5000 : ℚ) := by
  decide +kernel

end Qdmi
