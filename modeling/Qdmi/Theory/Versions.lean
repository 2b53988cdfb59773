import Mathlib.Data.Prod.Lex
import Qdmi.Core.Constants

/-!
# Packed Versions

Releases as 32-bit numbers.

A release has three components, and the macros of the header put them side by
side in one word. As a number the word is a mixed-radix numeral: each component
is a digit below its base. So comparing two words compares the digits from the
first on, and since the bases multiply to the number of words, every word is
the numeral of some release.

## Main definitions

* `Release`: A release whose components fit into their fields.
* `Release.packed`: Its word.
* `releaseOf`: The release a word stands for.

## Theorems

* `numeral_lt_iff`: Comparing numerals compares their digits.
* `toNat_makeVersion`: The word as a numeral.
* `packed_releaseOf`, `releaseOf_packed`: Packing and extracting are inverse.
* `makeVersion_tiles`: The macros are mutually inverse and keep the order.
-/

namespace Qdmi

/-- A release whose components fit into their fields. -/
structure Release where
  major : Nat
  minor : Nat
  patch : Nat
  major_lt : major < 1024
  minor_lt : minor < 1024
  patch_lt : patch < 4096
  deriving DecidableEq

/-- The components in the order in which releases compare. -/
def Release.triple (r : Release) : Nat ×ₗ Nat ×ₗ Nat := toLex (r.major, toLex (r.minor, r.patch))

/-- The word of a release. -/
def Release.packed (r : Release) : UInt32 := makeVersion r.major r.minor r.patch

/-! ## Numerals -/

/-- A number with a digit behind it is smaller if the number is, or if it is
    the same and the digit is smaller. -/
theorem numeral_lt_iff {base a a' d d' : Nat} (hd : d < base) (hd' : d' < base) :
    a * base + d < a' * base + d' ↔ a < a' ∨ a = a' ∧ d < d' := by
  rcases Nat.lt_trichotomy a a' with hlt | rfl | hgt
  · have hstep : (a + 1) * base ≤ a' * base := Nat.mul_le_mul_right base hlt
    rw [Nat.add_mul, Nat.one_mul] at hstep
    exact ⟨fun _ => Or.inl hlt, fun _ => by omega⟩
  · omega
  · have hstep : (a' + 1) * base ≤ a * base := Nat.mul_le_mul_right base hgt
    rw [Nat.add_mul, Nat.one_mul] at hstep
    refine ⟨fun h => ?_, fun h => ?_⟩ <;> omega

theorem toNat_ofNat_mod {base : Nat} (hbase : base ∣ UInt32.size) (n : Nat) :
    (UInt32.ofNat n).toNat % base = n % base := by
  have hword : (UInt32.ofNat n).toNat = n % UInt32.size := UInt32.toNat_ofNat'
  rw [hword, Nat.mod_mod_of_dvd n hbase]

/-- The word as a numeral. The fields do not overlap, so what the shifts put
    into place can be added, and the first shift loses nothing. -/
theorem toNat_makeVersion (major minor patch : Nat) :
    (makeVersion major minor patch).toNat =
      (major % 1024 * 1024 + minor % 1024) * 4096 + patch % 4096 := by
  have hten : (0x3FF : UInt32).toNat = 2 ^ 10 - 1 := rfl
  have htwelve : (0xFFF : UInt32).toNat = 2 ^ 12 - 1 := rfl
  have hfar : (22 : UInt32).toNat % 32 = 22 := rfl
  have hnear : (12 : UInt32).toNat % 32 = 12 := rfl
  have hmajor := toNat_ofNat_mod (by decide : 2 ^ 10 ∣ UInt32.size) major
  have hminor := toNat_ofNat_mod (by decide : 2 ^ 10 ∣ UInt32.size) minor
  have hpatch := toNat_ofNat_mod (by decide : 2 ^ 12 ∣ UInt32.size) patch
  simp only [makeVersion, UInt32.toNat_or, UInt32.toNat_shiftLeft, UInt32.toNat_and, hten,
    htwelve, hfar, hnear, Nat.and_two_pow_sub_one_eq_mod, hmajor, hminor, hpatch]
  have hhigh : major % 2 ^ 10 < 2 ^ 10 := Nat.mod_lt _ (by decide)
  have hmid : minor % 2 ^ 10 < 2 ^ 10 := Nat.mod_lt _ (by decide)
  have hlow : patch % 2 ^ 12 < 2 ^ 12 := Nat.mod_lt _ (by decide)
  have hone : (major % 2 ^ 10) <<< 22 % 2 ^ 32 = (major % 2 ^ 10) <<< 10 <<< 12 := by
    rw [Nat.shiftLeft_eq, Nat.shiftLeft_eq, Nat.shiftLeft_eq]
    omega
  have htwo : (minor % 2 ^ 10) <<< 12 % 2 ^ 32 = (minor % 2 ^ 10) <<< 12 := by
    rw [Nat.shiftLeft_eq]
    omega
  -- Two fields are joined in the high part, then the third below them.
  have hjoin : (major % 2 ^ 10) <<< 10 <<< 12 ||| (minor % 2 ^ 10) <<< 12 ||| patch % 2 ^ 12 =
      (major % 2 ^ 10 * 2 ^ 10 + minor % 2 ^ 10) * 2 ^ 12 + patch % 2 ^ 12 := by
    rw [← Nat.shiftLeft_or_distrib, ← Nat.shiftLeft_add_eq_or_of_lt hmid,
      ← Nat.shiftLeft_add_eq_or_of_lt hlow, Nat.shiftLeft_eq, Nat.shiftLeft_eq]
  rw [hone, htwo]
  exact hjoin

/-! ## The components of a word -/

theorem toNat_versionMajor (version : UInt32) :
    (versionMajor version).toNat = version.toNat / 4096 / 1024 := by
  have hten : (0x3FF : UInt32).toNat = 2 ^ 10 - 1 := rfl
  have hfar : (22 : UInt32).toNat % 32 = 22 := rfl
  have hlt := UInt32.toNat_lt version
  rw [versionMajor, UInt32.toNat_and, UInt32.toNat_shiftRight, hten, hfar,
    Nat.and_two_pow_sub_one_eq_mod, Nat.shiftRight_eq_div_pow]
  omega

theorem toNat_versionMinor (version : UInt32) :
    (versionMinor version).toNat = version.toNat / 4096 % 1024 := by
  have hten : (0x3FF : UInt32).toNat = 2 ^ 10 - 1 := rfl
  have hnear : (12 : UInt32).toNat % 32 = 12 := rfl
  rw [versionMinor, UInt32.toNat_and, UInt32.toNat_shiftRight, hten, hnear,
    Nat.and_two_pow_sub_one_eq_mod, Nat.shiftRight_eq_div_pow]

theorem toNat_versionPatch (version : UInt32) :
    (versionPatch version).toNat = version.toNat % 4096 := by
  have htwelve : (0xFFF : UInt32).toNat = 2 ^ 12 - 1 := rfl
  rw [versionPatch, UInt32.toNat_and, htwelve, Nat.and_two_pow_sub_one_eq_mod]

/-- The release a word stands for. -/
def releaseOf (version : UInt32) : Release where
  major := (versionMajor version).toNat
  minor := (versionMinor version).toNat
  patch := (versionPatch version).toNat
  major_lt := by
    have hlt := UInt32.toNat_lt version
    rw [toNat_versionMajor]
    omega
  minor_lt := by
    rw [toNat_versionMinor]
    exact Nat.mod_lt _ (by decide)
  patch_lt := by
    rw [toNat_versionPatch]
    exact Nat.mod_lt _ (by decide)

/-- The word of a release as a numeral. -/
theorem toNat_packed (r : Release) :
    r.packed.toNat = (r.major * 1024 + r.minor) * 4096 + r.patch := by
  rw [Release.packed, toNat_makeVersion, Nat.mod_eq_of_lt r.major_lt, Nat.mod_eq_of_lt r.minor_lt,
    Nat.mod_eq_of_lt r.patch_lt]

/-- Every word is the word of the release it stands for. -/
theorem packed_releaseOf (version : UInt32) : (releaseOf version).packed = version := by
  have hmajor : (releaseOf version).major = version.toNat / 4096 / 1024 :=
    toNat_versionMajor version
  have hminor : (releaseOf version).minor = version.toNat / 4096 % 1024 :=
    toNat_versionMinor version
  have hpatch : (releaseOf version).patch = version.toNat % 4096 := toNat_versionPatch version
  rw [← UInt32.toNat_inj, toNat_packed, hmajor, hminor, hpatch]
  omega

/-- The word of a release stands for it. -/
theorem releaseOf_packed (r : Release) : releaseOf r.packed = r := by
  have hminor := r.minor_lt
  have hpatch := r.patch_lt
  rw [releaseOf, Release.mk.injEq, toNat_versionMajor, toNat_versionMinor, toNat_versionPatch,
    toNat_packed]
  omega

/-- Words compare as the components of their releases. -/
theorem packed_lt_iff (r s : Release) : r.packed < s.packed ↔ r.triple < s.triple := by
  have hr := r.minor_lt
  have hs := s.minor_lt
  rw [UInt32.lt_iff_toNat_lt, toNat_packed, toNat_packed, numeral_lt_iff r.patch_lt s.patch_lt,
    numeral_lt_iff r.minor_lt s.minor_lt, Release.triple, Release.triple, Prod.Lex.toLex_lt_toLex,
    Prod.Lex.toLex_lt_toLex]
  omega

/-- Packing and extracting are mutually inverse, and words compare as the
    components do. -/
theorem makeVersion_tiles :
    (∀ r : Release,
      (versionMajor (makeVersion r.major r.minor r.patch)).toNat = r.major ∧
      (versionMinor (makeVersion r.major r.minor r.patch)).toNat = r.minor ∧
      (versionPatch (makeVersion r.major r.minor r.patch)).toNat = r.patch) ∧
    (∀ version : UInt32, makeVersion (versionMajor version).toNat (versionMinor version).toNat
      (versionPatch version).toNat = version) ∧
    ∀ r s : Release,
      (makeVersion r.major r.minor r.patch < makeVersion s.major s.minor s.patch ↔
        r.triple < s.triple) ∧
      (makeVersion r.major r.minor r.patch = makeVersion s.major s.minor s.patch ↔ r = s) := by
  refine ⟨fun r => ?_, packed_releaseOf, fun r s => ⟨packed_lt_iff r s, fun h => ?_, ?_⟩⟩
  · have hsame := releaseOf_packed r
    rw [releaseOf, Release.mk.injEq] at hsame
    exact hsame
  · have hsame := congrArg releaseOf h
    exact (releaseOf_packed r).symm.trans (hsame.trans (releaseOf_packed s))
  · rintro rfl
    rfl

end Qdmi
