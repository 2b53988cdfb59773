import Qdmi.Theory.Device.Frame
import Qdmi.Theory.SizeProtocol

/-!
# Job Identities

The identity of a job is drawn when the job is created and reported as a
decimal string.

The string loses nothing: `toCString_injective` reads the number back from its
digits, so two jobs report the same string exactly when they drew the same
number. The device draws without looking at the jobs it has. The identities of
the live jobs are therefore distinct in every state of a run if and only if no
creation draws the number of a job that is still live, which is
`deviceRuns_distinctIds_iff`; the frame of a call does the rest of the work,
since no call changes the identity of a job.

## Main definitions

* `reportedId`: The identity of a job as it is reported.
* `DistinctIds`: Distinct live jobs report distinct identities.
* `DrawsFresh`: A creation draws a number no live job has.

## Theorems

* `toCString_injective`: A decimal string determines its number.
* `idQuery_answers`: The query reports the identity.
* `distinctIds_iff_drawsFresh`: The identities after one call.
* `deviceRuns_distinctIds_iff`: When they are distinct in every state of a run.
-/

namespace Qdmi

variable {R : Type}

/-! ## Decimal strings -/

/-- A digit survives the way through its byte. -/
theorem ofNat_toNat_digit {c : Char} (h : c.isDigit = true) :
    Char.ofNat (UInt8.ofNat c.toNat).toNat = c := by
  simp only [Char.isDigit, ge_iff_le, Bool.and_eq_true, decide_eq_true_eq] at h
  have hhi : c.toNat ≤ 57 := h.2
  have hbyte : (UInt8.ofNat c.toNat).toNat = c.toNat := by
    rw [UInt8.toNat_ofNat']
    omega
  rw [hbyte, Char.ofNat_toNat]

/-- The digits of a number, read back from its string. -/
theorem toDigits_of_toCString (n : Nat) :
    (toCString n).chars.map (fun b => Char.ofNat b.toNat) = Nat.toDigits 10 n := by
  rw [toCString, List.map_map]
  refine (List.map_congr_left fun c hc => ?_).trans (List.map_id _)
  exact ofNat_toNat_digit (Nat.isDigit_of_mem_toDigits (by decide) (by decide) hc)

theorem toCString_injective {m n : Nat} (h : (toCString m).chars = (toCString n).chars) :
    m = n := by
  have hdigits : Nat.toDigits 10 m = Nat.toDigits 10 n := by
    rw [← toDigits_of_toCString, ← toDigits_of_toCString, h]
  calc m = Nat.ofDigitChars 10 (Nat.toDigits 10 m) 0 :=
        (Nat.ofDigitChars_toDigits (by decide) (by decide)).symm
    _ = Nat.ofDigitChars 10 (Nat.toDigits 10 n) 0 := by rw [hdigits]
    _ = n := Nat.ofDigitChars_toDigits (by decide) (by decide)

/-! ## Identities -/

/-- The identity of a job as it is reported, without the terminator. -/
def reportedId (jb : DeviceJob R) : List UInt8 := (toCString jb.id).chars

/-- Distinct live jobs report distinct identities. -/
def DistinctIds (s : DeviceState R) : Prop :=
  ∀ h h' jb jb', h ≠ h' → s.jobs.get? h = some jb → s.jobs.get? h' = some jb' →
    reportedId jb ≠ reportedId jb'

/-- A creation that succeeds draws a number no live job has. -/
def DrawsFresh (s : DeviceState R) (c : Call R) : Prop :=
  ∀ i sess, c.op = .createDeviceJob (some i) true → s.sessions.get? i = some sess →
    sess.status = .initialized → c.env.mem 0 = true →
    ∀ h jb, s.jobs.get? h = some jb → jb.id ≠ c.env.jobId.val

theorem reportedId_ne_iff {jb jb' : DeviceJob R} :
    reportedId jb ≠ reportedId jb' ↔ jb.id ≠ jb'.id := by
  refine not_congr ⟨toCString_injective, fun h => ?_⟩
  rw [reportedId, reportedId, h]

/-- The identity query of a live job reports its identity. -/
theorem idQuery_answers {s : DeviceState R} {h : Nat} {jb : DeviceJob R}
    (hget : s.jobs.get? h = some jb) :
    Answers (deviceJobQueryProperty s (some h) DeviceJobProperty.id.code)
      (reportedId jb ++ [0]) := by
  unfold deviceJobQueryProperty
  refine guarded_answers ?_ (by decide)
  simp only [hget]
  exact addStringProperty_answers _ _ _

theorem distinctIds_empty : DistinctIds ({} : DeviceState R) := by
  intro h h' jb jb' _ hget
  exact absurd hget (by simp only [Heap.get?_empty, reduceCtorEq, not_false_eq_true])

section

variable [Zero R] [DecidableEq R] [Add R] [Mul R] [Div R] [DoubleRepr R]

/-- Distinct identities stay distinct under a call if and only if the call does
    not create a job with the number of a live one. -/
theorem distinctIds_iff_drawsFresh {img : Image} {s s' : DeviceState R} {c : Call R}
    {out : Except Exn Reply} (hstep : deviceStep img s c = .ok (out, s'))
    (hdistinct : DistinctIds s) : DistinctIds s' ↔ DrawsFresh s c := by
  constructor
  · intro hdistinct' i sess hop hget hst hmem h jb hjb
    -- The new job and the live one are two jobs of the next state.
    have hs := (deviceStep_create hstep hop hget hst hmem).2
    have hne : h ≠ s.jobs.next := Nat.ne_of_lt (Heap.get?_lt_next hjb)
    have hold : s'.jobs.get? h = some jb := by
      rw [hs, Heap.get?_alloc, if_neg hne, hjb]
    have hnew : s'.jobs.get? s.jobs.next =
        some { session := i, id := c.env.jobId.val, status := .created } := by
      rw [hs, Heap.get?_alloc, if_pos rfl]
    exact reportedId_ne_iff.mp (hdistinct' h s.jobs.next jb _ hne hold hnew)
  · intro hfresh
    rcases deviceStep_jobs hstep with
      hs | ⟨i, sess, hop, hget, hst, hmem, hs⟩ | ⟨j, jb₁, jb₁', _, hget₁, hs, hid, _⟩ | ⟨j, _, hs⟩
    · intro h h' jb jb' hne hjb hjb'
      rw [hs] at hjb hjb'
      exact hdistinct h h' jb jb' hne hjb hjb'
    · -- The new job against an old one, on either side.
      have hold := hfresh i sess hop hget hst hmem
      intro h h' jb jb' hne hjb hjb'
      rw [reportedId_ne_iff]
      rw [hs, Heap.get?_alloc] at hjb hjb'
      by_cases hh : h = s.jobs.next
      · rw [if_pos hh, Option.some.injEq] at hjb
        rw [if_neg (fun hc => hne (hh.trans hc.symm))] at hjb'
        rw [← hjb]
        exact (hold h' jb' hjb').symm
      · rw [if_neg hh] at hjb
        by_cases hh' : h' = s.jobs.next
        · rw [if_pos hh', Option.some.injEq] at hjb'
          rw [← hjb']
          exact hold h jb hjb
        · rw [if_neg hh'] at hjb'
          exact reportedId_ne_iff.mp (hdistinct h h' jb jb' hne hjb hjb')
    · -- The updated job keeps its identity.
      have hback : ∀ h jb, s'.jobs.get? h = some jb →
          ∃ jb₀, s.jobs.get? h = some jb₀ ∧ jb.id = jb₀.id := by
        intro h jb hjb
        rw [hs, Heap.get?_set _ _ _ _ hget₁] at hjb
        by_cases hh : h = j
        · rw [if_pos hh, Option.some.injEq] at hjb
          rw [hh, ← hjb]
          exact ⟨jb₁, hget₁, hid⟩
        · rw [if_neg hh] at hjb
          exact ⟨jb, hjb, rfl⟩
      intro h h' jb jb' hne hjb hjb'
      rcases hback h jb hjb with ⟨jb₀, hjb₀, heq⟩
      rcases hback h' jb' hjb' with ⟨jb₀', hjb₀', heq'⟩
      rw [reportedId_ne_iff, heq, heq', ← reportedId_ne_iff]
      exact hdistinct h h' jb₀ jb₀' hne hjb₀ hjb₀'
    · -- Freeing a job leaves the others.
      have hback : ∀ h jb, s'.jobs.get? h = some jb → s.jobs.get? h = some jb := by
        intro h jb hjb
        rw [hs, Heap.get?_free] at hjb
        by_cases hh : h = j
        · rw [if_pos hh] at hjb
          exact absurd hjb (by simp only [reduceCtorEq, not_false_eq_true])
        · rwa [if_neg hh] at hjb
      intro h h' jb jb' hne hjb hjb'
      exact hdistinct h h' jb jb' hne (hback h jb hjb) (hback h' jb' hjb')

/-- In every run, the live jobs report distinct identities in every state if and
    only if no creation draws the number of a live job; what is reported is the
    identity query of the device. -/
theorem deviceRuns_distinctIds_iff (img : Image) (tr : List (DeviceEntry R)) (s : DeviceState R)
    (hrun : DeviceRuns img tr s) :
    ((∀ e ∈ tr, DistinctIds e.post) ↔ Respects DrawsFresh tr) ∧
    ∀ (t : DeviceState R) h jb, t.jobs.get? h = some jb →
      Answers (deviceJobQueryProperty t (some h) DeviceJobProperty.id.code)
        (reportedId jb ++ [0]) := by
  refine ⟨runs_forall_iff (D := fun _ _ => True) hrun (fun _ _ => trivial) distinctIds_empty ?_,
    fun t h jb hget => idQuery_answers hget⟩
  exact fun _ _ _ _ _ hstep hdistinct => distinctIds_iff_drawsFresh hstep hdistinct

end

/-- No live job has the number a call would draw. -/
def numberFree (e : DeviceEntry R) : Bool :=
  e.pre.jobs.cells.all (fun cell => cell.all (fun jb => jb.id != e.label.env.jobId.val))

theorem drawsFresh_of_numberFree {e : DeviceEntry R} (h : numberFree e = true) :
    DrawsFresh e.pre e.label := by
  intro _ _ _ _ _ _ i jb hget
  have hcell := List.all_eq_true.mp h (some jb) (List.mem_of_getElem? (Heap.cells_of_get? hget))
  exact bne_iff_ne.mp hcell

/-- Open a session and create two jobs, the second with the number given. -/
def sampleCreations (id : Fin (2 ^ 31)) : List (Call ℚ) :=
  callsIn sampleEnv sampleSetup.dropLast ++
    [⟨.createDeviceJob (some 0) true, { sampleEnv with jobId := id }⟩]

/-- The numbers of the first two jobs. -/
def firstIds (s : DeviceState ℚ) : Option Nat × Option Nat :=
  ((s.jobs.get? 0).map DeviceJob.id, (s.jobs.get? 1).map DeviceJob.id)

/-- Two jobs with different numbers have distinct identities throughout. -/
theorem deviceRuns_distinctIds_sample :
    ∃ tr s, DeviceRuns (R := ℚ) sampleImage tr s ∧ firstIds s = (some 0, some 7) ∧
      ∀ e ∈ tr, DistinctIds e.post := by
  rcases deviceRuns_played (sampleCreations 7) (fun p => some (p.1.all numberFree, firstIds p.2))
    (true, some 0, some 7) rfl with ⟨tr, s, hrun, _, hv⟩
  rw [Option.some.injEq, Prod.mk.injEq, List.all_eq_true] at hv
  exact ⟨tr, s, hrun, hv.2, (deviceRuns_distinctIds_iff sampleImage tr s hrun).1.mpr
    (fun e he => drawsFresh_of_numberFree (hv.1 e he))⟩

/-- The generator may yield the same number twice in a row. -/
theorem same_id_twice :
    ∃ tr s jb jb', DeviceRuns (R := ℚ) sampleImage tr s ∧ s.jobs.get? 0 = some jb ∧
      s.jobs.get? 1 = some jb' ∧ reportedId jb = reportedId jb' ∧
      ¬ ∀ e ∈ tr, DistinctIds e.post := by
  rcases deviceRuns_played (sampleCreations 0) (fun p => some (p.1.length, firstIds p.2))
    (6, some 0, some 0) rfl with ⟨tr, s, hrun, _, hv⟩
  rw [Option.some.injEq, Prod.mk.injEq, firstIds, Prod.mk.injEq] at hv
  rcases hv with ⟨hlen, hfirst, hsecond⟩
  rcases Option.map_eq_some_iff.mp hfirst with ⟨jb, hget, hid⟩
  rcases Option.map_eq_some_iff.mp hsecond with ⟨jb', hget', hid'⟩
  have hsame : reportedId jb = reportedId jb' := by
    rw [reportedId, reportedId, hid, hid']
  refine ⟨tr, s, jb, jb', hrun, hget, hget', hsame, fun hall => ?_⟩
  exact runs_last hrun distinctIds_empty hall 0 1 jb jb' (by decide) hget hget' hsame

end Qdmi
