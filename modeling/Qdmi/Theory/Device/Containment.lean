import Qdmi.Theory.Device.Encoders
import Qdmi.Theory.Device.Inversion

/-!
# Exceptions at the C Boundary

An entry point has C linkage, so whatever is thrown behind it has to be caught
before it returns. `Contained` compares a call with the same call under
allocations that all succeed: it returns a reply, and if a failed allocation
made a difference the reply says `OUTOFMEM` or `FATAL`.

The device has handlers in two places, around the copying loop of
`set_programs` and around the body of `submit`. What they catch is settled by
following the allocations of the two blocks; `copyPrograms_spared` and
`submitResults_spared` say that a block either goes as it would with memory or
ends in `bad_alloc`. Nothing guards the allocations of four other functions, and
`Exposed` lists them with the arguments under which a call gets that far. Nothing
guards the lookup of a name either, which throws for a foreign operation
(`LooksUpForeign`), with and without memory.

## Main definitions

* `Replies`: No exception leaves a call.
* `Contained`: A call returns and reports the failures that mattered.
* `Env.spared`, `Call.spared`: The same call with memory.
* `CopiesToken`, `MakesJob`, `CountsShots`: How far a call gets.
* `Exposed`, `TooLong`: The allocations outside every handler, and a size no
  string can have.
* `LooksUpForeign`: The lookup outside every handler.

## Theorems

* `contained_same`, `contained_failed`, `contained_guard`, `contained_copy`: The
  ways a call is contained.
* `deviceSessionInit_replies` and its siblings: The calls that never throw.
* `copyPrograms_spared`, `submitResults_spared`: The two guarded blocks.
* `deviceStep_contained_iff`: The calls of the device that are contained.
-/

namespace Qdmi

/-! ## Containment -/

section

variable {ω σ : Type} (reply : ω → Except Exn Reply)

/-- No exception leaves a call. -/
def Replies (x : Except Fault (ω × σ)) : Prop :=
  ∀ out s', x = .ok (out, s') → ∃ r, reply out = .ok r

/-- A call `x` that does not run into undefined behaviour returns a reply.
    Where it differs from `y`, the same call with memory, the reply reports
    it. -/
def Contained (x y : Except Fault (ω × σ)) : Prop :=
  ∀ out s', x = .ok (out, s') →
    ∃ r, reply out = .ok r ∧ (x = y ∨ r.status = .errorOutofmem ∨ r.status = .errorFatal)

variable {reply} {x y : Except Fault (ω × σ)} {out : ω} {s' : σ} {r : Reply}

theorem replies_fault (e : Fault) : Replies reply (.error e : Except Fault (ω × σ)) :=
  fun _ _ h => absurd h (by simp only [reduceCtorEq, not_false_eq_true])

theorem replies_ok (hr : reply out = .ok r) : Replies reply (.ok (out, s')) := by
  intro out' t h
  rw [Except.ok.injEq, Prod.mk.injEq] at h
  exact ⟨r, by rw [← h.1, hr]⟩

/-- A call that no failure reached. -/
theorem contained_same (h : Replies reply x) : Contained reply x x := by
  intro out s' hx
  rcases h out s' hx with ⟨r, hr⟩
  exact ⟨r, hr, Or.inl rfl⟩

/-- A call that reports a failure. -/
theorem contained_failed (hr : reply out = .ok r)
    (hst : r.status = .errorOutofmem ∨ r.status = .errorFatal) :
    Contained reply (.ok (out, s')) y := by
  intro out' t h
  rw [Except.ok.injEq, Prod.mk.injEq] at h
  exact ⟨r, by rw [← h.1, hr], Or.inr hst⟩

/-- A call that lets an exception escape is not contained. -/
theorem not_contained_error {e : Exn} (hr : reply out = .error e) :
    ¬ Contained reply (.ok (out, s')) y := by
  intro h
  rcases h out s' rfl with ⟨r, hr', _⟩
  rw [hr] at hr'
  exact absurd hr' (by simp only [reduceCtorEq, not_false_eq_true])

/-- An allocation outside every handler has to succeed. -/
theorem contained_guard {b : Bool} {thrown : Except Fault (ω × σ)} {e : Exn}
    (hthrown : thrown = .ok (out, s')) (hr : reply out = .error e) (hx : Replies reply x) :
    Contained reply (if !b then thrown else x) x ↔ b = true := by
  cases b with
  | true => exact iff_of_true (contained_same hx) rfl
  | false =>
      rw [hthrown]
      exact iff_of_false (not_contained_error hr) Bool.false_ne_true

/-- A copy into a string outside every handler has to fit and to find memory. -/
theorem contained_copy {n : Nat} {b : Bool} {refused thrown : Except Fault (ω × σ)} {e e' : Exn}
    {out' : ω} {t : σ} (hrefused : refused = .ok (out', t)) (hr' : reply out' = .error e')
    (hthrown : thrown = .ok (out, s')) (hr : reply out = .error e) (hx : Replies reply x) :
    Contained reply (if vectorMaxSize 1 < n then refused else if !b then thrown else x)
        (if vectorMaxSize 1 < n then refused else x) ↔ n ≤ vectorMaxSize 1 ∧ b = true := by
  by_cases hlong : vectorMaxSize 1 < n
  · rw [if_pos hlong, if_pos hlong, hrefused]
    exact iff_of_false (not_contained_error hr') (fun hc => absurd hc.1 (Nat.not_le_of_lt hlong))
  · rw [if_neg hlong, if_neg hlong, and_iff_right (Nat.le_of_not_lt hlong)]
    exact contained_guard hthrown hr hx

end

/-! ## Calls that do not allocate -/

variable {R : Type}

/-- The same environment, with memory for everything. -/
def Env.spared (env : Env R) : Env R := { env with mem := fun _ => true }

/-- The same call, with memory for everything. -/
def Call.spared (c : Call R) : Call R := { c with env := c.env.spared }

section

variable {s : DeviceState R}

theorem replies_answer (status : Status) : Replies id (answer status s) := replies_ok rfl

/-- The answer of a query, with the state it leaves alone. -/
theorem replies_query {s : DeviceState R} {x : Except Fault Reply} :
    Replies id ((x.map .ok).map (fun reply : Except Exn Reply => (reply, s))) := by
  rcases x with e | reply
  · exact replies_fault e
  · exact replies_ok rfl

theorem deviceSessionInit_replies (session : Option Nat) :
    Replies id (deviceSessionInit s session) := by
  unfold deviceSessionInit
  split
  · exact replies_answer _
  split
  iterate 3 exact replies_answer _
  split
  · exact replies_fault _
  split
  · exact replies_answer _
  · exact replies_answer _

theorem deviceSessionFree_replies (session : Option Nat) :
    Replies id (deviceSessionFree s session) := by
  unfold deviceSessionFree
  split
  · exact replies_answer _
  split
  · exact replies_fault _
  · exact replies_answer _

theorem deviceJobFree_replies (job : Option Nat) : Replies id (deviceJobFree s job) := by
  unfold deviceJobFree
  split
  · exact replies_answer _
  split
  · exact replies_fault _
  · exact replies_answer _

theorem deviceJobSetParameter_replies (job : Option Nat) (param size : Nat)
    (value : Option (Nat → UInt8)) : Replies id (deviceJobSetParameter s job param size value) := by
  unfold deviceJobSetParameter
  split
  · exact replies_answer _
  iterate 2
    split
    · exact replies_answer _
  split
  · exact replies_fault _
  iterate 4
    split
    · exact replies_answer _
  · exact replies_answer _

theorem deviceJobGetProgramStatus_replies (job : Option Nat) (i : Nat) :
    Replies id (deviceJobGetProgramStatus s job i) := by
  unfold deviceJobGetProgramStatus
  split
  · exact replies_answer _
  split
  · exact replies_fault _
  iterate 2
    split
    · exact replies_answer _
  · exact replies_answer _

theorem deviceJobCancel_replies (job : Option Nat) : Replies id (deviceJobCancel s job) := by
  unfold deviceJobCancel
  split
  · exact replies_answer _
  split
  · exact replies_fault _
  split
  · exact replies_answer _
  · exact replies_answer _

theorem deviceJobCheck_replies (env : Env R) (job : Option Nat) (status : Bool) :
    Replies id (deviceJobCheck s env job status) := by
  unfold deviceJobCheck
  split
  · exact replies_answer _
  split
  · exact replies_answer _
  split
  · exact replies_fault _
  iterate 2
    split
    · exact replies_ok rfl
  · exact replies_ok rfl

theorem deviceJobWait_replies (job : Option Nat) : Replies id (deviceJobWait s job) := by
  unfold deviceJobWait
  split
  · exact replies_answer _
  split
  · exact replies_fault _
  split
  · exact replies_answer _
  · exact replies_answer _

end

/-! ## The guarded blocks -/

theorem copyProgram_spared (env : Env R) (format : Nat) (sizes : Nat → Nat)
    (programs : Nat → Option (Nat → UInt8)) (i : Nat) :
    copyProgram env format sizes programs i = copyProgram env.spared format sizes programs i ∨
      copyProgram env format sizes programs i = .error (.thrown .badAlloc) := by
  unfold copyProgram
  split
  · exact Or.inl rfl
  split
  · exact Or.inl rfl
  split
  · exact Or.inr rfl
  · exact Or.inl rfl

/-- The `try` block of `set_programs` goes as it would with memory, or ends in
    `bad_alloc`. -/
theorem copyPrograms_spared (env : Env R) (format count : Nat) (sizes : Nat → Nat)
    (programs : Nat → Option (Nat → UInt8)) :
    copyPrograms env format count sizes programs =
        copyPrograms env.spared format count sizes programs ∨
      copyPrograms env format count sizes programs = .error (.thrown .badAlloc) := by
  unfold copyPrograms
  split
  · exact Or.inl rfl
  split
  · exact Or.inr rfl
  · exact mapM_same_or (copyProgram_spared env format sizes programs) _

/-- What the block throws is caught. -/
theorem copyProgram_thrown {env : Env R} {format : Nat} {sizes : Nat → Nat}
    {programs : Nat → Option (Nat → UInt8)} {i : Nat} {e : Exn}
    (h : copyProgram env format sizes programs i = .error (.thrown e)) :
    e = .badAlloc ∨ e = .lengthError := by
  unfold copyProgram at h
  split at h
  · exact absurd h (by simp only [Except.error.injEq, reduceCtorEq, not_false_eq_true])
  split at h
  · exact Or.inr (Abort.thrown.inj (Except.error.inj h)).symm
  split at h
  · exact Or.inl (Abort.thrown.inj (Except.error.inj h)).symm
  · exact absurd h (by simp only [reduceCtorEq, not_false_eq_true])

theorem copyPrograms_thrown {env : Env R} {format count : Nat} {sizes : Nat → Nat}
    {programs : Nat → Option (Nat → UInt8)} {e : Exn}
    (h : copyPrograms env format count sizes programs = .error (.thrown e)) :
    e = .badAlloc ∨ e = .lengthError := by
  unfold copyPrograms at h
  split at h
  · exact Or.inr (Abort.thrown.inj (Except.error.inj h)).symm
  split at h
  · exact Or.inl (Abort.thrown.inj (Except.error.inj h)).symm
  rcases mapM_eq_error h with ⟨i, _, hi⟩
  exact copyProgram_thrown hi

theorem deviceJobSetPrograms_contained (s : DeviceState R) (env : Env R) (job : Option Nat)
    (format count : Nat) (sizes : Option (Nat → Nat))
    (programs : Option (Nat → Option (Nat → UInt8))) :
    Contained id (deviceJobSetPrograms s env job format count sizes programs)
      (deviceJobSetPrograms s env.spared job format count sizes programs) := by
  unfold deviceJobSetPrograms
  split
  · exact contained_same (replies_answer _)
  split
  · exact contained_same (replies_answer _)
  split
  · exact contained_same (replies_fault _)
  iterate 2
    split
    · exact contained_same (replies_answer _)
  split
  · exact contained_same (replies_answer _)
  rename_i progs
  split
  · exact contained_same (replies_answer _)
  rename_i szs
  -- From here on the copying loop decides.
  rcases copyPrograms_spared env format count szs progs with hsame | hbad
  · rw [← hsame]
    refine contained_same ?_
    split
    · exact replies_answer _
    · exact replies_answer _
    · exact replies_answer _
    · rename_i e hno hlen hcopy
      rcases copyPrograms_thrown hcopy with rfl | rfl
      · exact absurd rfl hno
      · exact absurd rfl hlen
    · exact replies_answer _
  · rw [hbad]
    exact contained_failed rfl (Or.inl rfl)

section

variable [Zero R] [Add R] [Mul R] [Div R] [DoubleRepr R]

theorem prepareResult_spared (env : Env R) (jb : DeviceJob R) (n i : Nat) (program : List UInt8) :
    prepareResult env jb n i program = prepareResult env.spared jb n i program ∨
      prepareResult env jb n i program = .error .badAlloc := by
  unfold prepareResult
  refine bind_same_or _ (fun index => bind_same_or _ (fun shot => ?_))
  split
  · exact Or.inl rfl
  split
  · exact Or.inr rfl
  split
  · exact Or.inr rfl
  · exact Or.inl (by simp [Env.spared])

/-- The loop of `submit`. The induction is on the programs still to come. -/
theorem prepareResults_spared (env : Env R) (jb : DeviceJob R) (n : Nat)
    (programs : List (List UInt8)) : ∀ i,
      prepareResults env jb n i programs = prepareResults env.spared jb n i programs ∨
        (prepareResults env jb n i programs).1 = .error .badAlloc := by
  induction programs with
  | nil => exact fun _ => Or.inl rfl
  | cons program rest ih =>
      intro i
      rw [prepareResults, prepareResults]
      rcases prepareResult_spared env jb n i program with hsame | hbad
      · rw [← hsame]
        rcases prepareResult env jb n i program with e | result
        · exact Or.inl rfl
        · -- The program was prepared as with memory, so the rest decides.
          rcases ih (i + 1) with hrest | hrest
          · exact Or.inl (by rw [hrest])
          · exact Or.inr (by simp only [hrest, Except.map])
      · exact Or.inr (by rw [hbad])

/-- The `try` block of `submit` goes as it would with memory, or ends in
    `bad_alloc`. -/
theorem submitResults_spared (env : Env R) (jb : DeviceJob R) (n : Nat) :
    submitResults env jb n = submitResults env.spared jb n ∨
      (submitResults env jb n).1 = .error .badAlloc := by
  unfold submitResults
  split
  · exact Or.inl rfl
  split
  · exact Or.inr rfl
  · exact prepareResults_spared env jb n jb.programs 0

theorem deviceJobSubmit_contained (img : Image) (s : DeviceState R) (env : Env R)
    (job : Option Nat) :
    Contained id (deviceJobSubmit img s env job) (deviceJobSubmit img s env.spared job) := by
  unfold deviceJobSubmit
  split
  · exact contained_same (replies_answer _)
  split
  · exact contained_same (replies_fault _)
  rename_i jb _
  iterate 2
    split
    · exact contained_same (replies_answer _)
  split
  · exact contained_same (replies_fault _)
  rename_i n _
  split
  · exact contained_same (replies_fault _)
  -- What follows the guards is the `try` block.
  rcases submitResults_spared env jb n with hsame | hbad
  · rw [← hsame]
    refine contained_same ?_
    rcases submitResults env jb n with ⟨(e | results), turns⟩
    · dsimp only
      split
      · exact replies_answer _
      · exact replies_answer _
      · exact replies_answer _
    · exact replies_answer _
  · -- The handler turns `bad_alloc` into a status.
    rcases hrun : submitResults env jb n with ⟨results, turns⟩
    rw [hrun] at hbad
    have hresults : results = .error .badAlloc := hbad
    rw [hresults]
    exact contained_failed rfl (Or.inl rfl)

end

/-! ## Allocations outside the handlers -/

/-- `set_parameter` gets as far as copying a token. -/
def CopiesToken (s : DeviceState R) (session : Option Nat) (param size : Nat)
    (value : Option (Nat → UInt8)) : Prop :=
  ∃ h sess, session = some h ∧ s.sessions.get? h = some sess ∧ sess.status = .allocated ∧
    param = DeviceSessionParameter.token ∧ value.isSome = true ∧ size ≠ 0

/-- `create_device_job` gets as far as making a job. -/
def MakesJob (s : DeviceState R) (session : Option Nat) (job : Bool) : Prop :=
  ∃ h sess, session = some h ∧ job = true ∧ s.sessions.get? h = some sess ∧
    sess.status = .initialized

/-- `get_results` gets as far as counting the shots of a program. -/
def CountsShots (s : DeviceState R) (job : Option Nat) (i kind : Nat) (out : OutArgs)
    (result : ResultData R) : Prop :=
  ∃ h jb, job = some h ∧ out.degenerate = false ∧
    (kind = JobResult.histKeys.code ∨ kind = JobResult.histValues.code) ∧
    s.jobs.get? h = some jb ∧ i < jb.programs.length ∧ jb.status = .done ∧
    jb.results[i]? = some result

/-- The call makes its `k`-th allocation, and nothing catches what it throws. -/
def Exposed (s : DeviceState R) (op : Op) (k : Nat) : Prop :=
  match op with
  | .sessionAlloc session => session = true ∧ k = 0
  | .sessionSetParameter session param size value => CopiesToken s session param size value ∧ k = 0
  | .createDeviceJob session job => MakesJob s session job ∧ k = 0
  | .query (.jobResults job i kind) out =>
    ∃ result shot, CountsShots s job i kind out result ∧ result.shots[k]? = some shot ∧
      shot ∉ result.shots.take k
  | _ => False

/-- The call copies more bytes than a string can have. -/
def TooLong (s : DeviceState R) (op : Op) : Prop :=
  match op with
  | .sessionSetParameter session param size value =>
    CopiesToken s session param size value ∧ vectorMaxSize 1 < size
  | _ => False

/-- The call looks up the name of an operation that is none of the device's. -/
def LooksUpForeign (op : Op) : Prop :=
  match op with
  | .query (.foreignOperation session args prop) out =>
    session.isSome = true ∧ prop = OperationProperty.name.code ∧
      ¬ (args.sites.isSome = true ∧ args.numSites = 0) ∧
      ¬ (args.params = true ∧ args.numParams = 0) ∧ out.degenerate = false ∧
      (out.value.isSome = true ∨ out.sizeRet = true)
  | _ => False

theorem deviceSessionAlloc_contained_iff {s : DeviceState R} {env : Env R} {session : Bool} :
    Contained id (deviceSessionAlloc s env session) (deviceSessionAlloc s env.spared session) ↔
      (session = true → env.mem 0 = true) := by
  cases session with
  | false =>
      exact iff_of_true (contained_same (replies_answer _))
        (fun h => absurd h Bool.false_ne_true)
  | true =>
      rw [imp_iff_right rfl]
      exact contained_guard (b := env.mem 0) rfl rfl (replies_ok rfl)

theorem deviceSessionCreateDeviceJob_contained_iff {s : DeviceState R} {env : Env R}
    {session : Option Nat} {job : Bool} :
    Contained id (deviceSessionCreateDeviceJob s env session job)
        (deviceSessionCreateDeviceJob s env.spared session job) ↔
      (MakesJob s session job → env.mem 0 = true) := by
  by_cases hmakes : MakesJob s session job
  · rw [imp_iff_right hmakes]
    rcases hmakes with ⟨h, sess, rfl, rfl, hget, hst⟩
    simp only [deviceSessionCreateDeviceJob, hget, hst, Bool.not_true, Bool.false_eq_true, if_false,
      ne_eq, not_true_eq_false]
    exact contained_guard (b := env.mem 0) rfl rfl (replies_ok rfl)
  · refine iff_of_true ?_ (fun hm => absurd hm hmakes)
    unfold deviceSessionCreateDeviceJob
    split
    · exact contained_same (replies_answer _)
    rename_i h
    split
    · exact contained_same (replies_answer _)
    rename_i hjob
    split
    · exact contained_same (replies_fault _)
    rename_i sess hget
    split
    · exact contained_same (replies_answer _)
    rename_i hst
    -- A call that gets here makes a job.
    rw [Bool.not_eq_true', Bool.not_eq_false] at hjob
    exact absurd ⟨h, sess, rfl, hjob, hget, not_not.mp hst⟩ hmakes

theorem deviceSessionSetParameter_contained_iff {s : DeviceState R} {env : Env R}
    {session : Option Nat} {param size : Nat} {value : Option (Nat → UInt8)} :
    Contained id (deviceSessionSetParameter s env session param size value)
        (deviceSessionSetParameter s env.spared session param size value) ↔
      (CopiesToken s session param size value →
        size ≤ vectorMaxSize 1 ∧ env.mem 0 = true) := by
  by_cases hcopies : CopiesToken s session param size value
  · rw [imp_iff_right hcopies]
    rcases hcopies with ⟨h, sess, rfl, hget, hst, rfl, hvalue, hsize⟩
    rcases value with _ | v
    · exact absurd hvalue Bool.false_ne_true
    have hvalid : isInvalidEnumValue DeviceSessionParameter.token DeviceSessionParameter.max =
        false := by decide
    simp only [deviceSessionSetParameter, hget, hst, hvalid, hsize, Option.isSome_some,
      Bool.true_and, beq_iff_eq, Bool.false_eq_true, if_false, ne_eq, not_true_eq_false]
    exact contained_copy (b := env.mem 0) rfl rfl rfl rfl (replies_ok rfl)
  · refine iff_of_true ?_ (fun hc => absurd hc hcopies)
    unfold deviceSessionSetParameter
    split
    · exact contained_same (replies_answer _)
    rename_i h
    split
    · exact contained_same (replies_answer _)
    rename_i hnull
    split
    · exact contained_same (replies_answer _)
    split
    · exact contained_same (replies_fault _)
    rename_i sess hget
    split
    · exact contained_same (replies_answer _)
    rename_i hst
    split
    · exact contained_same (replies_answer _)
    rename_i hparam
    split
    · exact contained_same (replies_answer _)
    -- A call that gets here copies the token.
    refine absurd ⟨h, sess, rfl, hget, not_not.mp hst, not_not.mp hparam, rfl, ?_⟩ hcopies
    simpa only [Option.isSome_some, Bool.true_and, beq_iff_eq] using hnull

/-- Whether the name is looked up is decided by the arguments alone. -/
theorem deviceSessionQueryForeignOperation_contained_iff {s : DeviceState R}
    {session : Option Nat} {args : OperationArgs} {prop : Nat} {out : OutArgs} :
    Contained id
        ((deviceSessionQueryForeignOperation session args prop out).map (fun reply => (reply, s)))
        ((deviceSessionQueryForeignOperation session args prop out).map (fun reply => (reply, s))) ↔
      ¬ LooksUpForeign (.query (.foreignOperation session args prop) out) := by
  rw [LooksUpForeign]
  unfold deviceSessionQueryForeignOperation
  rcases session with _ | h
  · exact iff_of_true (contained_same (replies_ok rfl)) (fun hl => Bool.false_ne_true hl.1)
  dsimp only
  split
  · rename_i hguard
    refine iff_of_true (contained_same (replies_ok rfl)) ?_
    rintro ⟨_, rfl, hsites, hparams, hout, _⟩
    have hvalid : isInvalidEnumValue OperationProperty.name.code OperationProperty.max = false := by
      decide
    simp only [hvalid, hout, Bool.or_false, Bool.or_eq_true, Bool.and_eq_true, beq_iff_eq]
      at hguard
    exact hguard.elim hsites hparams
  rename_i hguard
  simp only [Bool.or_eq_true, Bool.and_eq_true, beq_iff_eq, not_or] at hguard
  split
  · rename_i hname
    split
    · -- The name is looked up, and there is none.
      rename_i hlooks
      rw [Bool.or_eq_true] at hlooks
      refine iff_of_false (not_contained_error rfl) (not_not.mpr ⟨rfl, hname, hguard.1.1.1,
        hguard.1.1.2, Bool.eq_false_of_not_eq_true hguard.1.2, hlooks⟩)
    · rename_i hlooks
      rw [Bool.or_eq_true] at hlooks
      exact iff_of_true (contained_same (replies_ok rfl)) (fun hl => hlooks hl.2.2.2.2.2)
  · rename_i hname
    exact iff_of_true (contained_same replies_query) (fun hl => hname hl.2.1)

section

variable [Zero R] [DecidableEq R] [Add R] [Mul R] [DoubleRepr R]

/-- Only the histogram allocates. -/
theorem encodeResult_other {kind : Nat}
    (hkind : ¬ (kind = JobResult.histKeys.code ∨ kind = JobResult.histValues.code))
    (result : ResultData R) (out : OutArgs) :
    ∃ x : Except Fault Reply, ∀ mem, encodeResult mem result kind out = x.map .ok := by
  unfold encodeResult
  split
  · exact ⟨_, fun _ => rfl⟩
  iterate 3
    split
    · exact ⟨_, fun _ => rfl⟩
  · exact ⟨.ok (out.reject .errorNotsupported), fun _ => rfl⟩

theorem deviceJobGetResults_contained_iff {s : DeviceState R} {mem : Alloc} {job : Option Nat}
    {i kind : Nat} {out : OutArgs} :
    Contained id ((deviceJobGetResults s mem job i kind out).map (fun reply => (reply, s)))
        ((deviceJobGetResults s (fun _ => true) job i kind out).map (fun reply => (reply, s))) ↔
      ∀ result, CountsShots s job i kind out result →
        ∃ hist, histogram mem 0 result.shots [] = .ok hist := by
  by_cases hcounts : ∃ result, CountsShots s job i kind out result
  · rcases hcounts with ⟨result, hcounts⟩
    have hresult : ∀ result', CountsShots s job i kind out result' → result' = result := by
      rintro result' ⟨h', jb', hjob', _, _, hget', _, _, hres'⟩
      rcases hcounts with ⟨h, jb, hjob, _, _, hget, _, _, hres⟩
      rw [hjob, Option.some.injEq] at hjob'
      rw [← hjob', hget, Option.some.injEq] at hget'
      rw [← hget', hres, Option.some.injEq] at hres'
      exact hres'.symm
    have hbody : ∀ mem, deviceJobGetResults s mem job i kind out =
        getResultsHist mem result kind out := by
      intro mem
      rcases hcounts with ⟨h, jb, rfl, hout, hkind, hget, hi, hst, hres⟩
      rcases hkind with rfl | rfl
      · simp [deviceJobGetResults, hout, hget, hi, hst, hres, encodeResult, isInvalidEnumValue,
          JobResult.code, JobResult.max]
      · simp [deviceJobGetResults, hout, hget, hi, hst, hres, encodeResult, isInvalidEnumValue,
          JobResult.code, JobResult.max]
    rw [hbody, hbody, getResultsHist, getResultsHist]
    rcases hhist : histogram mem 0 result.shots [] with e | hist
    · refine iff_of_false (not_contained_error rfl) (fun hall => ?_)
      rcases hall result hcounts with ⟨hist, hok⟩
      rw [hhist] at hok
      exact absurd hok (by simp only [reduceCtorEq, not_false_eq_true])
    · rw [histogram_available (fun _ => rfl) hhist]
      refine iff_of_true (contained_same replies_query) (fun result' hcounts' => ⟨hist, ?_⟩)
      rw [hresult result' hcounts', hhist]
  · refine iff_of_true ?_ (fun result hc => absurd ⟨result, hc⟩ hcounts)
    unfold deviceJobGetResults
    split
    · exact contained_same (replies_ok rfl)
    rename_i h
    split
    · exact contained_same (replies_ok rfl)
    rename_i hvalid
    split
    · exact contained_same (replies_fault _)
    rename_i jb hget
    split
    · exact contained_same (replies_ok rfl)
    rename_i hi
    split
    · exact contained_same (replies_ok rfl)
    rename_i hst
    split
    · exact contained_same (replies_fault _)
    rename_i result hres
    -- A call that gets here would count the shots for a histogram.
    have hkind : ¬ (kind = JobResult.histKeys.code ∨ kind = JobResult.histValues.code) := by
      intro hkind
      rw [Bool.or_eq_true, not_or] at hvalid
      exact hcounts ⟨result, h, jb, rfl, Bool.eq_false_of_not_eq_true hvalid.1, hkind, hget,
        Nat.lt_of_not_le hi, not_not.mp hst, hres⟩
    rcases encodeResult_other hkind result out with ⟨x, hx⟩
    rw [hx, hx]
    exact contained_same replies_query

/-- A query that builds no histogram and is about the operations of the device. -/
theorem deviceQuery_contained {img : Image} {s : DeviceState R} {mem : Alloc} {q : Query}
    {out : OutArgs} (hq : ∀ job i kind, q ≠ .jobResults job i kind)
    (hq' : ∀ session args prop, q ≠ .foreignOperation session args prop) :
    Contained id ((deviceQuery img s mem q out).map (fun reply => (reply, s)))
      ((deviceQuery img s (fun _ => true) q out).map (fun reply => (reply, s))) := by
  cases q with
  | jobResults job i kind => exact absurd rfl (hq job i kind)
  | jobProgram job i => exact contained_same replies_query
  | jobProperty job prop => exact contained_same replies_query
  | deviceProperty session prop => exact contained_same replies_query
  | siteProperty session site prop => exact contained_same replies_query
  | operationProperty session operation args prop => exact contained_same replies_query
  | foreignOperation session args prop => exact absurd rfl (hq' session args prop)

variable [Div R]

/-- A call of the device is contained when every allocation outside the handlers
    succeeds, its token is no longer than a string can be, and it does not ask for the
    name of a foreign operation. -/
theorem deviceStep_contained_iff (img : Image) (s : DeviceState R) (c : Call R) :
    Contained id (deviceStep img s c) (deviceStep img s c.spared) ↔
      (∀ k, Exposed s c.op k → c.env.mem k = true) ∧ ¬ TooLong s c.op ∧
        ¬ LooksUpForeign c.op := by
  rcases c with ⟨op, env⟩
  -- Where nothing is exposed the right side holds.
  have hclosed : ∀ {x y : Result (DeviceState R)}, Contained id x y →
      (∀ k, ¬ Exposed s op k) → ¬ TooLong s op → ¬ LooksUpForeign op → (Contained id x y ↔
        (∀ k, Exposed s op k → env.mem k = true) ∧ ¬ TooLong s op ∧ ¬ LooksUpForeign op) :=
    fun hxy hnone hlong hlooks =>
      iff_of_true hxy ⟨fun k hk => absurd hk (hnone k), hlong, hlooks⟩
  have hfirst : ∀ {p : Prop}, (∀ k, p ∧ k = 0 → env.mem k = true) ↔ (p → env.mem 0 = true) :=
    ⟨fun h hp => h 0 ⟨hp, rfl⟩, fun h k hk => hk.2 ▸ h hk.1⟩
  cases op with
  | deviceInitialize => exact hclosed (contained_same (replies_answer _)) (fun _ => id) id id
  | deviceFinalize => exact hclosed (contained_same (replies_answer _)) (fun _ => id) id id
  | sessionAlloc session =>
      refine deviceSessionAlloc_contained_iff.trans ?_
      exact (and_iff_left ⟨id, id⟩).symm.trans (and_congr_left' hfirst.symm)
  | sessionInit session =>
      exact hclosed (contained_same (deviceSessionInit_replies session)) (fun _ => id) id id
  | sessionFree session =>
      exact hclosed (contained_same (deviceSessionFree_replies session)) (fun _ => id) id id
  | sessionSetParameter session param size value =>
      refine deviceSessionSetParameter_contained_iff.trans ?_
      constructor
      · intro h
        exact ⟨hfirst.mpr (fun hc => (h hc).2), fun hlong => absurd (h hlong.1).1
          (Nat.not_le_of_lt hlong.2), id⟩
      · rintro ⟨hmem, hlong, _⟩ hc
        exact ⟨Nat.le_of_not_lt (fun hlt => hlong ⟨hc, hlt⟩), hfirst.mp hmem hc⟩
  | createDeviceJob session job =>
      refine deviceSessionCreateDeviceJob_contained_iff.trans ?_
      exact (and_iff_left ⟨id, id⟩).symm.trans (and_congr_left' hfirst.symm)
  | retrieveDeviceJobById => exact hclosed (contained_same (replies_answer _)) (fun _ => id) id id
  | jobFree job => exact hclosed (contained_same (deviceJobFree_replies job)) (fun _ => id) id id
  | jobSetParameter job param size value =>
      exact hclosed (contained_same (deviceJobSetParameter_replies job param size value))
        (fun _ => id) id id
  | jobSetPrograms job format count sizes programs =>
      exact hclosed (deviceJobSetPrograms_contained s env job format count sizes programs)
        (fun _ => id) id id
  | jobGetProgramStatus job i =>
      exact hclosed (contained_same (deviceJobGetProgramStatus_replies job i)) (fun _ => id) id id
  | jobSubmit job => exact hclosed (deviceJobSubmit_contained img s env job) (fun _ => id) id id
  | jobCancel job =>
      exact hclosed (contained_same (deviceJobCancel_replies job)) (fun _ => id) id id
  | jobCheck job status =>
      exact hclosed (contained_same (deviceJobCheck_replies env job status)) (fun _ => id) id id
  | jobWait job => exact hclosed (contained_same (deviceJobWait_replies job)) (fun _ => id) id id
  | query q out =>
      cases q with
      | jobResults job i kind =>
          refine deviceJobGetResults_contained_iff.trans ?_
          constructor
          · intro h
            refine ⟨?_, id, id⟩
            rintro k ⟨result, shot, hcounts, hshot, hfirst⟩
            have hmem := histogram_eq_ok_iff.mp (h result hcounts) k shot hshot List.not_mem_nil
              hfirst
            rwa [Nat.zero_add] at hmem
          · rintro ⟨h, _⟩ result hcounts
            refine histogram_eq_ok_iff.mpr (fun j shot hshot _ hfirst => ?_)
            rw [Nat.zero_add]
            exact h j ⟨result, shot, hcounts, hshot, hfirst⟩
      | jobProgram job i =>
          exact hclosed (deviceQuery_contained (by simp) (by simp)) (fun _ => id) id id
      | jobProperty job prop =>
          exact hclosed (deviceQuery_contained (by simp) (by simp)) (fun _ => id) id id
      | deviceProperty session prop =>
          exact hclosed (deviceQuery_contained (by simp) (by simp)) (fun _ => id) id id
      | siteProperty session site prop =>
          exact hclosed (deviceQuery_contained (by simp) (by simp)) (fun _ => id) id id
      | operationProperty session operation args prop =>
          exact hclosed (deviceQuery_contained (by simp) (by simp)) (fun _ => id) id id
      | foreignOperation session args prop =>
          refine deviceSessionQueryForeignOperation_contained_iff.trans ?_
          exact ⟨fun hlooks => ⟨fun _ hk => absurd hk id, id, hlooks⟩, fun h => h.2.2⟩

end

end Qdmi
