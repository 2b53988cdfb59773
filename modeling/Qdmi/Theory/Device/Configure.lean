import Qdmi.Theory.Device.Lifecycle
import Qdmi.Theory.SizeProtocol

/-!
# Configuring a Job

What `set_programs` accepts, and what a job reports afterwards.

`WellFormed` states the rule on a program as the interface documents it, by
quantifying over its bytes; `validProgram_iff` compares the two checks of the
source with it. For the formats the device supports the two agree, and
`deviceJobSetPrograms_success_iff` lifts that to the whole call when there is
memory for the copies.

Reading back is stated at a distance. `runs_programs` says that the list and
its format survive any calls but another `set_programs` on the same job, so
the answers hold in every state reached from there, whatever happens to the
job and to the caller's buffers in between.

## Main definitions

* `textFormat`, `WellFormed`: What the interface asks of a program.
* `MemoryFor`: There is memory for a list of programs.
* `configured`: A job with its programs set.
* `KeepsPrograms`: A call does not set the programs of a job.

## Theorems

* `validProgram_iff`: The checks of the source are the rule.
* `deviceJobSetPrograms_succeeds`, `deviceJobSetPrograms_success_iff`: What `set_programs` accepts.
* `deviceJobSetPrograms_null`: Without programs it answers support only.
* `runs_programs`: Only `set_programs` changes the programs of a job.
* `deviceJobGetProgram_answers`, `deviceJobQueryProperty_programs`: What a job
  with programs reports.
* `deviceJobSetPrograms_contract`: Acceptance and round trip together.
-/

namespace Qdmi

variable {R : Type}

/-! ## Acceptance -/

/-- The formats whose programs are text. -/
def textFormat (format : Nat) : Prop :=
  format = ProgramFormat.qasm2.code ∨ format = ProgramFormat.qasm3.code ∨
    format = ProgramFormat.qirbasestring.code ∨ format = ProgramFormat.qiradaptivestring.code

/-- A program is there and not empty, and in a text format it contains exactly
    one `'\0'`, as its last byte. -/
def WellFormed (format size : Nat) (program : Option (Nat → UInt8)) : Prop :=
  ∃ bytes, program = some bytes ∧ 0 < size ∧
    (textFormat format → ∀ j < size, bytes j = 0 ↔ j + 1 = size)

theorem supportedFormat_iff (format : Nat) :
    supportedFormat format = true ↔ format ∈ supportedProgramFormats := by
  rw [supportedFormat, List.contains_iff_mem]

/-- Among the supported formats the text formats are the ones the source
    checks for. -/
theorem textFormat_iff {format : Nat} (h : format ∈ supportedProgramFormats) :
    textFormat format ↔
      format = ProgramFormat.qasm2.code ∨ format = ProgramFormat.qirbasestring.code := by
  simp only [supportedProgramFormats, List.mem_cons, List.not_mem_nil, or_false] at h
  rcases h with h | h | h
  all_goals
    rw [h]
    simp [textFormat, ProgramFormat.code]

/-- The look at the last byte and the search through the others find out
    whether the only `'\0'` is the last byte. -/
theorem oneNul_iff (bytes : Nat → UInt8) (size : Nat) (hsize : 0 < size) :
    (bytes (size - 1) == 0 && (List.range (size - 1)).all (fun i => bytes i != 0)) = true ↔
      ∀ j < size, bytes j = 0 ↔ j + 1 = size := by
  simp only [Bool.and_eq_true, beq_iff_eq, List.all_eq_true, List.mem_range, bne_iff_ne]
  constructor
  · rintro ⟨hlast, hrest⟩ j hj
    by_cases hend : j + 1 = size
    · have hj' : j = size - 1 := by omega
      rw [hj']
      exact ⟨fun _ => by omega, fun _ => hlast⟩
    · exact ⟨fun hz => absurd hz (hrest j (by omega)), fun hc => absurd hc hend⟩
  · intro h
    refine ⟨(h (size - 1) (by omega)).mpr (by omega), fun i hi hz => ?_⟩
    have := (h i (by omega)).mp hz
    omega

/-- For a supported format the checks of the source are the rule. -/
theorem validProgram_iff {format size : Nat} {program : Option (Nat → UInt8)}
    (hfmt : format ∈ supportedProgramFormats) :
    validProgram format size program = true ↔ WellFormed format size program := by
  rcases program with _ | bytes
  · simp only [validProgram, WellFormed, Bool.false_eq_true, reduceCtorEq, false_and,
      exists_false]
  by_cases hsize : size = 0
  · rw [hsize]
    simp only [validProgram, WellFormed, if_true, Bool.false_eq_true, Nat.lt_irrefl, false_and,
      and_false, exists_false]
  have hpos : 0 < size := Nat.pos_of_ne_zero hsize
  by_cases htext : format = ProgramFormat.qasm2.code ∨ format = ProgramFormat.qirbasestring.code
  · -- A text is checked for its terminator.
    have hbranch : ¬ (format ≠ ProgramFormat.qasm2.code ∧
        format ≠ ProgramFormat.qirbasestring.code) := by
      rintro ⟨h₁, h₂⟩
      rcases htext with h | h
      · exact h₁ h
      · exact h₂ h
    simp only [validProgram, if_neg hsize, if_neg hbranch]
    rw [oneNul_iff bytes size hpos]
    constructor
    · exact fun h => ⟨bytes, rfl, hpos, fun _ => h⟩
    · rintro ⟨bytes', hbytes, _, hnul⟩
      rw [Option.some.inj hbytes]
      exact hnul ((textFormat_iff hfmt).mpr htext)
  · -- A binary format is not read at all.
    have hbranch : format ≠ ProgramFormat.qasm2.code ∧
        format ≠ ProgramFormat.qirbasestring.code :=
      ⟨fun h => htext (Or.inl h), fun h => htext (Or.inr h)⟩
    simp only [validProgram, if_neg hsize, if_pos hbranch, true_iff]
    exact ⟨bytes, rfl, hpos, fun h => absurd ((textFormat_iff hfmt).mp h) htext⟩

/-- There is memory for a list of programs. -/
structure MemoryFor (env : Env R) (count : Nat) (sizes : Option (Nat → Nat)) : Prop where
  mem : ∀ k, env.mem k = true
  count_le : count ≤ vectorMaxSize 24
  sizes_le : ∀ szs, sizes = some szs → ∀ i < count, szs i ≤ vectorMaxSize 1

theorem validFormat_of_supported {format : Nat} (h : supportedFormat format = true) :
    validFormat format = true := by
  rw [supportedFormat_iff] at h
  simp only [supportedProgramFormats, List.mem_cons, List.not_mem_nil, or_false] at h
  rcases h with h | h | h
  all_goals
    rw [h]
    decide

/-- A job with its programs set from a caller's memory. -/
def configured (jb : DeviceJob R) (format count : Nat) (sizes : Nat → Nat)
    (programs : Nat → Option (Nat → UInt8)) : DeviceJob R :=
  { jb with format := format, programs := (List.range count).map (programBytes sizes programs) }

/-- What a successful call with programs did. -/
theorem deviceJobSetPrograms_success {s s' : DeviceState R} {env : Env R} {h : Nat}
    {format count : Nat} {sizes : Option (Nat → Nat)} {programs : Nat → Option (Nat → UInt8)}
    {out : Except Exn Reply}
    (hcall : deviceJobSetPrograms s env (some h) format count sizes (some programs) =
      .ok (out, s')) (hsucc : Succeeds out) :
    ∃ jb szs, s.jobs.get? h = some jb ∧ 0 < count ∧ format ∈ supportedProgramFormats ∧
      sizes = some szs ∧ (∀ i < count, WellFormed format (szs i) (programs i)) ∧
      s' = { s with jobs := s.jobs.set h (configured jb format count szs programs) } := by
  rcases deviceJobSetPrograms_cases hcall with
    ⟨_, hnone⟩ | ⟨i, jb, szs, progs, newPrograms, hi, hsizes, hprogs, hget, _, hcount, hfmt, hcopy,
      _, hs⟩
  · exact absurd (hnone hsucc) (by simp only [reduceCtorEq, not_false_eq_true])
  rw [Option.some.injEq] at hi hprogs
  subst hi hprogs
  rcases copyPrograms_eq_ok_iff.mp hcopy with ⟨⟨_, _, hall⟩, hnew⟩
  rw [supportedFormat_iff] at hfmt
  refine ⟨jb, szs, hget, Nat.pos_of_ne_zero hcount, hfmt, hsizes, fun i hi => ?_, ?_⟩
  · exact (validProgram_iff hfmt).mp (hall i hi).1
  · rw [hs, hnew, configured]

/-- With memory for the copies, well-formed programs are set. -/
theorem deviceJobSetPrograms_succeeds {s : DeviceState R} {h : Nat} {jb : DeviceJob R}
    (hget : s.jobs.get? h = some jb) (hst : jb.status = .created) {env : Env R}
    {format count : Nat} {szs : Nat → Nat} (hmem : MemoryFor env count (some szs))
    {programs : Nat → Option (Nat → UInt8)} (hcount : 0 < count)
    (hfmt : format ∈ supportedProgramFormats)
    (hall : ∀ i < count, WellFormed format (szs i) (programs i)) :
    deviceJobSetPrograms s env (some h) format count (some szs) (some programs) = answer .success
      { s with jobs := s.jobs.set h (configured jb format count szs programs) } := by
  have hsup := (supportedFormat_iff format).mpr hfmt
  have hargs : ¬ (count = 0 ∨ validFormat format = false) := by
    simp only [validFormat_of_supported hsup, Bool.true_eq_false, or_false]
    omega
  have hcopy : copyPrograms env format count szs programs =
      .ok ((List.range count).map (programBytes szs programs)) := by
    refine copyPrograms_eq_ok_iff.mpr ⟨⟨hmem.count_le, hmem.mem 0, fun i hi => ?_⟩, rfl⟩
    exact ⟨(validProgram_iff hfmt).mpr (hall i hi), hmem.sizes_le szs rfl i hi, hmem.mem _⟩
  simp only [deviceJobSetPrograms, if_neg hargs, hget, hst, hsup, hcopy, ne_eq,
    not_true_eq_false, if_false, Bool.true_eq_false, configured]

/-- With memory for the copies, a call on a job in `created` succeeds exactly
    when its arguments follow the rules of the interface. -/
theorem deviceJobSetPrograms_success_iff {s : DeviceState R} {h : Nat} {jb : DeviceJob R}
    (hget : s.jobs.get? h = some jb) (hst : jb.status = .created) {env : Env R}
    {format count : Nat} {sizes : Option (Nat → Nat)} (hmem : MemoryFor env count sizes)
    (programs : Nat → Option (Nat → UInt8)) :
    (∃ out s', deviceJobSetPrograms s env (some h) format count sizes (some programs) =
        .ok (out, s') ∧ Succeeds out) ↔
      0 < count ∧ format ∈ supportedProgramFormats ∧ ∃ szs, sizes = some szs ∧
        ∀ i < count, WellFormed format (szs i) (programs i) := by
  constructor
  · rintro ⟨out, s', hcall, hsucc⟩
    rcases deviceJobSetPrograms_success hcall hsucc with ⟨_, szs, _, hcount, hfmt, hszs, hall, _⟩
    exact ⟨hcount, hfmt, szs, hszs, hall⟩
  · rintro ⟨hcount, hfmt, szs, hszs, hall⟩
    subst hszs
    exact ⟨_, _, deviceJobSetPrograms_succeeds hget hst hmem hcount hfmt hall,
      succeeds_answer.mpr rfl⟩

/-- Without programs a call answers whether the format is supported. -/
theorem deviceJobSetPrograms_null {s : DeviceState R} {h : Nat} {jb : DeviceJob R}
    (hget : s.jobs.get? h = some jb) (hst : jb.status = .created) (env : Env R)
    (format count : Nat) (sizes : Option (Nat → Nat)) :
    deviceJobSetPrograms s env (some h) format count sizes none = answer
      (if count = 0 ∨ validFormat format = false then .errorInvalidargument
        else if format ∈ supportedProgramFormats then .success else .errorNotsupported) s := by
  simp only [deviceJobSetPrograms, hget, hst, ne_eq, not_true_eq_false, if_false]
  split
  · rfl
  · by_cases hfmt : format ∈ supportedProgramFormats
    · rw [if_pos hfmt, (supportedFormat_iff format).mpr hfmt]
      rfl
    · have hsup : supportedFormat format = false := by
        rw [← Bool.not_eq_true, supportedFormat_iff]
        exact hfmt
      rw [if_neg hfmt, if_pos hsup]

/-! ## Reading back -/

/-- A query on a live job that has programs answers from them. -/
theorem deviceJobGetProgram_answers {s : DeviceState R} {h : Nat} {jb : DeviceJob R}
    (hget : s.jobs.get? h = some jb) {i : Nat} {program : List UInt8}
    (hprogram : jb.programs[i]? = some program) :
    Answers (deviceJobGetProgram s (some h) i) program := by
  have hne : jb.programs ≠ [] := by
    intro hnil
    rw [hnil, List.getElem?_nil] at hprogram
    exact absurd hprogram (by simp only [reduceCtorEq, not_false_eq_true])
  have hbody : deviceJobGetProgram s (some h) i =
      fun out => respond out program.length (fun cur => cur.puts program) := by
    funext out
    simp only [deviceJobGetProgram, hget, if_neg hne, hprogram]
  rw [hbody]
  exact respond_puts_answers rfl (fun _ _ => rfl)

theorem deviceJobGetProgram_outofrange {s : DeviceState R} {h : Nat} {jb : DeviceJob R}
    (hget : s.jobs.get? h = some jb) (hne : jb.programs ≠ []) {i : Nat}
    (hi : jb.programs.length ≤ i) (out : OutArgs) :
    deviceJobGetProgram s (some h) i out = .ok (out.reject .errorOutofrange) := by
  simp only [deviceJobGetProgram, hget, if_neg hne, List.getElem?_eq_none hi]

/-- What a job with programs reports about them. -/
theorem deviceJobQueryProperty_programs {s : DeviceState R} {h : Nat} {jb : DeviceJob R}
    (hget : s.jobs.get? h = some jb) (hne : jb.programs ≠ [])
    (hfmt : jb.format ∈ supportedProgramFormats) :
    Answers (deviceJobQueryProperty s (some h) DeviceJobProperty.programsnum.code)
        (sizeTBytes jb.programs.length) ∧
      Answers (deviceJobQueryProperty s (some h) DeviceJobProperty.programformat.code)
        (enumBytes jb.format) := by
  have hmax : jb.format ≠ ProgramFormat.max.code := by
    intro hc
    rw [hc] at hfmt
    exact absurd hfmt (by decide)
  -- Each property is answered by its macro, behind the guard of the query.
  have hbody : ∀ prop bytes, (∀ out, deviceJobQueryProperty s (some h) prop out =
      if (out.degenerate || false) = true then .ok (out.reject .errorInvalidargument)
      else respond out bytes.length (fun cur => cur.puts bytes)) →
      Answers (deviceJobQueryProperty s (some h) prop) bytes := by
    intro prop bytes hq
    rw [funext hq]
    exact guarded_answers (respond_puts_answers rfl (fun _ _ => rfl)) rfl
  constructor
  · refine hbody _ _ (fun out => ?_)
    simp [deviceJobQueryProperty, hget, hne, addStringProperty, addSingleValueProperty,
      DeviceJobProperty.code, isInvalidEnumValue, DeviceJobProperty.max]
  · refine hbody _ _ (fun out => ?_)
    simp [deviceJobQueryProperty, hget, hmax, addStringProperty, addSingleValueProperty,
      DeviceJobProperty.code, isInvalidEnumValue, DeviceJobProperty.max]

/-! ## At a distance -/

/-- A call does not set the programs of a job. -/
def KeepsPrograms (h : Nat) (_ : DeviceState R) (c : Call R) : Prop :=
  ∀ format count sizes programs, c.op ≠ .jobSetPrograms (some h) format count sizes programs

theorem jobStep_programs {m : JobMove} {job job' : Option (DeviceJob R)}
    (hmove : JobStep m job job') (hm : m ≠ .setPrograms) (hc : m ≠ .create) {jb' : DeviceJob R}
    (hjb' : job' = some jb') :
    ∃ jb, job = some jb ∧ jb'.format = jb.format ∧ jb'.programs = jb.programs := by
  cases hmove with
  | stay => exact ⟨jb', hjb', rfl, rfl⟩
  | create session id => exact absurd rfl hc
  | free => exact absurd hjb' (by simp only [reduceCtorEq, not_false_eq_true])
  | setPrograms jb format programs h hprogs => exact absurd rfl hm
  | setShots jb _ _ | submit jb _ _ _ _ _ | cancel jb _ | finish jb _ | wait jb _ _ _ =>
      rw [Option.some.injEq] at hjb'
      rw [← hjb']
      exact ⟨jb, rfl, rfl, rfl⟩

section

variable [Zero R] [DecidableEq R] [Add R] [Mul R] [Div R] [DoubleRepr R]

/-- Only `set_programs` changes the programs of a job. -/
theorem runs_programs {img : Image} {s t : DeviceState R} {tr : List (DeviceEntry R)} {h : Nat}
    {jb : DeviceJob R} (hget : s.jobs.get? h = some jb) (hrun : Runs (deviceStep img) s tr t)
    (hkeeps : Respects (KeepsPrograms h) tr) {jb' : DeviceJob R}
    (hget' : t.jobs.get? h = some jb') : jb'.format = jb.format ∧ jb'.programs = jb.programs := by
  refine runs_invariant (P := fun _ t => ∀ jb', t.jobs.get? h = some jb' →
    jb'.format = jb.format ∧ jb'.programs = jb.programs) hrun hkeeps ?_ ?_ jb' hget'
  · intro jb₀ h₀
    rw [hget, Option.some.injEq] at h₀
    rw [h₀]
    exact ⟨rfl, rfl⟩
  · intro tr₀ u c out v hpre _ hinv hc hstep jb₁ h₁
    rcases deviceStep_job hstep h with ⟨m, hm⟩
    -- Of the moves of a job only two touch its programs, and neither is made here.
    have hset : m ≠ .setPrograms := by
      intro hms
      rcases hm.explains.setsPrograms hms with ⟨format, count, sizes, programs, hop⟩
      exact hc format count sizes programs hop
    have hcreate : m ≠ .create := by
      intro hmc
      have hlt := Nat.lt_of_lt_of_le (Heap.get?_lt_next hget) (runs_kept hpre).1
      have := (hm.fresh hmc).1
      omega
    rcases jobStep_programs hm.step hset hcreate h₁ with ⟨jb₀, h₀, hf, hp⟩
    rw [hf, hp]
    exact hinv jb₀ h₀

/-- What `set_programs` accepts from a job in `created`, and what the job
    reports from then on, in every state reached without setting its programs
    again. Without programs the call answers support only. -/
theorem deviceJobSetPrograms_contract (img : Image) (s : DeviceState R) (env : Env R) (h : Nat)
    (jb : DeviceJob R) (hget : s.jobs.get? h = some jb) (hst : jb.status = .created)
    (format count : Nat) (sizes : Option (Nat → Nat)) :
    (∀ programs, MemoryFor env count sizes →
      ((∃ out s', deviceJobSetPrograms s env (some h) format count sizes (some programs) =
          .ok (out, s') ∧ Succeeds out) ↔
        0 < count ∧ format ∈ supportedProgramFormats ∧ ∃ szs, sizes = some szs ∧
          ∀ i < count, WellFormed format (szs i) (programs i))) ∧
    (∀ programs out s', deviceJobSetPrograms s env (some h) format count sizes (some programs) =
        .ok (out, s') → Succeeds out → ∃ szs, sizes = some szs ∧
      ∀ tr t, Runs (deviceStep img) s' tr t → Respects (KeepsPrograms h) tr →
        t.jobs.get? h ≠ none →
        Answers (deviceJobQueryProperty t (some h) DeviceJobProperty.programsnum.code)
          (sizeTBytes count) ∧
        Answers (deviceJobQueryProperty t (some h) DeviceJobProperty.programformat.code)
          (enumBytes format) ∧
        (∀ i < count, ∃ bytes, programs i = some bytes ∧
          Answers (deviceJobGetProgram t (some h) i) (readBytes bytes (szs i))) ∧
        ∀ i, count ≤ i → ∀ args,
          deviceJobGetProgram t (some h) i args = .ok (args.reject .errorOutofrange)) ∧
    deviceJobSetPrograms s env (some h) format count sizes none = answer
      (if count = 0 ∨ validFormat format = false then .errorInvalidargument
        else if format ∈ supportedProgramFormats then .success else .errorNotsupported) s := by
  refine ⟨fun programs hmem => deviceJobSetPrograms_success_iff hget hst hmem programs, ?_,
    deviceJobSetPrograms_null hget hst env format count sizes⟩
  intro programs out s' hcall hsucc
  rcases deviceJobSetPrograms_success hcall hsucc with
    ⟨jb₀, szs, hget₀, hcount, hfmt, hszs, hall, hs'⟩
  refine ⟨szs, hszs, fun tr t hrun hkeeps hlive => ?_⟩
  -- Right behind the call the job is the configured one, and it keeps its programs.
  have hset : s'.jobs.get? h = some (configured jb₀ format count szs programs) := by
    rw [hs', Heap.get?_set _ _ _ _ hget₀, if_pos rfl]
  rcases hjb' : t.jobs.get? h with _ | jb'
  · exact absurd hjb' hlive
  rcases runs_programs hset hrun hkeeps hjb' with ⟨hformat, hprogs⟩
  have hlen : jb'.programs.length = count := by
    rw [hprogs, configured, List.length_map, List.length_range]
  have hne : jb'.programs ≠ [] := by
    intro hnil
    rw [hnil, List.length_nil] at hlen
    omega
  have hformat' : jb'.format = format := hformat
  rcases deviceJobQueryProperty_programs hjb' hne (hformat'.symm ▸ hfmt) with ⟨hnum, hfor⟩
  rw [hlen] at hnum
  rw [hformat'] at hfor
  refine ⟨hnum, hfor, fun i hi => ?_, fun i hi args => ?_⟩
  · rcases hall i hi with ⟨bytes, hbytes, _⟩
    refine ⟨bytes, hbytes, deviceJobGetProgram_answers hjb' ?_⟩
    rw [hprogs, configured, List.getElem?_map, List.getElem?_range hi, Option.map_some,
      programBytes, hbytes, Option.getD_some]
  · exact deviceJobGetProgram_outofrange hjb' hne (hlen ▸ hi) args

end

/-- The programs `"x"` and `"yz"` with their terminators. -/
def samplePrograms (i : Nat) : Option (Nat → UInt8) :=
  if i = 0 then some (fun j => if j = 0 then 120 else 0)
  else some (fun j => if j = 0 then 121 else if j = 1 then 122 else 0)

theorem samplePrograms_memory : MemoryFor sampleEnv 2 (some (fun i => i + 2)) := by
  refine ⟨fun _ => rfl, by decide, fun szs hszs i hi => ?_⟩
  rw [← Option.some.inj hszs]
  have hmax : vectorMaxSize 1 = 2 ^ 63 - 1 := rfl
  rw [hmax]
  dsimp only
  omega

theorem samplePrograms_wellFormed :
    ∀ i < 2, WellFormed ProgramFormat.qasm2.code (i + 2) (samplePrograms i) := by
  intro i hi
  obtain rfl | rfl : i = 0 ∨ i = 1 := by omega
  · exact ⟨_, rfl, by decide, fun _ => by decide⟩
  · exact ⟨_, rfl, by decide, fun _ => by decide⟩

/-- Two text programs replace the one of the sample job and are read back. -/
theorem deviceJobSetPrograms_contract_sample :
    ∃ tr s out s', DeviceRuns (R := ℚ) sampleImage tr s ∧
      deviceJobSetPrograms s sampleEnv (some 0) ProgramFormat.qasm2.code 2
        (some (fun i => i + 2)) (some samplePrograms) = .ok (out, s') ∧ Succeeds out ∧
      Answers (deviceJobGetProgram s' (some 0) 1) [121, 122, 0] := by
  rcases deviceRuns_sample sampleSetup (.created, 1, 0) rfl with ⟨tr, s, jb, hrun, _, hget, hjb⟩
  have hst : jb.status = .created := congrArg Prod.fst hjb
  rcases deviceJobSetPrograms_contract sampleImage s sampleEnv 0 jb hget hst
    ProgramFormat.qasm2.code 2 (some (fun i => i + 2)) with ⟨haccept, hread, _⟩
  rcases (haccept samplePrograms samplePrograms_memory).mpr
    ⟨by decide, by decide, _, rfl, samplePrograms_wellFormed⟩ with
    ⟨out, s', hcall, hsucc⟩
  rcases hread samplePrograms out s' hcall hsucc with ⟨szs, hszs, hstate⟩
  rcases deviceJobSetPrograms_success hcall hsucc with ⟨jb₀, _, hget₀, _, _, _, _, hs'⟩
  have hlive : s'.jobs.get? 0 ≠ none := by
    rw [hs', Heap.get?_set _ _ _ _ hget₀, if_pos rfl]
    exact Option.some_ne_none _
  rcases hstate [] s' Runs.refl (fun _ he => absurd he List.not_mem_nil) hlive with
    ⟨_, _, hprogram, _⟩
  rcases hprogram 1 (by decide) with ⟨bytes, hbytes, hanswers⟩
  rw [← Option.some.inj hszs, ← Option.some.inj hbytes] at hanswers
  exact ⟨tr, s, out, s', hrun, hcall, hsucc, hanswers⟩

end Qdmi
