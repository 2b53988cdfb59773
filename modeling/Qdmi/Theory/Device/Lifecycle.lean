import Qdmi.Theory.Device.Inversion

/-!
# The Life Cycle of a Job

The job behind one handle as an automaton, and what every run of the device
therefore does to it.

`JobStep` is an abstract machine with at most one job and nine ways to move,
each with the guard the source puts on it. `deviceStep_job` is the simulation:
whatever is called on whichever handle, every job makes one of these moves, a
`submit` exactly when its own submission succeeded and a `wait` only when it
was waited for. Everything below is read off the automaton.

A job that has left `created` keeps its configuration and its results, and a
job that is done or canceled keeps its status too. Both relations are
transitive, so `runs_relation` carries them from one move to a whole run.

The converse direction, that a job which is done was submitted, does not hold
of every run. Waiting moves any job that is not yet terminal to `done`, and a
job in `created` has no results. `JobSound` is the invariant that survives
when no such wait happens, and `done_without_results` is the run that breaks
it.

## Main definitions

* `JobMove`, `JobStep`: The automaton.
* `Explains`, `JobMoves`: Which move a call makes.
* `Submitted`: A history contains a successful submission of a job.
* `WaitsAfterSubmit`: A call does not wait for a job in `created`.
* `JobSound`: A job that runs or is done was submitted and has its results.
* `JobKept`: What a job that has left `created` keeps.

## Theorems

* `deviceStep_job`: Every call moves every job along the automaton.
* `jobStep_sound`, `jobStep_kept`: What one move preserves.
* `deviceRuns_sound`, `deviceRuns_kept`: What a run preserves.
* `encodeResult_avoids`: An encoder never reads past a list of results.
* `deviceRuns_done_submitted`: In a run without an early wait, a job that is
  done was submitted and reading its results stays inside them.
* `deviceRuns_frozen`: The payload and the final status of a job are final.
-/

namespace Qdmi

variable {R : Type}

/-! ## The automaton -/

/-- The ways a job can move. -/
inductive JobMove where
  | stay
  | create
  | free
  | setShots
  | setPrograms
  | submit
  | cancel
  | finish
  | wait
  deriving DecidableEq, Repr

/-- What submission makes of a result: every shot is the same bitstring, and
    there is an amplitude for each basis state of some number of qubits. -/
structure ResultSound (result : ResultData R) : Prop where
  shots : ∃ n shot, result.shots = List.replicate n shot
  stateVec : ∃ n, n < 32 ∧ result.stateVec.length = 2 ^ n

/-- The life cycle of one job. -/
inductive JobStep : JobMove → Option (DeviceJob R) → Option (DeviceJob R) → Prop where
  | stay (job : Option (DeviceJob R)) : JobStep .stay job job
  | create (session id : Nat) :
      JobStep .create none (some { session, id, status := .created })
  | free (job : Option (DeviceJob R)) : JobStep .free job none
  | setShots (jb : DeviceJob R) (numShots : Nat) (h : jb.status = .created) :
      JobStep .setShots (some jb) (some { jb with numShots })
  | setPrograms (jb : DeviceJob R) (format : Nat) (programs : List (List UInt8))
      (h : jb.status = .created) (hprogs : ∀ program ∈ programs, program ≠ []) :
      JobStep .setPrograms (some jb) (some { jb with format, programs })
  | submit (jb : DeviceJob R) (results : List (ResultData R)) (h : jb.status = .created)
      (hne : jb.programs ≠ []) (hlen : results.length = jb.programs.length)
      (hres : ∀ result ∈ results, ResultSound result) :
      JobStep .submit (some jb) (some { jb with results, status := .running })
  | cancel (jb : DeviceJob R) (h : jb.status ≠ .done) :
      JobStep .cancel (some jb) (some { jb with status := .canceled })
  | finish (jb : DeviceJob R) (h : jb.status = .running) :
      JobStep .finish (some jb) (some { jb with status := .done })
  | wait (jb : DeviceJob R) (hdone : jb.status ≠ .done) (hcanceled : jb.status ≠ .canceled)
      (hfailed : jb.status ≠ .failed) :
      JobStep .wait (some jb) (some { jb with status := .done })

/-- Which move a call makes on the job behind a handle: it submits the job if
    and only if it is a successful submission of it, waits for it only if it is
    a wait on it, and sets its programs only if it is asked to. -/
structure Explains (op : Op) (out : Except Exn Reply) (h : Nat) (m : JobMove) : Prop where
  submits : m = .submit ↔ op = .jobSubmit (some h) ∧ Succeeds out
  waits : m = .wait → op = .jobWait (some h)
  setsPrograms : m = .setPrograms → ∃ format count sizes programs,
    op = .jobSetPrograms (some h) format count sizes programs

/-- A call that is no submission and moves a job in none of these ways. -/
theorem explains_of_ne {op : Op} {out : Except Exn Reply} {h : Nat} {m : JobMove}
    (hop : op ≠ .jobSubmit (some h)) (hm : m ≠ .submit ∧ m ≠ .wait ∧ m ≠ .setPrograms) :
    Explains op out h m :=
  ⟨⟨fun hc => absurd hc hm.1, fun hc => absurd hc.1 hop⟩, fun hc => absurd hc hm.2.1,
    fun hc => absurd hc hm.2.2⟩

/-- What one call does to the job behind a handle. A handle given out anew has
    never been given out before, and its job belongs to an initialized session. -/
structure JobMoves (op : Op) (out : Except Exn Reply) (s s' : DeviceState R) (h : Nat)
    (m : JobMove) : Prop where
  step : JobStep m (s.jobs.get? h) (s'.jobs.get? h)
  explains : Explains op out h m
  fresh : m = .create → h = s.jobs.next ∧ s'.sessions = s.sessions ∧
    ∃ jb sess, s'.jobs.get? h = some jb ∧ s.sessions.get? jb.session = some sess ∧
      sess.status = .initialized
  next_le : s.jobs.next ≤ s'.jobs.next

/-- A call that leaves the jobs alone moves none. -/
theorem jobMoves_of_jobs_eq {op : Op} {out : Except Exn Reply} {s s' : DeviceState R}
    (hjobs : s'.jobs = s.jobs) (hop : ∀ h, op = .jobSubmit (some h) → ¬ Succeeds out) (h : Nat) :
    ∃ m, JobMoves op out s s' h m := by
  refine ⟨.stay, ⟨?_, ⟨⟨?_, fun hc => absurd hc.2 (hop h hc.1)⟩, ?_, ?_⟩, ?_, ?_⟩⟩
  · rw [hjobs]
    exact JobStep.stay _
  · exact fun hm => absurd hm (by decide)
  · exact fun hm => absurd hm (by decide)
  · exact fun hm => absurd hm (by decide)
  · exact fun hm => absurd hm (by decide)
  · rw [hjobs]

/-- A call that updates one job moves that job only. -/
theorem jobMoves_of_jobs_set {op : Op} {out : Except Exn Reply} {s s' : DeviceState R} {i : Nat}
    {jb jb' : DeviceJob R} {m : JobMove} (hget : s.jobs.get? i = some jb)
    (hjobs : s'.jobs = s.jobs.set i jb') (hmove : JobStep m (some jb) (some jb'))
    (hexp : Explains op out i m) (hother : ∀ h, h ≠ i → op ≠ .jobSubmit (some h)) (h : Nat) :
    ∃ m, JobMoves op out s s' h m := by
  have hnext : s.jobs.next ≤ s'.jobs.next := by rw [hjobs, Heap.next_set]
  have hcell : s'.jobs.get? h = if h = i then some jb' else s.jobs.get? h := by
    rw [hjobs, Heap.get?_set s.jobs i jb' jb hget h]
  by_cases hi : h = i
  · rw [if_pos hi] at hcell
    refine ⟨m, ⟨?_, hi ▸ hexp, fun hm => ?_, hnext⟩⟩
    · rw [hcell, hi, hget]
      exact hmove
    · -- A live job is not created a second time.
      rw [hm] at hmove
      cases hmove
  · rw [if_neg hi] at hcell
    refine ⟨.stay, ⟨?_, explains_of_ne (hother h hi) (by decide), ?_, hnext⟩⟩
    · rw [hcell]
      exact JobStep.stay _
    · exact fun hm => absurd hm (by decide)

section

variable [Zero R] [DecidableEq R] [Add R] [Mul R] [Div R] [DoubleRepr R]

/-- Every call moves every job along its life cycle. -/
theorem deviceStep_job {img : Image} {s s' : DeviceState R} {c : Call R} {out : Except Exn Reply}
    (hstep : deviceStep img s c = .ok (out, s')) (h : Nat) :
    ∃ m, JobMoves c.op out s s' h m := by
  rcases c with ⟨op, env⟩
  -- A call that changes the generator only, and is no submission.
  have hsame : SameButGen s s' → (∀ j, op ≠ .jobSubmit j) →
      ∃ m, JobMoves op out s s' h m := by
    intro hs hop
    exact jobMoves_of_jobs_eq (sameButGen_jobs hs) (fun j hj => absurd hj (hop _)) h
  cases op with
  | deviceInitialize =>
      exact jobMoves_of_jobs_eq (by rw [(answer_eq_ok.mp hstep).2]) (by simp) h
  | deviceFinalize =>
      exact jobMoves_of_jobs_eq (by rw [(answer_eq_ok.mp hstep).2]) (by simp) h
  | sessionAlloc session =>
      rcases deviceSessionAlloc_cases hstep with hs | ⟨_, hs⟩
      · exact hsame hs (by simp)
      · exact jobMoves_of_jobs_eq (by rw [hs]) (by simp) h
  | sessionInit session =>
      rcases deviceSessionInit_cases hstep with ⟨hs, _⟩ | ⟨_, _, _, _, _, _, hs⟩
      · exact hsame hs (by simp)
      · exact jobMoves_of_jobs_eq (by rw [hs]) (by simp) h
  | sessionFree session =>
      rcases deviceSessionFree_cases hstep with ⟨_, hs | ⟨_, _, _, _, hs⟩⟩
      · exact jobMoves_of_jobs_eq (by rw [hs]) (by simp) h
      · exact jobMoves_of_jobs_eq (by rw [hs]) (by simp) h
  | sessionSetParameter session param size value =>
      rcases deviceSessionSetParameter_cases hstep with hs | ⟨_, _, _, _, _, _, _, hs⟩
      · exact hsame hs (by simp)
      · exact jobMoves_of_jobs_eq (by rw [hs]) (by simp) h
  | createDeviceJob session job =>
      rcases deviceSessionCreateDeviceJob_cases hstep with
        ⟨hs, _⟩ | ⟨i, sess, _, hsess, hst, _, _, hs⟩
      · exact hsame hs (by simp)
      · have hle : s.jobs.next ≤ s'.jobs.next := by
          rw [hs, Heap.next_alloc]
          exact Nat.le_succ _
        have hcell := Heap.get?_alloc s.jobs
          { session := i, id := env.jobId.val, status := .created } h
        by_cases hnext : h = s.jobs.next
        · rw [if_pos hnext] at hcell
          refine ⟨.create, ⟨?_, explains_of_ne (by simp) (by decide),
            fun _ => ⟨hnext, by rw [hs], ?_⟩, hle⟩⟩
          · rw [hs, hcell, hnext, Heap.get?_next]
            exact JobStep.create i _
          · rw [hs]
            exact ⟨_, sess, hcell, hsess, hst⟩
        · rw [if_neg hnext] at hcell
          refine ⟨.stay, ⟨?_, explains_of_ne (by simp) (by decide),
            fun hm => absurd hm (by decide), hle⟩⟩
          rw [hs, hcell]
          exact JobStep.stay _
  | retrieveDeviceJobById =>
      exact jobMoves_of_jobs_eq (by rw [(answer_eq_ok.mp hstep).2]) (by simp) h
  | jobFree job =>
      rcases deviceJobFree_cases hstep with ⟨_, hs | ⟨i, jb, _, hget, hs⟩⟩
      · exact jobMoves_of_jobs_eq (by rw [hs]) (by simp) h
      · have hle : s.jobs.next ≤ s'.jobs.next := by rw [hs, Heap.next_free]
        have hcell := Heap.get?_free s.jobs i h
        by_cases hi : h = i
        · rw [if_pos hi] at hcell
          refine ⟨.free, ⟨?_, explains_of_ne (by simp) (by decide),
            fun hm => absurd hm (by decide), hle⟩⟩
          rw [hs, hcell]
          exact JobStep.free _
        · rw [if_neg hi] at hcell
          refine ⟨.stay, ⟨?_, explains_of_ne (by simp) (by decide),
            fun hm => absurd hm (by decide), hle⟩⟩
          rw [hs, hcell]
          exact JobStep.stay _
  | jobSetParameter job param size value =>
      rcases deviceJobSetParameter_cases hstep with hs | ⟨i, jb, n, _, hget, hst, _, hs⟩
      · exact hsame hs (by simp)
      · exact jobMoves_of_jobs_set hget (by rw [hs]) (JobStep.setShots jb n hst)
          (explains_of_ne (by simp) (by decide)) (by simp) h
  | jobSetPrograms job format count sizes programs =>
      rcases deviceJobSetPrograms_cases hstep with
        ⟨hs, _⟩ | ⟨i, jb, szs, progs, newPrograms, hjob, _, _, hget, hst, _, _, hcopy, _, hs⟩
      · exact hsame hs (by simp)
      · have hprogs := copyPrograms_ne_nil hcopy
        refine jobMoves_of_jobs_set hget (by rw [hs])
          (JobStep.setPrograms jb format newPrograms hst hprogs)
          ⟨⟨fun hm => absurd hm (by decide), fun hc => absurd hc.1 (by simp)⟩,
            fun hm => absurd hm (by decide), fun _ => ?_⟩ (by simp) h
        rw [hjob]
        exact ⟨format, count, sizes, programs, rfl⟩
  | jobGetProgramStatus job i =>
      exact jobMoves_of_jobs_eq (by rw [deviceJobGetProgramStatus_same hstep]) (by simp) h
  | jobSubmit job =>
      rcases deviceJobSubmit_cases hstep with
        ⟨hs, hfail⟩ | ⟨i, jb, n, results, hjob, hget, hst, hne, _, hlt, hres, hsucc, hs⟩
      · exact jobMoves_of_jobs_eq (sameButGen_jobs hs) (fun _ _ => hfail) h
      · rcases submitResults_ok hres with ⟨hlen, hall⟩
        have hsound : ∀ result ∈ results, ResultSound result := by
          intro result hr
          rcases hall result hr with ⟨shot, draws, rfl⟩
          exact ⟨⟨jb.numShots, shot, rfl⟩, ⟨n, hlt, length_randomStateVec draws (2 ^ n)⟩⟩
        refine jobMoves_of_jobs_set hget (by rw [hs])
          (JobStep.submit jb results hst hne hlen hsound)
          ⟨⟨fun _ => ⟨by rw [hjob], hsucc⟩, fun _ => rfl⟩, fun hm => absurd hm (by decide),
            fun hm => absurd hm (by decide)⟩ ?_ h
        intro j hj hop
        rw [hjob, Op.jobSubmit.injEq, Option.some.injEq] at hop
        exact hj hop.symm
  | jobCancel job =>
      rcases deviceJobCancel_cases hstep with hs | ⟨i, jb, _, hget, hst, _, hs⟩
      · exact hsame hs (by simp)
      · exact jobMoves_of_jobs_set hget (by rw [hs]) (JobStep.cancel jb hst)
          (explains_of_ne (by simp) (by decide)) (by simp) h
  | jobCheck job status =>
      rcases deviceJobCheck_cases hstep with hs | ⟨i, jb, _, hget, hst, _, _, hs⟩
      · exact hsame hs (by simp)
      · exact jobMoves_of_jobs_set hget (by rw [hs]) (JobStep.finish jb hst)
          (explains_of_ne (by simp) (by decide)) (by simp) h
  | jobWait job =>
      rcases deviceJobWait_cases hstep with hs | ⟨i, jb, hjob, hget, hdone, hcan, hfail, _, hs⟩
      · exact hsame hs (by simp)
      · refine jobMoves_of_jobs_set hget (by rw [hs]) (JobStep.wait jb hdone hcan hfail)
          ⟨⟨fun hm => absurd hm (by decide), fun hc => absurd hc.1 (by simp)⟩, fun _ => ?_,
            fun hm => absurd hm (by decide)⟩ (by simp) h
        rw [hjob]
  | query q out' => exact jobMoves_of_jobs_eq (by rw [(deviceStep_query hstep).2]) (by simp) h

end

/-! ## What a move preserves -/

/-- A job that runs or is done satisfies `submitted` and has one result per
    program; the other reachable statuses are `created` and `canceled`. -/
def JobSound (submitted : Prop) (job : Option (DeviceJob R)) : Prop :=
  ∀ jb, job = some jb → jb.status = .created ∨ jb.status = .canceled ∨
    ((jb.status = .running ∨ jb.status = .done) ∧ submitted ∧
      jb.results.length = jb.programs.length)

/-- One move keeps a job sound, unless it waits for a job in `created`. -/
theorem jobStep_sound {m : JobMove} {job job' : Option (DeviceJob R)} {P P' : Prop}
    (hmove : JobStep m job job')
    (hwait : m = .wait → ∀ jb, job = some jb → jb.status ≠ .created) (hP : P → P')
    (hsubmit : m = .submit → P') (hsound : JobSound P job) : JobSound P' job' := by
  intro jb' hjb'
  cases hmove with
  | stay =>
      rcases hsound jb' hjb' with h | h | ⟨h, hp, hlen⟩
      · exact Or.inl h
      · exact Or.inr (Or.inl h)
      · exact Or.inr (Or.inr ⟨h, hP hp, hlen⟩)
  | create session id =>
      rw [← Option.some.inj hjb']
      exact Or.inl rfl
  | free => exact absurd hjb' (by simp only [reduceCtorEq, not_false_eq_true])
  | setShots jb n h =>
      rw [← Option.some.inj hjb']
      exact Or.inl h
  | setPrograms jb format programs h hprogs =>
      rw [← Option.some.inj hjb']
      exact Or.inl h
  | submit jb results h hne hlen hres =>
      rw [← Option.some.inj hjb']
      exact Or.inr (Or.inr ⟨Or.inl rfl, hsubmit rfl, hlen⟩)
  | cancel jb h =>
      rw [← Option.some.inj hjb']
      exact Or.inr (Or.inl rfl)
  | finish jb h =>
      rw [← Option.some.inj hjb']
      -- Only a running job finishes, and a job runs once it has been submitted.
      rcases hsound jb rfl with hst | hst | ⟨_, hp, hlen⟩
      · exact absurd (h.symm.trans hst) (by decide)
      · exact absurd (h.symm.trans hst) (by decide)
      · exact Or.inr (Or.inr ⟨Or.inr rfl, hP hp, hlen⟩)
  | wait jb hdone hcanceled hfailed =>
      rw [← Option.some.inj hjb']
      rcases hsound jb rfl with hst | hst | ⟨_, hp, hlen⟩
      · exact absurd hst (hwait rfl jb rfl)
      · exact absurd hst hcanceled
      · exact Or.inr (Or.inr ⟨Or.inr rfl, hP hp, hlen⟩)

/-- What a job that has left `created` keeps from then on: everything but its
    status, and that as well once it is done or canceled. -/
def JobKept (job job' : Option (DeviceJob R)) : Prop :=
  ∀ jb jb', job = some jb → job' = some jb' → jb.status ≠ .created →
    jb' = { jb with status := jb'.status } ∧ jb'.status ≠ .created ∧
      (jb.status = .done ∨ jb.status = .canceled → jb'.status = jb.status)

theorem jobStep_kept {m : JobMove} {job job' : Option (DeviceJob R)} (hmove : JobStep m job job') :
    JobKept job job' := by
  intro jb jb' hjb hjb' hst
  cases hmove with
  | stay =>
      rw [hjb, Option.some.injEq] at hjb'
      rw [← hjb']
      exact ⟨rfl, hst, fun _ => rfl⟩
  | create session id => exact absurd hjb (by simp only [reduceCtorEq, not_false_eq_true])
  | free => exact absurd hjb' (by simp only [reduceCtorEq, not_false_eq_true])
  | setShots jb₀ n h => exact absurd (Option.some.inj hjb ▸ h) hst
  | setPrograms jb₀ format programs h hprogs => exact absurd (Option.some.inj hjb ▸ h) hst
  | submit jb₀ results h hne hlen hres => exact absurd (Option.some.inj hjb ▸ h) hst
  | cancel jb₀ h =>
      rw [← Option.some.inj hjb', ← Option.some.inj hjb]
      refine ⟨rfl, by simp only [ne_eq, reduceCtorEq, not_false_eq_true], ?_⟩
      -- A done job is not canceled.
      rintro (hfin | hfin)
      · exact absurd hfin h
      · exact hfin.symm
  | finish jb₀ h =>
      rw [← Option.some.inj hjb', ← Option.some.inj hjb]
      refine ⟨rfl, by simp only [ne_eq, reduceCtorEq, not_false_eq_true], ?_⟩
      rintro (hfin | hfin)
      · exact hfin.symm
      · exact absurd (h.symm.trans hfin) (by decide)
  | wait jb₀ hdone hcanceled hfailed =>
      rw [← Option.some.inj hjb', ← Option.some.inj hjb]
      refine ⟨rfl, by simp only [ne_eq, reduceCtorEq, not_false_eq_true], ?_⟩
      rintro (hfin | hfin)
      · exact absurd hfin hdone
      · exact absurd hfin hcanceled

/-- Only a job in `created` is submitted, and it runs afterwards. -/
theorem jobStep_submit {job job' : Option (DeviceJob R)} (hmove : JobStep .submit job job') :
    ∃ jb jb', job = some jb ∧ jb.status = .created ∧ job' = some jb' ∧ jb'.status = .running := by
  cases hmove with
  | submit jb results h hne hlen hres => exact ⟨jb, _, rfl, h, rfl, rfl⟩

/-! ## What a run preserves -/

/-- What every handle keeps between two states. A handle that was given out
    and is dead stays dead, so a job behind it is always the same one. -/
def JobsKept (s t : DeviceState R) : Prop :=
  s.jobs.next ≤ t.jobs.next ∧ ∀ h, h < s.jobs.next →
    (s.jobs.get? h = none → t.jobs.get? h = none) ∧ JobKept (s.jobs.get? h) (t.jobs.get? h)

theorem jobsKept_refl (s : DeviceState R) : JobsKept s s := by
  refine ⟨Nat.le_refl _, fun h _ => ⟨fun hn => hn, ?_⟩⟩
  exact jobStep_kept (JobStep.stay _)

theorem jobsKept_trans (s t u : DeviceState R) (hst : JobsKept s t) (htu : JobsKept t u) :
    JobsKept s u := by
  refine ⟨Nat.le_trans hst.1 htu.1, fun h hlt => ?_⟩
  rcases hst.2 h hlt with ⟨hdead₁, hkept₁⟩
  rcases htu.2 h (Nat.lt_of_lt_of_le hlt hst.1) with ⟨hdead₂, hkept₂⟩
  refine ⟨fun hn => hdead₂ (hdead₁ hn), fun jb jb'' hjb hjb'' hne => ?_⟩
  rcases hmid : t.jobs.get? h with _ | jb'
  · exact absurd ((hdead₂ hmid).symm.trans hjb'') (by simp only [reduceCtorEq, not_false_eq_true])
  · rcases hkept₁ jb jb' hjb hmid hne with ⟨heq₁, hne₁, hfin₁⟩
    rcases hkept₂ jb' jb'' hmid hjb'' hne₁ with ⟨heq₂, hne₂, hfin₂⟩
    refine ⟨?_, hne₂, fun hfin => ?_⟩
    · rw [heq₂, heq₁]
    · have hst₁ := hfin₁ hfin
      rw [hfin₂ (hst₁ ▸ hfin), hst₁]

/-- A history contains a successful submission of a job. -/
def Submitted (h : Nat) (tr : List (DeviceEntry R)) : Prop :=
  ∃ e ∈ tr, e.label.op = .jobSubmit (some h) ∧ Succeeds e.out

/-- A call does not wait for a job in `created`. -/
def WaitsAfterSubmit (s : DeviceState R) (c : Call R) : Prop :=
  ∀ h jb, c.op = .jobWait (some h) → s.jobs.get? h = some jb → jb.status ≠ .created

section

variable [Zero R] [DecidableEq R] [Add R] [Mul R] [Div R] [DoubleRepr R]

theorem deviceStep_kept {img : Image} {s s' : DeviceState R} {c : Call R} {out : Except Exn Reply}
    (hstep : deviceStep img s c = .ok (out, s')) : JobsKept s s' := by
  rcases deviceStep_job hstep 0 with ⟨_, hm⟩
  refine ⟨hm.next_le, fun h hlt => ?_⟩
  rcases deviceStep_job hstep h with ⟨m, hm⟩
  refine ⟨fun hn => ?_, jobStep_kept hm.step⟩
  have hmove := hm.step
  have hfresh := hm.fresh
  rw [hn] at hmove
  generalize s'.jobs.get? h = job' at hmove
  cases hmove with
  | stay => rfl
  | create session id =>
      -- A handle that has been given out is not given out again.
      have := (hfresh rfl).1
      omega
  | free => rfl

theorem runs_kept {img : Image} {s t : DeviceState R} {tr : List (DeviceEntry R)}
    (hrun : Runs (deviceStep img) s tr t) : JobsKept s t :=
  runs_relation jobsKept_refl jobsKept_trans (fun _ _ _ _ hstep => deviceStep_kept hstep) hrun

/-- The job behind a handle before and after a successful submission of it. -/
theorem deviceStep_submit {img : Image} {s s' : DeviceState R} {c : Call R} {out : Except Exn Reply}
    {h : Nat} (hstep : deviceStep img s c = .ok (out, s')) (hop : c.op = .jobSubmit (some h))
    (hsucc : Succeeds out) : ∃ jb jb', s.jobs.get? h = some jb ∧ jb.status = .created ∧
      s'.jobs.get? h = some jb' ∧ jb'.status = .running := by
  rcases deviceStep_job hstep h with ⟨m, hm⟩
  have hmove := hm.step
  rw [hm.explains.submits.mpr ⟨hop, hsucc⟩] at hmove
  exact jobStep_submit hmove

/-- A job that was submitted has left `created` for good. -/
theorem submitted_ne_created {img : Image} {s t : DeviceState R} {tr : List (DeviceEntry R)}
    (hrun : Runs (deviceStep img) s tr t) {h : Nat} (hsub : Submitted h tr) {jb : DeviceJob R}
    (hget : t.jobs.get? h = some jb) : jb.status ≠ .created := by
  rcases hsub with ⟨e, he, hop, hsucc⟩
  rcases runs_mem hrun he with ⟨_, _, _, _, hstep, hrest⟩
  rcases deviceStep_submit hstep hop hsucc with ⟨_, jb', _, _, hpost, hst⟩
  have hkept := ((runs_kept hrest).2 h (Heap.get?_lt_next hpost)).2
  refine (hkept jb' jb hpost hget ?_).2.1
  rw [hst]
  decide

/-- The invariant of a run without an early wait. -/
theorem deviceRuns_sound {img : Image} {s : DeviceState R} {tr : List (DeviceEntry R)}
    (hrun : DeviceRuns img tr s) (hwait : Respects WaitsAfterSubmit tr) (h : Nat) :
    JobSound (Submitted h tr) (s.jobs.get? h) := by
  refine runs_invariant (P := fun tr s => JobSound (Submitted h tr) (s.jobs.get? h)) hrun hwait
    ?_ ?_
  · intro jb hjb
    exact absurd hjb (by simp only [Heap.get?_empty, reduceCtorEq, not_false_eq_true])
  · -- A call that waits is made on a job that left `created`.
    intro tr t c out u _ _ hinv hc hstep
    rcases deviceStep_job hstep h with ⟨m, hm⟩
    refine jobStep_sound hm.step ?_ ?_ ?_ hinv
    · intro hmw jb hjb
      exact hc h jb (hm.explains.waits hmw) hjb
    · rintro ⟨e, he, hsub⟩
      exact ⟨e, List.mem_append_left _ he, hsub⟩
    · intro hms
      exact ⟨_, List.mem_append_right _ List.mem_cons_self, hm.explains.submits.mp hms⟩

end

/-! ## Sample runs -/

/-- An image to run the device on. -/
def sampleImage : Image where
  deviceId := literal "device"
  deviceVersion := literal "1.0"
  qdmiVersion := literal "1.0"
  siteAddr i := 4096 + 8 * i
  operationAddr
    | .rx => 8192
    | .ry => 8200
    | .rz => 8208
    | .cx => 8216

/-- Enough memory, and a generator that yields ones. -/
def sampleEnv : Env ℚ := { mem := fun _ => true, jobId := 0, bit := true, real := fun _ => 1 }

/-- Open a session and create a job with one text program. -/
def sampleSetup : List Op := [
  .deviceInitialize,
  .sessionAlloc true,
  .sessionSetParameter (some 0) DeviceSessionParameter.token 2
    (some (fun i => if i = 0 then 116 else 0)),
  .sessionInit (some 0),
  .createDeviceJob (some 0) true,
  .jobSetPrograms (some 0) ProgramFormat.qasm2.code 1 (some (fun _ => 2))
    (some (fun _ => some (fun i => if i = 0 then 120 else 0)))]

/-- The calls of a list of operations, all in one environment. -/
def callsIn (env : Env ℚ) (ops : List Op) : List (Call ℚ) := ops.map (fun op => ⟨op, env⟩)

/-- The status of the first job and the lengths of its two lists. -/
def firstJob (s : DeviceState ℚ) : Option (JobStatus × Nat × Nat) :=
  (s.jobs.get? 0).map (fun jb => (jb.status, jb.programs.length, jb.results.length))

/-- Calls that do not go wrong have a run, and what is evaluated on it holds of
    it. -/
theorem runs_played {α : Type} (s₀ : DeviceState ℚ) (calls : List (Call ℚ))
    (f : List (DeviceEntry ℚ) × DeviceState ℚ → Option α) (v : α)
    (h : (play (deviceStep sampleImage) s₀ calls).toOption.bind f = some v) :
    ∃ tr s, Runs (deviceStep sampleImage) s₀ tr s ∧ tr.map Entry.label = calls ∧
      f (tr, s) = some v :=
  runs_of_evaluated h

theorem deviceRuns_played {α : Type} (calls : List (Call ℚ))
    (f : List (DeviceEntry ℚ) × DeviceState ℚ → Option α) (v : α)
    (h : (play (deviceStep sampleImage) {} calls).toOption.bind f = some v) :
    ∃ tr s, DeviceRuns sampleImage tr s ∧ tr.map Entry.label = calls ∧ f (tr, s) = some v :=
  runs_played {} calls f v h

/-- The same in one environment, evaluated in the state the run leads to. -/
theorem deviceRuns_evaluated {α : Type} (env : Env ℚ) (ops : List Op)
    (f : DeviceState ℚ → Option α) (v : α)
    (h : (play (deviceStep sampleImage) {} (callsIn env ops)).toOption.bind
      (fun p => f p.2) = some v) :
    ∃ tr s, DeviceRuns sampleImage tr s ∧ tr.map Entry.label = callsIn env ops ∧ f s = some v :=
  deviceRuns_played (callsIn env ops) (fun p => f p.2) v h

/-- The same for the first job. -/
theorem deviceRuns_sample (ops : List Op) (v : JobStatus × Nat × Nat)
    (h : (play (deviceStep sampleImage) {} (callsIn sampleEnv ops)).toOption.bind
      (fun p => firstJob p.2) = some v) :
    ∃ tr s jb, DeviceRuns sampleImage tr s ∧ tr.map Entry.label = callsIn sampleEnv ops ∧
      s.jobs.get? 0 = some jb ∧ (jb.status, jb.programs.length, jb.results.length) = v := by
  rcases deviceRuns_evaluated sampleEnv ops firstJob v h with ⟨tr, s, hrun, hlabels, hv⟩
  rcases Option.map_eq_some_iff.mp hv with ⟨jb, hget, hjb⟩
  exact ⟨tr, s, jb, hrun, hlabels, hget, hjb⟩

section

variable [Zero R] [DecidableEq R] [Add R] [Mul R] [Div R] [DoubleRepr R]

/-- What is frozen once a job has left `created`: no submission of it succeeds
    any more, its configuration and, once submitted, its results stay, and so
    does its status once it is done or canceled. -/
theorem deviceRuns_frozen (img : Image) (tr tr' : List (DeviceEntry R)) (s u : DeviceState R)
    (hrun : DeviceRuns img tr s) (hcont : Runs (deviceStep img) s tr' u) (h : Nat)
    (jb : DeviceJob R) (hget : s.jobs.get? h = some jb) :
    (jb.status ≠ .created →
      (∀ e ∈ tr', e.label.op = .jobSubmit (some h) → ¬ Succeeds e.out) ∧
      ∀ jb', u.jobs.get? h = some jb' → jb'.status ≠ .created ∧ jb'.format = jb.format ∧
        jb'.programs = jb.programs ∧ jb'.numShots = jb.numShots) ∧
    (Submitted h tr → ∀ jb', u.jobs.get? h = some jb' → jb'.results = jb.results) ∧
    (jb.status = .done ∨ jb.status = .canceled →
      ∀ jb', u.jobs.get? h = some jb' → jb'.status = jb.status) := by
  have hlt := Heap.get?_lt_next hget
  have hkept : ∀ jb', u.jobs.get? h = some jb' → jb.status ≠ .created →
      jb' = { jb with status := jb'.status } ∧ jb'.status ≠ .created ∧
        (jb.status = .done ∨ jb.status = .canceled → jb'.status = jb.status) :=
    fun jb' hget' => ((runs_kept hcont).2 h hlt).2 jb jb' hget hget'
  refine ⟨fun hne => ⟨fun e he hop hsucc => ?_, fun jb' hget' => ?_⟩, fun hsub jb' hget' => ?_,
    fun hfin jb' hget' => ?_⟩
  · -- Before a successful submission the job would still be in `created`.
    rcases runs_mem hcont he with ⟨_, _, _, hpre, hstep, _⟩
    rcases deviceStep_submit hstep hop hsucc with ⟨jb', _, hget', hst, _⟩
    exact absurd hst (((runs_kept hpre).2 h hlt).2 jb jb' hget hget' hne).2.1
  · rcases hkept jb' hget' hne with ⟨heq, hne', _⟩
    refine ⟨hne', ?_, ?_, ?_⟩
    all_goals rw [heq]
  · rw [(hkept jb' hget' (submitted_ne_created hrun hsub hget)).1]
  · refine (hkept jb' hget' ?_).2.2 hfin
    rcases hfin with hst | hst
    all_goals
      rw [hst]
      decide

end

/-- A job that is done after a run, through a cancellation that is refused. -/
theorem deviceRuns_frozen_sample :
    ∃ tr tr' s u jb jb', DeviceRuns (R := ℚ) sampleImage tr s ∧
      Runs (deviceStep sampleImage) s tr' u ∧ tr' ≠ [] ∧ s.jobs.get? 0 = some jb ∧
      u.jobs.get? 0 = some jb' ∧ jb.status = .done ∧ jb'.status = jb.status ∧
      jb'.programs = jb.programs := by
  rcases deviceRuns_sample (sampleSetup ++ [.jobSubmit (some 0), .jobCheck (some 0) true])
    (.done, 1, 1) rfl with ⟨tr, s, jb, hrun, _, hget, hjb⟩
  have hdone : jb.status = .done := congrArg Prod.fst hjb
  have hstep : deviceStep sampleImage s ⟨.jobCancel (some 0), sampleEnv⟩ =
      answer .errorInvalidargument s := by
    simp only [deviceStep, deviceJobCancel, hget, hdone, if_true]
  have hcont : Runs (deviceStep sampleImage) s [⟨s, _, _, s⟩] s := Runs.snoc Runs.refl hstep
  have hne : jb.status ≠ .created := by
    rw [hdone]
    decide
  rcases deviceRuns_frozen sampleImage tr _ s s hrun hcont 0 jb hget with ⟨hconf, _, hfin⟩
  exact ⟨tr, _, s, s, jb, jb, hrun, hcont, List.cons_ne_nil _ _, hget, hget, hdone,
    hfin (Or.inl hdone) jb hget, ((hconf hne).2 jb hget).2.2.1⟩

/-! ## Reading results -/

theorem respond_avoids {e : Fault} {out : OutArgs} {need : Nat}
    {write : Cursor → Except Fault Cursor} (hwrite : ∀ cur, Avoids e (write cur)) :
    Avoids e (respond out need write) := by
  unfold respond
  split
  · exact avoids_ok _
  · split
    · exact avoids_ok _
    · exact avoids_bind (hwrite _) (fun _ => avoids_ok _)

theorem respondEarly_avoids {e : Fault} {out : OutArgs} {need : Nat}
    {write : Cursor → Except Fault Cursor} (hwrite : ∀ cur, Avoids e (write cur)) :
    Avoids e (respondEarly out need write) := by
  unfold respondEarly
  split
  · exact avoids_ok _
  · split
    · exact avoids_ok _
    · exact avoids_bind (hwrite _) (fun _ => avoids_ok _)

theorem writeShots_avoids {e : Fault} (he : e ≠ .writePastEnd) (shots : List (List UInt8)) :
    ∀ cur, Avoids e (writeShots shots cur) := by
  induction shots with
  | nil => exact fun cur => avoids_ok cur
  | cons shot rest ih =>
      intro cur
      have hputs := fun (c : Cursor) bs => Cursor.avoids_puts he c bs
      rcases rest with _ | ⟨next, rest⟩
      · exact avoids_bind (hputs cur shot) (fun cur => hputs cur [0])
      · exact avoids_bind (hputs cur shot) (fun cur => avoids_bind (hputs cur [comma]) ih)

/-- Once the result is at hand, encoding it may write past the end of the buffer,
    shift too far or convert an infinity, and goes wrong in no other way. -/
theorem encodeResult_avoids [Zero R] [DecidableEq R] [Add R] [Mul R] [DoubleRepr R] {e : Fault}
    (hwrite : e ≠ .writePastEnd) (hshift : e ≠ .shiftCount) (hcast : e ≠ .floatCast) (mem : Alloc)
    (result : ResultData R) (kind : Nat) (out : OutArgs) :
    Avoids e (encodeResult mem result kind out) := by
  have hputs : ∀ (cur : Cursor) bs, Avoids e (cur.puts bs) :=
    fun cur bs => Cursor.avoids_puts hwrite cur bs
  have hpatch : ∀ cur : Cursor, Avoids e (cur.patchBack 0) :=
    fun cur => Cursor.avoids_patchBack hwrite cur 0
  have hnorms : ∀ cur, Avoids e (writeNorms result.stateVec cur) :=
    fun cur => avoids_foldlM (fun cur _ => hputs cur _) _ cur
  unfold encodeResult
  split
  · -- Shots.
    refine avoids_map ?_
    unfold getResultsShots
    split
    · exact avoids_ok _
    · exact respond_avoids (writeShots_avoids hwrite _)
  split
  · -- Histogram.
    unfold getResultsHist
    split
    · exact avoids_ok _
    · rename_i hist _
      refine avoids_map ?_
      unfold respondHist
      split
      · dsimp only
        split
        · exact avoids_ok _
        · refine respondEarly_avoids (fun cur => avoids_bind ?_ hpatch)
          exact avoids_foldlM
            (fun cur (entry : List UInt8 × Nat) =>
              avoids_bind (hputs cur entry.1) (fun cur => hputs cur _)) _ cur
      · exact respondEarly_avoids (fun cur => avoids_foldlM (fun cur _ => hputs cur _) _ cur)
  split
  · -- Dense state vector.
    exact avoids_map (respond_avoids (fun cur => hputs cur _))
  split
  · -- Sparse results.
    -- The number of qubits is computed first.
    refine avoids_map (avoids_bind ?_ (fun numQubits => ?_))
    · unfold log2Size
      split
      · exact avoids_error hcast.symm
      · exact avoids_ok _
    split
    · refine respond_avoids
        (fun cur => avoids_bind (avoids_foldlM (fun cur entry => ?_) _ cur) hpatch)
      split
      · refine avoids_bind
          (avoids_foldlM (fun cur j => avoids_bind ?_ (fun _ => hputs cur _)) _ cur)
          (fun cur => hputs cur _)
        unfold oneShiftedBy
        split
        · exact avoids_ok _
        · split
          · exact avoids_ok _
          · exact avoids_error hshift.symm
      · exact avoids_ok _
    split
    · refine respond_avoids (fun cur => avoids_foldlM (fun cur c => ?_) _ cur)
      split
      · exact hputs cur _
      · exact avoids_ok _
    · exact respond_avoids hnorms
  split
  · exact avoids_map (respond_avoids hnorms)
  · exact avoids_ok _

/-- Retrieving a result reads inside the list of results when a job that is
    done has one result per program. -/
theorem deviceJobGetResults_avoids [Zero R] [DecidableEq R] [Add R] [Mul R] [DoubleRepr R]
    {s : DeviceState R} {h : Nat} {jb : DeviceJob R} (hget : s.jobs.get? h = some jb)
    (hlen : jb.status = .done → jb.results.length = jb.programs.length) (mem : Alloc)
    (i kind : Nat) (out : OutArgs) :
    Avoids Fault.readPastEnd (deviceJobGetResults s mem (some h) i kind out) := by
  simp only [deviceJobGetResults, hget]
  split
  · exact avoids_ok _
  split
  · exact avoids_ok _
  rename_i hi
  split
  · exact avoids_ok _
  rename_i hdone
  -- The index is checked against the programs, of which there are as many as results.
  have hlt : i < jb.results.length := by
    rw [hlen (not_not.mp hdone)]
    exact Nat.lt_of_not_le hi
  rw [List.getElem?_eq_getElem hlt]
  exact encodeResult_avoids (by decide) (by decide) (by decide) mem _ kind out

section

variable [Zero R] [DecidableEq R] [Add R] [Mul R] [Div R] [DoubleRepr R]

/-- In a run without an early wait, a job that is done was submitted and has
    one result per program, and retrieving results of any job reads inside its
    list of results. -/
theorem deviceRuns_done_submitted (img : Image) (tr : List (DeviceEntry R)) (s : DeviceState R)
    (hrun : DeviceRuns img tr s) (hwait : Respects WaitsAfterSubmit tr) (h : Nat)
    (jb : DeviceJob R) (hget : s.jobs.get? h = some jb) :
    (jb.status = .done → Submitted h tr ∧ jb.results.length = jb.programs.length) ∧
      ∀ mem i kind out, i < jb.programs.length →
        deviceJobGetResults s mem (some h) i kind out ≠ .error .readPastEnd := by
  have hdone : jb.status = .done → Submitted h tr ∧ jb.results.length = jb.programs.length := by
    intro hst
    rcases deviceRuns_sound hrun hwait h jb hget with hc | hc | ⟨_, hsub, hlen⟩
    · exact absurd (hst.symm.trans hc) (by decide)
    · exact absurd (hst.symm.trans hc) (by decide)
    · exact ⟨hsub, hlen⟩
  exact ⟨hdone, fun mem i kind out _ =>
    deviceJobGetResults_avoids hget (fun hst => (hdone hst).2) mem i kind out⟩

end

/-- Whether a call that waits finds its job behind `created`. -/
def waitsLate (e : DeviceEntry ℚ) : Bool :=
  match e.label.op with
  | .jobWait (some h) => (e.pre.jobs.get? h).all (fun jb => jb.status != .created)
  | _ => true

theorem waitsAfterSubmit_of_waitsLate {e : DeviceEntry ℚ} (h : waitsLate e = true) :
    WaitsAfterSubmit e.pre e.label := by
  intro i jb hop hget
  simp only [waitsLate, hop, hget, Option.all_some, bne_iff_ne] at h
  exact h

/-- A run that submits its job and waits for it ends with its results. -/
theorem deviceRuns_done_submitted_sample :
    ∃ tr s jb, DeviceRuns (R := ℚ) sampleImage tr s ∧
      tr.map Entry.label =
        callsIn sampleEnv (sampleSetup ++ [.jobSubmit (some 0), .jobWait (some 0)]) ∧
      s.jobs.get? 0 = some jb ∧ jb.status = .done ∧ Submitted 0 tr ∧
      jb.results.length = jb.programs.length := by
  rcases deviceRuns_played
    (callsIn sampleEnv (sampleSetup ++ [.jobSubmit (some 0), .jobWait (some 0)]))
    (fun p => some (p.1.all waitsLate, firstJob p.2)) (true, some (.done, 1, 1)) rfl with
    ⟨tr, s, hrun, hlabels, hv⟩
  rw [Option.some.injEq, Prod.mk.injEq, List.all_eq_true] at hv
  rcases Option.map_eq_some_iff.mp hv.2 with ⟨jb, hget, hjb⟩
  have hdone : jb.status = .done := congrArg Prod.fst hjb
  rcases (deviceRuns_done_submitted sampleImage tr s hrun
    (fun e he => waitsAfterSubmit_of_waitsLate (hv.1 e he)) 0 jb hget).1 hdone with ⟨hsub, hlen⟩
  exact ⟨tr, s, jb, hrun, hlabels, hget, hdone, hsub, hlen⟩

/-- Waiting for a job in `created` makes it done without any results, and
    retrieving one then reads past the end of an empty list. -/
theorem done_without_results :
    ∃ tr s jb, DeviceRuns (R := ℚ) sampleImage tr s ∧ s.jobs.get? 0 = some jb ∧
      jb.status = .done ∧ ¬ Submitted 0 tr ∧ jb.results.length ≠ jb.programs.length ∧
      0 < jb.programs.length ∧
      deviceJobGetResults s (fun _ => true) (some 0) 0 JobResult.shots.code
        { size := 0, value := none, sizeRet := true } = .error .readPastEnd := by
  rcases deviceRuns_sample (sampleSetup ++ [.jobWait (some 0)]) (.done, 1, 0) rfl with
    ⟨tr, s, jb, hrun, hlabels, hget, hjb⟩
  rw [Prod.mk.injEq, Prod.mk.injEq] at hjb
  rcases hjb with ⟨hdone, hprogs, hres⟩
  refine ⟨tr, s, jb, hrun, hget, hdone, ?_, by omega, by omega, ?_⟩
  · rintro ⟨e, he, hop, _⟩
    have hmem : e.label ∈ tr.map Entry.label := List.mem_map_of_mem he
    rw [hlabels, callsIn, List.mem_map] at hmem
    rcases hmem with ⟨op, hmem, heq⟩
    rw [← heq] at hop
    simp [sampleSetup, show op = .jobSubmit (some 0) from hop] at hmem
  · -- There is no first result, and its address is read.
    have hnil : jb.results = [] := List.length_eq_zero_iff.mp hres
    simp [deviceJobGetResults, hget, hdone, hprogs, hnil, OutArgs.degenerate, isInvalidEnumValue,
      JobResult.code, JobResult.max]

end Qdmi
