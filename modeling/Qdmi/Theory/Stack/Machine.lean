import Qdmi.Theory.Device.Atomicity
import Qdmi.Theory.Stack.Transparency

/-!
# The Machine of a Job

A job on its own is a small machine: it has a format, programs, a number of shots,
a status and results, and a command changes them and is answered. `jobCommand` is
that machine. It knows no sessions, handles, libraries or other jobs, and a
submission simply has five qubits.

The stack implements it. Whatever clients do in between, the device job behind a
job obeys the commands of its own client and nothing else, and the client is told
what the machine answers (`stackRuns_refines`). The induction is on the run, and
what is held on to is the device job at the end of it.

## Main definitions

* `JobCall.command`, `Command`, `commands`: The commands of a client to a job.
* `jobCommand`, `Obeys`: The machine.
* `Behind`: A device job behind a job of a client.

## Theorems

* `deviceStep_command`: A device job obeys.
* `stackStep_quiet`: Nothing else changes it.
* `stackRuns_refines`: The stack implements the machine.
-/

namespace Qdmi

namespace Driver

variable {R : Type}

/-- A function that may change a job. The others read it. -/
def JobCall.command : JobCall → Bool
  | .getProgram _ _ => false
  | .getProgramStatus _ => false
  | .queryProperty _ _ => false
  | .getResults _ _ _ => false
  | _ => true

/-- A command to a job, with what the environment decided for it, and its answer. -/
structure Command (R : Type) where
  call : JobCall
  env : Env R
  reply : Except Exn Reply

/-- The command that a client gives to a job. -/
def commandTo (j : Nat) (op : DriverOp) : Option JobCall :=
  (jobCallOf op).bind (fun x => if x.1 = j ∧ x.2.command = true then some x.2 else none)

/-- The command of a step to a job. -/
def commandOf (j : Nat) (e : StackEntry R) : Option (Command R) :=
  (commandTo j e.label.call.op).map (fun jc => ⟨jc, e.label.env 0, e.out.reply⟩)

/-- The commands to a job in a run. -/
def commands (j : Nat) (tr : List (StackEntry R)) : List (Command R) :=
  tr.filterMap (commandOf j)

/-- A job answers with a status and stays as it is. -/
def told (jb : DeviceJob R) (status : Status) : Except Exn Reply × DeviceJob R :=
  (.ok { status := status }, jb)

/-- A job that was changed. -/
def changed (jb : DeviceJob R) : Except Exn Reply × DeviceJob R := (.ok { status := .success }, jb)

section

variable [Zero R] [Add R] [Mul R] [Div R] [DoubleRepr R]

/-- What a job makes of a command: its answer, and the job it is then. -/
def jobCommand (jb : DeviceJob R) (env : Env R) : JobCall → Except Exn Reply × DeviceJob R
  | .setParameter param size value =>
    if (value.isSome && size == 0) || isInvalidEnumValue param DeviceJobParameter.max then
      told jb .errorInvalidargument
    else if jb.status ≠ .created then told jb .errorBadstate
    else if param ≠ DeviceJobParameter.shotsnum then told jb .errorNotsupported
    else
      match value with
      | none => told jb .success
      | some v =>
        if size ≠ 8 then told jb .errorInvalidargument
        else changed { jb with numShots := leNat (readBytes v 8) }
  | .setPrograms format count sizes programs =>
    if count = 0 ∨ validFormat format = false then told jb .errorInvalidargument
    else if jb.status ≠ .created then told jb .errorBadstate
    else if supportedFormat format = false then told jb .errorNotsupported
    else
      match programs, sizes with
      | none, _ => told jb .success
      | some _, none => told jb .errorInvalidargument
      | some progs, some szs =>
        match copyPrograms env format count szs progs with
        | .error (.returned status) => told jb status
        | .error (.thrown .badAlloc) => told jb .errorOutofmem
        | .error (.thrown .lengthError) => told jb .errorInvalidargument
        | .error (.thrown e) => (.error e, jb)
        | .ok newPrograms => changed { jb with format, programs := newPrograms }
  | .submit =>
    if jb.status ≠ .created then told jb .errorInvalidargument
    else if jb.programs = [] then told jb .errorBadstate
    else
      match (submitResults env jb 5).1 with
      | .error .badAlloc => told jb .errorOutofmem
      | .error _ => told jb .errorFatal
      | .ok results => changed { jb with results, status := .running }
  | .cancel =>
    if jb.status = .done then told jb .errorInvalidargument
    else changed { jb with status := .canceled }
  | .check status =>
    if status = false then told jb .errorInvalidargument
    else if jb.status = .running ∧ env.bit = true then
      (.ok { status := .success, jobStatus := some .done }, { jb with status := .done })
    else (.ok { status := .success, jobStatus := some jb.status }, jb)
  | .wait _ =>
    if jb.status = .done ∨ jb.status = .canceled ∨ jb.status = .failed then told jb .success
    else changed { jb with status := .done }
  -- The others are no commands.
  | _ => told jb .success

/-- A job that is given commands, one after the other. -/
def Obeys : DeviceJob R → List (Command R) → DeviceJob R → Prop
  | jb, [], jb' => jb' = jb
  | jb, k :: ks, jb' => k.reply = (jobCommand jb k.env k.call).1 ∧
    Obeys (jobCommand jb k.env k.call).2 ks jb'

theorem obeys_append {jb jb' : DeviceJob R} {ks ks' : List (Command R)} :
    Obeys jb (ks ++ ks') jb' ↔ ∃ mid, Obeys jb ks mid ∧ Obeys mid ks' jb' := by
  induction ks generalizing jb with
  | nil =>
      constructor
      · exact fun h => ⟨jb, rfl, h⟩
      · rintro ⟨mid, hmid, h⟩
        rw [Obeys] at hmid
        rw [← hmid]
        exact h
  | cons k ks ih =>
      simp only [List.cons_append, Obeys, ih]
      constructor
      · rintro ⟨hreply, mid, hmid, h⟩
        exact ⟨mid, ⟨hreply, hmid⟩, h⟩
      · rintro ⟨mid, ⟨hreply, hmid⟩, h⟩
        exact ⟨hreply, mid, hmid, h⟩

end

/-- The device job behind a job of a client. -/
structure Behind (t : Stack R) (j : Nat) (jb : Job) (djb : DeviceJob R) : Prop where
  inv : StackInv t
  live : t.driver.jobs.get? j = some jb
  job : deviceJobOf t j = some djb

/-- The session of the device job behind a job is initialized. -/
theorem session_of_inv {t : Stack R} (hinv : StackInv t) {j : Nat} {cj : Job} {d : Device}
    {djb : DeviceJob R} (hget : t.driver.jobs.get? j = some cj)
    (hdev : deviceOf t.driver cj.device = some d)
    (hdjb : deviceJobOf t j = some djb) :
    ∃ sess, (t.world d.library.key).device.sessions.get? djb.session = some sess ∧
      sess.status = .initialized := by
  rcases hinv.joined j cj d hget hdev with ⟨djb₀, hat, hname⟩
  rw [← (behind_of_job hget hdev).2, hdjb, Option.some.injEq] at hat
  rw [← hat] at hname
  rcases Option.bind_eq_some_iff.mp hdev with ⟨sess, hsess, hd⟩
  rcases hinv.ready cj.device sess d (by
    rw [deviceAt, hsess, Option.bind_some, hd, Option.map_some]) with ⟨token, _, hready⟩
  rw [sessionAt, hname, Option.bind_some] at hready
  exact ⟨_, hready, rfl⟩

theorem commandOf_eq_some {j : Nat} {e : StackEntry R} {k : Command R}
    (h : commandOf j e = some k) : jobCallOf e.label.call.op = some (j, k.call) ∧
      k.call.command = true ∧ k.env = e.label.env 0 ∧ k.reply = e.out.reply := by
  rcases Option.map_eq_some_iff.mp h with ⟨jc, hto, rfl⟩
  rcases Option.bind_eq_some_iff.mp hto with ⟨x, hx, hown⟩
  rcases Option.ite_none_right_eq_some.mp hown with ⟨⟨hj, hcommand⟩, hjc⟩
  rw [Option.some.injEq] at hjc
  rw [hx, ← hj, ← hjc]
  exact ⟨rfl, hcommand, rfl, rfl⟩

theorem commandOf_eq_none {j : Nat} {e : StackEntry R} (h : commandOf j e = none) {jc : JobCall}
    (hop : jobCallOf e.label.call.op = some (j, jc)) : jc.command = false := by
  rw [commandOf, Option.map_eq_none_iff, commandTo, hop, Option.bind_some, ite_eq_right_iff] at h
  by_cases hc : jc.command = true
  · exact absurd (h ⟨rfl, hc⟩) (by simp only [reduceCtorEq, not_false_eq_true])
  · exact Bool.eq_false_iff.mpr hc

/-- The commands are known from the calls. -/
theorem commands_calls (j : Nat) (tr : List (StackEntry R)) :
    (commands j tr).map Command.call =
      (tr.map Entry.label).filterMap (fun c => commandTo j c.call.op) := by
  rw [commands, List.map_filterMap, List.filterMap_map]
  refine List.filterMap_congr (fun e _ => ?_)
  rw [commandOf, Option.map_map]
  exact Option.map_id'

/-! ## One command -/

section

variable {s s' : DeviceState R} {h : Nat} {jb : DeviceJob R} {env : Env R}
variable {out : Except Exn Reply}

/-- A call has the answer of a job, and leaves the job behind its handle. -/
def Obeyed (out : Except Exn Reply) (s' : DeviceState R) (h : Nat)
    (res : Except Exn Reply × DeviceJob R) : Prop :=
  out = res.1 ∧ s'.jobs.get? h = some res.2

/-- A call that answers with a status and changes no job. -/
theorem obeyed_told {status : Status} {s₁ : DeviceState R} (hget : s.jobs.get? h = some jb)
    (hstep : answer status s₁ = .ok (out, s')) (hs₁ : s₁.jobs = s.jobs) :
    Obeyed out s' h (told jb status) := by
  rcases answer_eq_ok.mp hstep with ⟨hout, hs⟩
  refine ⟨hout, ?_⟩
  rw [hs, hs₁]
  exact hget

/-- A call that succeeds and changes the job. -/
theorem obeyed_changed {jb' : DeviceJob R} {s₁ : DeviceState R} (hget : s.jobs.get? h = some jb)
    (hstep : answer .success s₁ = .ok (out, s')) (hs₁ : s₁.jobs = s.jobs.set h jb') :
    Obeyed out s' h (changed jb') := by
  rcases answer_eq_ok.mp hstep with ⟨hout, hs⟩
  refine ⟨hout, ?_⟩
  rw [hs, hs₁, Heap.get?_set _ _ _ _ hget, if_pos rfl]
  rfl

variable [Zero R] [Add R] [Mul R] [Div R] [DoubleRepr R]

theorem setParameter_obeyed (hget : s.jobs.get? h = some jb) {param size : Nat}
    {value : Option (Nat → UInt8)}
    (hstep : deviceJobSetParameter s (some h) param size value = .ok (out, s')) :
    Obeyed out s' h (jobCommand jb env (.setParameter param size value)) := by
  unfold deviceJobSetParameter at hstep
  unfold jobCommand
  dsimp only at hstep ⊢
  by_cases hsize : (value.isSome && size == 0) = true
  · rw [if_pos hsize] at hstep
    rw [hsize, Bool.true_or, if_pos rfl]
    exact obeyed_told hget hstep rfl
  rw [if_neg hsize] at hstep
  rw [Bool.eq_false_iff.mpr hsize, Bool.false_or]
  by_cases henum : isInvalidEnumValue param DeviceJobParameter.max = true
  · rw [if_pos henum] at hstep ⊢
    exact obeyed_told hget hstep rfl
  rw [if_neg henum] at hstep ⊢
  rw [hget] at hstep
  dsimp only at hstep
  by_cases hst : jb.status = .created
  swap
  · rw [if_pos hst] at hstep ⊢
    exact obeyed_told hget hstep rfl
  rw [if_neg (not_not.mpr hst)] at hstep ⊢
  by_cases hparam : param = DeviceJobParameter.shotsnum
  swap
  · rw [if_pos hparam] at hstep ⊢
    exact obeyed_told hget hstep rfl
  rw [if_neg (not_not.mpr hparam)] at hstep ⊢
  rcases value with _ | v
  · exact obeyed_told hget hstep rfl
  dsimp only at hstep ⊢
  by_cases height : size = 8
  swap
  · rw [if_pos height] at hstep ⊢
    exact obeyed_told hget hstep rfl
  rw [if_neg (not_not.mpr height)] at hstep ⊢
  exact obeyed_changed hget hstep rfl

theorem setPrograms_obeyed (hget : s.jobs.get? h = some jb) {format count : Nat}
    {sizes : Option (Nat → Nat)} {programs : Option (Nat → Option (Nat → UInt8))}
    (hstep : deviceJobSetPrograms s env (some h) format count sizes programs = .ok (out, s')) :
    Obeyed out s' h (jobCommand jb env (.setPrograms format count sizes programs)) := by
  unfold deviceJobSetPrograms at hstep
  unfold jobCommand
  dsimp only at hstep ⊢
  by_cases hargs : count = 0 ∨ validFormat format = false
  · rw [if_pos hargs] at hstep ⊢
    exact obeyed_told hget hstep rfl
  rw [if_neg hargs] at hstep ⊢
  rw [hget] at hstep
  dsimp only at hstep
  by_cases hst : jb.status = .created
  swap
  · rw [if_pos hst] at hstep ⊢
    exact obeyed_told hget hstep rfl
  rw [if_neg (not_not.mpr hst)] at hstep ⊢
  by_cases hsup : supportedFormat format = false
  · rw [if_pos hsup] at hstep ⊢
    exact obeyed_told hget hstep rfl
  rw [if_neg hsup] at hstep ⊢
  rcases programs with _ | progs
  · exact obeyed_told hget hstep rfl
  rcases sizes with _ | szs
  · exact obeyed_told hget hstep rfl
  dsimp only at hstep ⊢
  -- The copies are made aside, and the job changes when all of them are there.
  rcases hcopy : copyPrograms env format count szs progs with (status | exn) | newPrograms
  all_goals rw [hcopy] at hstep
  · exact obeyed_told hget hstep rfl
  · cases exn with
    | badAlloc => exact obeyed_told hget hstep rfl
    | lengthError => exact obeyed_told hget hstep rfl
    | _ =>
        rcases raise_eq_ok.mp hstep with ⟨hout, hs⟩
        exact ⟨hout, by rw [hs]; exact hget⟩
  · exact obeyed_changed hget hstep rfl

/-- A submission asks its session, which is initialized and reports five qubits. -/
theorem submit_obeyed {img : Image} {sess : DeviceSession} (hget : s.jobs.get? h = some jb)
    (hsess : s.sessions.get? jb.session = some sess) (hinit : sess.status = .initialized)
    (hstep : deviceJobSubmit img s env (some h) = .ok (out, s')) :
    Obeyed out s' h (jobCommand jb env .submit) := by
  unfold deviceJobSubmit at hstep
  unfold jobCommand
  dsimp only at hstep ⊢
  rw [hget] at hstep
  dsimp only at hstep
  by_cases hst : jb.status = .created
  swap
  · rw [if_pos hst] at hstep ⊢
    exact obeyed_told hget hstep rfl
  rw [if_neg (not_not.mpr hst)] at hstep ⊢
  by_cases hne : jb.programs = []
  · rw [if_pos hne] at hstep ⊢
    exact obeyed_told hget hstep rfl
  rw [if_neg hne] at hstep ⊢
  rw [submitQubits_initialized img hsess hinit] at hstep
  dsimp only at hstep
  rw [if_neg (by decide)] at hstep
  rcases hresults : submitResults env jb 5 with ⟨exn | results, turns⟩
  all_goals rw [hresults] at hstep
  · -- What was drawn is used up, and the job is as it was.
    cases exn with
    | badAlloc => exact obeyed_told hget hstep rfl
    | _ => exact obeyed_told hget hstep rfl
  · exact obeyed_changed hget hstep rfl

theorem cancel_obeyed (hget : s.jobs.get? h = some jb)
    (hstep : deviceJobCancel s (some h) = .ok (out, s')) :
    Obeyed out s' h (jobCommand jb env .cancel) := by
  unfold deviceJobCancel at hstep
  unfold jobCommand
  dsimp only at hstep ⊢
  rw [hget] at hstep
  dsimp only at hstep
  by_cases hdone : jb.status = .done
  · rw [if_pos hdone] at hstep ⊢
    exact obeyed_told hget hstep rfl
  · rw [if_neg hdone] at hstep ⊢
    exact obeyed_changed hget hstep rfl

theorem check_obeyed (hget : s.jobs.get? h = some jb) {status : Bool}
    (hstep : deviceJobCheck s env (some h) status = .ok (out, s')) :
    Obeyed out s' h (jobCommand jb env (.check status)) := by
  unfold deviceJobCheck at hstep
  unfold jobCommand
  dsimp only at hstep ⊢
  rcases status with _ | _
  · exact obeyed_told hget hstep rfl
  rw [hget] at hstep
  simp only [Bool.not_true, Bool.false_eq_true, if_false, Bool.true_eq_false] at hstep ⊢
  by_cases hrun : jb.status = .running
  · rw [if_neg (not_not.mpr hrun)] at hstep
    by_cases hbit : env.bit = true
    · rw [if_pos hbit, Except.ok.injEq, Prod.mk.injEq] at hstep
      rw [if_pos ⟨hrun, hbit⟩, ← hstep.1, ← hstep.2]
      refine ⟨rfl, ?_⟩
      dsimp only
      rw [Heap.get?_set _ _ _ _ hget, if_pos rfl]
    · rw [if_neg hbit, Except.ok.injEq, Prod.mk.injEq] at hstep
      rw [if_neg (fun hboth => hbit hboth.2), ← hstep.1, ← hstep.2]
      exact ⟨rfl, hget⟩
  · rw [if_pos hrun, Except.ok.injEq, Prod.mk.injEq] at hstep
    rw [if_neg (fun hboth => hrun hboth.1), ← hstep.1, ← hstep.2]
    exact ⟨rfl, hget⟩

theorem wait_obeyed (hget : s.jobs.get? h = some jb) {timeout : Nat}
    (hstep : deviceJobWait s (some h) = .ok (out, s')) :
    Obeyed out s' h (jobCommand jb env (.wait timeout)) := by
  unfold deviceJobWait at hstep
  unfold jobCommand
  dsimp only at hstep ⊢
  rw [hget] at hstep
  dsimp only at hstep
  by_cases hend : jb.status = .done ∨ jb.status = .canceled ∨ jb.status = .failed
  · rw [if_pos hend] at hstep ⊢
    exact obeyed_told hget hstep rfl
  · rw [if_neg hend] at hstep ⊢
    exact obeyed_changed hget hstep rfl

variable [DecidableEq R]

/-- A device job in an initialized session obeys. -/
theorem deviceStep_command {img : Image} {sess : DeviceSession} {jc : JobCall}
    (hget : s.jobs.get? h = some jb) (hsess : s.sessions.get? jb.session = some sess)
    (hinit : sess.status = .initialized) (hcommand : jc.command = true)
    (hstep : deviceStep img s ⟨jc.op h, env⟩ = .ok (out, s')) :
    Obeyed out s' h (jobCommand jb env jc) := by
  cases jc with
  | setParameter param size value => exact setParameter_obeyed hget hstep
  | setPrograms format count sizes programs => exact setPrograms_obeyed hget hstep
  | submit => exact submit_obeyed hget hsess hinit hstep
  | cancel => exact cancel_obeyed hget hstep
  | check status => exact check_obeyed hget hstep
  | wait timeout => exact wait_obeyed hget hstep
  | _ => exact absurd hcommand (by simp only [JobCall.command, Bool.false_eq_true,
      not_false_eq_true])

/-! ## Runs -/

variable {addr : DeviceHandle → Nat} {img : Nat × List UInt8 → Image}
variable {t t' u : Stack R} {c : StackCall R} {o : StackOut R} {j : Nat} {cj : Job}

/-- A call on a job is made on the device job behind it. -/
theorem stackStep_onJob {djb : DeviceJob R} (hb : Behind t j cj djb) {jc : JobCall}
    (hop : jobCallOf c.call.op = some (j, jc)) (hstep : stackStep addr img t c = .ok (o, t')) :
    ∃ key p s s' sess, jobBehind t j = some (key, p) ∧ s.jobs.get? p = some djb ∧
      s.sessions.get? djb.session = some sess ∧ sess.status = .initialized ∧
      deviceStep (img key) s ⟨jc.op p, c.env 0⟩ = .ok (o.reply, s') ∧
      deviceJobOf t' j = s'.jobs.get? p := by
  rcases stackStep_jobCall hop hstep with ⟨cj', d, p, s', hget, hdev, hp, hdevice, ht, hw⟩
  rcases session_of_inv hb.inv hget hdev hb.job with ⟨sess, hsess, hinit⟩
  have hbehind := (behind_of_job hget hdev).1
  rw [hp, Option.map_some] at hbehind
  have hjob := hb.job
  rw [(behind_of_job hget hdev).2, jobAt, hp, Option.bind_some] at hjob
  refine ⟨_, p, _, s', sess, hbehind, hjob, hsess, hinit, hdevice, ?_⟩
  rw [(behind_of_job (t := t') (by rw [ht, hget]) (by rw [ht, hdev])).2, hw, jobAt]
  dsimp only
  rw [hp, Option.bind_some]

/-- A call that is no command to the job leaves its device job alone. -/
theorem stackStep_quiet {djb : DeviceJob R} (hb : Behind t j cj djb) (hrule : FreesJobs t c)
    (hkeep : KeepsJob j c) (hquiet : commandOf j ⟨t, c, o, t'⟩ = none)
    (hstep : stackStep addr img t c = .ok (o, t')) : deviceJobOf t' j = some djb := by
  rcases hcall : jobCallOf c.call.op with _ | ⟨i, jc⟩
  · rw [(stackStep_job hb.inv hrule hkeep hstep hb.live).2 ⟨hkeep, fun jc hjc => ?_⟩, hb.job]
    rw [hcall] at hjc
    exact absurd hjc (by simp only [reduceCtorEq, not_false_eq_true])
  by_cases hi : i = j
  · -- It reads the job.
    rw [hi] at hcall
    rcases stackStep_onJob hb hcall hstep with ⟨key, p, s, s', sess, _, hjob, _, _, hdevice, hafter⟩
    have hcommand := commandOf_eq_none hquiet hcall
    have hsame : s' = s := by
      cases jc with
      | getProgram index args => exact (deviceStep_query hdevice).2
      | getProgramStatus index =>
          have hstatus : deviceJobGetProgramStatus s (some p) index = .ok (o.reply, s') := hdevice
          exact deviceJobGetProgramStatus_same hstatus
      | queryProperty prop args => exact (deviceStep_query hdevice).2
      | getResults index kind args => exact (deviceStep_query hdevice).2
      | _ => exact absurd hcommand (by simp only [JobCall.command, Bool.true_eq_false,
          not_false_eq_true])
    rw [hafter, hsame, hjob]
  · rw [(stackStep_job hb.inv hrule hkeep hstep hb.live).2 ⟨hkeep, fun jc' hjc => ?_⟩, hb.job]
    rw [hcall, Option.some.injEq, Prod.mk.injEq] at hjc
    exact hi hjc.1

/-- A step from behind a job to behind it. -/
theorem stackStep_behind {djb : DeviceJob R} (hb : Behind t j cj djb) (hrule : FreesJobs t c)
    (hkeep : KeepsJob j c) (hstep : stackStep addr img t c = .ok (o, t')) :
    ∃ djb', Behind t' j cj djb' ∧ Obeys djb (commandOf j ⟨t, c, o, t'⟩).toList djb' := by
  have hinv := stackStep_keeps hb.inv hrule hstep
  have hlive := (stackStep_job hb.inv hrule hkeep hstep hb.live).1.live.trans hb.live
  rcases hcommand : commandOf j ⟨t, c, o, t'⟩ with _ | k
  · exact ⟨djb, ⟨hinv, hlive, stackStep_quiet hb hrule hkeep hcommand hstep⟩, rfl⟩
  · rcases commandOf_eq_some hcommand with ⟨hop, hk, henv, hreply⟩
    rcases stackStep_onJob hb hop hstep with
      ⟨key, p, s, s', sess, _, hjob, hsess, hinit, hdevice, hafter⟩
    rcases deviceStep_command hjob hsess hinit hk hdevice with ⟨hout, hjob'⟩
    dsimp only at henv hreply
    rw [← henv] at hout hjob'
    refine ⟨_, ⟨hinv, hlive, hafter.trans hjob'⟩, ?_, rfl⟩
    rw [hreply, hout]

/-- The induction on the run. The device job at its end obeys the commands so far. -/
theorem runs_behind {tr : List (StackEntry R)} {djb : DeviceJob R} (hb : Behind t j cj djb)
    (hrun : Runs (stackStep addr img) t tr u) (hrule : Respects FreesJobs tr)
    (hkeep : Respects (fun _ c => KeepsJob j c) tr) :
    ∃ djb', Behind u j cj djb' ∧ Obeys djb (commands j tr) djb' := by
  refine runs_invariant (C := fun t c => FreesJobs t c ∧ KeepsJob j c)
    (P := fun tr u => ∃ djb', Behind u j cj djb' ∧ Obeys djb (commands j tr) djb') hrun
    (fun e he => ⟨hrule e he, hkeep e he⟩) ⟨djb, hb, rfl⟩ ?_
  intro tr v c o w _ _ ih hc hstep
  rcases ih with ⟨mid, hmid, hobeys⟩
  rcases stackStep_behind hmid hc.1 hc.2 hstep with ⟨djb', hb', hlast⟩
  refine ⟨djb', hb', ?_⟩
  have hsplit : commands j (tr ++ [⟨v, c, o, w⟩]) =
      commands j tr ++ (commandOf j ⟨v, c, o, w⟩).toList := by
    rw [commands, List.filterMap_append, List.filterMap_cons, List.filterMap_nil]
    rcases commandOf j ⟨v, c, o, w⟩ with _ | k
    · rfl
    · rfl
  rw [hsplit]
  exact obeys_append.mpr ⟨mid, hobeys, hlast⟩

/-- Until it is freed a job is the machine of its commands: whatever else is called,
    its client gets the answers of the machine, and the device job behind it is what
    the machine has become. -/
theorem stackRuns_refines (addr : DeviceHandle → Nat) (img : Nat × List UInt8 → Image)
    (tr tr' : List (StackEntry R)) (t u : Stack R) (hrun : StackRuns addr img tr t)
    (hrule : Respects FreesJobs tr) (hcont : Runs (stackStep addr img) t tr' u)
    (hrule' : Respects FreesJobs tr') (j : Nat) (cj : Job)
    (hget : t.driver.jobs.get? j = some cj) (hkeep : Respects (fun _ c => KeepsJob j c) tr')
    (djb : DeviceJob R) (hdjb : deviceJobOf t j = some djb) :
    ∃ djb', deviceJobOf u j = some djb' ∧ Obeys djb (commands j tr') djb' := by
  rcases runs_behind ⟨stackRuns_inv hrun hrule, hget, hdjb⟩ hcont hrule' hkeep with
    ⟨djb', hb', hobeys⟩
  exact ⟨djb', hb'.job, hobeys⟩

end

/-- Three of the calls are commands to the first job. -/
theorem stackRuns_refines_sample :
    ∃ tr tr' t u djb djb', StackRuns (R := ℚ) (fun _ => 0) (fun _ => sampleImage) tr t ∧
      Runs (stackStep (fun _ => 0) (fun _ => sampleImage)) t tr' u ∧ tr'.length = 9 ∧
      (commands 0 tr').length = 3 ∧ deviceJobOf t 0 = some djb ∧ deviceJobOf u 0 = some djb' ∧
      Obeys djb (commands 0 tr') djb' := by
  rcases stackRuns_continued (submitOps.take 5) mixedOps (fun t tr' _ =>
    (t.driver.jobs.get? 0).bind (fun cj => (deviceJobOf t 0).map
      (fun djb => (djb, cj, tr'.length, (commands 0 tr').length))))
    ({ session := 1, status := .created }, ⟨⟨0, 1⟩, 2⟩, 9, 3) rfl with
    ⟨tr, tr', t, u, hrun, hrule, hrun', hrule', hlabels, hv⟩
  rcases Option.bind_eq_some_iff.mp hv with ⟨cj, hget, hv⟩
  rcases Option.map_eq_some_iff.mp hv with ⟨djb, hdjb, hv⟩
  simp only [Prod.mk.injEq] at hv
  rcases stackRuns_refines (fun _ => 0) (fun _ => sampleImage) tr tr' t u hrun hrule hrun' hrule' 0
    cj hget (respects_of_calls hlabels mixedOps_keeps) djb hdjb with ⟨djb', hdjb', hobeys⟩
  exact ⟨tr, tr', t, u, djb, djb', hrun, hrun', hv.2.2.1, hv.2.2.2, hdjb, hdjb', hobeys⟩

end Driver

end Qdmi
