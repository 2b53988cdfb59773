import Qdmi.Theory.Device.Interleaving
import Qdmi.Theory.Stack.Jobs

/-!
# The Driver Is Transparent

What a client is told about its job is what it would be told if it used the
device itself and nobody else did.

Between a client and its job stand the driver, which translates handles and picks
a library, and everybody else who uses that library. The functions of a job are
passed on as they are, to the library and the handle that are behind the job, and
the answer is passed back as it is. So a call on the job goes as it would on any
device job that is alike (`stackStep_transparent`). A call on something else
leaves the job alone. Together these give `stackRuns_transparent`: the replies
along any run, until the job is freed, are those of a run of a device alone.

The comparison of two device jobs is the one of the device: they may differ in
their identity, their session and their amplitudes, and the few calls that report
the identity or the amplitudes are not compared.

## Main definitions

* `JobCall.jobOp`: A function of a job, as an operation on a device job.
* `clientOp`, `clientPart`: The calls of a client on one job in a history.
* `AlikeBehind`: A device job elsewhere, alike to the one behind a job.

## Theorems

* `stackStep_transparent`: One call on the job.
* `stackStep_others`: One call on something else.
* `stackRuns_transparent`: All calls until the job is freed.
-/

namespace Qdmi

namespace Driver

variable {R : Type}

/-- A function of a job, as an operation on a device job. -/
def JobCall.jobOp : JobCall → JobOp
  | .setParameter param size value => .setParameter param size value
  | .setPrograms format count sizes programs => .setPrograms format count sizes programs
  | .getProgram i out => .getProgram i out
  | .getProgramStatus i => .getProgramStatus i
  | .queryProperty prop out => .queryProperty prop out
  | .submit => .submit
  | .cancel => .cancel
  | .check status => .check status
  | .wait _ => .wait
  | .getResults i result out => .getResults i result out

theorem jobOp_on (jc : JobCall) (p : Nat) : jc.op p = jc.jobOp.on p := by
  cases jc
  all_goals rfl

/-- What a client does to a job, if the reply can be compared. -/
def clientOp (j : Nat) (op : DriverOp) : Option JobOp :=
  (jobCallOf op).bind (fun x => if x.1 = j ∧ x.2.jobOp.comparable then some x.2.jobOp else none)

/-- The calls of a client on one job in a history, with what it was told. -/
def clientPart (j : Nat) (tr : List (StackEntry R)) : List (OwnCall R) :=
  tr.filterMap (fun e =>
    (clientOp j e.label.call.op).map (fun op => ⟨op, e.label.env 0, e.out.reply⟩))

/-- A device job in some state of a device, alike to the one behind a job of a
    client, with an initialized session of its own. -/
structure AlikeBehind (t : Stack R) (j : Nat) (s : DeviceState R) (h : Nat) : Prop where
  alike : ∃ djb djb', deviceJobOf t j = some djb ∧ s.jobs.get? h = some djb' ∧
    JobAlike djb djb' ∧ ∃ sess, s.sessions.get? djb'.session = some sess ∧
      sess.status = .initialized

/-- The session of the job behind a job is initialized, so the two are paired. -/
theorem paired_of_inv {t : Stack R} (hinv : StackInv t) {j : Nat} {jb : Job} {d : Device}
    {p h : Nat} {s : DeviceState R} (hget : t.driver.jobs.get? j = some jb)
    (hdev : deviceOf t.driver jb.device = some d)
    (hp : (t.world d.library.key).job jb.deviceJob = some p) (halike : AlikeBehind t j s h) :
    ∃ djb djb', Paired p h (t.world d.library.key).device s djb djb' := by
  rcases halike.alike with ⟨djb, djb', hdjb, hget', hjobs, hsess'⟩
  rw [(behind_of_job hget hdev).2, jobAt, hp, Option.bind_some] at hdjb
  rcases hinv.joined j jb d hget hdev with ⟨djb₀, hat, hname⟩
  rw [jobAt, hp, Option.bind_some, hdjb, Option.some.injEq] at hat
  rw [← hat] at hname
  rcases Option.bind_eq_some_iff.mp hdev with ⟨sess, hsess, hd⟩
  rcases hinv.ready jb.device sess d (by
    rw [deviceAt, hsess, Option.bind_some, hd, Option.map_some]) with ⟨token, _, hready⟩
  rw [sessionAt, hname, Option.bind_some] at hready
  refine ⟨djb, djb', hdjb, hget', hjobs, ⟨Heap.get?_lt_next hready, fun sess' hsess'' => ?_⟩,
    hsess'⟩
  rw [hready, Option.some.injEq] at hsess''
  rw [← hsess'']

section

variable [Zero R] [DecidableEq R] [Add R] [Mul R] [Div R] [DoubleRepr R]
variable {addr : DeviceHandle → Nat} {img : Nat × List UInt8 → Image}
variable {t t' : Stack R} {c : StackCall R} {out : StackOut R} {j : Nat} {jb : Job}

/-- A call of a client on a job is one call of the device job behind it, and the
    client is told what the library has answered. -/
theorem stackStep_jobCall {jc : JobCall} (hop : jobCallOf c.call.op = some (j, jc))
    (hstep : stackStep addr img t c = .ok (out, t')) :
    ∃ jb d p s, t.driver.jobs.get? j = some jb ∧ deviceOf t.driver jb.device = some d ∧
      (t.world d.library.key).job jb.deviceJob = some p ∧
      deviceStep (img d.library.key) (t.world d.library.key).device ⟨jc.op p, c.env 0⟩ =
        .ok (out.reply, s) ∧
      t'.driver = t.driver ∧
      t'.world d.library.key = { t.world d.library.key with device := s } := by
  rcases stackStep_cases hstep with ⟨hdriver, hworld, _⟩
  have hlabels := stackStep_labels hstep
  rcases driverStep_jobCall hop hdriver with ⟨jb, sess, d, hget, hdev, _, hevents, ht⟩
  rw [hevents] at hlabels
  rcases List.map_eq_singleton_iff.mp hlabels with ⟨e, htr, hlabel⟩
  rw [htr] at hworld
  rcases runs_cons hworld with ⟨hone, hnil⟩
  rw [hlabel] at hone
  rcases worldStep_call hone rfl with ⟨op, outcome, s, hlib, hdevice, _, ho, hw⟩
  rcases pointer_eq_ok hlib with ⟨p, hp, hlib⟩
  rw [hlib] at hdevice
  refine ⟨jb, d, p, s, hget, (deviceOf_of_deviceAt hdev).2, hp, ?_, ht, ?_⟩
  · -- The reply of the library is passed on.
    have hreply : out.reply = outcome := by
      rcases e with ⟨pre, label, o, post⟩
      dsimp only at hlabel ho
      rw [StackOut.reply, htr, hlabel, ho]
      rfl
    rw [hreply]
    exact hdevice
  · rw [runs_nil hnil, hw, Function.update_self]
    rfl

/-- A call of a client on a job goes as it would on a device job that is alike. -/
theorem stackStep_transparent {op : JobOp} {h : Nat} {s : DeviceState R} (hinv : StackInv t)
    (hop : clientOp j c.call.op = some op) (halike : AlikeBehind t j s h) {env : Env R}
    (hmem : (c.env 0).mem = env.mem)
    (hbit : ∀ status, op = .check status → (c.env 0).bit = env.bit) {key : Nat × List UInt8}
    {p : Nat} (hbehind : jobBehind t j = some (key, p))
    (hstep : stackStep addr img t c = .ok (out, t')) :
    ∃ s', deviceStep (img key) s ⟨op.on h, env⟩ = .ok (out.reply, s') ∧
      AlikeBehind t' j s' h := by
  rcases Option.bind_eq_some_iff.mp hop with ⟨⟨i, jc⟩, hcall, hown⟩
  rcases Option.ite_none_right_eq_some.mp hown with ⟨⟨hi, hcomp⟩, hjop⟩
  dsimp only at hi hcomp
  rw [Option.some.injEq] at hjop
  rw [hi] at hcall
  rw [hjop] at hcomp
  rcases stackStep_jobCall hcall hstep with ⟨jb, d, q, s₁, hget, hdev, hq, hdevice, ht, hw⟩
  -- The library and the handle are the ones behind the job.
  rw [(behind_of_job hget hdev).1, hq, Option.map_some, Option.some.injEq, Prod.mk.injEq]
    at hbehind
  rw [← hbehind.1]
  rcases paired_of_inv hinv hget hdev hq halike with ⟨djb, djb', hp⟩
  rw [jobOp_on, hjop] at hdevice
  rcases jobOp_matches hp (img d.library.key) hcomp hmem hbit out.reply s₁ hdevice with
    ⟨s', hstep', djb₁, djb₁', hp'⟩
  have hget' : t'.driver.jobs.get? j = some jb := by rw [ht, hget]
  have hdev' : deviceOf t'.driver jb.device = some d := by rw [ht, hdev]
  refine ⟨s', hstep', djb₁, djb₁', ?_, hp'.get', hp'.alike, hp'.session'⟩
  rw [(behind_of_job hget' hdev').2, hw, jobAt]
  dsimp only
  rw [hq, Option.bind_some]
  exact hp'.get

/-- Any other call leaves the job as it is. It is about something else, or it
    reports what cannot be compared and changes nothing. -/
theorem stackStep_others (hinv : StackInv t) (hrule : FreesJobs t c) (hkeep : KeepsJob j c)
    (hop : clientOp j c.call.op = none) (hget : t.driver.jobs.get? j = some jb)
    (hstep : stackStep addr img t c = .ok (out, t')) : deviceJobOf t' j = deviceJobOf t j := by
  rcases hcall : jobCallOf c.call.op with _ | ⟨i, jc⟩
  · refine (stackStep_job hinv hrule hkeep hstep hget).2 ⟨hkeep, fun jc hjc => ?_⟩
    rw [hcall] at hjc
    exact absurd hjc (by simp only [reduceCtorEq, not_false_eq_true])
  by_cases hi : i = j
  · -- A call on the job that is not compared is a query.
    rw [clientOp, hcall, Option.bind_some, ite_eq_right_iff] at hop
    have hcomp : ¬ jc.jobOp.comparable = true := fun hc =>
      absurd (hop ⟨hi, hc⟩) (by simp only [reduceCtorEq, not_false_eq_true])
    rw [hi] at hcall
    rcases stackStep_jobCall hcall hstep with ⟨jb', d, p, s, hget', hdev, hp, hdevice, ht, hw⟩
    have hquery : ∃ q args, jc.op p = .query q args := by
      cases jc with
      | queryProperty prop args => exact ⟨_, _, rfl⟩
      | getResults index kind args => exact ⟨_, _, rfl⟩
      | _ => exact absurd rfl hcomp
    rcases hquery with ⟨q, args, hq⟩
    rw [hq] at hdevice
    have hsame := (deviceStep_query hdevice).2
    rw [(behind_of_job hget' hdev).2,
      (behind_of_job (t := t') (by rw [ht, hget']) (by rw [ht, hdev])).2, hw, hsame]
  · refine (stackStep_job hinv hrule hkeep hstep hget).2 ⟨hkeep, fun jc' hjc => ?_⟩
    rw [hcall, Option.some.injEq, Prod.mk.injEq] at hjc
    exact hi hjc.1

/-- Until a job is freed, its client is told what it would be told of a device job
    that is used alone: take any device with a job that is alike, make the calls
    of the client in the same order with the same outcomes of their allocations
    and the same bits for its checks, and every reply is the same. The induction
    is on the run of the stack. -/
theorem stackRuns_transparent (addr : DeviceHandle → Nat) (img : Nat × List UInt8 → Image)
    (tr tr' : List (StackEntry R)) (t u : Stack R) (hrun : StackRuns addr img tr t)
    (hrule : Respects FreesJobs tr) (hcont : Runs (stackStep addr img) t tr' u)
    (hrule' : Respects FreesJobs tr') (j : Nat) (jb : Job)
    (hget : t.driver.jobs.get? j = some jb) (hkeep : Respects (fun _ c => KeepsJob j c) tr')
    (key : Nat × List UInt8) (p : Nat) (hbehind : jobBehind t j = some (key, p))
    (s : DeviceState R) (h : Nat) (halike : AlikeBehind t j s h) (envs : Nat → Env R)
    (henvs : ∀ k own, (clientPart j tr')[k]? = some own →
      own.env.mem = (envs k).mem ∧ ∀ status, own.op = .check status →
        own.env.bit = (envs k).bit) :
    ∃ alone s', Runs (deviceStep (img key)) s alone s' ∧
      alone.map Entry.label = (clientPart j tr').mapIdx (fun k own => ⟨own.op.on h, envs k⟩) ∧
      alone.map Entry.out = (clientPart j tr').map OwnCall.out ∧ AlikeBehind u j s' h := by
  have hinv := stackRuns_inv hrun hrule
  induction hcont with
  | refl => exact ⟨[], s, Runs.refl, rfl, rfl, halike⟩
  | snoc hr hstep ih =>
      rename_i v w tr₀ c out
      rcases respects_append.mp hrule' with ⟨hrulePre, hruleLast⟩
      rcases respects_append.mp hkeep with ⟨hkeepPre, hkeepLast⟩
      have hfirst : FreesJobs v c := hruleLast _ (List.mem_singleton.mpr rfl)
      have hstays : KeepsJob j c := hkeepLast _ (List.mem_singleton.mpr rfl)
      rcases stackRuns_whileKept (K := fun t t' => JobPersists t t' j)
        (fun t => jobPersists_refl t j) (fun _ _ _ => jobPersists_trans)
        (fun _ _ _ _ hinv hr hc hstep hj => by
          have hpersists := (stackStep_job hinv hr hc hstep hj).1
          exact ⟨hpersists, hpersists.live.trans hj⟩) hinv hr hrulePre hkeepPre hget with
        ⟨hinv', hpersists, hget'⟩
      have hsplit : clientPart j (tr₀ ++ [⟨v, c, out, w⟩]) =
          clientPart j tr₀ ++ clientPart j [⟨v, c, out, w⟩] := List.filterMap_append
      rw [hsplit] at henvs ⊢
      rcases ih hrulePre hkeepPre (fun k own hown => henvs k own (by
        rw [List.getElem?_append_left (List.getElem?_eq_some_iff.mp hown).1, hown])) with
        ⟨alone, s', hrun', hlabels, houts, halike'⟩
      rcases hop : clientOp j c.call.op with _ | op
      · have hnil : clientPart j [⟨v, c, out, w⟩] = [] := by
          simp only [clientPart, List.filterMap_cons, hop, Option.map_none, List.filterMap_nil]
        rw [hnil, List.append_nil]
        refine ⟨alone, s', hrun', hlabels, houts, ?_⟩
        have hsame := stackStep_others hinv' hfirst hstays hop hget' hstep
        rcases halike'.alike with ⟨djb, djb', hdjb, hrest⟩
        exact ⟨djb, djb', by rw [hsame, hdjb], hrest⟩
      · have hone : clientPart j [⟨v, c, out, w⟩] = [⟨op, c.env 0, out.reply⟩] := by
          simp only [clientPart, List.filterMap_cons, hop, Option.map_some, List.filterMap_nil]
        have hlast := henvs (clientPart j tr₀).length ⟨op, c.env 0, out.reply⟩ (by
          rw [hone, List.getElem?_concat_length])
        rcases stackStep_transparent hinv' hop halike' hlast.1 hlast.2
          (hpersists.behind.trans hbehind) hstep with ⟨s'', hstep', halike''⟩
        rw [hone]
        refine ⟨_, s'', Runs.snoc hrun' hstep', ?_, ?_, halike''⟩
        · rw [List.map_append, List.mapIdx_concat, hlabels]
          rfl
        · rw [List.map_append, List.map_append, houts]
          rfl

end

/-! ## A job among the calls of another client -/

/-- The first client configures its job, submits it, polls it and asks for its
    shots. The second opens the same devices and has a job of its own there. -/
def mixedOps : List DriverOp := [
  .sessionSetParameter (some 1) SessionParameter.token 2 (some (fun i => if i = 0 then 117 else 0)),
  .jobSetPrograms (some 0) ProgramFormat.qasm2.code 1 (some (fun _ => 2))
    (some (fun _ => some (fun i => if i = 0 then 120 else 0))),
  .sessionInit (some 1), .deviceCreateJob (some { session := 1, index := 1 }) true,
  .jobSubmit (some 0), .jobCancel (some 1), .jobCheck (some 0) true, .jobFree (some 1),
  .jobGetResults (some 0) 0 JobResult.shots.code { size := 0, value := none, sizeRet := true }]

theorem mixedOps_keeps : ∀ c ∈ stackCalls mixedOps, KeepsJob 0 c := by
  intro c hc
  simp only [stackCalls, mixedOps, List.map_cons, List.map_nil, List.mem_cons,
    List.not_mem_nil, or_false] at hc
  rcases hc with rfl | rfl | rfl | rfl | rfl | rfl | rfl | rfl | rfl
  all_goals simp [KeepsJob]

/-- The client gets four replies, and they are those of the device alone. -/
theorem stackRuns_transparent_sample :
    ∃ tr tr' t u alone s', StackRuns (R := ℚ) (fun _ => 0) (fun _ => sampleImage) tr t ∧
      Runs (stackStep (fun _ => 0) (fun _ => sampleImage)) t tr' u ∧ tr'.length = 9 ∧
      Runs (deviceStep (R := ℚ) sampleImage) sampleCreated alone s' ∧ alone.length = 4 ∧
      alone.map Entry.out = (clientPart 0 tr').map OwnCall.out := by
  rcases stackRuns_continued (submitOps.take 5) mixedOps (fun t tr' _ =>
    (t.driver.jobs.get? 0).bind (fun jb => (jobBehind t 0).bind (fun x => (deviceJobOf t 0).map
      (fun djb => (djb, jb, x, tr'.length, (clientPart 0 tr').length)))))
    ({ session := 1, status := .created }, ⟨⟨0, 1⟩, 2⟩, ((0, [65]), 0), 9, 4) rfl with
    ⟨tr, tr', t, u, hrun, hrule, hrun', hrule', hlabels, hv⟩
  rcases Option.bind_eq_some_iff.mp hv with ⟨jb, hget, hv⟩
  rcases Option.bind_eq_some_iff.mp hv with ⟨⟨key, p⟩, hbehind, hv⟩
  rcases Option.map_eq_some_iff.mp hv with ⟨djb, hdjb, hv⟩
  simp only [Prod.mk.injEq] at hv
  have hkeep : Respects (fun _ c => KeepsJob 0 c) tr' := respects_of_calls hlabels mixedOps_keeps
  -- The job is as new as the one of the device that is used alone.
  have halike : AlikeBehind t 0 sampleCreated 0 := by
    refine ⟨djb, { session := 0, status := .created }, hdjb, rfl, ?_, _, rfl, rfl⟩
    rw [hv.1]
    exact ⟨rfl, rfl, rfl, rfl, List.Forall₂.nil⟩
  have henvs : ∀ (k : Nat) (own : OwnCall ℚ), (clientPart 0 tr')[k]? = some own →
      own.env.mem = Qdmi.sampleEnv.mem ∧
        ∀ status, own.op = .check status → own.env.bit = Qdmi.sampleEnv.bit := by
    intro k own hown
    rcases List.mem_filterMap.mp (List.mem_of_getElem? hown) with ⟨e, he, hmap⟩
    rcases Option.map_eq_some_iff.mp hmap with ⟨op, _, rfl⟩
    have hmem : e.label ∈ stackCalls mixedOps := by
      rw [← hlabels]
      exact List.mem_map_of_mem he
    rcases List.mem_map.mp hmem with ⟨_, _, hlabel⟩
    rw [← hlabel]
    exact ⟨rfl, fun _ _ => rfl⟩
  rcases stackRuns_transparent (fun _ => 0) (fun _ => sampleImage) tr tr' t u hrun hrule hrun'
    hrule' 0 jb hget hkeep key p hbehind sampleCreated 0 halike (fun _ => Qdmi.sampleEnv) henvs with
    ⟨alone, s', halone, _, houts, _⟩
  refine ⟨tr, tr', t, u, alone, s', hrun, hrun', hv.2.2.2.1, halone, ?_, houts⟩
  have hlen := congrArg List.length houts
  rw [List.length_map, List.length_map] at hlen
  rw [hlen]
  exact hv.2.2.2.2

end Driver

end Qdmi
