import Qdmi.Theory.Stack.Machine

/-!
# Reading a Job

A client that reads a job twice is told the same twice, unless it has given the job
a command in between. When the job has ended not even that is needed: a job that is
done or canceled stays as it is until it is freed, and so do its results, its
programs and everything else it reports.

This is about all that can be read, the identity and the amplitudes too. Between
the two reads other clients may do what they like.

## Main definitions

* `Ended`: A job that is done or canceled.

## Theorems

* `jobCommand_ended`: A job that has ended stays as it is.
* `deviceStep_reads`: What is read depends on the device job.
* `stackRuns_reads`: Reading twice.
-/

namespace Qdmi

namespace Driver

variable {R : Type}

/-- A job that is done or canceled. -/
def Ended (jb : DeviceJob R) : Prop := jb.status = .done ∨ jb.status = .canceled

section

variable [Zero R] [Add R] [Mul R] [Div R] [DoubleRepr R]
variable {jb jb' : DeviceJob R}

/-- A job that has ended stays as it is. -/
theorem jobCommand_ended (h : Ended jb) (env : Env R) (jc : JobCall) :
    (jobCommand jb env jc).2 = jb := by
  have hcreated : jb.status ≠ .created := by
    rcases h with h | h
    all_goals rw [h]; decide
  have hrunning : jb.status ≠ .running := by
    rcases h with h | h
    all_goals rw [h]; decide
  unfold jobCommand
  cases jc with
  | setParameter param size value =>
      dsimp only
      split
      · rfl
      · rfl
  | setPrograms format count sizes programs =>
      dsimp only
      split
      · rfl
      · rfl
  | submit =>
      dsimp only
      rw [if_pos hcreated]
      rfl
  | cancel =>
      dsimp only
      split
      · rfl
      · -- To cancel it again changes nothing.
        rename_i hdone
        rw [changed, ← h.resolve_left hdone]
  | check status =>
      dsimp only
      split
      · rfl
      · rw [if_neg (fun hrun => hrunning hrun.1)]
  | wait timeout =>
      dsimp only
      rw [if_pos (by rcases h with h | h; exact Or.inl h; exact Or.inr (Or.inl h))]
      rfl
  | _ => rfl

/-- Commands do not bring it back. -/
theorem obeys_ended {ks : List (Command R)} (h : Ended jb) (hobeys : Obeys jb ks jb') :
    jb' = jb := by
  induction ks with
  | nil => exact hobeys
  | cons k ks ih =>
      have hrest := hobeys.2
      rw [jobCommand_ended h] at hrest
      exact ih hrest

variable [DecidableEq R]

/-- What is read depends on the device job, and on the allocations that are made to
    report it. -/
theorem deviceStep_reads {img img' : Image} {s s₁ s' s₁' : DeviceState R} {p p' : Nat}
    {env env' : Env R} {out out' : Except Exn Reply} {jc : JobCall}
    (hget : s.jobs.get? p = some jb) (hget' : s'.jobs.get? p' = some jb)
    (hread : jc.command = false) (hmem : env.mem = env'.mem)
    (hstep : deviceStep img s ⟨jc.op p, env⟩ = .ok (out, s₁))
    (hstep' : deviceStep img' s' ⟨jc.op p', env'⟩ = .ok (out', s₁')) : out = out' := by
  cases jc with
  | getProgram index args =>
      have hone := (deviceStep_query hstep).1
      have htwo := (deviceStep_query hstep').1
      simp only [deviceQuery, deviceJobGetProgram, hget, hget'] at hone htwo
      rw [hone, Except.ok.injEq] at htwo
      exact htwo
  | getProgramStatus index =>
      simp only [deviceStep, JobCall.op, deviceJobGetProgramStatus, hget, hget'] at hstep hstep'
      split at hstep
      · rename_i hnone
        rw [if_pos hnone] at hstep'
        rw [(answer_eq_ok.mp hstep).1, (answer_eq_ok.mp hstep').1]
      · rename_i hsome
        rw [if_neg hsome] at hstep'
        split at hstep
        · rename_i hrange
          rw [if_pos hrange] at hstep'
          rw [(answer_eq_ok.mp hstep).1, (answer_eq_ok.mp hstep').1]
        · rename_i hrange
          rw [if_neg hrange] at hstep'
          rw [(answer_eq_ok.mp hstep).1, (answer_eq_ok.mp hstep').1]
  | queryProperty prop args =>
      have hone := (deviceStep_query hstep).1
      have htwo := (deviceStep_query hstep').1
      simp only [deviceQuery, deviceJobQueryProperty, hget, hget'] at hone htwo
      rw [hone, Except.ok.injEq] at htwo
      exact htwo
  | getResults index kind args =>
      have hone := (deviceStep_query hstep).1
      have htwo := (deviceStep_query hstep').1
      simp only [deviceQuery, deviceJobGetResults, hget, hget', hmem] at hone htwo
      rw [hone, Except.ok.injEq] at htwo
      exact htwo
  | _ => exact absurd hread (by simp only [JobCall.command, Bool.true_eq_false,
      not_false_eq_true])

variable {addr : DeviceHandle → Nat} {img : Nat × List UInt8 → Image}

/-- Behind every run of clients that free jobs before their session, a client that
    reads a job twice, with the same call and the same outcome of its allocations, is
    told the same, if it gives no command to the job in between or the job has ended
    before. -/
theorem stackRuns_reads (addr : DeviceHandle → Nat) (img : Nat × List UInt8 → Image)
    (tr before between after : List (StackEntry R)) (e e' : StackEntry R) (t u : Stack R)
    (hrun : StackRuns addr img tr t) (hrule : Respects FreesJobs tr)
    (hcont : Runs (stackStep addr img) t (before ++ e :: (between ++ e' :: after)) u)
    (hrule' : Respects FreesJobs (before ++ e :: (between ++ e' :: after))) (j : Nat) (cj : Job)
    (hget : t.driver.jobs.get? j = some cj)
    (hkeep : Respects (fun _ c => KeepsJob j c) (before ++ e :: (between ++ e' :: after)))
    (djb : DeviceJob R) (hdjb : deviceJobOf t j = some djb) (jc : JobCall)
    (hread : jc.command = false) (hop : jobCallOf e.label.call.op = some (j, jc))
    (hop' : jobCallOf e'.label.call.op = some (j, jc))
    (hmem : (e.label.env 0).mem = (e'.label.env 0).mem)
    (hsame : commands j between = [] ∨ ∀ djb₁, deviceJobOf e.pre j = some djb₁ → Ended djb₁) :
    e.out.reply = e'.out.reply := by
  rcases runs_at hcont with ⟨hbefore, hstep, hrest⟩
  rcases runs_at hrest with ⟨hbetween, hstep', _⟩
  rcases respects_append.mp hrule' with ⟨hruleBefore, hruleRest⟩
  rcases respects_append.mp hkeep with ⟨hkeepBefore, hkeepRest⟩
  rcases List.forall_mem_cons.mp hruleRest with ⟨hruleRead, hruleRest⟩
  rcases List.forall_mem_cons.mp hkeepRest with ⟨hkeepRead, hkeepRest⟩
  rcases runs_behind ⟨stackRuns_inv hrun hrule, hget, hdjb⟩ hbefore hruleBefore hkeepBefore with
    ⟨djb₁, hb, _⟩
  -- The first read changes nothing, and until the second the job is the same.
  rcases stackStep_behind hb hruleRead hkeepRead hstep with ⟨djb₂, hb₂, hobeys⟩
  have hquiet : commandOf j e = none := by
    rw [commandOf, commandTo, hop, Option.bind_some, hread,
      if_neg (fun h => Bool.false_ne_true h.2)]
    rfl
  have hsecond : djb₂ = djb₁ := by
    rw [hquiet] at hobeys
    exact hobeys
  rcases runs_behind hb₂ hbetween (List.forall_mem_append.mp hruleRest).1
    (List.forall_mem_append.mp hkeepRest).1 with ⟨djb₃, hb₃, hobeys₃⟩
  have hthird : djb₃ = djb₁ := by
    rw [hsecond] at hobeys₃
    rcases hsame with hnone | hended
    · rw [hnone] at hobeys₃
      exact hobeys₃
    · exact obeys_ended (hended djb₁ hb.job) hobeys₃
  rw [hthird] at hb₃
  rcases stackStep_onJob hb hop hstep with ⟨_, p, s, s', _, _, hjob, _, _, hdevice, _⟩
  rcases stackStep_onJob hb₃ hop' hstep' with ⟨_, p', s₁, s₁', _, _, hjob', _, _, hdevice', _⟩
  exact deviceStep_reads hjob hjob' hread hmem hdevice hdevice'

end

/-! ## Results that are read twice -/

/-- A client asks how long its shots are. -/
def readShots : DriverOp :=
  .jobGetResults (some 0) 0 JobResult.shots.code { size := 0, value := none, sizeRet := true }

/-- Between the two reads another client submits a job on the same device, cancels it
    and frees it. -/
theorem stackRuns_reads_sample :
    ∃ tr t e between e' u, StackRuns (R := ℚ) (fun _ => 0) (fun _ => sampleImage) tr t ∧
      Runs (stackStep (fun _ => 0) (fun _ => sampleImage)) t (e :: (between ++ [e'])) u ∧
      between.length = 7 ∧ e.label.call.op = readShots ∧ e'.label.call.op = readShots ∧
      e.out.reply = e'.out.reply := by
  rcases stackRuns_continued (submitOps ++ [.jobWait (some 0) 0])
    (readShots :: (otherOps ++ [readShots])) (fun t _ _ => (t.driver.jobs.get? 0).bind
      (fun cj => (deviceJobOf t 0).map (fun djb => (djb.status, cj)))) (.done, ⟨⟨0, 1⟩, 2⟩) rfl with
    ⟨tr, tr', t, u, hrun, hrule, hrun', hrule', hlabels, hv⟩
  rcases Option.bind_eq_some_iff.mp hv with ⟨cj, hget, hv⟩
  rcases Option.map_eq_some_iff.mp hv with ⟨djb, hdjb, hv⟩
  have hkeep : Respects (fun _ c => KeepsJob 0 c) tr' := by
    refine respects_of_calls hlabels (fun c hc => ?_)
    rcases List.mem_map.mp hc with ⟨op, hop, rfl⟩
    have hops : ∀ op ∈ readShots :: (otherOps ++ [readShots]), op ≠ .jobFree (some 0) := by
      simp [readShots, otherOps]
    exact hops op hop
  have hsplit : tr'.map Entry.label =
      ⟨⟨readShots, sampleEnv⟩, fun _ => Qdmi.sampleEnv, fun _ => true⟩ ::
        (stackCalls otherOps ++ stackCalls [readShots]) := hlabels
  rcases List.map_eq_cons_iff.mp hsplit with ⟨e, rest, rfl, hfirst, hrest⟩
  rcases List.map_eq_append_iff.mp hrest with ⟨between, last, rfl, hbetween, hlast⟩
  rcases List.map_eq_singleton_iff.mp hlast with ⟨e', rfl, hsecond⟩
  have hpre : e.pre = t := runs_nil (runs_at (show Runs _ t ([] ++ e :: _) u from hrun')).1
  have hended : ∀ djb₁, deviceJobOf e.pre 0 = some djb₁ → Ended djb₁ := by
    intro djb₁ hdjb₁
    rw [hpre, hdjb, Option.some.injEq] at hdjb₁
    rw [← hdjb₁]
    exact Or.inl (congrArg Prod.fst hv)
  have hlen := congrArg List.length hbetween
  rw [List.length_map] at hlen
  refine ⟨tr, t, e, between, e', u, hrun, hrun', hlen, by rw [hfirst], by rw [hsecond], ?_⟩
  exact stackRuns_reads (fun _ => 0) (fun _ => sampleImage) tr [] between [] e e' t u hrun hrule
    hrun' hrule' 0 cj hget hkeep djb hdjb (.getResults 0 JobResult.shots.code
      { size := 0, value := none, sizeRet := true }) rfl (by rw [hfirst]; rfl)
    (by rw [hsecond]; rfl) (by rw [hfirst, hsecond]) (Or.inr hended)

end Driver

end Qdmi
