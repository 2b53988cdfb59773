import Qdmi.Theory.Device.Shots
import Qdmi.Theory.Stack.Machine

/-!
# The Service of a Job

A client that sets the shots and the programs of a new job, submits it and waits for
it is served, with all kinds of things going on between its four commands.

A `Request` is what a client may ask for. The machine of a job serves it
(`obeys_request`), and in a run of the stack every job is its machine.

## Main definitions

* `Request`, `Request.calls`: What a client asks for, and its commands.
* `Served`: A job that was served.

## Theorems

* `obeys_request`: The machine serves a request.
* `stackRuns_serves`: From a new job to its results.
-/

namespace Qdmi

namespace Driver

variable {R : Type}

/-! ## A request -/

/-- What a client asks of a new job: a number of shots and some programs, by the
    rules of the interface, and with room for the copies and the results. -/
structure Request where
  shots : Nat → UInt8
  format : Nat
  count : Nat
  sizes : Nat → Nat
  programs : Nat → Option (Nat → UInt8)
  nonempty : 0 < count
  supported : format ∈ supportedProgramFormats
  wellFormed : ∀ i < count, WellFormed format (sizes i) (programs i)
  count_le : count ≤ vectorMaxSize 48
  sizes_le : ∀ i < count, sizes i ≤ vectorMaxSize 1
  shots_le : leNat (readBytes shots 8) ≤ vectorMaxSize 32

/-- The commands for a request. -/
def Request.calls (req : Request) (timeout : Nat) : List JobCall := [
  .setParameter DeviceJobParameter.shotsnum 8 (some req.shots),
  .setPrograms req.format req.count (some req.sizes) (some req.programs), .submit, .wait timeout]

/-- A job that was served: it is done, with the programs of the request, and for each
    of them the shots that belong to it. -/
structure Served (req : Request) (djb : DeviceJob R) : Prop where
  status : djb.status = .done
  format : djb.format = req.format
  programs : djb.programs = (List.range req.count).map (programBytes req.sizes req.programs)
  numShots : djb.numShots = leNat (readBytes req.shots 8)
  results : List.Forall₂ (ShotsOf djb 5) djb.programs djb.results

section

variable {djb : DeviceJob R} {env : Env R} {req : Request}

/-- The job that is submitted for a request. -/
def Request.configured (req : Request) (djb : DeviceJob R) : DeviceJob R :=
  Qdmi.configured { djb with numShots := leNat (readBytes req.shots 8) } req.format req.count
    req.sizes req.programs

/-- There is something in it to submit, and it fits. -/
theorem request_submittable (req : Request) (djb : DeviceJob R) :
    (req.configured djb).programs ≠ [] ∧ Submittable (req.configured djb) := by
  have hlen : (req.configured djb).programs.length = req.count := by
    rw [Request.configured, Qdmi.configured, List.length_map, List.length_range]
  refine ⟨fun hnil => ?_, by rw [hlen]; exact req.count_le, fun program hp => ?_, req.shots_le⟩
  · have hpos := req.nonempty
    rw [hnil, List.length_nil] at hlen
    omega
  · rcases List.mem_map.mp hp with ⟨i, hi, rfl⟩
    rw [List.mem_range] at hi
    rcases req.wellFormed i hi with ⟨_, _, hsize, _⟩
    have hlen' : (programBytes req.sizes req.programs i).length = req.sizes i :=
      length_readBytes _ _
    refine ⟨fun hnil => ?_, by rw [hlen']; exact req.sizes_le i hi⟩
    rw [hnil, List.length_nil] at hlen'
    omega

variable [Zero R] [Add R] [Mul R] [Div R] [DoubleRepr R]

theorem jobCommand_shots (env : Env R) (hst : djb.status = .created) (req : Request) :
    jobCommand djb env (.setParameter DeviceJobParameter.shotsnum 8 (some req.shots)) =
      changed { djb with numShots := leNat (readBytes req.shots 8) } := by
  simp [jobCommand, hst, isInvalidEnumValue, DeviceJobParameter.shotsnum, DeviceJobParameter.max]

theorem jobCommand_programs (djb : DeviceJob R) (hmem : ∀ i, env.mem i = true)
    (hst : djb.status = .created) (req : Request) : jobCommand djb env
      (.setPrograms req.format req.count (some req.sizes) (some req.programs)) =
        changed (Qdmi.configured djb req.format req.count req.sizes req.programs) := by
  have hsup := (supportedFormat_iff req.format).mpr req.supported
  have hpos := req.nonempty
  have hargs : ¬ (req.count = 0 ∨ validFormat req.format = false) := by
    simp only [validFormat_of_supported hsup, Bool.true_eq_false, or_false]
    omega
  have hcount : req.count ≤ vectorMaxSize 24 :=
    req.count_le.trans (Nat.div_le_div_left (by decide) (by decide))
  have hcopy : copyPrograms env req.format req.count req.sizes req.programs =
      .ok ((List.range req.count).map (programBytes req.sizes req.programs)) := by
    refine copyPrograms_eq_ok_iff.mpr ⟨⟨hcount, hmem 0, fun i hi => ?_⟩, rfl⟩
    exact ⟨(validProgram_iff req.supported).mpr (req.wellFormed i hi), req.sizes_le i hi, hmem _⟩
  simp only [jobCommand, if_neg hargs, hst, hsup, hcopy, ne_eq, not_true_eq_false, if_false,
    Bool.true_eq_false, Qdmi.configured]

theorem jobCommand_submit (djb : DeviceJob R) (hmem : ∀ i, env.mem i = true)
    (hst : djb.status = .created) (hne : djb.programs ≠ []) (hsub : Submittable djb) :
    ∃ results, jobCommand djb env .submit = changed { djb with results, status := .running } ∧
      List.Forall₂ (ShotsOf djb 5) djb.programs results := by
  rcases submitResults_succeeds hmem hsub with ⟨results, hresults⟩
  refine ⟨results, ?_, submitResults_shots hresults⟩
  simp only [jobCommand, hst, hne, hresults, ne_eq, not_true_eq_false, if_false]

theorem jobCommand_wait (hst : djb.status = .running) (timeout : Nat) :
    jobCommand djb env (.wait timeout) = changed { djb with status := .done } := by
  simp only [jobCommand, hst, reduceCtorEq, or_self, if_false]

/-- A machine that is given the commands of a request serves it. -/
theorem obeys_request {ks : List (Command R)} {djb' : DeviceJob R} {timeout : Nat}
    (hobeys : Obeys djb ks djb') (hcalls : ks.map Command.call = req.calls timeout)
    (hmem : ∀ k ∈ ks, ∀ i, k.env.mem i = true) (hst : djb.status = .created) :
    (∀ k ∈ ks, k.reply = .ok { status := .success }) ∧ Served req djb' := by
  rw [Request.calls] at hcalls
  rcases ks with _ | ⟨k₁, _ | ⟨k₂, _ | ⟨k₃, _ | ⟨k₄, _ | ⟨k₅, ks⟩⟩⟩⟩⟩
  all_goals simp only [List.map_cons, List.map_nil, List.cons.injEq, and_true, and_false,
    List.nil_eq, List.cons_ne_nil] at hcalls
  rcases hcalls with ⟨h₁, h₂, h₃, h₄⟩
  rcases List.forall_mem_cons.mp (List.forall_mem_cons.mp hmem).2 with ⟨hmem₂, hrest⟩
  have hmem₃ := (List.forall_mem_cons.mp hrest).1
  -- One command after the other.
  rcases hobeys with ⟨hr₁, hobeys⟩
  rw [h₁, jobCommand_shots _ hst] at hr₁ hobeys
  rcases hobeys with ⟨hr₂, hobeys⟩
  have hconfigure := jobCommand_programs { djb with numShots := leNat (readBytes req.shots 8) }
    hmem₂ hst req
  dsimp only [changed] at hr₂ hobeys
  rw [h₂, hconfigure] at hr₂ hobeys
  rcases hobeys with ⟨hr₃, hobeys⟩
  rcases request_submittable req djb with ⟨hne, hsub⟩
  rcases jobCommand_submit (req.configured djb) hmem₃ hst hne hsub with ⟨results, hsubmit, hall⟩
  dsimp only [changed] at hr₃ hobeys
  rw [h₃, ← Request.configured, hsubmit] at hr₃ hobeys
  rcases hobeys with ⟨hr₄, hend⟩
  dsimp only [changed] at hr₄ hend
  rw [h₄, jobCommand_wait rfl] at hr₄ hend
  rw [Obeys] at hend
  refine ⟨?_, ?_⟩
  · simp only [List.forall_mem_cons]
    exact ⟨hr₁, hr₂, hr₃, hr₄, List.forall_mem_nil _⟩
  · rw [hend]
    exact ⟨rfl, rfl, rfl, rfl, hall⟩

variable [DecidableEq R]

/-- Behind every run of clients that free jobs before their session, a client is
    served: among any other calls, its request is answered with success at every
    command, and the job is done and has what was asked for. -/
theorem stackRuns_serves (addr : DeviceHandle → Nat) (img : Nat × List UInt8 → Image)
    (tr tr' : List (StackEntry R)) (t u : Stack R) (hrun : StackRuns addr img tr t)
    (hrule : Respects FreesJobs tr) (hcont : Runs (stackStep addr img) t tr' u)
    (hrule' : Respects FreesJobs tr') (j : Nat) (cj : Job)
    (hget : t.driver.jobs.get? j = some cj) (hkeep : Respects (fun _ c => KeepsJob j c) tr')
    (djb : DeviceJob R) (hdjb : deviceJobOf t j = some djb) (hst : djb.status = .created)
    (req : Request) (timeout : Nat)
    (hcalls : (commands j tr').map Command.call = req.calls timeout)
    (hmem : ∀ k ∈ commands j tr', ∀ i, k.env.mem i = true) :
    (∀ k ∈ commands j tr', k.reply = .ok { status := .success }) ∧
      ∃ djb', deviceJobOf u j = some djb' ∧ Served req djb' := by
  rcases runs_behind ⟨stackRuns_inv hrun hrule, hget, hdjb⟩ hcont hrule' hkeep with
    ⟨djb', hb', hobeys⟩
  rcases obeys_request hobeys hcalls hmem hst with ⟨hreplies, hserved⟩
  exact ⟨hreplies, djb', hb'.job, hserved⟩

end

/-! ## A request among the calls of another client -/

/-- One shot of one program. -/
def sampleRequest : Request where
  shots i := if i = 0 then 1 else 0
  format := ProgramFormat.qasm2.code
  count := 1
  sizes _ := 2
  programs _ := some (fun i => if i = 0 then 120 else 0)
  nonempty := by decide
  supported := by decide
  wellFormed i _ := ⟨_, rfl, by decide, fun _ => by decide⟩
  count_le := by decide
  sizes_le i _ := by decide
  shots_le := by decide

/-- While the first client works on its request the second opens its session, makes
    a job on the same device, cancels it and frees it. -/
def requestOps : List DriverOp := [
  .sessionSetParameter (some 1) SessionParameter.token 2 (some (fun i => if i = 0 then 117 else 0)),
  .jobSetParameter (some 0) DeviceJobParameter.shotsnum 8 (some sampleRequest.shots),
  .sessionInit (some 1),
  .jobSetPrograms (some 0) sampleRequest.format 1 (some sampleRequest.sizes)
    (some sampleRequest.programs),
  .deviceCreateJob (some { session := 1, index := 1 }) true, .jobSubmit (some 0),
  .jobCancel (some 1), .jobCheck (some 1) true, .jobFree (some 1), .jobWait (some 0) 0]

theorem requestOps_keeps : ∀ c ∈ stackCalls requestOps, KeepsJob 0 c := by
  intro c hc
  simp only [stackCalls, requestOps, List.map_cons, List.map_nil, List.mem_cons,
    List.not_mem_nil, or_false] at hc
  rcases hc with rfl | rfl | rfl | rfl | rfl | rfl | rfl | rfl | rfl | rfl
  all_goals simp [KeepsJob]

/-- In these calls memory does not run out. -/
theorem commands_mem {ops : List DriverOp} {tr : List (StackEntry ℚ)}
    (hlabels : tr.map Entry.label = stackCalls ops) (j : Nat) :
    ∀ k ∈ commands j tr, ∀ i, k.env.mem i = true := by
  intro k hk
  rcases List.mem_filterMap.mp hk with ⟨e, he, hcommand⟩
  have hlabel : e.label ∈ stackCalls ops := by
    rw [← hlabels]
    exact List.mem_map_of_mem he
  rcases List.mem_map.mp hlabel with ⟨_, _, hlabel⟩
  rw [(commandOf_eq_some hcommand).2.2.1, ← hlabel]
  exact fun _ => rfl

theorem stackRuns_serves_sample :
    ∃ tr tr' t u djb, StackRuns (R := ℚ) (fun _ => 0) (fun _ => sampleImage) tr t ∧
      Runs (stackStep (fun _ => 0) (fun _ => sampleImage)) t tr' u ∧ tr'.length = 10 ∧
      (commands 0 tr').length = 4 ∧ deviceJobOf u 0 = some djb ∧ Served sampleRequest djb := by
  rcases stackRuns_continued (submitOps.take 5) requestOps (fun t tr' _ =>
    (t.driver.jobs.get? 0).bind (fun cj => (deviceJobOf t 0).map
      (fun djb => (djb, cj, tr'.length))))
    ({ session := 1, status := .created }, ⟨⟨0, 1⟩, 2⟩, 10) rfl with
    ⟨tr, tr', t, u, hrun, hrule, hrun', hrule', hlabels, hv⟩
  rcases Option.bind_eq_some_iff.mp hv with ⟨cj, hget, hv⟩
  rcases Option.map_eq_some_iff.mp hv with ⟨djb, hdjb, hv⟩
  simp only [Prod.mk.injEq] at hv
  have hst : djb.status = .created := by rw [hv.1]
  have hcalls : (commands 0 tr').map Command.call = sampleRequest.calls 0 := by
    rw [commands_calls, hlabels]
    rfl
  rcases stackRuns_serves (fun _ => 0) (fun _ => sampleImage) tr tr' t u hrun hrule hrun' hrule' 0
    cj hget (respects_of_calls hlabels requestOps_keeps) djb hdjb hst sampleRequest 0 hcalls
    (commands_mem hlabels 0) with ⟨_, djb', hdjb', hserved⟩
  have hlen := congrArg List.length hcalls
  rw [List.length_map] at hlen
  exact ⟨tr, tr', t, u, djb', hrun, hrun', hv.2.2, hlen, hdjb', hserved⟩

end Driver

end Qdmi
