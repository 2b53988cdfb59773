import Qdmi.Theory.Device.Live
import Qdmi.Theory.Stack.Correspondence

/-!
# No Library Looks Behind a Dead Handle

Freeing a handle twice or using it after it was freed is undefined behaviour, and
the client of the driver holds none of the handles of the libraries. So it is for
the driver to see that every handle it passes is live when it is passed, also in
the middle of a call that makes many.

The books settle this. A call of the driver is a deal that they allow, so the
session or the job it names is held, and what is held is live (`call_live`). A
submission looks behind one more handle, the session of the job, and the
invariant of the stack says that this is the session of the device of the job.
What the books do not know about are sites and operations. Their addresses come
from the client and are followed, so a client has to pass those it was given.

## Main definitions

* `KnownAddresses`, `PassesOwn`: The addresses of a client are those of the
  library it asks.

## Theorems

* `call_live`: A call that the books allow.
* `stackStep_safe`, `stackRuns_safe`: No call of a client goes wrong this way.
-/

namespace Qdmi

namespace Driver

variable {R : Type}

/-- The site or the operation a query is about is one of the library. -/
def KnownAddresses (img : Image) : QueryCall → Prop
  | .siteProperty (some addr) _ _ => ∃ site, siteAt img addr = some site
  | .operationProperty (some addr) _ _ _ => ∃ operation, operationAt img addr = some operation
  | _ => True

/-- The queries that a call of a client leads to are about sites and operations
    of the library that is asked. -/
def PassesOwn (img : Nat × List UInt8 → Image) (events : List Event) : Prop :=
  ∀ key n call, .call key (.deviceQuery n call) ∈ events → KnownAddresses (img key) call

/-- With such addresses a query of a device is a query of the entry points. -/
theorem queryCall_known {img : Image} {call : QueryCall} (h : KnownAddresses img call) (p : Nat) :
    ∃ q out, call.op img p = .ok (.query q out) ∧ jobArg (.query q out) = none ∧
      ∀ i, sessionArg (.query q out) = some i → i = p := by
  cases call with
  | deviceProperty prop out =>
      exact ⟨_, _, rfl, rfl, fun i hi => (Option.some.inj hi).symm⟩
  | siteProperty site prop out =>
      rcases site with _ | addr
      · exact ⟨_, _, rfl, rfl, by rintro _ ⟨⟩⟩
      · rcases h with ⟨site, hsite⟩
        simp only [QueryCall.op, hsite]
        exact ⟨_, _, rfl, rfl, by rintro _ ⟨⟩⟩
  | operationProperty operation args prop out =>
      rcases operation with _ | addr
      · exact ⟨_, _, rfl, rfl, by rintro _ ⟨⟩⟩
      · rcases h with ⟨operation, hoperation⟩
        simp only [QueryCall.op, hoperation]
        exact ⟨_, _, rfl, rfl, by rintro _ ⟨⟩⟩

/-- A function of a job looks behind that job. -/
theorem jobCall_args {p : Nat} (call : JobCall) :
    sessionArg (call.op p) = none ∧ jobArg (call.op p) = some p := by
  cases call
  all_goals exact ⟨rfl, rfl⟩

/-- A call that the books allow is made on live handles. -/
theorem call_live {img : Image} {b b' : LibraryBooks} {key : Nat × List UInt8}
    {call : LibraryCall} {l : LibraryState R} (h : MirrorsLibrary (b.opened key) (b.held key) l)
    (hleads : Leads b (call.deals key) b') (fresh : Bool)
    (hknown : ∀ n q, call = .deviceQuery n q → KnownAddresses img q)
    (hsubmit : ∀ n jb, call = .deviceJob n .submit → jobAt l n = some jb →
      ∃ sess, l.device.sessions.get? jb.session = some sess) :
    ∃ op, call.op img l = .ok op ∧ LiveCall (l.found fresh call) op := by
  -- What the first deal of the call names is held, and so it is live.
  have hsession : ∀ {n : Nat}, b.held key (.session n) →
      ∃ p sess, l.session n = some p ∧ l.device.sessions.get? p = some sess :=
    fun hheld => h.sessions.live _ hheld
  have hjob : ∀ {n : Nat}, b.held key (.job n) →
      ∃ p jb, l.job n = some p ∧ l.device.jobs.get? p = some jb :=
    fun hheld => h.jobs.live _ hheld
  -- Most calls look behind one session and behind no job.
  have hone : ∀ {op : Op} {p : Nat} {sess : DeviceSession},
      l.device.sessions.get? p = some sess → sessionArg op = some p → jobArg op = none →
      (∀ q, op ≠ .jobSubmit (some q)) → LiveCall l.device op := by
    intro op p sess hget hs hj hno
    refine ⟨fun i hi => ?_, fun i hi => ?_, fun i jb hop => absurd hop (hno i)⟩
    · rw [hs, Option.some.injEq] at hi
      exact ⟨sess, by rw [← hi]; exact hget⟩
    · rw [hj] at hi
      exact absurd hi (by simp only [reduceCtorEq, not_false_eq_true])
  have hnone : ∀ {s : DeviceState R} {op : Op}, sessionArg op = none → jobArg op = none →
      (∀ q, op ≠ .jobSubmit (some q)) → LiveCall s op := by
    intro s op hs hj hno
    refine ⟨fun i hi => ?_, fun i hi => ?_, fun i jb hop => absurd hop (hno i)⟩
    · rw [hs] at hi
      exact absurd hi (by simp only [reduceCtorEq, not_false_eq_true])
    · rw [hj] at hi
      exact absurd hi (by simp only [reduceCtorEq, not_false_eq_true])
  cases call with
  | deviceInitialize | deviceFinalize | deviceSessionAlloc =>
      exact ⟨_, rfl, hnone rfl rfl (by rintro _ ⟨⟩)⟩
  | deviceSessionSetParameter n | deviceSessionInit n =>
      rcases hsession (leads_uses hleads).1.2 with ⟨p, sess, hp, hget⟩
      simp only [LibraryCall.op, hp, pointer, Except.map]
      exact ⟨_, rfl, hone hget rfl rfl (by rintro _ ⟨⟩)⟩
  | deviceSessionFree n =>
      rcases hsession (leads_one hleads).1.2 with ⟨p, sess, hp, hget⟩
      simp only [LibraryCall.op, hp, pointer, Except.map]
      exact ⟨_, rfl, hone hget rfl rfl (by rintro _ ⟨⟩)⟩
  | deviceSessionCreateDeviceJob n status job =>
      have hheld : b.held key (.session n) := by
        rcases job with _ | m
        · exact (leads_uses hleads).1.2
        · rcases leads_split (show Leads b ([Deal.uses key (Resource.session n)] ++ _) b' from
            hleads) with ⟨_, hused, _⟩
          exact (leads_uses hused).1.2
      rcases hsession hheld with ⟨p, sess, hp, hget⟩
      simp only [LibraryCall.op, hp, pointer, Except.map]
      exact ⟨_, rfl, hone hget rfl rfl (by rintro _ ⟨⟩)⟩
  | deviceSessionRetrieveDeviceJobById n jobId status job =>
      have hheld : b.held key (.session n) := by
        rcases job with _ | m
        · exact (leads_uses hleads).1.2
        · rcases leads_split (show Leads b ([Deal.uses key (Resource.session n)] ++ _) b' from
            hleads) with ⟨_, hused, _⟩
          exact (leads_uses hused).1.2
      rcases hsession hheld with ⟨p, sess, hp, hget⟩
      simp only [LibraryCall.op, hp, pointer, Except.map]
      exact ⟨_, rfl, hnone rfl rfl (by rintro _ ⟨⟩)⟩
  | deviceJobFree n =>
      rcases hjob (leads_one hleads).1.2 with ⟨p, jb, hp, hget⟩
      simp only [LibraryCall.op, hp, pointer, Except.map]
      refine ⟨_, rfl, by rintro _ ⟨⟩, fun i hi => ?_, by rintro _ _ ⟨⟩⟩
      exact ⟨jb, by rw [← Option.some.inj hi]; exact hget⟩
  | deviceJob n jc =>
      rcases hjob (leads_uses hleads).1.2 with ⟨p, jb, hp, hget⟩
      rcases jobCall_args (p := p) jc with ⟨hs, hj⟩
      simp only [LibraryCall.op, hp, pointer, Except.map]
      refine ⟨_, rfl, fun i hi => ?_, fun i hi => ?_, fun i jb' hop hget' => ?_⟩
      · rw [hs] at hi
        exact absurd hi (by simp only [reduceCtorEq, not_false_eq_true])
      · rw [hj, Option.some.injEq] at hi
        exact ⟨jb, by rw [← hi]; exact hget⟩
      · -- A submission also looks behind the session of the job.
        cases jc with
        | submit =>
            rw [← Option.some.inj (Op.jobSubmit.inj hop)] at hget'
            exact hsubmit n jb' rfl (by rw [jobAt, hp]; exact hget')
        | _ => exact absurd hop (by simp only [JobCall.op, reduceCtorEq, not_false_eq_true])
  | deviceQuery n q =>
      rcases hsession (leads_uses hleads).1.2 with ⟨p, sess, hp, hget⟩
      rcases queryCall_known (hknown n q rfl) p with ⟨q', out, hop, hj, hs⟩
      simp only [LibraryCall.op, hp, pointer, Except.bind, hop]
      refine ⟨_, rfl, fun i hi => ⟨sess, by rw [hs i hi]; exact hget⟩, fun i hi => ?_,
        by rintro _ _ ⟨⟩⟩
      rw [hj] at hi
      exact absurd hi (by simp only [reduceCtorEq, not_false_eq_true])

section

variable [Zero R] [DecidableEq R] [Add R] [Mul R] [Div R] [DoubleRepr R]

/-- A step of the libraries that does not go through is a call. It was not
    allowed to be made, or it went wrong in the library, or it was misheard. -/
theorem worldStep_error {img : Nat × List UInt8 → Image} {w : World R} {a : Delivery R} {e : Stuck}
    (h : worldStep img w a = .error e) : ∃ key call, a.event = .call key call ∧
      ∀ op, call.op (img key) (w key) = .ok op → e = .misheard ∨ ∃ fault, e = .fault fault ∧
        deviceStep (img key) ((w key).found a.fresh call) ⟨op, a.env⟩ = .error fault := by
  rcases a with ⟨event, env, fresh⟩
  cases event with
  | dlopen handle | dlclose handle =>
      exact absurd h (by simp only [worldStep, reduceCtorEq, not_false_eq_true])
  | call key call =>
      refine ⟨key, call, rfl, fun op hop => ?_⟩
      simp only [worldStep, hop] at h
      rcases hdev : deviceStep (img key) ((w key).found fresh call) ⟨op, env⟩ with
        fault | ⟨outcome, s⟩
      · rw [hdev] at h
        exact Or.inr ⟨fault, (Except.error.inj h).symm, rfl⟩
      · rw [hdev] at h
        dsimp only at h
        split at h
        · exact absurd h (by simp only [reduceCtorEq, not_false_eq_true])
        · exact Or.inl (Except.error.inj h).symm

/-- No library looks behind a dead handle in a call of a client. -/
theorem stackStep_safe {addr : DeviceHandle → Nat} {img : Nat × List UInt8 → Image} {t : Stack R}
    {c : StackCall R} {out : DriverOut} {s : DriverState} (hinv : StackInv t)
    (hrule : FreesJobs t c) (hdriver : driverStep addr t.driver c.call = .ok (out, s))
    (hown : PassesOwn img out.events) :
    stackStep addr img t c ≠ .error (.fault .danglingHandle) := by
  intro hwrong
  rw [stackStep, hdriver] at hwrong
  dsimp only at hwrong
  rcases hplay : play (worldStep img) t.world (c.deliveries out.events) with e | ⟨entries, world⟩
  case ok =>
    rw [hplay] at hwrong
    exact absurd hwrong (by simp only [reduceCtorEq, not_false_eq_true])
  rw [hplay, Except.error.injEq] at hwrong
  rcases play_error _ hplay with ⟨pre, a, post, tr, w, hlabels, hrun, hpre, hstep⟩
  have hmove := driverStep_move hdriver
  have hkeeps := driverMove_keeps hmove hinv.driver hrule
  -- The events of the move before the call that goes wrong, the call and those behind it.
  rcases worldStep_error hstep with ⟨key, call, hevent, hcall⟩
  have hevents : out.events = tr.map (fun e => e.label.event) ++
      .call key call :: post.map Delivery.event := by
    rw [← deliveries_events c out.events, hlabels, List.map_append, List.map_cons, hevent, ← hpre,
      List.map_map]
    rfl
  have hmem : .call key call ∈ out.events := by
    rw [hevents]
    exact List.mem_append_right _ List.mem_cons_self
  have hleads := hkeeps.leads
  rw [hevents, deals_append, ← dealsOf_follow (show Follow tr _ from rfl)] at hleads
  rcases leads_split hleads with ⟨b, hbefore, hleads⟩
  rcases leads_split (show Leads b (call.deals key ++ _) _ from hleads) with ⟨b', hone, _⟩
  have hmirrors := worldRuns_mirrors hinv.mirrors hrun hbefore
  have hsubmit : ∀ n jb, call = .deviceJob n .submit → jobAt (w key) n = some jb →
      ∃ sess, (w key).device.sessions.get? jb.session = some sess := by
    -- A submission is the only call of its move, so the libraries are those of the stack.
    rintro n djb rfl hdjb
    rcases driverMove_deviceJob hmove hmem with ⟨_, honly, j, jb, d, hget, hdev, rfl, rfl⟩
    rw [honly] at hevents
    rcases List.append_eq_singleton_iff.mp hevents.symm with ⟨hnil, _⟩ | ⟨_, ⟨⟩⟩
    rw [List.map_eq_nil_iff.mp hnil] at hrun
    rw [runs_nil hrun] at hdjb ⊢
    rcases hinv.joined j jb d hget hdev with ⟨djb', hdjb', hname⟩
    rw [hdjb, Option.some.injEq] at hdjb'
    rw [← hdjb'] at hname
    rcases Option.bind_eq_some_iff.mp hdev with ⟨sess, hsess, hd⟩
    rcases hinv.ready jb.device sess d (by
      rw [deviceAt, hsess, Option.bind_some, hd, Option.map_some]) with ⟨token, _, hat⟩
    rw [sessionAt, hname, Option.bind_some] at hat
    exact ⟨_, hat⟩
  rcases call_live (hmirrors key) hone a.fresh (fun n q hq => hown key n q (hq ▸ hmem)) hsubmit
    with ⟨op, hop, hlive⟩
  rcases hcall op hop with hmisheard | ⟨fault, hfault, hdev⟩
  · rw [hmisheard] at hwrong
    exact absurd hwrong (by simp only [reduceCtorEq, not_false_eq_true])
  · rw [hfault, Stuck.fault.injEq] at hwrong
    rw [hwrong] at hdev
    exact deviceStep_avoids (img key) hlive hdev

/-- Behind every run of clients that free jobs before their session, a call that
    the driver can make, about sites and operations of the library it asks, leads
    to no use of a dead handle in any library. -/
theorem stackRuns_safe (addr : DeviceHandle → Nat) (img : Nat × List UInt8 → Image)
    (tr : List (StackEntry R)) (t : Stack R) (hrun : StackRuns addr img tr t)
    (hrule : Respects FreesJobs tr) (c : StackCall R) (hfirst : FreesJobs t c) (out : DriverOut)
    (s : DriverState) (hdriver : driverStep addr t.driver c.call = .ok (out, s))
    (hown : PassesOwn img out.events) :
    stackStep addr img t c ≠ .error (.fault .danglingHandle) :=
  stackStep_safe (stackRuns_inv hrun hrule) hfirst hdriver hown

end

/-- A query of the second site. -/
def siteCall : StackCall ℚ where
  call := ⟨.deviceQuerySiteProperty (some { session := 0, index := 1 }) (some 4104)
    SiteProperty.t1.code { size := 0, value := none, sizeRet := true }, sampleEnv⟩
  env _ := Qdmi.sampleEnv
  fresh _ := true

theorem stackRuns_safe_sample :
    ∃ tr t, StackRuns (R := ℚ) (fun _ => 0) (fun _ => sampleImage) tr t ∧ tr.length = 7 ∧
      stackStep (fun _ => 0) (fun _ => sampleImage) t siteCall ≠
        .error (.fault .danglingHandle) := by
  rcases stackRuns_evaluated submitOps (fun p => (driverStep (fun _ => 0) p.2.driver
    siteCall.call).toOption.map (fun r => (p.1.length, r.1.events)))
    (7, [.call (0, [65]) (.deviceQuery 1 (.siteProperty (some 4104) SiteProperty.t1.code
      { size := 0, value := none, sizeRet := true }))]) rfl with ⟨tr, t, hrun, hrule, hv⟩
  rcases hdriver : driverStep (fun _ => 0) t.driver siteCall.call with e | ⟨out, s⟩
  · rw [hdriver] at hv
    exact absurd hv (by simp only [Except.toOption, Option.map_none, reduceCtorEq,
      not_false_eq_true])
  rw [hdriver, Except.toOption, Option.map_some, Option.some.injEq, Prod.mk.injEq] at hv
  refine ⟨tr, t, hrun, hv.1, stackRuns_safe (fun _ => 0) (fun _ => sampleImage) tr t hrun hrule
    siteCall (fun h hop => absurd hop (by simp only [siteCall, reduceCtorEq, not_false_eq_true]))
    out s hdriver ?_⟩
  intro key n call hmem
  rw [hv.2, List.mem_singleton, Event.call.injEq] at hmem
  rw [(LibraryCall.deviceQuery.inj hmem.2).2]
  exact ⟨1, rfl⟩

end Driver

end Qdmi
