import Qdmi.Core.Stack
import Qdmi.Lib.Naming
import Qdmi.Theory.Device.Frame
import Qdmi.Theory.Driver.Opening

/-!
# The Libraries Mirror the Books

The books of the driver say which libraries are open and what is held of each.
They are read off the driver alone. This module shows that the libraries agree,
as long as every deal is allowed: a device is initialized exactly while its
library is open, and its live sessions and jobs are the ones that are held, one
to one. So nothing the driver holds is dead, and nothing lives that the driver
does not hold.

The books move in deals and the libraries in calls. A call is made at one
library, and its deals are with that library alone (`deals_provider`), so one
call is followed at one library (`call_mirrors`), with a case for each kind of
call, and the others stay as they are.

## Main definitions

* `MirrorsLibrary`: A library as the books have it.
* `Mirrors`: All libraries as the books have them.
* `dealsOf`: The deals of some steps of the libraries.

## Theorems

* `worldStep_cases`: What a step of the libraries is.
* `jobCall_keeps`, `queryCall_keeps`: Calls that are passed on.
* `call_mirrors`: One call at its library.
* `worldStep_mirrors`, `worldRuns_mirrors`: One step, and any number of them.
-/

namespace Qdmi

namespace Driver

variable {R : Type}

/-- A library as the books have it: it is initialized when it is open, and its
    live sessions and jobs are those that are held. -/
structure MirrorsLibrary (loaded : Prop) (held : Resource → Prop) (l : LibraryState R) :
    Prop where
  opened : loaded ↔ l.device.status ≠ .offline
  idle : ∀ r, held r → loaded
  sessions : Named (fun n => held (.session n)) l.session l.device.sessions
  jobs : Named (fun n => held (.job n)) l.job l.device.jobs

/-- All libraries as the books have them. -/
def Mirrors (b : LibraryBooks) (w : World R) : Prop :=
  ∀ key, MirrorsLibrary (b.opened key) (b.held key) (w key)

/-- In a fresh process nothing is open, and nothing lives. -/
theorem mirrors_empty : Mirrors .empty (fun _ => {} : World R) := fun _ =>
  ⟨iff_of_false (fun h => h) (fun h => h rfl), fun _ h => h.elim, named_empty (fun _ h => h),
    named_empty (fun _ h => h)⟩

/-- The deals of a call are with the library that receives it. -/
theorem deals_provider {key : Nat × List UInt8} {call : LibraryCall} :
    ∀ d ∈ call.deals key, d.provider = key := by
  cases call with
  | deviceSessionAlloc status session =>
      cases session
      all_goals exact List.forall_mem_singleton.mpr rfl
  | deviceSessionCreateDeviceJob n status job =>
      cases job
      · exact List.forall_mem_singleton.mpr rfl
      · exact List.forall_mem_cons.mpr ⟨rfl, List.forall_mem_singleton.mpr rfl⟩
  | deviceSessionRetrieveDeviceJobById n jobId status job =>
      cases job
      · exact List.forall_mem_singleton.mpr rfl
      · exact List.forall_mem_cons.mpr ⟨rfl, List.forall_mem_singleton.mpr rfl⟩
  | _ => exact List.forall_mem_singleton.mpr rfl

section

variable [Zero R] [DecidableEq R] [Add R] [Mul R] [Div R] [DoubleRepr R]

/-- A step of the libraries is a call at one of them, or it only opens or closes
    a file. -/
theorem worldStep_cases {img : Nat × List UInt8 → Image} {w w' : World R} {a : Delivery R}
    {o : Option (Call R × Except Exn Reply)} (hstep : worldStep img w a = .ok (o, w')) :
    (a.event.deals = [] ∧ o = none ∧ w' = w ∧ ∀ key call, a.event ≠ .call key call) ∨
    ∃ key call op outcome s, a.event = .call key call ∧ call.op (img key) (w key) = .ok op ∧
      deviceStep (img key) ((w key).found a.fresh call) ⟨op, a.env⟩ = .ok (outcome, s) ∧
      call.hears outcome = true ∧ o = some (⟨op, a.env⟩, outcome) ∧
      w' = Function.update w key ((w key).after s outcome call) := by
  rcases a with ⟨event, env, fresh⟩
  cases event with
  | dlopen handle =>
      rw [worldStep, Except.ok.injEq, Prod.mk.injEq] at hstep
      exact Or.inl ⟨rfl, hstep.1.symm, hstep.2.symm,
        fun _ _ h => absurd h (by simp only [reduceCtorEq, not_false_eq_true])⟩
  | dlclose handle =>
      rw [worldStep, Except.ok.injEq, Prod.mk.injEq] at hstep
      exact Or.inl ⟨rfl, hstep.1.symm, hstep.2.symm,
        fun _ _ h => absurd h (by simp only [reduceCtorEq, not_false_eq_true])⟩
  | call key call =>
      unfold worldStep at hstep
      dsimp only at hstep
      rcases hop : call.op (img key) (w key) with e | op
      · rw [hop] at hstep
        exact absurd hstep (by simp only [reduceCtorEq, not_false_eq_true])
      rw [hop] at hstep
      dsimp only at hstep
      rcases hdev : deviceStep (img key) ((w key).found fresh call) ⟨op, env⟩ with
        e | ⟨outcome, s⟩
      · rw [hdev] at hstep
        exact absurd hstep (by simp only [reduceCtorEq, not_false_eq_true])
      rw [hdev] at hstep
      dsimp only at hstep
      split at hstep
      · rename_i hhears
        rw [Except.ok.injEq, Prod.mk.injEq] at hstep
        exact Or.inr ⟨key, call, op, outcome, s, rfl, hop, hdev, hhears, hstep.1.symm,
          hstep.2.symm⟩
      · exact absurd hstep (by simp only [reduceCtorEq, not_false_eq_true])

/-! ## Calls that are passed on -/

/-- A function of a job leaves the sessions alone, keeps every handle as it is
    and does not take the device offline. -/
theorem jobCall_keeps {img : Image} {s s' : DeviceState R} {env : Env R} {call : JobCall}
    {p : Nat} {out : Except Exn Reply}
    (hstep : deviceStep img s ⟨call.op p, env⟩ = .ok (out, s')) :
    s'.sessions = s.sessions ∧ (∀ q, (s'.jobs.get? q).isSome = (s.jobs.get? q).isSome) ∧
      (s'.status = s.status ∨ s'.status = .idle ∨ s'.status = .busy) := by
  have hjobs : ∀ q, (s'.jobs.get? q).isSome = (s.jobs.get? q).isSome := by
    intro q
    rcases deviceStep_jobs hstep with
      hs | ⟨_, _, hop, _⟩ | ⟨h, jb, jb', _, hget, hs, _⟩ | ⟨h, hop, _⟩
    · rw [hs]
    · -- None of the functions creates a job or frees one.
      cases call
      all_goals exact absurd hop (by simp only [JobCall.op, reduceCtorEq, not_false_eq_true])
    · rw [hs, Heap.get?_set _ _ _ _ hget]
      by_cases hq : q = h
      · rw [if_pos hq, hq, hget, Option.isSome_some, Option.isSome_some]
      · rw [if_neg hq]
    · cases call
      all_goals exact absurd hop (by simp only [JobCall.op, reduceCtorEq, not_false_eq_true])
  have hsame : SameButGen s s' → s'.sessions = s.sessions ∧
      (s'.status = s.status ∨ s'.status = .idle ∨ s'.status = .busy) := by
    intro hs
    rw [hs]
    exact ⟨rfl, Or.inl rfl⟩
  have hrest : s'.sessions = s.sessions ∧
      (s'.status = s.status ∨ s'.status = .idle ∨ s'.status = .busy) := by
    cases call with
    | setParameter param size value =>
        simp only [JobCall.op, deviceStep] at hstep
        rcases deviceJobSetParameter_cases hstep with hs | ⟨_, _, _, _, _, _, _, hs⟩
        · exact hsame hs
        · rw [hs]
          exact ⟨rfl, Or.inl rfl⟩
    | setPrograms format count sizes programs =>
        simp only [JobCall.op, deviceStep] at hstep
        rcases deviceJobSetPrograms_cases hstep with
          ⟨hs, _⟩ | ⟨_, _, _, _, _, _, _, _, _, _, _, _, _, _, hs⟩
        · exact hsame hs
        · rw [hs]
          exact ⟨rfl, Or.inl rfl⟩
    | getProgramStatus i =>
        simp only [JobCall.op, deviceStep] at hstep
        rw [deviceJobGetProgramStatus_same hstep]
        exact ⟨rfl, Or.inl rfl⟩
    | submit =>
        simp only [JobCall.op, deviceStep] at hstep
        rcases deviceJobSubmit_cases hstep with ⟨hs, _⟩ | ⟨_, _, _, _, _, _, _, _, _, _, _, _, hs⟩
        · exact hsame hs
        · rw [hs]
          exact ⟨rfl, Or.inr (Or.inr rfl)⟩
    | cancel =>
        simp only [JobCall.op, deviceStep] at hstep
        rcases deviceJobCancel_cases hstep with hs | ⟨_, _, _, _, _, _, hs⟩
        · exact hsame hs
        · rw [hs]
          exact ⟨rfl, Or.inr (Or.inl rfl)⟩
    | check status =>
        simp only [JobCall.op, deviceStep] at hstep
        rcases deviceJobCheck_cases hstep with hs | ⟨_, _, _, _, _, _, _, hs⟩
        · exact hsame hs
        · rw [hs]
          exact ⟨rfl, Or.inr (Or.inl rfl)⟩
    | wait timeout =>
        simp only [JobCall.op, deviceStep] at hstep
        rcases deviceJobWait_cases hstep with hs | ⟨_, _, _, _, _, _, _, _, hs⟩
        · exact hsame hs
        · rw [hs]
          exact ⟨rfl, Or.inr (Or.inl rfl)⟩
    | getProgram | queryProperty | getResults =>
        simp only [JobCall.op, deviceStep] at hstep
        rw [(deviceStep_query hstep).2]
        exact ⟨rfl, Or.inl rfl⟩
  exact ⟨hrest.1, hjobs, hrest.2⟩

/-- A query is a query of the entry points. -/
theorem queryCall_op {img : Image} {call : QueryCall} {p : Nat} {op : Op}
    (hop : call.op img p = .ok op) : ∃ q out, op = .query q out := by
  cases call with
  | deviceProperty prop out => exact ⟨_, _, (Except.ok.inj hop).symm⟩
  | siteProperty site prop out =>
      rcases site with _ | addr
      · exact ⟨_, _, (Except.ok.inj hop).symm⟩
      · rw [QueryCall.op] at hop
        split at hop
        · exact absurd hop (by simp only [reduceCtorEq, not_false_eq_true])
        · exact ⟨_, _, (Except.ok.inj hop).symm⟩
  | operationProperty operation args prop out =>
      rcases operation with _ | addr
      · exact ⟨_, _, (Except.ok.inj hop).symm⟩
      · rw [QueryCall.op] at hop
        split at hop
        · exact absurd hop (by simp only [reduceCtorEq, not_false_eq_true])
        · exact ⟨_, _, (Except.ok.inj hop).symm⟩

/-- The pointer behind a number in use. -/
theorem pointer_eq_ok {p : Option Nat} {f : Nat → Op} {op : Op}
    (h : (pointer p).map f = .ok op) : ∃ q, p = some q ∧ op = f q := by
  rcases p with _ | q
  · exact absurd h (by simp only [pointer, Except.map, reduceCtorEq, not_false_eq_true])
  · exact ⟨q, rfl, (Except.ok.inj h).symm⟩

end

/-! ## One call at its library -/

/-- Replacing an object leaves every handle as it is. -/
theorem isSome_set {α : Type} {h : Heap α} {i : Nat} {a b : α} (hi : h.get? i = some b) (p : Nat) :
    ((h.set i a).get? p).isSome = (h.get? p).isSome := by
  rw [Heap.get?_set _ _ _ _ hi]
  by_cases hp : p = i
  · rw [if_pos hp, hp, hi, Option.isSome_some, Option.isSome_some]
  · rw [if_neg hp]

/-- A call that uses a held resource and leaves every handle as it is. -/
theorem mirrors_used {b b' : LibraryBooks} {key : Nat × List UInt8} {r : Resource}
    {l : LibraryState R} {s : DeviceState R}
    (h : MirrorsLibrary (b.opened key) (b.held key) l) (hleads : Leads b [.uses key r] b')
    (hsessions : ∀ p, (s.sessions.get? p).isSome = (l.device.sessions.get? p).isSome)
    (hjobs : ∀ p, (s.jobs.get? p).isSome = (l.device.jobs.get? p).isSome)
    (hstatus : s.status = l.device.status ∨ s.status = .idle ∨ s.status = .busy) :
    MirrorsLibrary (b'.opened key) (b'.held key) { l with device := s } := by
  rcases leads_uses hleads with ⟨⟨hopen, _⟩, hb⟩
  rw [hb]
  refine ⟨iff_of_true hopen ?_, h.idle, ?_, ?_⟩
  · rcases hstatus with hst | hst | hst
    · rw [hst]
      exact h.opened.mp hopen
    · rw [hst]
      decide
    · rw [hst]
      decide
  · exact named_congr h.sessions (fun _ => Iff.rfl) (fun _ _ => rfl) hsessions
  · exact named_congr h.jobs (fun _ => Iff.rfl) (fun _ _ => rfl) hjobs

/-- The same where the device changes in the generator only. -/
theorem mirrors_sameButGen {b b' : LibraryBooks} {key : Nat × List UInt8} {r : Resource}
    {l : LibraryState R} {s : DeviceState R}
    (h : MirrorsLibrary (b.opened key) (b.held key) l) (hleads : Leads b [.uses key r] b')
    (hs : SameButGen l.device s) :
    MirrorsLibrary (b'.opened key) (b'.held key) { l with device := s } := by
  refine mirrors_used h hleads (fun p => ?_) (fun p => ?_) (Or.inl (by rw [hs]))
  · rw [sameButGen_sessions hs]
  · rw [sameButGen_jobs hs]

/-- A library is initialized. It is found as it was left, or fresh; either way
    nothing in it lives. -/
theorem mirrors_initialize {b b' : LibraryBooks} {key : Nat × List UInt8} {status : Status}
    {l : LibraryState R} {fresh : Bool} {s : DeviceState R} {outcome : Except Exn Reply}
    (h : MirrorsLibrary (b.opened key) (b.held key) l)
    (hleads : Leads b [.opens key (decide (status = .success))] b')
    (hstep : deviceInitialize (l.found fresh (.deviceInitialize status)) = .ok (outcome, s))
    (hhears : (LibraryCall.deviceInitialize status).hears outcome = true) :
    MirrorsLibrary (b'.opened key) (b'.held key) { l with device := s } := by
  rcases leads_one hleads with ⟨hclosed, hb⟩
  rcases answer_eq_ok.mp hstep with ⟨hout, hs⟩
  have hsuccess : status = .success := by
    rw [LibraryCall.hears, hout, heardStatus, beq_iff_eq] at hhears
    exact hhears
  have hnone : ∀ r, ¬ b.held key r := fun r hheld => hclosed (h.idle r hheld)
  rw [hb]
  refine ⟨iff_of_true (Or.inr ⟨rfl, decide_eq_true hsuccess⟩) ?_,
    fun r hheld => absurd hheld (hnone r), ?_, ?_⟩
  · rw [hs]
    exact fun hc => absurd hc (by simp only [reduceCtorEq, not_false_eq_true])
  · rw [hs]
    cases fresh with
    | false => exact h.sessions
    | true => exact named_empty (fun n => hnone (.session n))
  · rw [hs]
    cases fresh with
    | false => exact h.jobs
    | true => exact named_empty (fun n => hnone (.job n))

/-- A library is asked for a session. -/
theorem mirrors_sessionAlloc {b b' : LibraryBooks} {key : Nat × List UInt8} {status : Status}
    {session : Option Nat} {l : LibraryState R} {s : DeviceState R} {env : Env R}
    {outcome : Except Exn Reply} (h : MirrorsLibrary (b.opened key) (b.held key) l)
    (hleads : Leads b ((LibraryCall.deviceSessionAlloc status session).deals key) b')
    (hstep : deviceSessionAlloc l.device env true = .ok (outcome, s))
    (hhears : (LibraryCall.deviceSessionAlloc status session).hears outcome = true) :
    MirrorsLibrary (b'.opened key) (b'.held key)
      (l.after s outcome (.deviceSessionAlloc status session)) := by
  rw [LibraryCall.hears, Bool.and_eq_true, beq_iff_eq, beq_iff_eq] at hhears
  simp only [deviceSessionAlloc, Bool.not_true, Bool.false_eq_true, if_false] at hstep
  split at hstep
  · -- The allocation failed, so the driver was given no number.
    rcases raise_eq_ok.mp hstep with ⟨hout, hs⟩
    have hnone : session = none := by
      rw [hout] at hhears
      rcases session with _ | n
      · rfl
      · rw [hhears.1] at hhears
        exact absurd hhears.2 (by simp only [Option.isSome_some]; decide)
    rw [hnone] at hleads ⊢
    rcases leads_one hleads with ⟨_, hb⟩
    rw [hb, hs]
    exact h
  · rw [Except.ok.injEq, Prod.mk.injEq] at hstep
    have hst : status = .success := by rw [hhears.1, ← hstep.1, heardStatus]
    rcases session with _ | n
    · rw [hst] at hhears
      exact absurd hhears.2 (by decide)
    rcases leads_one hleads with ⟨⟨hopen, hnew⟩, hb⟩
    rw [hb, ← hstep.1, ← hstep.2]
    refine ⟨h.opened, fun r hheld => hopen, ?_, ?_⟩
    · refine named_congr (named_alloc h.sessions hnew {}) (fun m => ?_) (fun _ _ => rfl)
        (fun _ => rfl)
      exact or_congr_right ⟨fun hc => Resource.session.inj hc.2, fun hc => ⟨rfl, by rw [hc]⟩⟩
    · refine named_congr h.jobs (fun m => ?_) (fun _ _ => rfl) (fun _ => rfl)
      exact or_iff_left (fun hc => absurd hc.2 (by simp only [reduceCtorEq, not_false_eq_true]))

/-- A library is asked for a job. -/
theorem mirrors_createDeviceJob {b b' : LibraryBooks} {key : Nat × List UInt8} {n p : Nat}
    {status : Status} {job : Option Nat} {l : LibraryState R} {s : DeviceState R} {env : Env R}
    {outcome : Except Exn Reply} (h : MirrorsLibrary (b.opened key) (b.held key) l)
    (hleads : Leads b ((LibraryCall.deviceSessionCreateDeviceJob n status job).deals key) b')
    (hstep : deviceSessionCreateDeviceJob l.device env (some p) true = .ok (outcome, s))
    (hhears : (LibraryCall.deviceSessionCreateDeviceJob n status job).hears outcome = true) :
    MirrorsLibrary (b'.opened key) (b'.held key)
      (l.after s outcome (.deviceSessionCreateDeviceJob n status job)) := by
  rw [LibraryCall.hears, Bool.and_eq_true, beq_iff_eq, beq_iff_eq] at hhears
  -- A refusal hands nothing out.
  have hrefused : s = l.device → heardStatus outcome ≠ .success →
      MirrorsLibrary (b'.opened key) (b'.held key)
        (l.after s outcome (.deviceSessionCreateDeviceJob n status job)) := by
    intro hs hfail
    have hnone : job = none := by
      rcases job with _ | m
      · rfl
      · rw [hhears.1, Option.isSome_some, beq_eq_false_iff_ne.mpr hfail] at hhears
        exact absurd hhears.2 (by decide)
    rw [hnone] at hleads ⊢
    rw [hs, (leads_uses hleads).2]
    exact h
  simp only [deviceSessionCreateDeviceJob, Bool.not_true, Bool.false_eq_true, if_false] at hstep
  split at hstep
  · exact absurd hstep (by simp only [reduceCtorEq, not_false_eq_true])
  split at hstep
  · rcases answer_eq_ok.mp hstep with ⟨hout, hs⟩
    exact hrefused hs (by rw [hout]; decide)
  split at hstep
  · rcases raise_eq_ok.mp hstep with ⟨hout, hs⟩
    exact hrefused hs (by rw [hout]; decide)
  rw [Except.ok.injEq, Prod.mk.injEq] at hstep
  have hst : status = .success := by rw [hhears.1, ← hstep.1, heardStatus]
  rcases job with _ | m
  · rw [hst] at hhears
    exact absurd hhears.2 (by decide)
  -- The session is used first, which moves no books, and then the job is taken.
  rcases leads_split (show Leads b ([Deal.uses key (Resource.session n)] ++ _) b' from hleads) with
    ⟨c, hused, htaken⟩
  rcases leads_uses hused with ⟨⟨hopen, _⟩, hc⟩
  rw [hc] at htaken
  rcases leads_one htaken with ⟨⟨_, hnew⟩, hb⟩
  rw [hb, ← hstep.1, ← hstep.2]
  refine ⟨h.opened, fun r hheld => hopen, ?_, ?_⟩
  · refine named_congr h.sessions (fun k => ?_) (fun _ _ => rfl) (fun _ => rfl)
    exact or_iff_left (fun hc => absurd hc.2 (by simp only [reduceCtorEq, not_false_eq_true]))
  · refine named_congr (named_alloc h.jobs hnew _) (fun k => ?_) (fun _ _ => rfl) (fun _ => rfl)
    exact or_congr_right ⟨fun hc => Resource.job.inj hc.2, fun hc => ⟨rfl, by rw [hc]⟩⟩

/-- A session or a job is given back. -/
theorem mirrors_freed {b b' : LibraryBooks} {key : Nat × List UInt8} {n p : Nat}
    {l : LibraryState R} (h : MirrorsLibrary (b.opened key) (b.held key) l) :
    (Leads b [.returns key (.session n)] b' → l.session n = some p →
      MirrorsLibrary (b'.opened key) (b'.held key)
        { l with device := { l.device with sessions := l.device.sessions.free p } }) ∧
    (Leads b [.returns key (.job n)] b' → l.job n = some p →
      MirrorsLibrary (b'.opened key) (b'.held key)
        { l with device := { l.device with jobs := l.device.jobs.free p } }) := by
  refine ⟨fun hleads hp => ?_, fun hleads hp => ?_⟩
  · rcases leads_one hleads with ⟨⟨hopen, hheld⟩, hb⟩
    rw [hb]
    refine ⟨h.opened, fun r hr => hopen, ?_, ?_⟩
    · refine named_congr (named_free h.sessions hheld hp) (fun m => ?_) (fun _ _ => rfl)
        (fun _ => rfl)
      refine and_congr_right fun _ => not_congr ⟨fun hc => Resource.session.inj hc.2, fun hc => ?_⟩
      exact ⟨rfl, by rw [hc]⟩
    · refine named_congr h.jobs (fun m => and_iff_left fun hc => ?_) (fun _ _ => rfl)
        (fun _ => rfl)
      exact absurd hc.2 (by simp only [reduceCtorEq, not_false_eq_true])
  · rcases leads_one hleads with ⟨⟨hopen, hheld⟩, hb⟩
    rw [hb]
    refine ⟨h.opened, fun r hr => hopen, ?_, ?_⟩
    · refine named_congr h.sessions (fun m => and_iff_left fun hc => ?_) (fun _ _ => rfl)
        (fun _ => rfl)
      exact absurd hc.2 (by simp only [reduceCtorEq, not_false_eq_true])
    · refine named_congr (named_free h.jobs hheld hp) (fun m => ?_) (fun _ _ => rfl)
        (fun _ => rfl)
      refine and_congr_right fun _ => not_congr ⟨fun hc => Resource.job.inj hc.2, fun hc => ?_⟩
      exact ⟨rfl, by rw [hc]⟩

section

variable [Zero R] [DecidableEq R] [Add R] [Mul R] [Div R] [DoubleRepr R]

/-- One call at its library, with a case for each kind of call. -/
theorem call_mirrors {img : Image} {b b' : LibraryBooks} {key : Nat × List UInt8}
    {call : LibraryCall} {l : LibraryState R} {op : Op} {env : Env R} {fresh : Bool}
    {outcome : Except Exn Reply} {s : DeviceState R}
    (h : MirrorsLibrary (b.opened key) (b.held key) l) (hleads : Leads b (call.deals key) b')
    (hop : call.op img l = .ok op)
    (hstep : deviceStep img (l.found fresh call) ⟨op, env⟩ = .ok (outcome, s))
    (hhears : call.hears outcome = true) :
    MirrorsLibrary (b'.opened key) (b'.held key) (l.after s outcome call) := by
  cases call with
  | deviceInitialize status =>
      rw [← Except.ok.inj hop] at hstep
      exact mirrors_initialize h hleads hstep hhears
  | deviceFinalize =>
      rw [← Except.ok.inj hop] at hstep
      rcases leads_one hleads with ⟨⟨_, hnone⟩, hb⟩
      rw [hb, (answer_eq_ok.mp hstep).2]
      exact ⟨iff_of_false (fun hc => hc.2 rfl) (fun hc => hc rfl),
        fun r hheld => absurd hheld (hnone r), h.sessions, h.jobs⟩
  | deviceSessionAlloc status session =>
      rw [← Except.ok.inj hop] at hstep
      exact mirrors_sessionAlloc h hleads hstep hhears
  | deviceSessionSetParameter n param value status =>
      rcases pointer_eq_ok hop with ⟨p, _, hop⟩
      rw [hop] at hstep
      have hcall : deviceSessionSetParameter l.device env (some p) param value.length
          (some (fun i => value.getD i 0)) = .ok (outcome, s) := hstep
      rcases deviceSessionSetParameter_cases hcall with hs | ⟨i, sess, token, _, hget, _, _, hs⟩
      · exact mirrors_sameButGen h hleads hs
      · refine mirrors_used h hleads (fun q => ?_) (fun q => by rw [hs])
          (Or.inl (by rw [hs]))
        rw [hs]
        exact isSome_set hget q
  | deviceSessionInit n status =>
      rcases pointer_eq_ok hop with ⟨p, _, hop⟩
      rw [hop] at hstep
      have hcall : deviceSessionInit l.device (some p) = .ok (outcome, s) := hstep
      rcases deviceSessionInit_cases hcall with ⟨hs, _⟩ | ⟨i, sess, _, hget, _, _, hs⟩
      · exact mirrors_sameButGen h hleads hs
      · refine mirrors_used h hleads (fun q => ?_) (fun q => by rw [hs])
          (Or.inl (by rw [hs]))
        rw [hs]
        exact isSome_set hget q
  | deviceSessionFree n =>
      rcases pointer_eq_ok hop with ⟨p, hp, hop⟩
      rw [hop] at hstep
      have hcall : deviceSessionFree l.device (some p) = .ok (outcome, s) := hstep
      rcases deviceSessionFree_cases hcall with ⟨_, hs | ⟨i, sess, hi, _, hs⟩⟩
      · -- Freeing a null pointer does nothing, and a pointer is none.
        rcases leads_one hleads with ⟨⟨_, hheld⟩, _⟩
        rcases h.sessions.live n hheld with ⟨q, sess, hq, hget⟩
        rw [hp, Option.some.injEq] at hq
        simp only [deviceSessionFree, hq, hget] at hcall
        rw [(answer_eq_ok.mp hcall).2, ← hq]
        exact (mirrors_freed h).1 hleads hp
      · rw [hs, ← Option.some.inj hi]
        exact (mirrors_freed h).1 hleads hp
  | deviceSessionCreateDeviceJob n status job =>
      rcases pointer_eq_ok hop with ⟨p, _, hop⟩
      rw [hop] at hstep
      exact mirrors_createDeviceJob h hleads hstep hhears
  | deviceSessionRetrieveDeviceJobById n jobId status job =>
      rcases pointer_eq_ok hop with ⟨p, _, hop⟩
      rw [hop] at hstep
      rcases answer_eq_ok.mp hstep with ⟨hout, hs⟩
      -- The example device does not support this function.
      rw [LibraryCall.hears, Bool.and_eq_true, beq_iff_eq, beq_iff_eq, hout] at hhears
      have hnone : job = none := by
        rcases job with _ | m
        · rfl
        · rw [hhears.1] at hhears
          exact absurd hhears.2 (by simp only [Option.isSome_some]; decide)
      rw [hnone] at hleads ⊢
      rw [hs, (leads_uses hleads).2]
      exact h
  | deviceJobFree n =>
      rcases pointer_eq_ok hop with ⟨p, hp, hop⟩
      rw [hop] at hstep
      have hcall : deviceJobFree l.device (some p) = .ok (outcome, s) := hstep
      rcases deviceJobFree_cases hcall with ⟨_, hs | ⟨i, jb, hi, _, hs⟩⟩
      · rcases leads_one hleads with ⟨⟨_, hheld⟩, _⟩
        rcases h.jobs.live n hheld with ⟨q, jb, hq, hget⟩
        rw [hp, Option.some.injEq] at hq
        simp only [deviceJobFree, hq, hget] at hcall
        rw [(answer_eq_ok.mp hcall).2, ← hq]
        exact (mirrors_freed h).2 hleads hp
      · rw [hs, ← Option.some.inj hi]
        exact (mirrors_freed h).2 hleads hp
  | deviceJob n call =>
      rcases pointer_eq_ok hop with ⟨p, _, hop⟩
      rw [hop] at hstep
      rcases jobCall_keeps hstep with ⟨hsessions, hjobs, hstatus⟩
      exact mirrors_used h hleads (fun q => by rw [hsessions]; rfl) hjobs hstatus
  | deviceQuery n call =>
      rcases hp : l.session n with _ | p
      · rw [LibraryCall.op, hp] at hop
        exact absurd hop (by simp only [pointer, Except.bind, reduceCtorEq, not_false_eq_true])
      rw [LibraryCall.op, hp] at hop
      rcases queryCall_op (p := p) hop with ⟨q, args, hq⟩
      rw [hq] at hstep
      refine mirrors_sameButGen h hleads ?_
      rw [(deviceStep_query hstep).2]
      exact sameButGen_refl _

/-! ## Steps of the libraries -/

/-- A step of the libraries whose deals are allowed keeps them as the books have
    them. -/
theorem worldStep_mirrors {img : Nat × List UInt8 → Image} {b b' : LibraryBooks} {w w' : World R}
    {a : Delivery R} {o : Option (Call R × Except Exn Reply)} (h : Mirrors b w)
    (hleads : Leads b a.event.deals b') (hstep : worldStep img w a = .ok (o, w')) :
    Mirrors b' w' := by
  rcases worldStep_cases hstep with
    ⟨hdeals, _, hw, _⟩ | ⟨key, call, op, outcome, s, hevent, hop, hdev, hhears, _, hw⟩
  · rw [hdeals] at hleads
    rw [hw, ← hleads.2]
    exact h
  · rw [hevent] at hleads
    intro key'
    by_cases hkey : key' = key
    · rw [hkey, hw, Function.update_self]
      exact call_mirrors (h key) hleads hop hdev hhears
    · -- The books of any other library stay as they are, and so does the library.
      have hother := leads_other (k := key') hleads (fun d hd => by
        rw [deals_provider d hd]
        exact hkey)
      rw [hw, Function.update_of_ne hkey, propext hother.1,
        show b'.held key' = b.held key' from funext fun r => propext (hother.2 r)]
      exact h key'

/-- The deals of some steps of the libraries. -/
def dealsOf (tr : List (WorldEntry R)) : List LibraryDeal :=
  tr.flatMap (fun e => e.label.event.deals)

/-- Any number of steps whose deals are allowed. -/
theorem worldRuns_mirrors {img : Nat × List UInt8 → Image} {b : LibraryBooks} {w w' : World R}
    {tr : List (WorldEntry R)} (h : Mirrors b w) (hrun : Runs (worldStep img) w tr w') :
    ∀ {b' : LibraryBooks}, Leads b (dealsOf tr) b' → Mirrors b' w' := by
  induction hrun with
  | refl =>
      intro b' hleads
      rw [← hleads.2]
      exact h
  | snoc _ hstep ih =>
      intro b' hleads
      rw [dealsOf, List.flatMap_append, List.flatMap_singleton] at hleads
      rcases leads_split hleads with ⟨c, hbefore, hlast⟩
      exact worldStep_mirrors (ih hbefore) hlast hstep

end

end Driver

end Qdmi
