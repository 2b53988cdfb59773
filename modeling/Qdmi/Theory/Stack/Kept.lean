import Qdmi.Theory.Stack.World

/-!
# What the Libraries Keep of a Held Resource

While the driver holds a session or a job and does not give it back, the library
keeps it, whatever calls it receives in the meantime and for whomever.

The library's name for it stays the same. A session that is initialized stays as
it is altogether. A job keeps its session and, once it is submitted, everything
the life cycle promises; and it changes only in calls that name it, because two
numbers in use never stand for the same pointer.

All of this is shown for one call at its library (`call_session`, `call_job`,
`call_frame`) and then for any number of steps. The induction over the steps is
the same each time and stands in `worldRuns_whileHeld`.

## Main definitions

* `sessionAt`, `jobAt`: The object a library has under a number.
* `Names`: A call is a function of the job with a given number.
* `SessionStays`, `JobStays`: What is kept of a session and of a job.
* `KeptWhileHeld`: A relation kept by every call while a resource is held.

## Theorems

* `call_session`, `call_job`, `call_frame`: One call at its library.
* `worldRuns_whileHeld`: From one call to any number of steps.
* `worldRuns_session`, `worldRuns_job`, `worldRuns_frame`: The three relations.
-/

namespace Qdmi

namespace Driver

variable {R : Type}

/-- The session a library has under a number. -/
def sessionAt (l : LibraryState R) (n : Nat) : Option DeviceSession :=
  (l.session n).bind l.device.sessions.get?

/-- The job a library has under a number. -/
def jobAt (l : LibraryState R) (n : Nat) : Option (DeviceJob R) :=
  (l.job n).bind l.device.jobs.get?

/-- A call is a function of the job with a given number. -/
def Names (n : Nat) (call : LibraryCall) : Prop := ∃ jc, call = .deviceJob n jc

/-- What is kept of a session: its name, and everything once it is initialized. -/
structure SessionStays (l l' : LibraryState R) (n : Nat) : Prop where
  name : l'.session n = l.session n
  ready : ∀ sess, sessionAt l n = some sess → sess.status = .initialized →
    sessionAt l' n = some sess

/-- What is kept of a job: its name, its session, and what the life cycle of a
    job promises. -/
structure JobStays (l l' : LibraryState R) (n : Nat) : Prop where
  name : l'.job n = l.job n
  kept : ∀ jb, jobAt l n = some jb → ∃ jb', jobAt l' n = some jb' ∧ jb'.session = jb.session ∧
    JobKept (some jb) (some jb')

theorem sessionStays_refl (l : LibraryState R) (n : Nat) : SessionStays l l n :=
  ⟨rfl, fun _ h _ => h⟩

theorem sessionStays_trans {l l' l'' : LibraryState R} {n : Nat} (h : SessionStays l l' n)
    (h' : SessionStays l' l'' n) : SessionStays l l'' n :=
  ⟨h'.name.trans h.name, fun sess hsess hst => h'.ready sess (h.ready sess hsess hst) hst⟩

theorem jobKept_trans {jb jb' jb'' : DeviceJob R} (h : JobKept (some jb) (some jb'))
    (h' : JobKept (some jb') (some jb'')) : JobKept (some jb) (some jb'') := by
  intro jb₁ jb₂ h₁ h₂ hne
  rw [Option.some.injEq] at h₁ h₂
  subst h₁ h₂
  rcases h jb jb' rfl rfl hne with ⟨heq, hne', hfin⟩
  rcases h' jb' jb'' rfl rfl hne' with ⟨heq', hne'', hfin'⟩
  refine ⟨by rw [heq', heq], hne'', fun hst => ?_⟩
  have hsame := hfin hst
  rw [hfin' (hsame ▸ hst), hsame]

theorem jobStays_refl (l : LibraryState R) (n : Nat) : JobStays l l n :=
  ⟨rfl, fun jb h => ⟨jb, h, rfl, jobStep_kept (JobStep.stay _)⟩⟩

theorem jobStays_trans {l l' l'' : LibraryState R} {n : Nat} (h : JobStays l l' n)
    (h' : JobStays l' l'' n) : JobStays l l'' n := by
  refine ⟨h'.name.trans h.name, fun jb hjb => ?_⟩
  rcases h.kept jb hjb with ⟨jb', hjb', hsession, hkept⟩
  rcases h'.kept jb' hjb' with ⟨jb'', hjb'', hsession', hkept'⟩
  exact ⟨jb'', hjb'', hsession'.trans hsession, jobKept_trans hkept hkept'⟩

/-! ## The library after a call -/

@[simp]
theorem after_device (l : LibraryState R) (s : DeviceState R) (outcome : Except Exn Reply)
    (call : LibraryCall) : (l.after s outcome call).device = s := by
  unfold LibraryState.after
  split
  all_goals rfl

/-- A session keeps its name, unless its number is given out. -/
theorem after_session {key : Nat × List UInt8} {l : LibraryState R} {s : DeviceState R}
    {outcome : Except Exn Reply} {call : LibraryCall} {n : Nat}
    (hne : Deal.takes key (.session n) ∉ call.deals key) :
    (l.after s outcome call).session n = l.session n := by
  unfold LibraryState.after
  split
  case h_1 status m =>
      refine Function.update_of_ne (fun hc => hne ?_) _ _
      rw [hc]
      exact List.mem_singleton.mpr rfl
  all_goals rfl

/-- So does a job. -/
theorem after_job {key : Nat × List UInt8} {l : LibraryState R} {s : DeviceState R}
    {outcome : Except Exn Reply} {call : LibraryCall} {n : Nat}
    (hne : Deal.takes key (.job n) ∉ call.deals key) :
    (l.after s outcome call).job n = l.job n := by
  unfold LibraryState.after
  split
  case h_2 m status k =>
      refine Function.update_of_ne (fun hc => hne ?_) _ _
      rw [hc]
      exact List.mem_cons_of_mem _ (List.mem_singleton.mpr rfl)
  case h_3 m jobId status k =>
      refine Function.update_of_ne (fun hc => hne ?_) _ _
      rw [hc]
      exact List.mem_cons_of_mem _ (List.mem_singleton.mpr rfl)
  all_goals rfl

/-- A library that is open is not initialized, so it is found as it was left. -/
theorem found_open {b b' : LibraryBooks} {key : Nat × List UInt8} {call : LibraryCall}
    (hleads : Leads b (call.deals key) b') (hopen : b.opened key) (l : LibraryState R)
    (fresh : Bool) : l.found fresh call = l.device := by
  cases call with
  | deviceInitialize status => exact absurd hopen (leads_one hleads).1
  | _ => rfl

section

variable [Zero R] [DecidableEq R] [Add R] [Mul R] [Div R] [DoubleRepr R]
variable {img : Image} {b b' : LibraryBooks} {key : Nat × List UInt8} {call : LibraryCall}
variable {l : LibraryState R} {op : Op} {env : Env R} {fresh : Bool}
variable {outcome : Except Exn Reply} {s : DeviceState R} {n : Nat}

/-! ## One call at its library -/

/-- A call keeps a session that is held before and not given back. -/
theorem call_session (h : MirrorsLibrary (b.opened key) (b.held key) l)
    (hleads : Leads b (call.deals key) b') (hop : call.op img l = .ok op)
    (hstep : deviceStep img (l.found fresh call) ⟨op, env⟩ = .ok (outcome, s))
    (hhears : call.hears outcome = true) (hheld : b.held key (.session n))
    (hback : Deal.returns key (.session n) ∉ call.deals key) :
    SessionStays l (l.after s outcome call) n := by
  have hname : (l.after s outcome call).session n = l.session n :=
    after_session (lawful_not_takes hleads.1 hheld hback)
  refine ⟨hname, fun sess hsess hst => ?_⟩
  have hafter := call_mirrors h hleads hop hstep hhears
  rw [found_open hleads (h.idle _ hheld)] at hstep
  rcases h.sessions.live n hheld with ⟨p, sess₀, hp, hget⟩
  rw [sessionAt, hp, Option.bind_some, hget, Option.some.injEq] at hsess
  rw [sessionAt, hname, hp, Option.bind_some, after_device]
  rw [hsess] at hget
  -- What the call does to the session behind the pointer.
  rcases deviceStep_session hstep p with
    hs | ⟨hnext, _⟩ | ⟨sess', _, hget', halloc, _⟩ | ⟨sess', _, _, hget', hs⟩ | hs
  · rw [hs, hget]
  · rw [hnext, Heap.get?_next] at hget
    exact absurd hget (by simp only [reduceCtorEq, not_false_eq_true])
  · rw [hget, Option.some.injEq] at hget'
    rw [← hget', hst] at halloc
    exact absurd halloc (by decide)
  · rw [hget, Option.some.injEq] at hget'
    rw [hs, ← hget', ← hst]
  · -- It is still held, so it is still alive.
    rcases hafter.sessions.live n (leads_held hleads hheld hback) with ⟨q, sess', hq, hlive⟩
    rw [hname, hp, Option.some.injEq] at hq
    rw [after_device, ← hq, hs] at hlive
    exact absurd hlive (by simp only [reduceCtorEq, not_false_eq_true])

/-- A call keeps a job that is held before and not given back. -/
theorem call_job (h : MirrorsLibrary (b.opened key) (b.held key) l)
    (hleads : Leads b (call.deals key) b') (hop : call.op img l = .ok op)
    (hstep : deviceStep img (l.found fresh call) ⟨op, env⟩ = .ok (outcome, s))
    (hhears : call.hears outcome = true) (hheld : b.held key (.job n))
    (hback : Deal.returns key (.job n) ∉ call.deals key) :
    JobStays l (l.after s outcome call) n := by
  have hname : (l.after s outcome call).job n = l.job n :=
    after_job (lawful_not_takes hleads.1 hheld hback)
  refine ⟨hname, fun jb hjb => ?_⟩
  have hafter := call_mirrors h hleads hop hstep hhears
  rw [found_open hleads (h.idle _ hheld)] at hstep
  rcases h.jobs.live n hheld with ⟨p, jb₀, hp, hget⟩
  rw [jobAt, hp, Option.bind_some, hget, Option.some.injEq] at hjb
  rw [jobAt, hname, hp, Option.bind_some, after_device]
  rw [hjb] at hget
  have hkept := ((deviceStep_kept hstep).2 p (Heap.get?_lt_next hget)).2
  rw [hget] at hkept
  -- The job keeps its session in every change of the jobs.
  rcases hafter.jobs.live n (leads_held hleads hheld hback) with ⟨q, jb', hq, hlive⟩
  rw [hname, hp, Option.some.injEq] at hq
  rw [after_device, ← hq] at hlive
  rw [hlive] at hkept ⊢
  refine ⟨jb', rfl, ?_, hkept⟩
  rcases deviceStep_jobs hstep with
    hs | ⟨_, _, _, _, _, _, hs⟩ | ⟨i, jb₁, jb₁', _, hget₁, hs, _, hsession⟩ | ⟨i, _, hs⟩
  · rw [hs, hget, Option.some.injEq] at hlive
    rw [hlive]
  · rw [hs, Heap.get?_alloc, if_neg (Nat.ne_of_lt (Heap.get?_lt_next hget)), hget,
      Option.some.injEq] at hlive
    rw [hlive]
  · rw [hs, Heap.get?_set _ _ _ _ hget₁] at hlive
    by_cases hi : p = i
    · rw [if_pos hi, Option.some.injEq] at hlive
      rw [← hi, hget, Option.some.injEq] at hget₁
      rw [← hlive, hsession, hget₁]
    · rw [if_neg hi, hget, Option.some.injEq] at hlive
      rw [hlive]
  · rw [hs, Heap.get?_free] at hlive
    by_cases hi : p = i
    · rw [if_pos hi] at hlive
      exact absurd hlive (by simp only [reduceCtorEq, not_false_eq_true])
    · rw [if_neg hi, hget, Option.some.injEq] at hlive
      rw [hlive]

/-- A call that does not name a held job leaves it alone. -/
theorem call_frame (h : MirrorsLibrary (b.opened key) (b.held key) l)
    (hleads : Leads b (call.deals key) b') (hop : call.op img l = .ok op)
    (hstep : deviceStep img (l.found fresh call) ⟨op, env⟩ = .ok (outcome, s))
    (hheld : b.held key (.job n)) (hback : Deal.returns key (.job n) ∉ call.deals key)
    (hname : ¬ Names n call) : jobAt (l.after s outcome call) n = jobAt l n := by
  have hsame : (l.after s outcome call).job n = l.job n :=
    after_job (lawful_not_takes hleads.1 hheld hback)
  rw [found_open hleads (h.idle _ hheld)] at hstep
  rcases h.jobs.live n hheld with ⟨p, jb, hp, hget⟩
  rw [jobAt, jobAt, hsame, hp, Option.bind_some, Option.bind_some, after_device, hget]
  refine deviceStep_frame hstep hget ?_
  -- A job with another number is behind another pointer.
  have hother : ∀ {m q : Nat}, m ≠ n → b.held key (.job m) → l.job m = some q →
      some q ≠ some p := by
    intro m q hne hheldm hq hc
    rw [hc] at hq
    exact hne (h.jobs.unique m n p hheldm hheld hq hp)
  cases call with
  | deviceJobFree m =>
      rcases pointer_eq_ok hop with ⟨q, hq, hop⟩
      rw [hop]
      refine hother ?_ (leads_one hleads).1.2 hq
      rintro rfl
      exact hback (List.mem_singleton.mpr rfl)
  | deviceJob m jc =>
      rcases pointer_eq_ok hop with ⟨q, hq, hop⟩
      have hne : m ≠ n := by
        rintro rfl
        exact hname ⟨jc, rfl⟩
      have hdiff := hother hne (leads_one hleads).1.2 hq
      rw [hop]
      cases jc
      case getProgram | getProgramStatus | queryProperty | getResults =>
        exact (Option.some_ne_none p).symm
      all_goals exact hdiff
  | deviceQuery m qc =>
      rcases hq : l.session m with _ | q
      · rw [LibraryCall.op, hq] at hop
        exact absurd hop (by simp only [pointer, Except.bind, reduceCtorEq, not_false_eq_true])
      rw [LibraryCall.op, hq] at hop
      rcases queryCall_op (p := q) hop with ⟨qu, args, heq⟩
      rw [heq]
      exact (Option.some_ne_none p).symm
  | deviceInitialize | deviceFinalize | deviceSessionAlloc =>
      rw [← Except.ok.inj hop]
      exact (Option.some_ne_none p).symm
  | deviceSessionSetParameter | deviceSessionInit | deviceSessionFree
  | deviceSessionCreateDeviceJob | deviceSessionRetrieveDeviceJobById =>
      rcases pointer_eq_ok hop with ⟨q, _, hop⟩
      rw [hop]
      exact (Option.some_ne_none p).symm

/-! ## Any number of steps -/

/-- What every call that meets a condition keeps of a library, while a resource
    is held and not given back. -/
def KeptWhileHeld (img : Nat × List UInt8 → Image) (key : Nat × List UInt8) (r : Resource)
    (C : LibraryCall → Prop) (K : LibraryState R → LibraryState R → Prop) : Prop :=
  ∀ {b b' : LibraryBooks} {call : LibraryCall} {l : LibraryState R} {op : Op} {env : Env R}
    {fresh : Bool} {outcome : Except Exn Reply} {s : DeviceState R},
    MirrorsLibrary (b.opened key) (b.held key) l → Leads b (call.deals key) b' →
    call.op (img key) l = .ok op →
    deviceStep (img key) (l.found fresh call) ⟨op, env⟩ = .ok (outcome, s) →
    call.hears outcome = true → b.held key r → Deal.returns key r ∉ call.deals key → C call →
    K l (l.after s outcome call)

/-- The condition on the calls a library receives. -/
def CallsMeet (key : Nat × List UInt8) (C : LibraryCall → Prop) (a : Delivery R) : Prop :=
  ∀ call, a.event = .call key call → C call

/-- Steps of the libraries keep what each call keeps. The induction is on the run;
    the resource is still held where the last step starts. -/
theorem worldRuns_whileHeld {img : Nat × List UInt8 → Image} {r : Resource}
    {C : LibraryCall → Prop} {K : LibraryState R → LibraryState R → Prop}
    (hkeep : KeptWhileHeld img key r C K) (hrefl : ∀ l, K l l)
    (htrans : ∀ l l' l'', K l l' → K l' l'' → K l l'') {w w' : World R}
    {tr : List (WorldEntry R)} (h : Mirrors b w) (hrun : Runs (worldStep img) w tr w')
    (hheld : b.held key r) (hmeet : ∀ e ∈ tr, CallsMeet key C e.label) :
    ∀ {b' : LibraryBooks}, Leads b (dealsOf tr) b' → Deal.returns key r ∉ dealsOf tr →
      K (w key) (w' key) := by
  induction hrun with
  | refl => exact fun _ _ => hrefl _
  | snoc hr hstep ih =>
      intro b' hleads hback
      rcases List.forall_mem_append.mp hmeet with ⟨hmeetPre, hmeetLast⟩
      rw [dealsOf, List.flatMap_append, List.flatMap_singleton] at hleads hback
      rw [List.mem_append, not_or] at hback
      rcases leads_split hleads with ⟨c, hbefore, hlast⟩
      refine htrans _ _ _ (ih hmeetPre hbefore hback.1) ?_
      have hc := worldRuns_mirrors h hr hbefore
      have hheldc := leads_held hbefore hheld hback.1
      rcases worldStep_cases hstep with
        ⟨_, _, hw, _⟩ | ⟨key', call, op, outcome, s, hevent, hop, hdev, hhears, _, hw⟩
      · rw [hw]
        exact hrefl _
      · rw [hw]
        by_cases hkey : key = key'
        · dsimp only at hevent hlast hback
          rw [hevent] at hlast hback
          rw [← hkey] at hop hdev hlast hback ⊢
          rw [Function.update_self]
          exact hkeep (hc key) hlast hop hdev hhears hheldc hback.2
            (hmeetLast _ (List.mem_singleton.mpr rfl) call (by rw [hkey]; exact hevent))
        · rw [Function.update_of_ne hkey]
          exact hrefl _

section

variable {img : Nat × List UInt8 → Image} {w w' : World R} {tr : List (WorldEntry R)}

/-- A session that is held and not given back. -/
theorem worldRuns_session (h : Mirrors b w) (hrun : Runs (worldStep img) w tr w')
    (hleads : Leads b (dealsOf tr) b') (hheld : b.held key (.session n))
    (hback : Deal.returns key (.session n) ∉ dealsOf tr) : SessionStays (w key) (w' key) n := by
  refine worldRuns_whileHeld (C := fun _ => True) (K := fun l l' => SessionStays l l' n) ?_
    (fun l => sessionStays_refl l n) (fun _ _ _ => sessionStays_trans) h hrun hheld
    (fun _ _ _ _ => trivial) hleads hback
  exact fun hm hl hop hstep hhears hh hb _ => call_session hm hl hop hstep hhears hh hb

/-- A job that is held and not given back. -/
theorem worldRuns_job (h : Mirrors b w) (hrun : Runs (worldStep img) w tr w')
    (hleads : Leads b (dealsOf tr) b') (hheld : b.held key (.job n))
    (hback : Deal.returns key (.job n) ∉ dealsOf tr) : JobStays (w key) (w' key) n := by
  refine worldRuns_whileHeld (C := fun _ => True) (K := fun l l' => JobStays l l' n) ?_
    (fun l => jobStays_refl l n) (fun _ _ _ => jobStays_trans) h hrun hheld
    (fun _ _ _ _ => trivial) hleads hback
  exact fun hm hl hop hstep hhears hh hb _ => call_job hm hl hop hstep hhears hh hb

/-- A job that no call names. -/
theorem worldRuns_frame (h : Mirrors b w) (hrun : Runs (worldStep img) w tr w')
    (hleads : Leads b (dealsOf tr) b') (hheld : b.held key (.job n))
    (hback : Deal.returns key (.job n) ∉ dealsOf tr)
    (hname : ∀ e ∈ tr, CallsMeet key (fun call => ¬ Names n call) e.label) :
    jobAt (w' key) n = jobAt (w key) n := by
  refine worldRuns_whileHeld (C := fun call => ¬ Names n call)
    (K := fun l l' => jobAt l' n = jobAt l n) ?_ (fun _ => rfl) (fun _ _ _ h h' => h'.trans h)
    h hrun hheld hname hleads hback
  exact fun hm hl hop hstep _ hh hb hc => call_frame hm hl hop hstep hh hb hc

end

end

end Driver

end Qdmi
