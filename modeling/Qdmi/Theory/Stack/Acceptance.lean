import Qdmi.Theory.Driver.Turns
import Qdmi.Theory.Stack.Correspondence

/-!
# What the Example Device Accepts

The driver hands a token to every configured device and opens a session only if
all of them accept. A library may refuse for many reasons, and the model of the
driver allows all of them. The example device makes use of none: behind the
driver it opens every session, unless memory runs out.

Three guards of the device could refuse. It rejects an empty token, but the
driver passes tokens with their terminator, so none is empty. It rejects a second
token and a token for a session that is open, but the driver opens each device
session once, right after it was allocated. It rejects all sessions when it is
offline, in maintenance or broken; the driver finalizes a library only when it
unloads it, and nothing takes the device into the other two states, which is the
invariant `Working`.

Creating a job is accepted for the same reasons: the device session behind a
device of a client is initialized.

## Main definitions

* `Working`: No device is broken or in maintenance.
* `OutOfMemory`: An allocation failed, in the driver or in a library.
* `Refused`: A call failed for lack of memory, or because the token is too long.
* `OpensAll`, `CreatesJob`: A session was opened, and a job was created.

## Theorems

* `alloc_refused`, `setToken_refused`, `init_accepted`: The three calls.
* `turn_refused`: The turn that ends the loop of `QDMI_session_init`.
* `stackRuns_opens`: `QDMI_session_init` on top of the example device.
* `stackRuns_creates`: `QDMI_device_create_job` on top of it.
-/

namespace Qdmi

namespace Driver

variable {R : Type}

/-- No device is broken or in maintenance. -/
def Working (w : World R) : Prop :=
  ∀ key, (w key).device.status = .offline ∨ (w key).device.status = .idle ∨
    (w key).device.status = .busy

/-- An allocation failed, in the driver or in a library. -/
def OutOfMemory (env : DriverEnv) (tr : List (WorldEntry R)) : Prop :=
  (∃ i, env.mem i = false) ∨ ∃ e ∈ tr, ∃ i, e.label.env.mem i = false

/-- A call failed for lack of memory, or because the token is longer than any
    string. -/
def Refused (env : DriverEnv) (tr : List (WorldEntry R)) (token : List UInt8) (status : Status) :
    Prop :=
  (status = .errorOutofmem ∧ OutOfMemory env tr) ∨
    (status = .errorFatal ∧ vectorMaxSize 1 < token.length + 1)

/-- A session was opened, with a device for every entry of the configuration. -/
def OpensAll (t t' : Stack R) (out : StackOut R) (h : Nat) : Prop :=
  out.reply = .ok { status := .success } ∧ ∃ sess', t'.driver.sessions.get? h = some sess' ∧
    List.Forall₂ (fun cfg d => d.library = cfg.library ∧ d.id = cfg.id)
      t.driver.configuredDevices sess'.deviceList

/-- A job was created on a device, with a new device job behind it. -/
def CreatesJob (t t' : Stack R) (out : StackOut R) (dev : DeviceHandle) : Prop :=
  out.reply = .ok { status := .success, handle := some t.driver.jobs.next } ∧
    ∃ jb key p id, t'.driver.jobs.get? t.driver.jobs.next = some jb ∧ jb.device = dev ∧
      sessionBehind t dev = some (key, p) ∧
      jobAt (t'.world key) jb.deviceJob = some { session := p, id := id, status := .created }

theorem outOfMemory_mono {env : DriverEnv} {tr tr' : List (WorldEntry R)}
    (h : OutOfMemory env tr) (hsub : ∀ e ∈ tr, e ∈ tr') : OutOfMemory env tr' :=
  h.imp (fun h => h) (fun ⟨e, he, hmem⟩ => ⟨e, hsub e he, hmem⟩)

theorem refused_mono {env : DriverEnv} {tr tr' : List (WorldEntry R)} {token : List UInt8}
    {status : Status} (h : Refused env tr token status) (hsub : ∀ e ∈ tr, e ∈ tr') :
    Refused env tr' token status :=
  h.imp (fun h => ⟨h.1, outOfMemory_mono h.2 hsub⟩) (fun h => h)

/-- The reply of the driver is the one of the stack where no call is passed on. -/
theorem reply_sessionsOnly {out : StackOut R} (hsessions : SessionsOnly out.driver.events)
    (hfollow : Follow out.world out.driver.events) : out.reply = out.driver.reply := by
  unfold StackOut.reply
  split
  · rename_i pre key call env fresh op outcome post heq
    have hmem : .call key call ∈ out.driver.events := by
      rw [← hfollow, heq]
      exact List.mem_singleton.mpr rfl
    have hkind := hsessions key call hmem
    cases call
    case deviceSessionAlloc | deviceSessionSetParameter | deviceSessionInit | deviceSessionFree =>
      rfl
    all_goals exact absurd hkind (by simp only [LibraryCall.ofSession, Bool.false_eq_true,
      not_false_eq_true])
  · rfl

section

variable [Zero R] [DecidableEq R] [Add R] [Mul R] [Div R] [DoubleRepr R]
variable {img : Nat × List UInt8 → Image} {w w' : World R} {a : Delivery R}
variable {o : Option (Call R × Except Exn Reply)} {key : Nat × List UInt8} {n : Nat}

/-! ## Devices that work -/

/-- A call takes a device to one of the states it works in, or leaves it. -/
theorem call_working {img : Image} {l : LibraryState R} {call : LibraryCall} {op : Op}
    {fresh : Bool} {env : Env R} {outcome : Except Exn Reply} {s : DeviceState R}
    (hop : call.op img l = .ok op)
    (hstep : deviceStep img (l.found fresh call) ⟨op, env⟩ = .ok (outcome, s)) :
    s.status = l.device.status ∨ s.status = .offline ∨ s.status = .idle ∨ s.status = .busy := by
  have hsame : SameButGen l.device s → s.status = l.device.status := fun hs => by rw [hs]
  cases call with
  | deviceInitialize status =>
      rw [← Except.ok.inj hop] at hstep
      rw [(answer_eq_ok.mp hstep).2]
      exact Or.inr (Or.inr (Or.inl rfl))
  | deviceFinalize =>
      rw [← Except.ok.inj hop] at hstep
      rw [(answer_eq_ok.mp hstep).2]
      exact Or.inr (Or.inl rfl)
  | deviceSessionAlloc status session =>
      rw [← Except.ok.inj hop] at hstep
      have hcall : deviceSessionAlloc l.device env true = .ok (outcome, s) := hstep
      rcases deviceSessionAlloc_cases hcall with hs | ⟨_, hs⟩
      · exact Or.inl (hsame hs)
      · exact Or.inl (by rw [hs])
  | deviceSessionSetParameter m param value status =>
      rcases pointer_eq_ok hop with ⟨p, _, hop⟩
      rw [hop] at hstep
      have hcall : deviceSessionSetParameter l.device env (some p) param value.length
          (some (fun i => value.getD i 0)) = .ok (outcome, s) := hstep
      rcases deviceSessionSetParameter_cases hcall with hs | ⟨_, _, _, _, _, _, _, hs⟩
      · exact Or.inl (hsame hs)
      · exact Or.inl (by rw [hs])
  | deviceSessionInit m status =>
      rcases pointer_eq_ok hop with ⟨p, _, hop⟩
      rw [hop] at hstep
      have hcall : deviceSessionInit l.device (some p) = .ok (outcome, s) := hstep
      rcases deviceSessionInit_cases hcall with ⟨hs, _⟩ | ⟨_, _, _, _, _, _, hs⟩
      · exact Or.inl (hsame hs)
      · exact Or.inl (by rw [hs])
  | deviceSessionFree m =>
      rcases pointer_eq_ok hop with ⟨p, _, hop⟩
      rw [hop] at hstep
      have hcall : deviceSessionFree l.device (some p) = .ok (outcome, s) := hstep
      rcases (deviceSessionFree_cases hcall).2 with hs | ⟨_, _, _, _, hs⟩
      all_goals exact Or.inl (by rw [hs])
  | deviceSessionCreateDeviceJob m status job =>
      rcases pointer_eq_ok hop with ⟨p, _, hop⟩
      rw [hop] at hstep
      have hcall : deviceSessionCreateDeviceJob l.device env (some p) true = .ok (outcome, s) :=
        hstep
      rcases deviceSessionCreateDeviceJob_cases hcall with ⟨hs, _⟩ | ⟨_, _, _, _, _, _, _, hs⟩
      · exact Or.inl (hsame hs)
      · exact Or.inl (by rw [hs])
  | deviceSessionRetrieveDeviceJobById m jobId status job =>
      rcases pointer_eq_ok hop with ⟨p, _, hop⟩
      rw [hop] at hstep
      exact Or.inl (by rw [(answer_eq_ok.mp hstep).2]; rfl)
  | deviceJobFree m =>
      rcases pointer_eq_ok hop with ⟨p, _, hop⟩
      rw [hop] at hstep
      have hcall : deviceJobFree l.device (some p) = .ok (outcome, s) := hstep
      rcases (deviceJobFree_cases hcall).2 with hs | ⟨_, _, _, _, hs⟩
      all_goals exact Or.inl (by rw [hs])
  | deviceJob m jc =>
      rcases pointer_eq_ok hop with ⟨p, _, hop⟩
      rw [hop] at hstep
      rcases (jobCall_keeps hstep).2.2 with hs | hs | hs
      · exact Or.inl hs
      · exact Or.inr (Or.inr (Or.inl hs))
      · exact Or.inr (Or.inr (Or.inr hs))
  | deviceQuery m qc =>
      rcases hp : l.session m with _ | p
      · rw [LibraryCall.op, hp] at hop
        exact absurd hop (by simp only [pointer, Except.bind, reduceCtorEq, not_false_eq_true])
      rw [LibraryCall.op, hp] at hop
      rcases queryCall_op hop with ⟨q, args, heq⟩
      rw [heq] at hstep
      exact Or.inl (by rw [(deviceStep_query hstep).2]; rfl)

theorem worldStep_working (h : Working w) (hstep : worldStep img w a = .ok (o, w')) :
    Working w' := by
  rcases worldStep_cases hstep with
    ⟨_, _, rfl, _⟩ | ⟨key, call, op, outcome, s, _, hop, hdev, _, _, rfl⟩
  · exact h
  intro key'
  by_cases hkey : key' = key
  · rw [hkey, Function.update_self, after_device]
    rcases call_working hop hdev with hs | hs
    · rw [hs]
      exact h key
    · exact hs
  · rw [Function.update_of_ne hkey]
    exact h key'

/-- No device is broken or in maintenance behind any run. -/
theorem worldRuns_working {tr : List (WorldEntry R)} (h : Working w)
    (hrun : Runs (worldStep img) w tr w') : Working w' := by
  induction hrun with
  | refl => exact h
  | snoc _ hstep ih => exact worldStep_working ih hstep

theorem stackRuns_working {addr : DeviceHandle → Nat} {tr : List (StackEntry R)} {t : Stack R}
    (hrun : StackRuns addr img tr t) : Working t.world :=
  worldRuns_working (fun _ => Or.inl rfl) (worldPart_runs hrun)

/-! ## The three calls of a turn -/

/-- A device session is refused for lack of memory only. -/
theorem alloc_refused {status : Status} (hstep : worldStep img w a = .ok (o, w'))
    (hevent : a.event = .call key (.deviceSessionAlloc status none)) :
    status = .errorOutofmem ∧ a.env.mem 0 = false := by
  rcases worldStep_call hstep hevent with ⟨op, outcome, s, hop, hdev, hhears, _, _⟩
  rw [← Except.ok.inj hop] at hdev
  rw [LibraryCall.hears, Bool.and_eq_true, beq_iff_eq] at hhears
  have hcall : deviceSessionAlloc (w key).device a.env true = .ok (outcome, s) := hdev
  simp only [deviceSessionAlloc, Bool.not_true, Bool.false_eq_true, if_false] at hcall
  split at hcall
  · rename_i hmem
    rw [hhears.1, (raise_eq_ok.mp hcall).1]
    rw [Bool.not_eq_true'] at hmem
    exact ⟨rfl, hmem⟩
  · -- A session that was allocated comes with a handle.
    rw [Except.ok.injEq, Prod.mk.injEq] at hcall
    rw [hhears.1, ← hcall.1, heardStatus] at hhears
    dsimp only at hhears
    exact absurd hhears.2 (by decide)

/-- A token is refused for lack of memory, or because it is too long. -/
theorem setToken_refused {value : List UInt8} {auth : Status} {sess : DeviceSession}
    (hstep : worldStep img w a = .ok (o, w'))
    (hevent : a.event = .call key
      (.deviceSessionSetParameter n DeviceSessionParameter.token value auth))
    (hauth : ¬ Accepted auth) (hvalue : value ≠ []) (hget : sessionAt (w key) n = some sess)
    (hst : sess.status = .allocated) :
    (auth = .errorOutofmem ∧ a.env.mem 0 = false) ∨
      (auth = .errorFatal ∧ vectorMaxSize 1 < value.length) := by
  rcases worldStep_call hstep hevent with ⟨op, outcome, s, hop, hdev, hhears, _, _⟩
  rcases pointer_eq_ok hop with ⟨p, hp, hop⟩
  rw [hop] at hdev
  rw [LibraryCall.hears, beq_iff_eq] at hhears
  rw [sessionAt, hp, Option.bind_some] at hget
  have hcall : deviceSessionSetParameter (w key).device a.env (some p)
      DeviceSessionParameter.token value.length (some (fun i => value.getD i 0)) =
      .ok (outcome, s) := hdev
  have hlen : (value.length == 0) = false := by
    rw [beq_eq_false_iff_ne, ne_eq, List.length_eq_zero_iff]
    exact hvalue
  have hparam : isInvalidEnumValue DeviceSessionParameter.token DeviceSessionParameter.max =
      false := by decide
  simp only [deviceSessionSetParameter, hlen, Bool.and_false, Bool.false_eq_true, if_false, hparam,
    hget, hst, ne_eq, not_true_eq_false] at hcall
  split at hcall
  · rename_i hlong
    rw [hhears, (raise_eq_ok.mp hcall).1]
    exact Or.inr ⟨rfl, hlong⟩
  split at hcall
  · rename_i hmem
    rw [hhears, (raise_eq_ok.mp hcall).1]
    rw [Bool.not_eq_true'] at hmem
    exact Or.inl ⟨rfl, hmem⟩
  · rw [(answer_eq_ok.mp hcall).1] at hhears
    exact absurd (Or.inl hhears) hauth

/-- A session with a token is initialized by a device that is open and works. -/
theorem init_accepted {status : Status} {sess : DeviceSession}
    (hstep : worldStep img w a = .ok (o, w'))
    (hevent : a.event = .call key (.deviceSessionInit n status))
    (hget : sessionAt (w key) n = some sess) (htoken : sess.token ≠ [])
    (hopen : (w key).device.status = .idle ∨ (w key).device.status = .busy) :
    status = .success := by
  rcases worldStep_call hstep hevent with ⟨op, outcome, s, hop, hdev, hhears, _, _⟩
  rcases pointer_eq_ok hop with ⟨p, hp, hop⟩
  rw [hop] at hdev
  rw [LibraryCall.hears, beq_iff_eq] at hhears
  rw [sessionAt, hp, Option.bind_some] at hget
  have hcall : deviceSessionInit (w key).device (some p) = .ok (outcome, s) := hdev
  rcases hopen with hst | hst
  all_goals
    simp only [deviceSessionInit, hst, hget, htoken, if_false] at hcall
    rw [hhears, (answer_eq_ok.mp hcall).1]
    rfl

/-- An allocation and a token leave the state of the device alone. -/
theorem allocToken_status {call : LibraryCall} (hstep : worldStep img w a = .ok (o, w'))
    (hevent : a.event = .call key call)
    (hkind : (∃ status session, call = .deviceSessionAlloc status session) ∨
      ∃ m param value status, call = .deviceSessionSetParameter m param value status) :
    (w' key).device.status = (w key).device.status := by
  rcases worldStep_call hstep hevent with ⟨op, outcome, s, hop, hdev, _, _, hw⟩
  rw [hw, Function.update_self, after_device]
  rcases hkind with ⟨status, session, rfl⟩ | ⟨m, param, value, status, rfl⟩
  · rw [← Except.ok.inj hop] at hdev
    have hcall : deviceSessionAlloc (w key).device a.env true = .ok (outcome, s) := hdev
    rcases deviceSessionAlloc_cases hcall with hs | ⟨_, hs⟩
    all_goals rw [hs]
  · rcases pointer_eq_ok hop with ⟨p, _, hop⟩
    rw [hop] at hdev
    have hcall : deviceSessionSetParameter (w key).device a.env (some p) param value.length
        (some (fun i => value.getD i 0)) = .ok (outcome, s) := hdev
    rcases deviceSessionSetParameter_cases hcall with hs | ⟨_, _, _, _, _, _, _, hs⟩
    all_goals rw [hs]

/-- Why a turn ends the loop. The calls of the turn are made one after the other
    on a session that is new, and the device has accepted all but the last. -/
theorem turn_refused {env : DriverEnv} {token : List UInt8} {d : Device} {events : List Event}
    {abort : Abort} {tr : List (WorldEntry R)} {b b' : LibraryBooks}
    (hcalls : TurnCalls env token d events (some abort)) (hrun : Runs (worldStep img) w tr w')
    (hfollow : Follow tr events) (hmirrors : Mirrors b w) (hleads : Leads b (deals events) b')
    (hworking : Working w) : Refused env tr token (abortStatus abort) := by
  have hvalue : token ++ [0] ≠ [] := List.append_ne_nil_of_right_ne_nil _ (List.cons_ne_nil _ _)
  generalize hsome : some abort = r at hcalls
  cases hcalls with
  | outOfMemory hmem =>
      rw [Option.some.inj hsome]
      exact Or.inl ⟨rfl, Or.inl hmem⟩
  | notStored auth hauth hmem =>
      rw [Option.some.inj hsome]
      exact Or.inl ⟨rfl, Or.inl hmem⟩
  | opened auth hauth =>
      exact absurd hsome (by simp only [reduceCtorEq, not_false_eq_true])
  | notAllocated status hstatus =>
      rcases List.map_eq_singleton_iff.mp hfollow with ⟨e, rfl, hevent⟩
      rcases alloc_refused (runs_cons hrun).1 hevent with ⟨hst, hmem⟩
      rw [Option.some.inj hsome]
      exact Or.inl ⟨hst, Or.inr ⟨e, List.mem_singleton.mpr rfl, _, hmem⟩⟩
  | notAccepted auth hauth =>
      rcases List.map_eq_cons_iff.mp hfollow with ⟨e₁, tr₁, rfl, h₁, hfollow⟩
      rcases List.map_eq_cons_iff.mp hfollow with ⟨e₂, tr₂, rfl, h₂, hfollow⟩
      rcases runs_cons hrun with ⟨hstep₁, hrun⟩
      rcases runs_cons hrun with ⟨hstep₂, _⟩
      rw [Option.some.inj hsome]
      rcases setToken_refused hstep₂ h₂ hauth hvalue (alloc_sessionAt hstep₁ h₁) rfl with
        ⟨hst, hmem⟩ | ⟨hst, hlong⟩
      · exact Or.inl ⟨hst, Or.inr ⟨e₂, List.mem_cons_of_mem _ List.mem_cons_self, _, hmem⟩⟩
      · rw [List.length_append, List.length_singleton] at hlong
        exact Or.inr ⟨hst, hlong⟩
  | notInitialized auth status hauth hstatus =>
      -- This does not happen: the device initializes the session.
      rcases List.map_eq_cons_iff.mp hfollow with ⟨e₁, tr₁, rfl, h₁, hfollow⟩
      rcases List.map_eq_cons_iff.mp hfollow with ⟨e₂, tr₂, rfl, h₂, hfollow⟩
      rcases List.map_eq_cons_iff.mp hfollow with ⟨e₃, tr₃, rfl, h₃, hfollow⟩
      rcases runs_cons hrun with ⟨hstep₁, hrun⟩
      rcases runs_cons hrun with ⟨hstep₂, hrun⟩
      rcases runs_cons hrun with ⟨hstep₃, _⟩
      have hsess := setToken_sessionAt hstep₂ h₂ hauth hvalue (alloc_sessionAt hstep₁ h₁) rfl
      refine absurd (init_accepted hstep₃ h₃ hsess hvalue ?_) hstatus
      rw [allocToken_status hstep₂ h₂ (Or.inr ⟨_, _, _, _, rfl⟩),
        allocToken_status hstep₁ h₁ (Or.inl ⟨_, _, rfl⟩)]
      -- The session was taken from an open library.
      have hopen : b.opened d.library.key := hleads.1.1.1
      exact (hworking d.library.key).resolve_left ((hmirrors d.library.key).opened.mp hopen)

/-! ## Opening a session and creating a job -/

variable {addr : DeviceHandle → Nat} {t t' : Stack R} {c : StackCall R} {out : StackOut R}

/-- Opening a session succeeds, with a device for every entry of the configuration,
    or it is refused for lack of memory or for the length of the token. -/
theorem stackStep_opens (hinv : StackInv t) (hworking : Working t.world) {h : Nat}
    {sess : Session} {token : List UInt8} (hop : c.call.op = .sessionInit (some h))
    (hget : t.driver.sessions.get? h = some sess) (hst : sess.status = .allocated)
    (htoken : sess.token = some token) (hstep : stackStep addr img t c = .ok (out, t')) :
    OpensAll t t' out h ∨ ∃ status, out.reply = .ok { status := status } ∧
      Refused c.call.env out.world token status := by
  rcases stackStep_cases hstep with ⟨hdriver, hworld, hfollow⟩
  have hkeeps := driverMove_keeps (driverStep_move hdriver) hinv.driver
    (fun i hi => absurd (hop.symm.trans hi) (by simp only [reduceCtorEq, not_false_eq_true]))
  rw [driverStep, hop] at hdriver
  simp only [sessionInit, hget, hst, htoken, ne_eq, not_true_eq_false, if_false] at hdriver
  rcases hopen : openDevices c.call.env token 0 t.driver.configuredDevices
    { next := t.driver.nextHandle } with ⟨o, _ | abort⟩
  · simp only [hopen, finish, Except.ok.injEq, Prod.mk.injEq] at hdriver
    rcases hdriver with ⟨hout, ht⟩
    have hreply := reply_sessionsOnly (hout ▸ openDevices_sessionsOnly hopen) hfollow
    refine Or.inl ⟨by rw [hreply, ← hout], ?_⟩
    rw [← ht]
    dsimp only
    rw [Heap.get?_set _ _ _ _ hget, if_pos rfl]
    exact ⟨_, rfl, ((openDevices_owned hinv.driver hopen).2 rfl).devices⟩
  · simp only [hopen, finish, Except.ok.injEq, Prod.mk.injEq] at hdriver
    rcases hdriver with ⟨hout, _⟩
    have hreply := reply_sessionsOnly (hout ▸ sessionsOnly_append (openDevices_sessionsOnly hopen)
      (sessionsOnly_freeDevices o.devices)) hfollow
    refine Or.inr ⟨abortStatus abort, by rw [hreply, ← hout], ?_⟩
    -- The libraries before the turn that ends the loop, and through it.
    rcases openDevices_calls hopen with ⟨before, cfg, n, events, _, hevents, hcalls⟩
    have hleads := hkeeps.leads
    rw [← hout] at hfollow hleads
    dsimp only at hfollow hleads
    rw [hevents, List.append_assoc] at hfollow hleads
    rcases follow_split hfollow with ⟨tr₁, tr, htr, h₁, hfollow⟩
    rcases follow_split hfollow with ⟨tr₂, tr₃, htr', h₂, _⟩
    rcases runs_split hworld tr₁ tr htr with ⟨w₁, hrun₁, hrun⟩
    rcases runs_split hrun tr₂ tr₃ htr' with ⟨w₂, hrun₂, _⟩
    rw [deals_append, deals_append] at hleads
    rcases leads_split hleads with ⟨b₁, hleads₁, hleads⟩
    rcases leads_split hleads with ⟨b₂, hleads₂, _⟩
    have hmirrors₁ := worldRuns_mirrors hinv.mirrors hrun₁ (by rwa [dealsOf_follow h₁])
    refine refused_mono (turn_refused hcalls hrun₂ h₂ hmirrors₁ hleads₂
      (worldRuns_working hworking hrun₁)) (fun e he => ?_)
    rw [htr, htr']
    exact List.mem_append_right _ (List.mem_append_left _ he)

/-- Creating a job on a device that may be written succeeds, with a new device job
    behind it, unless the driver or the library runs out of memory. The driver
    answers then, and the library lets the exception escape. -/
theorem stackStep_creates (hinv : StackInv t) {dev : DeviceHandle} {sess : Session} {d : Device}
    (hop : c.call.op = .deviceCreateJob (some dev) true)
    (hdev : deviceAt t.driver dev = some (sess, d)) (hmode : sess.mode = .readwrite)
    (hstep : stackStep addr img t c = .ok (out, t')) :
    CreatesJob t t' out dev ∨
    (out.reply = .ok { status := .errorOutofmem } ∧ c.call.env.mem 0 = false) ∨
    (out.reply = .error .badAlloc ∧ (c.env 0).mem 0 = false) := by
  rcases stackStep_cases hstep with ⟨hdriver, hworld, hfollow⟩
  have hlabels := stackStep_labels hstep
  rw [driverStep, hop] at hdriver
  simp only [deviceCreateJob, Bool.not_true, Bool.false_eq_true, if_false, hdev, hmode, ne_eq,
    not_true_eq_false] at hdriver
  split at hdriver
  · rename_i hmem
    rw [finish, Except.ok.injEq, Prod.mk.injEq] at hdriver
    rw [Bool.not_eq_true'] at hmem
    refine Or.inr (Or.inl ⟨?_, hmem⟩)
    rw [reply_sessionsOnly (by rw [← hdriver.1]; exact fun _ _ hmem => absurd hmem List.not_mem_nil)
      hfollow, ← hdriver.1]
  -- The library is asked, and its answer is the one the driver was given.
  have hgiven : c.call.env.status 0 = .success →
      handleFor (c.call.env.gives 0) t.driver.nextHandle = some t.driver.nextHandle :=
    fun h => handleFor_of_success h _
  generalize handleFor (c.call.env.gives 0) t.driver.nextHandle = given at hdriver hgiven
  generalize c.call.env.status 0 = status at hdriver hgiven
  have hevents : out.driver.events = [.call d.library.key (.deviceSessionCreateDeviceJob
      d.deviceSession status given)] := by
    unfold adoptJob at hdriver
    split at hdriver
    · rw [finish, Except.ok.injEq, Prod.mk.injEq] at hdriver
      rw [← hdriver.1]
    · rw [Except.ok.injEq, Prod.mk.injEq] at hdriver
      rw [← hdriver.1]
  rw [hevents] at hlabels
  rcases List.map_eq_singleton_iff.mp hlabels with ⟨e, htr, hlabel⟩
  rw [htr] at hworld
  rcases runs_cons hworld with ⟨hcalled, hnil⟩
  have hevent : e.label.event = .call d.library.key (.deviceSessionCreateDeviceJob
      d.deviceSession status given) := by rw [hlabel]
  rcases worldStep_call hcalled hevent with ⟨op, outcome, s, hlib, hdevice, hhears, ho, hw⟩
  have hreply : out.reply = (LibraryCall.deviceSessionCreateDeviceJob d.deviceSession status
      given).returned outcome out.driver.reply := by
    rcases e with ⟨pre, label, o', post⟩
    dsimp only at hlabel ho
    rw [StackOut.reply, htr, hlabel, ho]
  rcases pointer_eq_ok hlib with ⟨p, hp, hlib⟩
  rw [hlib, hlabel] at hdevice
  rcases hinv.ready dev sess d hdev with ⟨token, _, hready⟩
  rw [sessionAt, hp, Option.bind_some] at hready
  rw [LibraryCall.hears, Bool.and_eq_true, beq_iff_eq] at hhears
  have hcreate : deviceSessionCreateDeviceJob (t.world d.library.key).device (c.env 0) (some p)
      true = .ok (outcome, s) := hdevice
  simp only [deviceSessionCreateDeviceJob, Bool.not_true, Bool.false_eq_true, if_false, hready,
    ne_eq, not_true_eq_false] at hcreate
  split at hcreate
  · rename_i hmem
    rw [Bool.not_eq_true'] at hmem
    rw [hreply, (raise_eq_ok.mp hcreate).1]
    exact Or.inr (Or.inr ⟨rfl, hmem⟩)
  · rw [Except.ok.injEq, Prod.mk.injEq] at hcreate
    have hsuccess : status = .success := by rw [hhears.1, ← hcreate.1, heardStatus]
    rw [hgiven hsuccess, hsuccess] at hevent
    rw [hsuccess] at hdriver hreply
    rw [adoptJob, if_neg (not_not.mpr rfl), Except.ok.injEq, Prod.mk.injEq] at hdriver
    refine Or.inl ⟨by rw [hreply, ← hcreate.1, ← hdriver.1]; rfl, ?_⟩
    rcases createDeviceJob_jobAt hcalled hevent (Or.inl rfl) with ⟨q, id, hq, _, hjob⟩
    rw [runs_nil hnil]
    refine ⟨{ device := dev, deviceJob := t.driver.nextHandle }, _, q, id, ?_, rfl,
      sessionBehind_eq_some.mpr ⟨d, (deviceOf_of_deviceAt hdev).2, rfl, hq⟩, hjob⟩
    rw [← hdriver.2]
    dsimp only
    rw [Heap.get?_alloc, if_pos rfl]

/-- Behind every run of clients that free jobs before their session,
    `QDMI_session_init` opens a session that has a token and is not open yet, unless
    memory runs out or the token is too long. -/
theorem stackRuns_opens (addr : DeviceHandle → Nat) (img : Nat × List UInt8 → Image)
    (tr : List (StackEntry R)) (t t' : Stack R) (hrun : StackRuns addr img tr t)
    (hrule : Respects FreesJobs tr) (c : StackCall R) (h : Nat) (sess : Session)
    (token : List UInt8) (hop : c.call.op = .sessionInit (some h))
    (hget : t.driver.sessions.get? h = some sess) (hst : sess.status = .allocated)
    (htoken : sess.token = some token) (out : StackOut R)
    (hstep : stackStep addr img t c = .ok (out, t')) :
    OpensAll t t' out h ∨ ∃ status, out.reply = .ok { status := status } ∧
      Refused c.call.env out.world token status :=
  stackStep_opens (stackRuns_inv hrun hrule) (stackRuns_working hrun) hop hget hst htoken hstep

/-- Behind every such run, `QDMI_device_create_job` creates a job on a device of a
    session that may write, unless memory runs out. -/
theorem stackRuns_creates (addr : DeviceHandle → Nat) (img : Nat × List UInt8 → Image)
    (tr : List (StackEntry R)) (t t' : Stack R) (hrun : StackRuns addr img tr t)
    (hrule : Respects FreesJobs tr) (c : StackCall R) (dev : DeviceHandle) (sess : Session)
    (d : Device) (hop : c.call.op = .deviceCreateJob (some dev) true)
    (hdev : deviceAt t.driver dev = some (sess, d)) (hmode : sess.mode = .readwrite)
    (out : StackOut R) (hstep : stackStep addr img t c = .ok (out, t')) :
    CreatesJob t t' out dev ∨
    (out.reply = .ok { status := .errorOutofmem } ∧ c.call.env.mem 0 = false) ∨
    (out.reply = .error .badAlloc ∧ (c.env 0).mem 0 = false) :=
  stackStep_creates (stackRuns_inv hrun hrule) hop hdev hmode hstep

end

/-! ## Both on the sample configuration -/

/-- Nothing is refused in an environment in which everything goes well. -/
theorem not_refused (ops : List DriverOp) {c : StackCall ℚ} {events : List Event}
    {tr : List (WorldEntry ℚ)} {token : List UInt8} {status : Status} (hc : c ∈ stackCalls ops)
    (hlabels : tr.map Entry.label = c.deliveries events)
    (htoken : token.length + 1 ≤ vectorMaxSize 1) : ¬ Refused c.call.env tr token status := by
  rcases List.mem_map.mp hc with ⟨op, _, rfl⟩
  rintro (⟨_, ⟨i, hmem⟩ | ⟨e, he, i, hmem⟩⟩ | ⟨_, hlong⟩)
  · exact absurd hmem (by simp only [Driver.sampleEnv, Bool.true_eq_false, not_false_eq_true])
  · -- Every call of a library is made in the same environment.
    have hin : e.label ∈ tr.map Entry.label := List.mem_map_of_mem he
    rw [hlabels, StackCall.deliveries, List.mem_mapIdx] at hin
    rcases hin with ⟨k, _, hlabel⟩
    rw [← hlabel] at hmem
    exact absurd hmem (by simp only [Qdmi.sampleEnv, Bool.true_eq_false, not_false_eq_true])
  · exact absurd hlong (Nat.not_lt.mpr htoken)

/-- The first client opens its session. -/
theorem stackRuns_opens_sample :
    ∃ tr t t' out, StackRuns (R := ℚ) (fun _ => 0) (fun _ => sampleImage) tr t ∧
      stackStep (fun _ => 0) (fun _ => sampleImage) t
        ⟨⟨.sessionInit (some 0), Driver.sampleEnv⟩, fun _ => Qdmi.sampleEnv, fun _ => true⟩ =
          .ok (out, t') ∧ OpensAll t t' out 0 := by
  rcases stackRuns_continued (submitOps.take 2) [.sessionInit (some 0)] (fun t _ _ =>
    (t.driver.sessions.get? 0).bind (fun sess => sess.token.map (fun token =>
      (sess.status, token)))) (.allocated, [116]) rfl with
    ⟨tr, tr', t, u, hrun, hrule, hrun', _, hlabels, hv⟩
  rcases Option.bind_eq_some_iff.mp hv with ⟨sess, hget, hv⟩
  rcases Option.map_eq_some_iff.mp hv with ⟨token, htoken, hv⟩
  rw [Prod.mk.injEq] at hv
  rcases runs_single hrun' hlabels with ⟨out, hstep⟩
  refine ⟨tr, t, u, out, hrun, hstep, ?_⟩
  rcases stackRuns_opens (fun _ => 0) (fun _ => sampleImage) tr t u hrun hrule _ 0 sess token rfl
    hget hv.1 htoken out hstep with hopens | ⟨status, _, hrefused⟩
  · exact hopens
  · refine absurd hrefused (not_refused [.sessionInit (some 0)]
      (List.mem_singleton.mpr rfl) (stackStep_labels hstep) ?_)
    rw [hv.2]
    decide

/-- It creates its job. -/
theorem stackRuns_creates_sample :
    ∃ tr t t' out, StackRuns (R := ℚ) (fun _ => 0) (fun _ => sampleImage) tr t ∧
      stackStep (fun _ => 0) (fun _ => sampleImage) t
        ⟨⟨.deviceCreateJob (some { session := 0, index := 1 }) true, Driver.sampleEnv⟩,
          fun _ => Qdmi.sampleEnv, fun _ => true⟩ = .ok (out, t') ∧
      CreatesJob t t' out { session := 0, index := 1 } := by
  rcases stackRuns_continued (submitOps.take 3)
    [.deviceCreateJob (some { session := 0, index := 1 }) true] (fun t _ _ =>
      (deviceAt t.driver { session := 0, index := 1 }).map (fun x => x.1.mode)) .readwrite rfl with
    ⟨tr, tr', t, u, hrun, hrule, hrun', _, hlabels, hv⟩
  rcases Option.map_eq_some_iff.mp hv with ⟨⟨sess, d⟩, hdev, hmode⟩
  rcases runs_single hrun' hlabels with ⟨out, hstep⟩
  refine ⟨tr, t, u, out, hrun, hstep, ?_⟩
  rcases stackRuns_creates (fun _ => 0) (fun _ => sampleImage) tr t u hrun hrule _ _ sess d rfl
    hdev hmode out hstep with hcreates | ⟨_, hmem⟩ | ⟨_, hmem⟩
  · exact hcreates
  · exact absurd hmem (by simp only [Driver.sampleEnv, Bool.true_eq_false, not_false_eq_true])
  · exact absurd hmem (by simp only [Qdmi.sampleEnv, Bool.true_eq_false, not_false_eq_true])

end Driver

end Qdmi
