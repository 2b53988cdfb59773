import Qdmi.Theory.Driver.Discipline

/-!
# Access to the Devices

What the token of a session decides for the rest of its life.

The access mode of a session is written each time a client tries to initialize
it and is read when a job is asked for. In between it can only change while the
session is still allocated, and then the session has no devices to ask. So the
attempt that succeeded decides: the session it leaves behind is kept as it is
by `runs_sessionsKept`, and a job was adopted in a state in which the session of
its device had the mode to write.

## Main definitions

* `AccessKept`: What the tokens decide over a run.

## Theorems

* `asksForJob_succeeds`: What a call that adopts a job has found.
* `sessionInit_succeeds`: What a call that initializes a session has done.
* `driverRuns_adopted`: Every live job was adopted from a session that writes.
* `driverRuns_accessKept`: The tokens decide.
-/

namespace Qdmi

namespace Driver

section

variable {s t : DriverState} {c : DriverCall} {out : DriverOut}

/-- A call that is given a job has found a device of a session that writes. -/
theorem asksForJob_succeeds {dev : DeviceHandle} (hmove : DriverMove s c out t)
    (hop : AsksForJob dev c.op) (hsucc : Succeeds out.reply) :
    ∃ sess d, deviceAt s dev = some (sess, d) ∧ sess.mode = .readwrite := by
  have hasks : ∀ {dev' : DeviceHandle}, AsksForJob dev' c.op → dev' = dev := by
    intro dev' hop'
    rcases c with ⟨op, env⟩
    cases op with
    | deviceCreateJob _ _ => exact Option.some.inj (hop'.symm.trans hop)
    | sessionRetrieveJobById _ _ _ => exact Option.some.inj (hop'.symm.trans hop)
    | _ => exact absurd hop (fun hf => hf)
  have hgrants : Grants c.op := by
    rcases c with ⟨op, env⟩
    cases op with
    | deviceCreateJob _ _ | sessionRetrieveJobById _ _ _ => trivial
    | _ => exact absurd hop (fun hf => hf)
  -- Only the two calls that make a job ask for one.
  cases hmove with
  | stay reply h => exact absurd hsucc (h hgrants)
  | refuseJob dev' sess d status call hop' hdev hmode hstatus => exact absurd hsucc hstatus
  | adoptJob dev' sess d call hop' hdev hmode =>
      rw [hasks hop'] at hdev
      exact ⟨sess, d, hdev, hmode⟩
  | passJob j jb sess d call hno | passQuery dev' sess d call hno => exact absurd hgrants hno
  | loadFails events status hop' | allocFirst events libraries configuredDevices hop'
  | allocNext hop' | initFails h sess token o abort hop' | init h sess token o hop'
  | free h sess hop' | freeLast h sess hop' | freeJob j jb sess d hop' =>
      rw [hop'] at hop
      exact absurd hop (fun hf => hf)
  | setToken h sess token hop' =>
      rcases hop' with ⟨param, size, value, hop'⟩
      rw [hop'] at hop
      exact absurd hop (fun hf => hf)

/-- A call that initializes a session successfully has read its token. -/
theorem sessionInit_succeeds {h : Nat} (hmove : DriverMove s c out t)
    (hop : c.op = .sessionInit (some h)) (hsucc : Succeeds out.reply) :
    ∃ sess token devices, s.sessions.get? h = some sess ∧ sess.status = .allocated ∧
      sess.token = some token ∧ t.sessions.get? h =
        some (withDeviceList sess token devices) := by
  cases hmove with
  | stay reply hno =>
      rw [hop] at hno
      exact absurd hsucc (hno trivial)
  | initFails h' sess token o abort hop' hget hst htoken hopen =>
      -- An attempt is given up with a status other than success.
      exact absurd hsucc (openDevices_abort hopen)
  | init h' sess token o hop' hget hst htoken =>
      rw [hop, DriverOp.sessionInit.injEq, Option.some.injEq] at hop'
      rw [← hop'] at hget
      refine ⟨sess, token, o.devices, hget, hst, htoken, ?_⟩
      rw [← hop', Heap.get?_set _ _ _ _ hget, if_pos rfl]
  | passJob j jb sess d call hno | passQuery dev' sess d call hno =>
      rw [hop] at hno
      exact absurd trivial hno
  | refuseJob dev' sess d status call hop' | adoptJob dev' sess d call hop' =>
      rw [hop] at hop'
      exact absurd hop' (fun hf => hf)
  | loadFails events status hop' | allocFirst events libraries configuredDevices hop'
  | allocNext hop' | free h' sess hop' | freeLast h' sess hop' | freeJob j jb sess d hop' =>
      rw [hop] at hop'
      exact absurd hop' (by simp only [reduceCtorEq, not_false_eq_true])
  | setToken h' sess token hop' =>
      rcases hop' with ⟨param, size, value, hop'⟩
      rw [hop] at hop'
      exact absurd hop' (by simp only [reduceCtorEq, not_false_eq_true])

/-- A call that leaves one more job behind has found a device of a session that
    writes. -/
theorem driverMove_jobs (hmove : DriverMove s c out t) {i : Nat} {jb : Job}
    (hget : t.jobs.get? i = some jb) : s.jobs.get? i = some jb ∨
      ∃ sess d, deviceAt s jb.device = some (sess, d) ∧ sess.mode = .readwrite := by
  cases hmove with
  | adoptJob dev sess d call hop hdev hmode =>
      rw [Heap.get?_alloc] at hget
      by_cases hi : i = s.jobs.next
      · -- The new job is the one that was granted.
        rw [if_pos hi, Option.some.injEq] at hget
        rw [← hget]
        exact Or.inr ⟨sess, d, hdev, hmode⟩
      · rw [if_neg hi] at hget
        exact Or.inl hget
  | freeJob j jb' sess d hop hj hdev =>
      rw [Heap.get?_free] at hget
      by_cases hi : i = j
      · rw [if_pos hi] at hget
        exact absurd hget (by simp only [reduceCtorEq, not_false_eq_true])
      · rw [if_neg hi] at hget
        exact Or.inl hget
  | _ => exact Or.inl hget

end

/-- Every live job was adopted at some point of the run, when the session of
    its device had the mode to write. -/
theorem driverRuns_adopted {addr : DeviceHandle → Nat} {tr : List DriverEntry} {s : DriverState}
    (hrun : DriverRuns addr tr s) : ∀ i jb, s.jobs.get? i = some jb →
      ∃ e ∈ tr, ∃ sess d, deviceAt e.pre jb.device = some (sess, d) ∧ sess.mode = .readwrite := by
  refine runs_invariant (C := fun _ _ => True) (P := fun tr s => ∀ i jb, s.jobs.get? i = some jb →
      ∃ e ∈ tr, ∃ sess d, deviceAt e.pre jb.device = some (sess, d) ∧ sess.mode = .readwrite) hrun
    (fun _ _ => trivial) ?_ ?_
  · intro i jb hget
    exact absurd hget (by simp only [Heap.get?_empty, reduceCtorEq, not_false_eq_true])
  · intro tr t c out u _ _ ih _ hstep i jb hget
    rcases driverMove_jobs (driverStep_move hstep) hget with hold | ⟨sess, d, hdev, hmode⟩
    · rcases ih i jb hold with ⟨e, he, hrest⟩
      exact ⟨e, List.mem_append_left _ he, hrest⟩
    · exact ⟨_, List.mem_append_right _ (List.mem_singleton.mpr rfl), sess, d, hdev, hmode⟩

/-- A session with a device has been initialized. -/
theorem initialized_of_deviceAt {s : DriverState} {dev : DeviceHandle} {sess : Session} {d : Device}
    (hdev : deviceAt s dev = some (sess, d)) :
    s.sessions.get? dev.session = some sess ∧ sess.status = .initialized := by
  rcases deviceOf_of_deviceAt hdev with ⟨hget, hd⟩
  refine ⟨hget, ?_⟩
  rcases hst : sess.status with _ | _
  · rw [deviceOf_eq hget rfl, sess.bare hst, List.getElem?_nil] at hd
    exact absurd hd (by simp only [reduceCtorEq, not_false_eq_true])
  · rfl

/-- A session that was initialized before a step of the driver is, after any
    further run, as it was. -/
theorem kept_of_runs {addr : DeviceHandle → Nat} {s u : DriverState} {tr : List DriverEntry}
    (hrun : Runs (driverStep addr) s tr u) {h : Nat} {sess sess' : Session}
    (hget : s.sessions.get? h = some sess) (hst : sess.status = .initialized)
    (hget' : u.sessions.get? h = some sess') : sess' = sess := by
  rcases (runs_sessionsKept hrun).2 h sess' (Heap.get?_lt_next hget) hget' with ⟨old, hold, hsame⟩
  rw [hget, Option.some.injEq] at hold
  rw [← hold] at hsame
  exact hsame hst

/-- What the tokens decide over a run. -/
structure AccessKept (tr : List DriverEntry) (s : DriverState) : Prop where
  /-- A session that was initialized with the empty token is never given a job. -/
  readonly : ∀ e ∈ tr, ∀ h sess, e.label.op = .sessionInit (some h) → Succeeds e.out.reply →
    e.pre.sessions.get? h = some sess → sess.token = some [] →
    ∀ e' ∈ tr, ∀ dev : DeviceHandle, dev.session = h → AsksForJob dev e'.label.op →
      ¬ Succeeds e'.out.reply
  /-- The mode of a session never changes after it was initialized. -/
  fixed : ∀ before e after, tr = before ++ e :: after → ∀ h, e.label.op = .sessionInit (some h) →
    Succeeds e.out.reply → ∃ sess, e.post.sessions.get? h = some sess ∧
      ∀ e' ∈ after, ∀ sess', e'.post.sessions.get? h = some sess' → sess'.mode = sess.mode
  /-- A live job was adopted from a device of a session that writes, and that
      session still does as long as it lives. -/
  jobs : ∀ i jb, s.jobs.get? i = some jb → ∃ e ∈ tr, ∃ sess d,
    deviceAt e.pre jb.device = some (sess, d) ∧ sess.mode = .readwrite ∧
    ∀ sess', s.sessions.get? jb.device.session = some sess' → sess'.mode = .readwrite ∧
      deviceAt s jb.device = some (sess', d)

/-- In every run the tokens decide, however often they were set and whichever
    attempts failed. -/
theorem driverRuns_accessKept (addr : DeviceHandle → Nat) (tr : List DriverEntry)
    (s : DriverState) (hrun : DriverRuns addr tr s) : AccessKept tr s := by
  refine ⟨?_, ?_, ?_⟩
  · intro e he h sess hop hsucc hget htoken e' he' dev hdev hasks hgiven
    rcases runs_mem hrun he with ⟨before, after, htr, hbefore, hstep, hafter⟩
    rcases sessionInit_succeeds (driverStep_move hstep) hop hsucc with
      ⟨old, token, devices, hold, hst, htok, hpost⟩
    rw [hget, Option.some.injEq] at hold
    rw [← hold, htoken, Option.some.injEq] at htok
    rw [← hold] at hst
    rw [htr] at he'
    rcases List.mem_append.mp he' with hearly | hlate
    · -- Before it was initialized the session had no devices to ask.
      rcases runs_mem hbefore hearly with ⟨tr₁, tr₂, _, h₁, hs, h₂⟩
      rcases asksForJob_succeeds (driverStep_move hs) hasks hgiven with ⟨sess', d, hat, _⟩
      rcases initialized_of_deviceAt hat with ⟨hget', hinit⟩
      rw [hdev] at hget'
      have hrest : Runs (driverStep addr) e'.pre
          (⟨e'.pre, e'.label, e'.out, e'.post⟩ :: tr₂) e.pre :=
        runs_append (Runs.snoc Runs.refl hs) h₂
      rw [kept_of_runs hrest hget' hinit hget, hinit] at hst
      exact absurd hst (by simp only [reduceCtorEq, not_false_eq_true])
    rcases List.mem_cons.mp hlate with hsame | hlater
    · rw [hsame, hop] at hasks
      exact absurd hasks (fun hf => hf)
    · -- Afterwards its mode is the one of the empty token.
      rcases runs_mem hafter hlater with ⟨tr₁, tr₂, _, h₁, hs, _⟩
      rcases asksForJob_succeeds (driverStep_move hs) hasks hgiven with ⟨sess', d, hat, hmode⟩
      have hget' := (deviceOf_of_deviceAt hat).1
      rw [hdev] at hget'
      rw [kept_of_runs h₁ hpost rfl hget', ← htok] at hmode
      have hreads : tokenMode [] = .readwrite := hmode
      exact absurd hreads (by decide)
  · intro before e after htr h hop hsucc
    rw [htr] at hrun
    rcases runs_at hrun with ⟨_, hstep, hafter⟩
    rcases sessionInit_succeeds (driverStep_move hstep) hop hsucc with
      ⟨old, token, devices, _, _, _, hpost⟩
    refine ⟨_, hpost, fun e' he' sess' hget' => ?_⟩
    rcases runs_mem hafter he' with ⟨tr₁, tr₂, _, h₁, hs, _⟩
    rw [kept_of_runs (runs_append h₁ (Runs.snoc Runs.refl hs)) hpost rfl hget']
  · intro i jb hget
    rcases driverRuns_adopted hrun i jb hget with ⟨e, he, sess, d, hat, hmode⟩
    refine ⟨e, he, sess, d, hat, hmode, fun sess' hget' => ?_⟩
    rcases runs_mem hrun he with ⟨tr₁, tr₂, _, h₁, hs, h₂⟩
    rcases initialized_of_deviceAt hat with ⟨hlive, hinit⟩
    have hsame := kept_of_runs (runs_append (Runs.snoc Runs.refl hs) h₂) hlive hinit hget'
    rw [hsame] at hget'
    rw [hsame]
    refine ⟨hmode, ?_⟩
    rw [deviceAt, hlive] at hat
    rw [deviceAt, hget']
    exact hat

/-- A session is tried with one token, in vain, and initialized with the empty
    one. -/
def emptyTokenCalls : List DriverCall := [
  ⟨.sessionAlloc true, sampleEnv⟩,
  ⟨.sessionSetParameter (some 0) SessionParameter.token 2 (some (fun _ => 7)), sampleEnv⟩,
  ⟨.sessionInit (some 0), answering (fun _ => .errorFatal)⟩,
  ⟨.sessionSetParameter (some 0) SessionParameter.token 1 (some (fun _ => 7)), sampleEnv⟩,
  ⟨.sessionInit (some 0), sampleEnv⟩,
  ⟨.deviceCreateJob (some { session := 0, index := 0 }) true, sampleEnv⟩]

/-- What the client is told in a run that does not go wrong. -/
def playStatuses (addr : DeviceHandle → Nat) (calls : List DriverCall) :
    Option (List (Option Status)) :=
  match play (driverStep addr) {} calls with
  | .ok (tr, _) => some (tr.map (fun e => e.out.reply.toOption.map Reply.status))
  | .error _ => none

/-- The run of these calls: the mode of the attempt in vain does not stick. -/
theorem driverRuns_accessKept_sample :
    ∃ tr s, DriverRuns (fun _ => 0) tr s ∧
      tr.map (fun e => e.out.reply.toOption.map Reply.status) =
        [some .success, some .success, some .errorFatal, some .success, some .success,
          some .errorPermissiondenied] ∧
      AccessKept tr s := by
  have hplay : playStatuses (fun _ => 0) emptyTokenCalls =
      some [some .success, some .success, some .errorFatal, some .success, some .success,
        some .errorPermissiondenied] := by rfl
  unfold playStatuses at hplay
  split at hplay
  · rename_i tr s hrun
    have hruns : DriverRuns (fun _ => 0) tr s := runs_of_play _ hrun
    exact ⟨tr, s, hruns, Option.some.inj hplay, driverRuns_accessKept (fun _ => 0) tr s hruns⟩
  · exact absurd hplay (by simp only [reduceCtorEq, not_false_eq_true])

end Driver

end Qdmi
