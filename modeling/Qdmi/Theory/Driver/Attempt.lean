import Qdmi.Theory.Driver.Alike
import Qdmi.Theory.Driver.Discipline

/-!
# Initializing a Session

`QDMI_session_init` is all or nothing.

An attempt that succeeds has opened one device for each entry of the
configuration, in order. One that fails has given back every device session it
was handed, and the session is as it was but for its access mode, which no
client can see before the session is initialized: what is called afterwards is
answered as if the attempt had not been made.

Both halves hold in any state of the driver and not only in those a run leads
to, because a session that is still allocated has no devices.

## Main definitions

* `InitDone`, `InitUndone`: What a successful and a failed attempt have done.

## Theorems

* `initDone_of_open`, `initUndone_of_open`: From the loop over the devices.
* `sessionInit_returns`: A call with a live session comes back.
* `sessionInit_allOrNothing`: The two halves.
-/

namespace Qdmi

namespace Driver

/-- What a successful attempt to initialize a session has done. -/
structure InitDone (s : DriverState) (sess : Session) (out : DriverOut) (sess' : Session) :
    Prop where
  status : sess'.status = .initialized
  token : sess'.token = sess.token
  /-- The devices are those of the configuration, in order. -/
  devices : List.Forall₂ (fun cfg d => d.library = cfg.library ∧ d.id = cfg.id)
    s.configuredDevices sess'.deviceList
  /-- Each device has a device session of its own. -/
  distinct : (sess'.deviceList.map Device.deviceSession).Nodup
  /-- It was allocated, given the token and initialized, one device after the
      other. -/
  opened : ∃ token turns, sess.token = some token ∧ List.Forall₂ (fun d turn => ∃ auth,
    Accepted auth ∧ turn = openedEvents token d auth) sess'.deviceList turns ∧
    out.events = turns.flatten

/-- What a failed attempt to initialize a session has done. -/
structure InitUndone (addr : DeviceHandle → Nat) (s : DriverState) (h : Nat) (sess : Session)
    (out : DriverOut) (t : DriverState) : Prop where
  /-- A device session that was opened was freed, once. -/
  freed : ∀ key n, Deal.takes key (.session n) ∈ deals out.events →
    (deals out.events).count (.takes key (.session n)) = 1 ∧
    (deals out.events).count (.returns key (.session n)) = 1
  /-- Each call was allowed when it was made, on any books that open the
      configured libraries and hold none of the new handles. -/
  lawful : ∀ b : LibraryBooks, (∀ cfg ∈ s.configuredDevices, b.opened cfg.library.key) →
    (∀ key n, b.held key (.session n) → n < s.nextHandle) → Leads b (deals out.events) b
  session : ∃ sess', t.sessions.get? h = some sess' ∧ sess'.status = .allocated ∧
    sess'.token = sess.token ∧ sess'.deviceList = []
  others : ∀ h', h' ≠ h → t.sessions.get? h' = s.sessions.get? h'
  unchanged : t.libraries = s.libraries ∧ t.configuredDevices = s.configuredDevices ∧
    t.count = s.count ∧ t.jobs = s.jobs
  /-- No answer to a client depends on the attempt. -/
  retry : ∀ calls, outputs (clientStep addr) t calls = outputs (clientStep addr) s calls

section

variable {addr : DeviceHandle → Nat} {s : DriverState} {env : DriverEnv} {h : Nat}
  {sess : Session} {token : List UInt8} {o : Opening}

/-- Books on which every library is open and nothing is held. -/
def allOpen : LibraryBooks := ⟨fun _ => True, fun _ _ => False⟩

theorem initDone_of_open (htoken : sess.token = some token)
    (hopen : openDevices env token 0 s.configuredDevices { next := s.nextHandle } = (o, none)) :
    InitDone s sess { reply := .ok { status := .success }, events := o.events }
      (withDeviceList sess token o.devices) := by
  rcases openDevices_inv (b := allOpen) hopen (fun _ _ => trivial) (fun _ _ hf => hf.elim) with
    ⟨ho, has⟩
  rcases (has rfl).events with ⟨turns, hturns, hevents⟩
  exact ⟨rfl, rfl, (has rfl).devices, ho.distinct, token, turns, htoken, hturns, hevents⟩

/-- Freeing devices takes nothing. -/
theorem takesOf_freeDevices (devices : List Device) (key : Nat × List UInt8) (n : Nat) :
    takesOf (deals (freeDevices devices)) key n = 0 := by
  rw [takesOf, deals_freeDevices]
  refine List.count_eq_zero.mpr (fun hmem => ?_)
  rcases List.mem_map.mp hmem with ⟨x, _, heq⟩
  exact absurd heq (by simp only [reduceCtorEq, not_false_eq_true])

theorem initUndone_of_open {abort : Abort} (hget : s.sessions.get? h = some sess)
    (hst : sess.status = .allocated)
    (hopen : openDevices env token 0 s.configuredDevices { next := s.nextHandle } =
      (o, some abort)) :
    InitUndone addr s h sess
      { reply := .ok { status := abortStatus abort }, events := o.events ++ freeDevices o.devices }
      { s with sessions := s.sessions.set h (withMode sess token), nextHandle := o.next } := by
  have hlawful : ∀ b : LibraryBooks, (∀ cfg ∈ s.configuredDevices, b.opened cfg.library.key) →
      (∀ key n, b.held key (.session n) → n < s.nextHandle) →
      Leads b (deals (o.events ++ freeDevices o.devices)) b :=
    fun b hlib hheld => leads_rollback (openDevices_inv hopen hlib hheld).1 hheld
  refine ⟨fun key n hmem => ?_, hlawful, ?_, fun h' hne => ?_, ⟨rfl, rfl, rfl, rfl⟩, ?_⟩
  · -- It was taken once, and what was taken came back.
    classical
    have ho := (openDevices_inv (b := allOpen) hopen (fun _ _ => trivial) (fun _ _ hf => hf.elim)).1
    have hbalance := leads_balance_held
      (hlawful allOpen (fun _ _ => trivial) (fun _ _ hf => hf.elim)) key (.session n)
    have hbound : takesOf (deals (o.events ++ freeDevices o.devices)) key n ≤ 1 := by
      have honce := ho.once key n
      rw [deals_append, takesOf_append, takesOf_freeDevices]
      split at honce
      · omega
      · omega
    have hpos := List.count_pos_iff.mpr hmem
    rw [takesOf] at hbound
    dsimp only at hpos ⊢
    omega
  · refine ⟨withMode sess token, ?_, hst, rfl, sess.bare hst⟩
    rw [Heap.get?_set _ _ _ _ hget, if_pos rfl]
  · rw [Heap.get?_set _ _ _ _ hget, if_neg hne]
  · -- The mode is the only difference, and the session is not initialized.
    have halike : (s.sessions.set h (withMode sess token)).Rel SessionAlike s.sessions := by
      refine ⟨by rw [Heap.next_set], fun i => ?_⟩
      rw [Heap.get?_set _ _ _ _ hget]
      by_cases hi : i = h
      · rw [if_pos hi, hi, hget]
        refine Or.inr ⟨_, _, rfl, rfl, rfl, rfl, fun hinit => ?_, deviceAlike_refl _⟩
        have hinit' : sess.status = .initialized := hinit
        rw [hst] at hinit'
        exact absurd hinit' (by simp only [reduceCtorEq, not_false_eq_true])
      · rw [if_neg hi]
        exact (stateAlike_refl s).sessions.2 i
    have hstate : StateAlike
        { s with sessions := s.sessions.set h (withMode sess token), nextHandle := o.next } s :=
      ⟨rfl, rfl, rfl, halike, (stateAlike_refl s).jobs⟩
    exact fun calls => outputs_alike hstate calls

/-- An attempt that changed nothing. -/
theorem initUndone_stay (reply : Except Exn Reply) (hget : s.sessions.get? h = some sess)
    (hst : sess.status = .allocated) :
    InitUndone addr s h sess { reply := reply, events := [] } s :=
  ⟨fun _ _ hmem => absurd hmem List.not_mem_nil, fun b _ _ => leads_nil b,
    ⟨sess, hget, hst, rfl, sess.bare hst⟩, fun _ _ => rfl, ⟨rfl, rfl, rfl, rfl⟩, fun _ => rfl⟩

/-- A call with a live session comes back, whatever its libraries answer. -/
theorem sessionInit_returns (addr : DeviceHandle → Nat) {c : DriverCall}
    (hop : c.op = .sessionInit (some h)) (hget : s.sessions.get? h = some sess) :
    ∃ out t, driverStep addr s c = .ok (out, t) := by
  rw [driverStep, hop]
  simp only [sessionInit, hget]
  split
  · exact ⟨_, _, rfl⟩
  split
  · exact ⟨_, _, rfl⟩
  rcases openDevices c.env _ 0 s.configuredDevices { next := s.nextHandle } with ⟨o, _ | abort⟩
  · exact ⟨_, _, rfl⟩
  · exact ⟨_, _, rfl⟩

end

/-- `QDMI_session_init` on a session that is still allocated is all or nothing,
    with any configured devices and any answers of the libraries. -/
theorem sessionInit_allOrNothing (addr : DeviceHandle → Nat) (s : DriverState) (c : DriverCall)
    (h : Nat) (sess : Session) (hop : c.op = .sessionInit (some h))
    (hget : s.sessions.get? h = some sess) (hst : sess.status = .allocated) :
    ∃ out t, driverStep addr s c = .ok (out, t) ∧
      (Succeeds out.reply → ∃ sess', t.sessions.get? h = some sess' ∧ InitDone s sess out sess') ∧
      (¬ Succeeds out.reply → InitUndone addr s h sess out t) := by
  rcases sessionInit_returns addr hop hget with ⟨out, t, hstep⟩
  have hgrants : Grants c.op := by
    rw [hop]
    trivial
  refine ⟨out, t, hstep, ?_⟩
  have hmove := driverStep_move hstep
  -- The session a move of this call is about is `sess`.
  have hsame : ∀ {h' sess'}, c.op = .sessionInit (some h') → s.sessions.get? h' = some sess' →
      h' = h ∧ sess' = sess := by
    intro h' sess' hop' hget'
    rw [hop, DriverOp.sessionInit.injEq, Option.some.injEq] at hop'
    rw [← hop', hget, Option.some.injEq] at hget'
    exact ⟨hop'.symm, hget'.symm⟩
  have hother : ∀ {op : DriverOp} {p : Prop}, c.op = op → (∀ h', op ≠ .sessionInit (some h')) → p :=
    fun hop' hne => absurd (hop'.symm.trans hop) (hne h)
  cases hmove with
  | stay reply hno =>
      exact ⟨fun hsucc => absurd hsucc (hno hgrants), fun _ => initUndone_stay reply hget hst⟩
  | initFails h' sess' token o abort hop' hget' hst' htoken hopen =>
      rcases hsame hop' hget' with ⟨rfl, rfl⟩
      exact ⟨fun hsucc => absurd hsucc (openDevices_abort hopen),
        fun _ => initUndone_of_open hget hst hopen⟩
  | init h' sess' token o hop' hget' hst' htoken hopen =>
      rcases hsame hop' hget' with ⟨rfl, rfl⟩
      refine ⟨fun _ => ⟨_, ?_, initDone_of_open htoken hopen⟩, fun hne => absurd rfl hne⟩
      rw [Heap.get?_set _ _ _ _ hget, if_pos rfl]
  | passJob j jb sess' d call hno | passQuery dev' sess' d call hno => exact absurd hgrants hno
  | refuseJob dev' sess' d status call hop' | adoptJob dev' sess' d call hop' =>
      rw [hop] at hop'
      exact absurd hop' (fun hf => hf)
  | loadFails events status hop' | allocFirst events libraries configuredDevices hop'
  | allocNext hop' | free h' sess' hop' | freeLast h' sess' hop' | freeJob j jb sess' d hop' =>
      exact hother hop' (fun _ => by simp only [ne_eq, reduceCtorEq, not_false_eq_true])
  | setToken h' sess' token hop' =>
      rcases hop' with ⟨param, size, value, hop'⟩
      exact hother hop' (fun _ => by simp only [ne_eq, reduceCtorEq, not_false_eq_true])

/-- A driver with two configured devices and a session that has a token. -/
def sampleState : DriverState where
  libraries := [{ handle := 0, libPrefix := [65], retrieve := true }]
  configuredDevices := [
    { library := { handle := 0, libPrefix := [65], retrieve := true }, id := ascii "one" },
    { library := { handle := 0, libPrefix := [65], retrieve := true }, id := ascii "two" }]
  count := 1
  sessions := ⟨[some { token := some [7] }]⟩

/-- The device session of the second device cannot be initialized. -/
def secondFails : DriverEnv := answering (fun k => if k = 5 then .errorFatal else .success)

/-- The attempt fails at the second device, and the first is given back. -/
theorem sessionInit_allOrNothing_sample :
    ∃ out t, driverStep (fun _ => 0) sampleState ⟨.sessionInit (some 0), secondFails⟩ =
        .ok (out, t) ∧
      deals out.events = [
        .takes (0, [65]) (.session 0), .uses (0, [65]) (.session 0), .uses (0, [65]) (.session 0),
        .takes (0, [65]) (.session 1), .uses (0, [65]) (.session 1), .uses (0, [65]) (.session 1),
        .returns (0, [65]) (.session 1), .returns (0, [65]) (.session 0)] ∧
      InitUndone (fun _ => 0) sampleState 0 { token := some [7] } out t := by
  rcases sessionInit_allOrNothing (fun _ => 0) sampleState ⟨.sessionInit (some 0), secondFails⟩ 0
    { token := some [7] } rfl rfl rfl with ⟨out, t, hstep, _, hfail⟩
  have hout := congrArg (Except.map Prod.fst) hstep
  have hreply : out.reply = .ok { status := .errorFatal } :=
    (congrArg DriverOut.reply (Except.ok.inj hout)).symm
  refine ⟨out, t, hstep, ?_, hfail ?_⟩
  · exact (congrArg (fun o => deals (DriverOut.events o)) (Except.ok.inj hout)).symm
  · rw [hreply, Succeeds]
    decide

end Driver

end Qdmi
