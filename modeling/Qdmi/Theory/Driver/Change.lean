import Qdmi.Theory.Driver.Invariant

/-!
# What a Move of the Driver Leaves in Place

The other side of the invariant: what is there after a move was there before or
is new, and what is held on both sides of a move was held throughout.

A move hands numbers out in order, so nothing it takes from a library is held
already (`driverMove_not_takes`). By the balance of the books, what is held
before and after was therefore not given back in between
(`driverMove_not_returns`). This is what lets a library be followed through a
move without looking at the calls one by one.

## Main definitions

* `TakesFrom`: What the loop of `QDMI_session_init` takes and uses.
* `LoadsOnly`: Events that only load libraries and unload them.
* `NewDevice`, `NewJob`: How a device and a job come about.

## Theorems

* `openDevices_takes`: The loop takes new numbers only.
* `initializeDriver_loadsOnly`: The configuration takes and uses nothing.
* `driverMove_not_takes`, `driverMove_not_returns`: Held resources stay.
* `driverMove_deviceJob`: A call on a device job is alone in its move.
* `driverMove_device`, `driverMove_job`: Old ones and new ones.
* `driverMove_wasOpened`: No session is opened twice.
-/

namespace Qdmi

namespace Driver

/-- What a loop has taken so far are sessions with numbers from `start` on, and it
    has used nothing but sessions. -/
structure TakesFrom (start : Nat) (o : Opening) : Prop where
  start_le : start ≤ o.next
  takes : ∀ key r, Deal.takes key r ∈ deals o.events → ∃ n, r = .session n ∧ start ≤ n
  uses : ∀ key r, Deal.uses key r ∈ deals o.events → ∃ n, r = .session n

theorem openTurn_takes {token : List UInt8} {cfg : Configured} {o o' : Opening} {r : Option Abort}
    {start : Nat} (h : OpenTurn token cfg o o' r) (ho : TakesFrom start o) :
    TakesFrom start o' := by
  -- A turn takes the next session or nothing, and uses that session.
  have hturn : ∀ {devices : List Device} {events : List Event} {next : Nat}, o.next ≤ next →
      (∀ key r, Deal.takes key r ∈ deals events → r = .session o.next) →
      (∀ key r, Deal.uses key r ∈ deals events → r = .session o.next) →
      TakesFrom start { devices, events := o.events ++ events, next := next } := by
    intro devices events next hnext htakes huses
    refine ⟨Nat.le_trans ho.start_le hnext, fun key r hmem => ?_, fun key r hmem => ?_⟩
    · rw [deals_append, List.mem_append] at hmem
      rcases hmem with hold | hmem
      · exact ho.takes key r hold
      · exact ⟨o.next, htakes key r hmem, ho.start_le⟩
    · rw [deals_append, List.mem_append] at hmem
      rcases hmem with hold | hmem
      · exact ho.uses key r hold
      · exact ⟨o.next, huses key r hmem⟩
  cases h with
  | opened auth hauth =>
      refine hturn (Nat.le_succ _) (fun key r hmem => ?_) (fun key r hmem => ?_)
      · rcases List.mem_cons.mp hmem with heq | hmem
        · exact (Deal.takes.inj heq).2
        rcases List.mem_cons.mp hmem with heq | hmem
        · exact absurd heq (by simp only [reduceCtorEq, not_false_eq_true])
        · exact absurd (List.mem_singleton.mp hmem) (by simp only [reduceCtorEq,
            not_false_eq_true])
      · rcases List.mem_cons.mp hmem with heq | hmem
        · exact absurd heq (by simp only [reduceCtorEq, not_false_eq_true])
        rcases List.mem_cons.mp hmem with heq | hmem
        · exact (Deal.uses.inj heq).2
        · exact (Deal.uses.inj (List.mem_singleton.mp hmem)).2
  | outOfMemory => exact ho
  | notAllocated status hstatus =>
      refine hturn (Nat.le_refl _) (fun key r hmem => ?_) (fun key r hmem => ?_)
      all_goals exact absurd (List.mem_singleton.mp hmem) (by simp only [reduceCtorEq,
        not_false_eq_true])
  | givenBack events uses abort huses hdeals =>
      refine hturn (Nat.le_succ _) (fun key r hmem => ?_) (fun key r hmem => ?_)
      all_goals
        rw [hdeals] at hmem
        rcases List.mem_cons.mp hmem with heq | hmem
      · exact (Deal.takes.inj heq).2
      · rcases List.mem_append.mp hmem with hused | hlast
        · exact absurd (huses _ hused) (by simp only [reduceCtorEq, not_false_eq_true])
        · exact absurd (List.mem_singleton.mp hlast) (by simp only [reduceCtorEq,
            not_false_eq_true])
      · exact absurd heq (by simp only [reduceCtorEq, not_false_eq_true])
      · rcases List.mem_append.mp hmem with hused | hlast
        · exact (Deal.uses.inj (huses _ hused)).2
        · exact absurd (List.mem_singleton.mp hlast) (by simp only [reduceCtorEq,
            not_false_eq_true])

/-- The loop of `QDMI_session_init` takes new numbers only. -/
theorem openDevices_takes {env : DriverEnv} {token : List UInt8} {cfgs : List Configured}
    {start : Nat} {o : Opening} {r : Option Abort}
    (h : openDevices env token 0 cfgs { next := start } = (o, r)) : TakesFrom start o := by
  have hstart : TakesFrom start { next := start } :=
    ⟨Nat.le_refl _, fun _ _ hmem => absurd hmem List.not_mem_nil,
      fun _ _ hmem => absurd hmem List.not_mem_nil⟩
  rcases loopFrom_induct (P := fun _ o => TakesFrom start o) (Q := fun o _ => TakesFrom start o)
    (fun _ _ _ _ _ hP _ hb => openTurn_takes (openDevice_turn hb) hP)
    (fun _ _ _ _ _ _ hP _ hb => openTurn_takes (openDevice_turn hb) hP) hstart h with ⟨hP, hQ⟩
  rcases r with _ | abort
  · exact hP rfl
  · exact hQ abort rfl

/-! ## What loading libraries calls -/

/-- No call but `device_initialize` and `device_finalize` is made. -/
def LoadsOnly (events : List Event) : Prop :=
  ∀ key call, .call key call ∈ events →
    (∃ status, call = .deviceInitialize status) ∨ call = .deviceFinalize

theorem loadsOnly_append {events events' : List Event} (h : LoadsOnly events)
    (h' : LoadsOnly events') : LoadsOnly (events ++ events') := fun key call hmem =>
  (List.mem_append.mp hmem).elim (h key call) (h' key call)

theorem loadsOnly_unloadAll (libraries : List Library) : LoadsOnly (unloadAll libraries) := by
  intro key call hmem
  rcases List.mem_flatMap.mp hmem with ⟨lib, _, hin⟩
  rcases List.mem_cons.mp hin with heq | hin
  · exact Or.inr (Event.call.inj heq).2
  · exact absurd (List.mem_singleton.mp hin) (by simp only [reduceCtorEq, not_false_eq_true])

/-- The calls of one line of the configuration. -/
theorem configureLine_loadsOnly {env : DriverEnv} {k : Nat} {line : List UInt8} {l l' : Loading}
    {r : Option Abort} (h : configureLine env k line l = (l', r)) (hl : LoadsOnly l.events) :
    LoadsOnly l'.events := by
  have hclosed : ∀ handle, LoadsOnly [.dlopen handle, .dlclose handle] := by
    intro handle key call hmem
    simp only [List.mem_cons, reduceCtorEq, List.not_mem_nil, or_self] at hmem
  have hload : ∀ {libName libPrefix : List UInt8} {r : Except Exn Library} {m : Loading},
      libraryLoad env k l libName libPrefix = (m, r) → LoadsOnly m.events := by
    intro libName libPrefix r m hm
    cases libraryLoad_cases hm with
    | unopened => exact hl
    | closed | found => exact loadsOnly_append hl (hclosed _)
    | refused hnew hstatus | unloaded hnew hstatus | added hopen hlib hnew hstatus =>
        refine loadsOnly_append hl (fun key call hmem => ?_)
        simp only [unload, List.cons_append, List.nil_append, List.mem_cons, reduceCtorEq,
          Event.call.injEq, List.not_mem_nil, or_false, false_or] at hmem
        first
          | exact Or.inl ⟨_, hmem.2⟩
          | exact hmem.elim (fun hc => Or.inl ⟨_, hc.2⟩) (fun hc => Or.inr hc.2)
  unfold configureLine at h
  split at h
  · rw [← (Prod.mk.inj h).1]
    exact hl
  split at h
  · rw [← (Prod.mk.inj h).1]
    exact hl
  split at h
  · rename_i libName libPrefix deviceId _
    iterate 2
      split at h
      · rw [← (Prod.mk.inj h).1]
        exact hl
    rcases hm : libraryLoad env k l libName libPrefix with ⟨m, e | library⟩
    · simp only [hm] at h
      rw [← (Prod.mk.inj h).1]
      exact hload hm
    · have hloaded := hload hm
      simp only [hm] at h
      split at h
      all_goals
        rw [← (Prod.mk.inj h).1]
        exact hloaded
  · rw [← (Prod.mk.inj h).1]
    exact hl

/-- Initializing the driver only opens and closes libraries. -/
theorem initializeDriver_loadsOnly {env : DriverEnv} {events : List Event}
    {r : Except Status (List Library × List Configured)} (h : initializeDriver env = (events, r)) :
    LoadsOnly events := by
  have hnil : LoadsOnly [] := fun _ _ hmem => absurd hmem List.not_mem_nil
  unfold initializeDriver at h
  split at h
  iterate 3
    · rw [← (Prod.mk.inj h).1]
      exact hnil
  rename_i content _
  rcases hloop : configureLines env 0 (readLines env.mem 0 (configLines content)) {} with ⟨l, r'⟩
  rcases loopFrom_induct (P := fun _ l => LoadsOnly l.events) (Q := fun l _ => LoadsOnly l.events)
    (fun _ _ _ _ _ hP _ hb => configureLine_loadsOnly hb hP)
    (fun _ _ _ _ _ _ hP _ hb => configureLine_loadsOnly hb hP) hnil hloop with ⟨hP, hQ⟩
  rcases r' with _ | abort
  · simp only [hloop] at h
    rw [← (Prod.mk.inj h).1]
    exact hP rfl
  · simp only [hloop] at h
    rw [← (Prod.mk.inj h).1]
    exact loadsOnly_append (hQ abort rfl) (loadsOnly_unloadAll _)

/-- Giving devices back takes nothing. -/
theorem freeDevices_takes {devices : List Device} {key : Nat × List UInt8} {r : Resource} :
    Deal.takes key r ∉ deals (freeDevices devices) := by
  intro hmem
  rcases List.mem_flatMap.mp hmem with ⟨event, hevent, hdeal⟩
  rcases List.mem_map.mp hevent with ⟨d, _, rfl⟩
  exact absurd (List.mem_singleton.mp hdeal) (by simp only [reduceCtorEq, not_false_eq_true])

section

variable {s t : DriverState} {c : DriverCall} {out : DriverOut}

/-- A move takes nothing that is held. -/
theorem driverMove_not_takes (hmove : DriverMove s c out t) (hinv : DriverInv s)
    {key : Nat × List UInt8} {r : Resource} (hheld : (owned s).held key r) :
    Deal.takes key r ∉ deals out.events := by
  -- Nothing is held while there is no session.
  have hcount : s.count ≠ 0 := by
    intro hzero
    rw [owned_empty hinv hzero] at hheld
    exact hheld
  -- The numbers that are held are below the next one.
  have hbound : ∀ n, s.nextHandle ≤ n → r ≠ .session n ∧ r ≠ .job n := by
    intro n hn
    refine ⟨fun hr => ?_, fun hr => ?_⟩
    · rw [hr] at hheld
      exact absurd ((owned_bound hinv).1 hheld) (Nat.not_lt.mpr hn)
    · rw [hr] at hheld
      exact absurd ((owned_bound hinv).2 hheld) (Nat.not_lt.mpr hn)
  have hloop : ∀ {token : List UInt8} {o : Opening} {r' : Option Abort},
      openDevices c.env token 0 s.configuredDevices { next := s.nextHandle } = (o, r') →
      Deal.takes key r ∉ deals o.events := by
    intro token o r' hopen hmem
    rcases (openDevices_takes hopen).takes key r hmem with ⟨n, hr, hn⟩
    exact (hbound n hn).1 hr
  cases hmove with
  | stay | allocNext | setToken => exact List.not_mem_nil
  | loadFails events status hop hzero => exact absurd hzero hcount
  | allocFirst events libraries configuredDevices hop hzero => exact absurd hzero hcount
  | initFails h sess token o abort hop hget hst htoken hopen =>
      rw [deals_append, List.mem_append, not_or]
      exact ⟨hloop hopen, freeDevices_takes⟩
  | init h sess token o hop hget hst htoken hopen => exact hloop hopen
  | free => exact freeDevices_takes
  | freeLast h sess hop hget hzero =>
      rw [deals_append, List.mem_append, not_or, deals_unloadAll]
      refine ⟨freeDevices_takes, fun hmem => ?_⟩
      rcases List.mem_map.mp hmem with ⟨k, _, heq⟩
      exact absurd heq (by simp only [reduceCtorEq, not_false_eq_true])
  | refuseJob dev sess d status call hop hdev hmode hstatus hcall =>
      rw [deals, List.flatMap_singleton, Event.deals, jobRequest_deals hcall]
      exact fun hmem => absurd (List.mem_singleton.mp hmem) (by simp only [reduceCtorEq,
        not_false_eq_true])
  | adoptJob dev sess d call hop hdev hmode hcall =>
      rw [deals, List.flatMap_singleton, Event.deals, jobRequest_deals hcall]
      intro hmem
      rcases List.mem_cons.mp hmem with heq | hmem
      · exact absurd heq (by simp only [reduceCtorEq, not_false_eq_true])
      · exact (hbound _ (Nat.le_refl _)).2 (Deal.takes.inj (List.mem_singleton.mp hmem)).2
  | freeJob | passJob | passQuery =>
      exact fun hmem => absurd (List.mem_singleton.mp hmem) (by simp only [reduceCtorEq,
        not_false_eq_true])

/-- What is held on both sides of a move was not given back in between. -/
theorem driverMove_not_returns (hmove : DriverMove s c out t) (hinv : DriverInv s)
    (hleads : Leads (owned s) (deals out.events) (owned t)) {key : Nat × List UInt8} {r : Resource}
    (hheld : (owned s).held key r) (hheld' : (owned t).held key r) :
    Deal.returns key r ∉ deals out.events := by
  have hbalance := leads_balance_held hleads key r
  rw [if_pos hheld, if_pos hheld',
    List.count_eq_zero_of_not_mem (driverMove_not_takes hmove hinv hheld)] at hbalance
  exact List.count_eq_zero.mp (by omega)

/-- A function of a job is passed on in a call of its own, to the library that
    holds the device job. -/
theorem driverMove_deviceJob (hmove : DriverMove s c out t) {key : Nat × List UInt8} {n : Nat}
    {jc : JobCall} (hmem : .call key (.deviceJob n jc) ∈ out.events) :
    ¬ Grants c.op ∧ out.events = [.call key (.deviceJob n jc)] ∧
      ∃ j jb d, s.jobs.get? j = some jb ∧ deviceOf s jb.device = some d ∧
        key = d.library.key ∧ n = jb.deviceJob := by
  -- The other calls use sessions, give something back or load libraries.
  have hdeal : Deal.uses key (.job n) ∈ deals out.events :=
    List.mem_flatMap.mpr ⟨_, hmem, List.mem_singleton.mpr rfl⟩
  have hloop : ∀ {token : List UInt8} {o : Opening} {r' : Option Abort},
      openDevices c.env token 0 s.configuredDevices { next := s.nextHandle } = (o, r') →
      Deal.uses key (.job n) ∉ deals o.events := by
    intro token o r' hopen hin
    rcases (openDevices_takes hopen).uses key _ hin with ⟨m, hr⟩
    exact absurd hr (by simp only [reduceCtorEq, not_false_eq_true])
  have hfreed : ∀ devices, Deal.uses key (.job n) ∉ deals (freeDevices devices) := by
    intro devices hin
    rw [deals_freeDevices] at hin
    rcases List.mem_map.mp hin with ⟨_, _, heq⟩
    exact absurd heq (by simp only [reduceCtorEq, not_false_eq_true])
  have hload : LoadsOnly out.events → False := fun h =>
    (h key _ hmem).elim (fun ⟨_, hc⟩ => absurd hc (by simp only [reduceCtorEq,
      not_false_eq_true])) (fun hc => absurd hc (by simp only [reduceCtorEq, not_false_eq_true]))
  have hasked : ∀ {d : Device} {status : Status} {job : Option Nat} {call : LibraryCall},
      jobRequest d status job call → out.events ≠ [.call d.library.key call] := by
    intro d status job call hcall hevents
    rw [hevents] at hmem
    have hsame := (Event.call.inj (List.mem_singleton.mp hmem)).2
    rcases hcall with rfl | ⟨_, rfl⟩
    all_goals exact absurd hsame (by simp only [reduceCtorEq, not_false_eq_true])
  cases hmove with
  | stay | allocNext | setToken => exact absurd hmem List.not_mem_nil
  | loadFails events status hop hzero hinit =>
      exact (hload (initializeDriver_loadsOnly hinit)).elim
  | allocFirst events libraries configuredDevices hop hzero hinit =>
      exact (hload (loadsOnly_append (initializeDriver_loadsOnly hinit)
        (loadsOnly_unloadAll _))).elim
  | initFails h sess token o abort hop hget hst htoken hopen =>
      rw [deals_append, List.mem_append] at hdeal
      exact (hdeal.elim (hloop hopen) (hfreed _)).elim
  | init h sess token o hop hget hst htoken hopen => exact (hloop hopen hdeal).elim
  | free => exact (hfreed _ hdeal).elim
  | freeLast h sess hop hget hzero =>
      rw [deals_append, List.mem_append, deals_unloadAll] at hdeal
      rcases hdeal with hdeal | hdeal
      · exact (hfreed _ hdeal).elim
      · rcases List.mem_map.mp hdeal with ⟨_, _, heq⟩
        exact absurd heq (by simp only [reduceCtorEq, not_false_eq_true])
  | refuseJob dev sess d status call hop hdev hmode hstatus hcall =>
      exact absurd rfl (hasked hcall)
  | adoptJob dev sess d call hop hdev hmode hcall => exact absurd rfl (hasked hcall)
  | freeJob j jb sess d hop hget hdev =>
      exact absurd (Event.call.inj (List.mem_singleton.mp hmem)).2 (by simp only [reduceCtorEq,
        not_false_eq_true])
  | passJob j jb sess d call hop hget hdev =>
      have heq := List.mem_singleton.mp hmem
      rcases Event.call.inj heq with ⟨hkey, hcall⟩
      exact ⟨hop, by rw [heq], j, jb, d, hget, (deviceOf_of_deviceAt hdev).2, hkey,
        (LibraryCall.deviceJob.inj hcall).1⟩
  | passQuery dev sess d call hop hdev =>
      exact absurd (Event.call.inj (List.mem_singleton.mp hmem)).2 (by simp only [reduceCtorEq,
        not_false_eq_true])

/-- A device that was opened in a move. -/
structure NewDevice (s : DriverState) (c : DriverCall) (out : DriverOut) (dev : DeviceHandle)
    (sess : Session) (d : Device) : Prop where
  op : c.op = .sessionInit (some dev.session)
  opened : ∃ sess₀ token o, s.sessions.get? dev.session = some sess₀ ∧
    sess₀.status = .allocated ∧ sess₀.token = some token ∧
    openDevices c.env token 0 s.configuredDevices { next := s.nextHandle } = (o, none) ∧
    sess = withDeviceList sess₀ token o.devices ∧ o.devices[dev.index]? = some d ∧
    out.events = o.events

/-- A device after a move was there before, or it has been opened. -/
theorem driverMove_device (hmove : DriverMove s c out t) {dev : DeviceHandle} {sess : Session}
    {d : Device} (hdev : deviceAt t dev = some (sess, d)) :
    deviceAt s dev = some (sess, d) ∨ NewDevice s c out dev sess d := by
  rcases deviceOf_of_deviceAt hdev with ⟨hget, hd⟩
  have hsame : t.sessions = s.sessions → deviceAt s dev = some (sess, d) := by
    intro hs
    rw [deviceAt, ← hs]
    exact hdev
  have hof : ∀ {sess' : Session}, s.sessions.get? dev.session = some sess' → sess' = sess →
      deviceAt s dev = some (sess, d) := by
    intro sess' hget' heq
    rw [deviceAt, hget', heq]
    rw [deviceAt, hget] at hdev
    exact hdev
  -- A session with another one's devices, or with none, is not the one of the device.
  have hbare : ∀ {sess' : Session}, sess'.status = .allocated → sess' ≠ sess := by
    rintro sess' hst rfl
    rw [deviceOf_eq hget rfl, sess'.bare hst, List.getElem?_nil] at hd
    exact absurd hd (by simp only [reduceCtorEq, not_false_eq_true])
  have halloc : t.sessions = s.sessions.alloc {} → deviceAt s dev = some (sess, d) := by
    intro hs
    rw [hs, Heap.get?_alloc] at hget
    by_cases hnext : dev.session = s.sessions.next
    · rw [if_pos hnext, Option.some.injEq] at hget
      exact absurd hget (hbare rfl)
    · rw [if_neg hnext] at hget
      exact hof hget rfl
  have hset : ∀ {h : Nat} {old new : Session}, s.sessions.get? h = some old →
      t.sessions = s.sessions.set h new → dev.session ≠ h ∨ new.status = .allocated →
      deviceAt s dev = some (sess, d) := by
    intro h old new hold hs hcase
    rw [hs, Heap.get?_set _ _ _ _ hold] at hget
    by_cases hh : dev.session = h
    · rw [if_pos hh, Option.some.injEq] at hget
      exact absurd hget (hbare (hcase.resolve_left (fun hne => hne hh)))
    · rw [if_neg hh] at hget
      exact hof hget rfl
  have hfree : ∀ {h : Nat}, t.sessions = s.sessions.free h → deviceAt s dev = some (sess, d) := by
    intro h hs
    rw [hs, Heap.get?_free] at hget
    by_cases hh : dev.session = h
    · rw [if_pos hh] at hget
      exact absurd hget (by simp only [reduceCtorEq, not_false_eq_true])
    · rw [if_neg hh] at hget
      exact hof hget rfl
  cases hmove with
  | stay | loadFails | refuseJob | adoptJob | freeJob | passJob | passQuery =>
      exact Or.inl (hsame rfl)
  | allocFirst | allocNext => exact Or.inl (halloc rfl)
  | initFails h old token o abort hop hget' hst => exact Or.inl (hset hget' rfl (Or.inr hst))
  | setToken h old token hop hget' hst => exact Or.inl (hset hget' rfl (Or.inr hst))
  | free | freeLast => exact Or.inl (hfree rfl)
  | init h old token o hop hget' hst htoken hopen =>
      by_cases hh : dev.session = h
      · right
        rw [deviceOf_set hget' rfl, if_pos hh] at hd
        dsimp only at hget
        rw [Heap.get?_set _ _ _ _ hget', if_pos hh, Option.some.injEq] at hget
        rw [← hh] at hop hget'
        exact ⟨hop, old, token, o, hget', hst, htoken, hopen, hget.symm, hd, rfl⟩
      · exact Or.inl (hset hget' rfl (Or.inl hh))

/-- A session has been opened, and may have been freed since. -/
def WasOpened (s : DriverState) (h : Nat) : Prop :=
  h < s.sessions.next ∧ ∀ sess, s.sessions.get? h = some sess → sess.status ≠ .allocated

/-- The session of a device has been opened. -/
theorem wasOpened_of_deviceAt {dev : DeviceHandle} {sess : Session} {d : Device}
    (hdev : deviceAt s dev = some (sess, d)) : WasOpened s dev.session := by
  rcases deviceOf_of_deviceAt hdev with ⟨hget, hd⟩
  refine ⟨Heap.get?_lt_next hget, fun sess' hget' hst => ?_⟩
  rw [hget, Option.some.injEq] at hget'
  rw [deviceOf_eq hget rfl, hget', sess'.bare hst, List.getElem?_nil] at hd
  exact absurd hd (by simp only [reduceCtorEq, not_false_eq_true])

/-- A session that has been opened is not opened again. -/
theorem driverMove_wasOpened (hmove : DriverMove s c out t) {h : Nat} (hopened : WasOpened s h) :
    WasOpened t h := by
  have halloc : t.sessions = s.sessions.alloc {} → WasOpened t h := by
    intro hs
    have hlt := hopened.1
    refine ⟨by rw [hs, Heap.next_alloc]; omega, fun sess hget => ?_⟩
    rw [hs, Heap.get?_alloc, if_neg (by omega)] at hget
    exact hopened.2 sess hget
  -- What is set is a session that was not open, so it is another one.
  have hset : ∀ {h' : Nat} {old new : Session}, s.sessions.get? h' = some old →
      old.status = .allocated → t.sessions = s.sessions.set h' new → WasOpened t h := by
    intro h' old new hold hst hs
    have hne : h ≠ h' := by
      intro heq
      rw [← heq] at hold
      exact hopened.2 old hold hst
    refine ⟨by rw [hs, Heap.next_set]; exact hopened.1, fun sess hget => ?_⟩
    rw [hs, Heap.get?_set _ _ _ _ hold, if_neg hne] at hget
    exact hopened.2 sess hget
  have hfree : ∀ {h' : Nat}, t.sessions = s.sessions.free h' → WasOpened t h := by
    intro h' hs
    refine ⟨by rw [hs, Heap.next_free]; exact hopened.1, fun sess hget => ?_⟩
    rw [hs, Heap.get?_free] at hget
    split at hget
    · exact absurd hget (by simp only [reduceCtorEq, not_false_eq_true])
    · exact hopened.2 sess hget
  cases hmove with
  | stay | loadFails | refuseJob | adoptJob | freeJob | passJob | passQuery => exact hopened
  | allocFirst | allocNext => exact halloc rfl
  | initFails h' old token o abort hop hget hst => exact hset hget hst rfl
  | init h' old token o hop hget hst => exact hset hget hst rfl
  | setToken h' old token hop hget hst => exact hset hget hst rfl
  | free | freeLast => exact hfree rfl

/-- A job that was adopted in a move. -/
structure NewJob (s : DriverState) (c : DriverCall) (out : DriverOut) (t : DriverState) (j : Nat)
    (jb : Job) : Prop where
  asked : AsksForJob jb.device c.op
  handle : j = s.jobs.next
  number : jb.deviceJob = s.nextHandle
  sessions : t.sessions = s.sessions
  request : ∃ sess d call, deviceAt s jb.device = some (sess, d) ∧
    jobRequest d .success (some jb.deviceJob) call ∧ out.events = [.call d.library.key call]

/-- A job after a move was there before, or it has been adopted. -/
theorem driverMove_job (hmove : DriverMove s c out t) {j : Nat} {jb : Job}
    (hget : t.jobs.get? j = some jb) :
    s.jobs.get? j = some jb ∨ NewJob s c out t j jb := by
  cases hmove with
  | adoptJob dev sess d call hop hdev hmode hcall =>
      dsimp only at hget
      rw [Heap.get?_alloc] at hget
      by_cases hj : j = s.jobs.next
      · rw [if_pos hj, Option.some.injEq] at hget
        rw [← hget]
        exact Or.inr ⟨hop, hj, rfl, rfl, sess, d, call, hdev, hcall, rfl⟩
      · rw [if_neg hj] at hget
        exact Or.inl hget
  | freeJob i jb' sess d hop hget' hdev =>
      dsimp only at hget
      rw [Heap.get?_free] at hget
      by_cases hj : j = i
      · rw [if_pos hj] at hget
        exact absurd hget (by simp only [reduceCtorEq, not_false_eq_true])
      · rw [if_neg hj] at hget
        exact Or.inl hget
  | _ => exact Or.inl hget

end

end Driver

end Qdmi
