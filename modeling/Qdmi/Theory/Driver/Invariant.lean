import Qdmi.Theory.Driver.Opening

/-!
# The Invariant of the Driver

What holds of the driver in every reachable state, and what a move does to the
books.

The one thing a client can do wrong is to free a session before the jobs on its
devices. The driver does not notice, and frees the device session under the
device job. `FreesJobsFirst` is the rule against it; that handles are used only
while they are live is part of the step function already, since a call with a
dead one goes wrong.

`driverMove_keeps` is the step: a move keeps the invariant and takes the books
from what the driver owned before to what it owns after. Two moves change the
devices, a session that is initialized and one that is freed. They are mirror
images, and `owned_withDevices` serves both.

## Main definitions

* `FreesJobsFirst`: Jobs are freed before their session.
* `DriverInv`: The invariant of the driver state.
* `Keeps`: What a move keeps.

## Theorems

* `owned_withDevices`, `owned_adopt`, `owned_release`: What the driver owns
  after a move.
* `openDevices_owned`, `leads_rollback`: An attempt to initialize a session.
* `driverMove_keeps`, `driverRuns_keeps`: Moves and runs keep the invariant and
  the books.
-/

namespace Qdmi

namespace Driver

/-- A session is freed after the jobs on its devices. -/
def FreesJobsFirst (s : DriverState) (c : DriverCall) : Prop :=
  ∀ h, c.op = .sessionFree (some h) → ∀ i jb, s.jobs.get? i = some jb → jb.device.session ≠ h

/-- The invariant of the driver state. -/
structure DriverInv (s : DriverState) : Prop where
  counter : s.count = s.sessions.count
  idle : s.count = 0 → s.libraries = [] ∧ s.configuredDevices = []
  keys : (s.libraries.map Library.key).Nodup
  configured : ∀ cfg ∈ s.configuredDevices, cfg.library ∈ s.libraries
  loaded : ∀ dev d, deviceOf s dev = some d → d.library ∈ s.libraries
  sessionBound : ∀ dev d, deviceOf s dev = some d → d.deviceSession < s.nextHandle
  sessionUnique : ∀ dev dev' d d', deviceOf s dev = some d → deviceOf s dev' = some d' →
    d.deviceSession = d'.deviceSession → dev = dev'
  jobDevice : ∀ i jb, s.jobs.get? i = some jb → ∃ d, deviceOf s jb.device = some d
  jobBound : ∀ i jb, s.jobs.get? i = some jb → jb.deviceJob < s.nextHandle
  jobUnique : ∀ i i' jb jb', s.jobs.get? i = some jb → s.jobs.get? i' = some jb' →
    jb.deviceJob = jb'.deviceJob → i = i'

theorem driverInv_initial : DriverInv {} where
  counter := rfl
  idle _ := ⟨rfl, rfl⟩
  keys := List.nodup_nil
  configured _ hcfg := absurd hcfg List.not_mem_nil
  loaded _ _ hdev := absurd hdev (by simp only [deviceOf, Heap.get?_empty, Option.bind_none,
    reduceCtorEq, not_false_eq_true])
  sessionBound _ _ hdev := absurd hdev (by simp only [deviceOf, Heap.get?_empty, Option.bind_none,
    reduceCtorEq, not_false_eq_true])
  sessionUnique _ _ _ _ hdev := absurd hdev (by simp only [deviceOf, Heap.get?_empty,
    Option.bind_none, reduceCtorEq, not_false_eq_true])
  jobDevice _ _ hget := absurd hget (by simp only [Heap.get?_empty, reduceCtorEq,
    not_false_eq_true])
  jobBound _ _ hget := absurd hget (by simp only [Heap.get?_empty, reduceCtorEq, not_false_eq_true])
  jobUnique _ _ _ _ hget := absurd hget (by simp only [Heap.get?_empty, reduceCtorEq,
    not_false_eq_true])

/-! ## What the driver owns after a move -/

theorem owned_same {s t : DriverState} (hlibs : t.libraries = s.libraries)
    (hdev : ∀ dev, deviceOf t dev = deviceOf s dev) (hjobs : t.jobs = s.jobs) :
    owned t = owned s := by
  simp only [owned, hlibs, hdev, hjobs]

/-- Without devices only libraries are owned. -/
theorem owned_idle {s : DriverState} (hnone : ∀ dev, deviceOf s dev = none) :
    owned s = booksOf s.libraries := by
  ext key r
  · exact Iff.rfl
  · refine iff_of_false ?_ (fun hf => hf)
    cases r with
    | session n =>
        rintro ⟨dev, d, hdev, _⟩
        rw [hnone dev] at hdev
        exact absurd hdev (by simp only [reduceCtorEq, not_false_eq_true])
    | job n =>
        rintro ⟨i, jb, d, _, hdev, _⟩
        rw [hnone jb.device] at hdev
        exact absurd hdev (by simp only [reduceCtorEq, not_false_eq_true])

/-- The state `t` is the state `s` with the devices of one more session, on
    which there are no jobs. -/
theorem owned_withDevices {s t : DriverState} {h : Nat} {devices : List Device}
    (hdev : ∀ dev, deviceOf t dev = if dev.session = h then devices[dev.index]? else deviceOf s dev)
    (hlibs : t.libraries = s.libraries) (hjobs : t.jobs = s.jobs)
    (hnone : ∀ dev, dev.session = h → deviceOf s dev = none)
    (hjob : ∀ i jb, s.jobs.get? i = some jb → jb.device.session ≠ h) :
    owned t = withDevices (owned s) devices := by
  ext key r
  · rw [owned, hlibs]
    exact Iff.rfl
  · cases r with
    | session n =>
        constructor
        · rintro ⟨dev, d, hd, hkey, hn⟩
          rw [hdev dev] at hd
          by_cases hh : dev.session = h
          · rw [if_pos hh] at hd
            exact Or.inr ⟨d, List.mem_of_getElem? hd, hkey, congrArg Resource.session hn⟩
          · rw [if_neg hh] at hd
            exact Or.inl ⟨dev, d, hd, hkey, hn⟩
        · rintro (⟨dev, d, hd, hkey, hn⟩ | ⟨d, hd, hkey, hn⟩)
          · have hh : dev.session ≠ h := by
              intro hh
              rw [hnone dev hh] at hd
              exact absurd hd (by simp only [reduceCtorEq, not_false_eq_true])
            refine ⟨dev, d, ?_, hkey, hn⟩
            rw [hdev dev, if_neg hh, hd]
          · rcases List.getElem?_of_mem hd with ⟨i, hi⟩
            refine ⟨{ session := h, index := i }, d, ?_, hkey, Resource.session.inj hn⟩
            rw [hdev, if_pos rfl, hi]
    | job n =>
        -- The jobs are on other devices.
        have hsame : ∀ i jb, s.jobs.get? i = some jb →
            deviceOf t jb.device = deviceOf s jb.device := by
          intro i jb hget
          rw [hdev, if_neg (hjob i jb hget)]
        constructor
        · rintro ⟨i, jb, d, hget, hd, hkey, hn⟩
          rw [hjobs] at hget
          rw [hsame i jb hget] at hd
          exact Or.inl ⟨i, jb, d, hget, hd, hkey, hn⟩
        · rintro (⟨i, jb, d, hget, hd, hkey, hn⟩ | ⟨d, hd, hkey, hn⟩)
          · refine ⟨i, jb, d, ?_, ?_, hkey, hn⟩
            · rw [hjobs, hget]
            · rw [hsame i jb hget, hd]
          · exact absurd hn (by simp only [reduceCtorEq, not_false_eq_true])

/-- The state `t` is the state `s` with one more job. -/
theorem owned_adopt {s t : DriverState} {dev : DeviceHandle} {d : Device} {n : Nat}
    (hjobs : t.jobs = s.jobs.alloc { device := dev, deviceJob := n })
    (hlibs : t.libraries = s.libraries) (hsessions : t.sessions = s.sessions)
    (hdev : deviceOf s dev = some d) :
    owned t = (owned s).after (.takes d.library.key (.job n)) := by
  have hsame : ∀ dev', deviceOf t dev' = deviceOf s dev' := by
    intro dev'
    rw [deviceOf, hsessions, deviceOf]
  ext key r
  · rw [owned, hlibs]
    exact Iff.rfl
  · cases r with
    -- No list of devices changes.
    | session m =>
        constructor
        · rintro ⟨dev', d', hd', hrest⟩
          exact Or.inl ⟨dev', d', (hsame dev') ▸ hd', hrest⟩
        · rintro (⟨dev', d', hd', hrest⟩ | heq)
          · exact ⟨dev', d', (hsame dev').symm ▸ hd', hrest⟩
          · exact absurd heq.2 (by simp only [reduceCtorEq, not_false_eq_true])
    | job m =>
        constructor
        · rintro ⟨i, jb, d', hget, hd', hkey, hm⟩
          rw [hjobs, Heap.get?_alloc] at hget
          rw [hsame] at hd'
          -- Either the job is the new one, or it was there before.
          by_cases hi : i = s.jobs.next
          · rw [if_pos hi, Option.some.injEq] at hget
            rw [← hget, hdev, Option.some.injEq] at hd'
            rw [← hget] at hm
            refine Or.inr ⟨?_, congrArg Resource.job hm⟩
            rw [hkey, ← hd']
          · rw [if_neg hi] at hget
            exact Or.inl ⟨i, jb, d', hget, hd', hkey, hm⟩
        · rintro (⟨i, jb, d', hget, hd', hkey, hm⟩ | ⟨hkey, hm⟩)
          · refine ⟨i, jb, d', ?_, ?_, hkey, hm⟩
            · rw [hjobs, Heap.get?_alloc, if_neg (Nat.ne_of_lt (Heap.get?_lt_next hget)), hget]
            · rw [hsame, hd']
          · refine ⟨s.jobs.next, { device := dev, deviceJob := n }, d, ?_, ?_, hkey,
              Resource.job.inj hm⟩
            · rw [hjobs, Heap.get?_alloc, if_pos rfl]
            · rw [hsame, hdev]

/-- The state `t` is the state `s` with one job less. -/
theorem owned_release {s t : DriverState} {j : Nat} {jb : Job} {d : Device} (hinv : DriverInv s)
    (hjobs : t.jobs = s.jobs.free j) (hlibs : t.libraries = s.libraries)
    (hsessions : t.sessions = s.sessions) (hget : s.jobs.get? j = some jb)
    (hdev : deviceOf s jb.device = some d) :
    owned t = (owned s).after (.returns d.library.key (.job jb.deviceJob)) := by
  have hsame : ∀ dev', deviceOf t dev' = deviceOf s dev' := by
    intro dev'
    rw [deviceOf, hsessions, deviceOf]
  ext key r
  · rw [owned, hlibs]
    exact Iff.rfl
  · cases r with
    | session m =>
        constructor
        · rintro ⟨dev', d', hd', hrest⟩
          exact ⟨⟨dev', d', (hsame dev') ▸ hd', hrest⟩, fun hc => absurd hc.2 (by
            simp only [reduceCtorEq, not_false_eq_true])⟩
        · rintro ⟨⟨dev', d', hd', hrest⟩, _⟩
          exact ⟨dev', d', (hsame dev').symm ▸ hd', hrest⟩
    | job m =>
        constructor
        · rintro ⟨i, jb', d', hget', hd', hkey, hm⟩
          rw [hjobs, Heap.get?_free] at hget'
          by_cases hi : i = j
          · rw [if_pos hi] at hget'
            exact absurd hget' (by simp only [reduceCtorEq, not_false_eq_true])
          · rw [if_neg hi] at hget'
            rw [hsame] at hd'
            refine ⟨⟨i, jb', d', hget', hd', hkey, hm⟩, fun hc => hi ?_⟩
            -- Two live jobs never share a device job, so another job still holds its own.
            exact hinv.jobUnique i j jb' jb hget' hget (hm ▸ Resource.job.inj hc.2)
        · rintro ⟨⟨i, jb', d', hget', hd', hkey, hm⟩, hne⟩
          refine ⟨i, jb', d', ?_, ?_, hkey, hm⟩
          · rw [hjobs, Heap.get?_free]
            by_cases hi : i = j
            · -- The job that was freed is the one given back.
              exfalso
              rw [hi, hget, Option.some.injEq] at hget'
              rw [← hget', hdev, Option.some.injEq] at hd'
              refine hne ⟨?_, ?_⟩
              · rw [hkey, hd']
              · rw [hm, hget']
            · rw [if_neg hi, hget']
          · rw [hsame, hd']

/-! ## One move -/

/-- What a move that leads from `s` to `t` keeps. -/
structure Keeps (s : DriverState) (events : List Event) (t : DriverState) : Prop where
  inv : DriverInv t
  leads : Leads (owned s) (deals events) (owned t)
  files : ∀ handle, openFiles handle events + filesOf handle s.libraries =
    filesOf handle t.libraries

/-- A move that changes sessions but no devices. -/
theorem keeps_sessions {s t : DriverState} {events : List Event} (hinv : DriverInv s)
    (hlibs : t.libraries = s.libraries) (hconf : t.configuredDevices = s.configuredDevices)
    (hjobs : t.jobs = s.jobs) (hnext : s.nextHandle ≤ t.nextHandle)
    (hcount : t.count = t.sessions.count) (hidle : t.count = 0 → s.count = 0)
    (hdev : ∀ dev, deviceOf t dev = deviceOf s dev)
    (hleads : Leads (owned s) (deals events) (owned s))
    (hfiles : ∀ handle, openFiles handle events = 0) : Keeps s events t := by
  -- The invariant reads the sessions only by their number and their devices.
  refine ⟨⟨hcount, fun hzero => ?_, ?_, ?_, ?_, ?_, ?_, ?_, ?_, ?_⟩, ?_, fun handle => ?_⟩
  · rw [hlibs, hconf]
    exact hinv.idle (hidle hzero)
  · rw [hlibs]
    exact hinv.keys
  · rw [hlibs, hconf]
    exact hinv.configured
  · intro dev d hd
    rw [hlibs]
    exact hinv.loaded dev d (hdev dev ▸ hd)
  · intro dev d hd
    exact Nat.lt_of_lt_of_le (hinv.sessionBound dev d (hdev dev ▸ hd)) hnext
  · intro dev dev' d d' hd hd'
    exact hinv.sessionUnique dev dev' d d' (hdev dev ▸ hd) (hdev dev' ▸ hd')
  · intro i jb hget
    rw [hdev]
    exact hinv.jobDevice i jb (hjobs ▸ hget)
  · intro i jb hget
    exact Nat.lt_of_lt_of_le (hinv.jobBound i jb (hjobs ▸ hget)) hnext
  · rw [hjobs]
    exact hinv.jobUnique
  · rw [owned_same hlibs hdev hjobs]
    exact hleads
  · rw [hlibs, hfiles handle]
    exact Int.zero_add _

/-- A call to a library that changes nothing. -/
theorem keeps_call {s : DriverState} {key : Nat × List UInt8} {call : LibraryCall}
    (hinv : DriverInv s) (hleads : Leads (owned s) (call.deals key) (owned s)) :
    Keeps s [.call key call] s := by
  refine ⟨hinv, ?_, fun handle => Int.zero_add _⟩
  rw [deals, List.flatMap_singleton]
  exact hleads

/-- The device session of a live device is held, at an open library. -/
theorem owned_session {s : DriverState} {dev : DeviceHandle} {d : Device} (hinv : DriverInv s)
    (hdev : deviceOf s dev = some d) : (owned s).opened d.library.key ∧
      (owned s).held d.library.key (.session d.deviceSession) :=
  ⟨List.mem_map_of_mem (hinv.loaded dev d hdev), dev, d, hdev, rfl, rfl⟩

/-- So is the device job of a live job. -/
theorem owned_job {s : DriverState} {j : Nat} {jb : Job} {d : Device} (hinv : DriverInv s)
    (hget : s.jobs.get? j = some jb) (hdev : deviceOf s jb.device = some d) :
    (owned s).opened d.library.key ∧ (owned s).held d.library.key (.job jb.deviceJob) :=
  ⟨List.mem_map_of_mem (hinv.loaded jb.device d hdev), j, jb, d, hget, hdev, rfl, rfl⟩

/-- The handles that are held have been handed out. -/
theorem owned_bound {s : DriverState} (hinv : DriverInv s) {key : Nat × List UInt8} {n : Nat} :
    ((owned s).held key (.session n) → n < s.nextHandle) ∧
      ((owned s).held key (.job n) → n < s.nextHandle) := by
  constructor
  · rintro ⟨dev, d, hd, _, hn⟩
    rw [hn]
    exact hinv.sessionBound dev d hd
  · rintro ⟨i, jb, d, hget, _, _, hn⟩
    rw [hn]
    exact hinv.jobBound i jb hget

/-- Without sessions there are no devices. -/
theorem deviceOf_of_count_eq_zero {s : DriverState} (hzero : s.sessions.count = 0)
    (dev : DeviceHandle) : deviceOf s dev = none :=
  deviceOf_none (Heap.count_eq_zero hzero dev.session)

/-- A driver without sessions owns nothing. -/
theorem owned_empty {s : DriverState} (hinv : DriverInv s) (hzero : s.count = 0) :
    owned s = Books.empty := by
  rw [owned_idle (deviceOf_of_count_eq_zero (hinv.counter ▸ hzero)), (hinv.idle hzero).1,
    booksOf_nil]

theorem keeps_loadFails {s : DriverState} {env : DriverEnv} {events : List Event}
    {status : Status} (hinv : DriverInv s) (hzero : s.count = 0)
    (hload : initializeDriver env = (events, .error status)) : Keeps s events s := by
  have hl := ((initializeDriver_inv hload).1 status rfl).2
  refine ⟨hinv, ?_, fun handle => ?_⟩
  · rw [owned_empty hinv hzero]
    have hleads := hl.leads
    rwa [booksOf_nil] at hleads
  · rw [hl.files handle]
    exact Int.zero_add _

theorem keeps_allocFirst {s : DriverState} {env : DriverEnv} {events : List Event}
    {libraries : List Library} {configuredDevices : List Configured} (hinv : DriverInv s)
    (hzero : s.count = 0)
    (hload : initializeDriver env = (events, .ok (libraries, configuredDevices))) :
    Keeps s (events ++ unloadAll s.libraries)
      { s with libraries, configuredDevices, count := 1, sessions := s.sessions.alloc {} } := by
  have hl := (initializeDriver_inv hload).2 libraries configuredDevices rfl
  have hnone := deviceOf_of_count_eq_zero (hinv.counter ▸ hzero)
  have hdev : ∀ dev, deviceOf { s with
      libraries, configuredDevices, count := 1, sessions := s.sessions.alloc {} } dev = none := by
    intro dev
    rw [deviceOf_alloc (s := s) rfl, hnone dev]
  have hno : ∀ {dev : DeviceHandle} {d : Device} {p : Prop}, deviceOf { s with
      libraries, configuredDevices, count := 1, sessions := s.sessions.alloc {} } dev = some d →
        p := by
    intro dev d p hd
    rw [hdev dev] at hd
    exact absurd hd (by simp only [reduceCtorEq, not_false_eq_true])
  -- Without a session there is no device, and so no job either.
  have hnojob : ∀ {i : Nat} {jb : Job} {p : Prop}, s.jobs.get? i = some jb → p := by
    intro i jb p hget
    rcases hinv.jobDevice i jb hget with ⟨d, hd⟩
    rw [hnone] at hd
    exact absurd hd (by simp only [reduceCtorEq, not_false_eq_true])
  refine ⟨⟨?_, fun hc => absurd hc Nat.one_ne_zero, hl.keys, hl.configured,
    fun _ _ => hno,
    fun _ _ => hno, fun _ _ _ _ hd => hno hd, fun _ _ => hnojob, fun _ _ => hnojob,
    fun _ _ _ _ hget => hnojob hget⟩, ?_, fun handle => ?_⟩
  · rw [Heap.count_alloc, ← hinv.counter, hzero]
  · -- There is nothing to unload.
    rw [owned_empty hinv hzero, owned_idle hdev, (hinv.idle hzero).1, unloadAll, List.flatMap_nil,
      List.append_nil]
    exact hl.leads
  · rw [(hinv.idle hzero).1, unloadAll, List.flatMap_nil, List.append_nil, hl.files handle]
    exact Int.add_zero _

theorem keeps_allocNext {s : DriverState} (hinv : DriverInv s) :
    Keeps s [] { s with count := s.count + 1, sessions := s.sessions.alloc {} } := by
  refine keeps_sessions hinv rfl rfl rfl (Nat.le_refl _) ?_
    (fun hc => absurd hc (Nat.succ_ne_zero _))
    (fun dev => deviceOf_alloc rfl) (leads_nil _) (fun _ => rfl)
  rw [Heap.count_alloc, hinv.counter]

/-- A session is replaced by one with the same devices. -/
theorem keeps_replace {s : DriverState} {h next : Nat} {sess sess' : Session} {events : List Event}
    (hinv : DriverInv s) (hget : s.sessions.get? h = some sess)
    (hsame : sess'.deviceList = sess.deviceList) (hnext : s.nextHandle ≤ next)
    (hleads : Leads (owned s) (deals events) (owned s))
    (hfiles : ∀ handle, openFiles handle events = 0) :
    Keeps s events { s with sessions := s.sessions.set h sess', nextHandle := next } := by
  refine keeps_sessions hinv rfl rfl rfl hnext ?_ (fun hc => hc)
    (fun dev => deviceOf_set_same hget rfl hsame) hleads hfiles
  rw [Heap.count_set _ _ _ _ hget, hinv.counter]

/-- The loop of `QDMI_session_init` starts from what the driver owns. -/
theorem openDevices_owned {s : DriverState} {env : DriverEnv} {token : List UInt8} {o : Opening}
    {r : Option Abort} (hinv : DriverInv s)
    (hopen : openDevices env token 0 s.configuredDevices { next := s.nextHandle } = (o, r)) :
    OpeningInv (owned s) s.nextHandle o ∧ (r = none → OpenedAs token s.configuredDevices o) :=
  openDevices_inv hopen (fun cfg hcfg => List.mem_map_of_mem (hinv.configured cfg hcfg))
    (fun _ _ hheld => (owned_bound hinv).1 hheld)

/-- The devices of an attempt are given back when it fails. -/
theorem leads_rollback {b : LibraryBooks} {start : Nat} {o : Opening} (h : OpeningInv b start o)
    (hfresh : ∀ key n, b.held key (.session n) → n < start) :
    Leads b (deals (o.events ++ freeDevices o.devices)) b := by
  rw [deals_append]
  refine leads_append h.leads (leads_freeDevices h.distinct h.opened (fun d hd hheld => ?_))
  have hlt := hfresh _ _ hheld
  have hle := (h.range d hd).1
  omega

theorem keeps_initFails {s : DriverState} {env : DriverEnv} {h : Nat} {sess : Session}
    {token : List UInt8} {o : Opening} {abort : Abort} (hinv : DriverInv s)
    (hget : s.sessions.get? h = some sess)
    (hopen : openDevices env token 0 s.configuredDevices { next := s.nextHandle } =
      (o, some abort)) :
    Keeps s (o.events ++ freeDevices o.devices)
      { s with sessions := s.sessions.set h (withMode sess token), nextHandle := o.next } := by
  have ho := (openDevices_owned hinv hopen).1
  refine keeps_replace hinv hget rfl ho.start_le
    (leads_rollback ho (fun _ _ hheld => (owned_bound hinv).1 hheld)) (fun handle => ?_)
  rw [openFiles_append, ho.files handle, openFiles_freeDevices]
  rfl

/-- A session that is still allocated has no devices, and no jobs on them. -/
theorem allocated_bare {s : DriverState} {h : Nat} {sess : Session} (hinv : DriverInv s)
    (hget : s.sessions.get? h = some sess) (hst : sess.status = .allocated) :
    (∀ dev : DeviceHandle, dev.session = h → deviceOf s dev = none) ∧
      ∀ i jb, s.jobs.get? i = some jb → jb.device.session ≠ h := by
  have hnone : ∀ dev : DeviceHandle, dev.session = h → deviceOf s dev = none := by
    intro dev hdev
    rw [deviceOf_eq hget hdev, sess.bare hst, List.getElem?_nil]
  refine ⟨hnone, fun i jb hjb heq => ?_⟩
  rcases hinv.jobDevice i jb hjb with ⟨d, hd⟩
  rw [hnone jb.device heq] at hd
  exact absurd hd (by simp only [reduceCtorEq, not_false_eq_true])

theorem keeps_init {s : DriverState} {env : DriverEnv} {h : Nat} {sess : Session}
    {token : List UInt8} {o : Opening} (hinv : DriverInv s) (hget : s.sessions.get? h = some sess)
    (hst : sess.status = .allocated)
    (hopen : openDevices env token 0 s.configuredDevices { next := s.nextHandle } = (o, none)) :
    Keeps s o.events { s with
      sessions := s.sessions.set h (withDeviceList sess token o.devices)
      nextHandle := o.next } := by
  rcases openDevices_owned hinv hopen with ⟨ho, has⟩
  rcases allocated_bare hinv hget hst with ⟨hnone, hjob⟩
  -- Read the devices of the next state off this, in one of two ways.
  have hdev : ∀ dev, deviceOf { s with
      sessions := s.sessions.set h (withDeviceList sess token o.devices)
      nextHandle := o.next } dev =
      if dev.session = h then o.devices[dev.index]? else deviceOf s dev :=
    fun dev => (deviceOf_set hget rfl).trans rfl
  have hlib : ∀ d ∈ o.devices, d.library ∈ s.libraries := by
    intro d hd
    rcases List.mem_iff_getElem.mp hd with ⟨i, hi, hdi⟩
    have hlen := (has rfl).devices.length_eq
    have hmatch := (has rfl).devices.get (i := i) (by omega) hi
    rw [List.get_eq_getElem, List.get_eq_getElem, hdi] at hmatch
    rw [hmatch.1]
    exact hinv.configured _ (List.getElem_mem _)
  have hrange : ∀ {dev : DeviceHandle} {d : Device}, dev.session = h →
      o.devices[dev.index]? = some d →
      s.nextHandle ≤ d.deviceSession ∧ d.deviceSession < o.next :=
    fun _ hd => ho.range _ (List.mem_of_getElem? hd)
  refine ⟨⟨?_, hinv.idle, hinv.keys, hinv.configured, ?_, ?_, ?_, ?_, ?_,
    hinv.jobUnique⟩, ?_, fun handle => ?_⟩
  · rw [Heap.count_set _ _ _ _ hget, hinv.counter]
  · intro dev d hd
    rw [hdev dev] at hd
    by_cases hh : dev.session = h
    · rw [if_pos hh] at hd
      exact hlib d (List.mem_of_getElem? hd)
    · rw [if_neg hh] at hd
      exact hinv.loaded dev d hd
  · intro dev d hd
    rw [hdev dev] at hd
    by_cases hh : dev.session = h
    · rw [if_pos hh] at hd
      exact (hrange hh hd).2
    · rw [if_neg hh] at hd
      exact Nat.lt_of_lt_of_le (hinv.sessionBound dev d hd) ho.start_le
  · -- The new device sessions are distinct, and none of the old ones.
    intro dev dev' d d' hd hd' heq
    rw [hdev dev] at hd
    rw [hdev dev'] at hd'
    by_cases hh : dev.session = h
    · rw [if_pos hh] at hd
      have hnew := hrange hh hd
      by_cases hh' : dev'.session = h
      · rw [if_pos hh'] at hd'
        have hi : (o.devices.map Device.deviceSession)[dev.index]? = some d.deviceSession := by
          rw [List.getElem?_map, hd, Option.map_some]
        have hi' : (o.devices.map Device.deviceSession)[dev'.index]? = some d.deviceSession := by
          rw [List.getElem?_map, hd', Option.map_some, heq]
        have hindex : dev.index = dev'.index := by
          rcases List.getElem?_eq_some_iff.mp hi with ⟨hlt, hval⟩
          exact (List.getElem?_inj hlt ho.distinct).mp (hi.trans hi'.symm)
        rcases dev with ⟨session, index⟩
        rcases dev' with ⟨session', index'⟩
        simp only at hh hh' hindex
        rw [hh, hh', hindex]
      · rw [if_neg hh'] at hd'
        have hlt := hinv.sessionBound dev' d' hd'
        omega
    · rw [if_neg hh] at hd
      have hlt := hinv.sessionBound dev d hd
      by_cases hh' : dev'.session = h
      · rw [if_pos hh'] at hd'
        have hnew := hrange hh' hd'
        omega
      · rw [if_neg hh'] at hd'
        exact hinv.sessionUnique dev dev' d d' hd hd' heq
  · intro i jb hjb
    rw [hdev jb.device, if_neg (hjob i jb hjb)]
    exact hinv.jobDevice i jb hjb
  · exact fun i jb hjb => Nat.lt_of_lt_of_le (hinv.jobBound i jb hjb) ho.start_le
  · rw [owned_withDevices hdev rfl rfl hnone hjob]
    exact ho.leads
  · rw [ho.files handle]
    exact Int.zero_add _

/-- The counter of a driver with a live session goes down to the number of
    sessions that are left. -/
theorem countDown_live {s : DriverState} {h : Nat} {sess : Session} (hinv : DriverInv s)
    (hget : s.sessions.get? h = some sess) :
    countDown s.count = (s.sessions.free h).count := by
  rw [hinv.counter, ← Heap.count_free _ _ _ hget]
  rfl

/-- What is left when a session is freed and its devices are given back. -/
theorem keeps_freeDevices {s t : DriverState} {h : Nat} {sess : Session} (hinv : DriverInv s)
    (hget : s.sessions.get? h = some sess) (hlibs : t.libraries = s.libraries)
    (hjobs : t.jobs = s.jobs) (hsessions : t.sessions = s.sessions.free h)
    (hjob : ∀ i jb, s.jobs.get? i = some jb → jb.device.session ≠ h) :
    Leads (owned s) (deals (freeDevices sess.deviceList)) (owned t) := by
  have hdev : ∀ dev, deviceOf t dev = if dev.session = h then none else deviceOf s dev :=
    fun dev => deviceOf_free hsessions
  -- The state before is the one after with the devices of the session added.
  have hback : ∀ dev, deviceOf s dev =
      if dev.session = h then sess.deviceList[dev.index]? else deviceOf t dev := by
    intro dev
    by_cases hh : dev.session = h
    · rw [if_pos hh, deviceOf_eq hget hh]
    · rw [if_neg hh, hdev, if_neg hh]
  have hnone : ∀ dev : DeviceHandle, dev.session = h → deviceOf t dev = none := by
    intro dev hh
    rw [hdev, if_pos hh]
  have hmem : ∀ i (d : Device), sess.deviceList[i]? = some d →
      deviceOf s { session := h, index := i } = some d := by
    intro i d hd
    rw [deviceOf_eq hget rfl, hd]
  rw [owned_withDevices hback hlibs.symm hjobs.symm hnone (fun i jb hjb => hjob i jb (hjobs ▸ hjb))]
  refine leads_freeDevices ?_ (fun d hd => ?_) (fun d hd => ?_)
  · -- Device sessions are unique among the devices of all sessions.
    refine List.nodup_iff_getElem?_ne_getElem?.mpr (fun i j hij hj heq => ?_)
    rw [List.length_map] at hj
    rw [List.getElem?_map, List.getElem?_map, List.getElem?_eq_getElem hj,
      List.getElem?_eq_getElem (Nat.lt_trans hij hj), Option.map_some, Option.map_some,
      Option.some.injEq] at heq
    have hsame := hinv.sessionUnique _ _ _ _ (hmem i _ (List.getElem?_eq_getElem _))
      (hmem j _ (List.getElem?_eq_getElem _)) heq
    rw [DeviceHandle.mk.injEq] at hsame
    omega
  · -- The library of an open session is loaded.
    rcases List.getElem?_of_mem hd with ⟨i, hi⟩
    show d.library.key ∈ t.libraries.map Library.key
    rw [hlibs]
    exact (owned_session hinv (hmem i d hi)).1
  · -- No other session holds one of the device sessions.
    rintro ⟨dev, d', hd', hkey, hsession⟩
    rcases List.getElem?_of_mem hd with ⟨i, hi⟩
    have hh : dev.session ≠ h := by
      intro hh
      rw [hnone dev hh] at hd'
      exact absurd hd' (by simp only [reduceCtorEq, not_false_eq_true])
    rw [hdev dev, if_neg hh] at hd'
    have hsame := hinv.sessionUnique _ _ _ _ (hmem i d hi) hd' hsession
    exact hh (congrArg DeviceHandle.session hsame).symm

theorem keeps_free {s : DriverState} {h : Nat} {sess : Session} (hinv : DriverInv s)
    (hget : s.sessions.get? h = some sess) (hpos : countDown s.count ≠ 0)
    (hjob : ∀ i jb, s.jobs.get? i = some jb → jb.device.session ≠ h) :
    Keeps s (freeDevices sess.deviceList)
      { s with sessions := s.sessions.free h, count := countDown s.count } := by
  have hdev : ∀ dev, deviceOf { s with
      sessions := s.sessions.free h, count := countDown s.count } dev =
      if dev.session = h then none else deviceOf s dev := fun dev => deviceOf_free rfl
  have hold : ∀ {dev : DeviceHandle} {d : Device}, deviceOf { s with
      sessions := s.sessions.free h, count := countDown s.count } dev = some d →
      deviceOf s dev = some d := by
    intro dev d hd
    rw [hdev] at hd
    by_cases hh : dev.session = h
    · rw [if_pos hh] at hd
      exact absurd hd (by simp only [reduceCtorEq, not_false_eq_true])
    · rwa [if_neg hh] at hd
  -- Whatever device is left was there before.
  refine ⟨⟨countDown_live hinv hget, fun hc => absurd hc hpos, hinv.keys, hinv.configured,
    fun dev d hd => hinv.loaded dev d (hold hd), fun dev d hd => hinv.sessionBound dev d (hold hd),
    fun dev dev' d d' hd hd' => hinv.sessionUnique dev dev' d d' (hold hd) (hold hd'), ?_,
    hinv.jobBound, hinv.jobUnique⟩, ?_, fun handle => ?_⟩
  · -- A job outlives the session only if it is a job of another one.
    intro i jb hjb
    rw [hdev, if_neg (hjob i jb hjb)]
    exact hinv.jobDevice i jb hjb
  · exact keeps_freeDevices hinv hget rfl rfl rfl hjob
  · rw [openFiles_freeDevices]
    exact Int.zero_add _

theorem keeps_freeLast {s : DriverState} {h : Nat} {sess : Session} (hinv : DriverInv s)
    (hget : s.sessions.get? h = some sess) (hzero : countDown s.count = 0)
    (hjob : ∀ i jb, s.jobs.get? i = some jb → jb.device.session ≠ h) :
    Keeps s (freeDevices sess.deviceList ++ unloadAll s.libraries)
      { s with
        libraries := []
        configuredDevices := []
        count := countDown s.count
        sessions := s.sessions.free h } := by
  -- The state between the two halves, with the devices back and the libraries loaded.
  have hhalf := keeps_freeDevices (t := { s with sessions := s.sessions.free h }) hinv hget rfl rfl
    rfl hjob
  have hgone : (s.sessions.free h).count = 0 := (countDown_live hinv hget) ▸ hzero
  have hno : ∀ {t : DriverState}, t.sessions = s.sessions.free h →
      ∀ dev, deviceOf t dev = none := by
    intro t ht
    exact deviceOf_of_count_eq_zero (ht ▸ hgone)
  have hdead : ∀ {t : DriverState} {dev : DeviceHandle} {d : Device} {p : Prop},
      t.sessions = s.sessions.free h → deviceOf t dev = some d → p := by
    intro t dev d p ht hd
    rw [hno ht dev] at hd
    exact absurd hd (by simp only [reduceCtorEq, not_false_eq_true])
  have hnojob : ∀ {i : Nat} {jb : Job} {p : Prop}, s.jobs.get? i = some jb → p := by
    intro i jb p hjb
    rcases hinv.jobDevice i jb hjb with ⟨d, hd⟩
    have hdev : deviceOf { s with sessions := s.sessions.free h } jb.device =
        if jb.device.session = h then none else deviceOf s jb.device := deviceOf_free rfl
    rw [if_neg (hjob i jb hjb), hd] at hdev
    exact hdead rfl hdev
  refine ⟨⟨countDown_live hinv hget, fun _ => ⟨rfl, rfl⟩, List.nodup_nil,
    fun _ hcfg => absurd hcfg List.not_mem_nil,
    fun _ _ => hdead rfl,
    fun _ _ => hdead rfl, fun _ _ _ _ hd => hdead rfl hd, fun _ _ => hnojob, fun _ _ => hnojob,
    fun _ _ _ _ hjb => hnojob hjb⟩, ?_, fun handle => ?_⟩
  · rw [owned_idle (hno (t := { s with sessions := s.sessions.free h }) rfl)] at hhalf
    rw [owned_idle (s := { s with
        libraries := [], configuredDevices := [], count := countDown s.count
        sessions := s.sessions.free h }) (hno rfl), booksOf_nil, deals_append]
    exact leads_append hhalf (leads_unloadAll hinv.keys)
  · rw [openFiles_append, openFiles_freeDevices, openFiles_unloadAll]
    show 0 + - filesOf handle s.libraries + filesOf handle s.libraries = 0
    omega

/-- What a library is asked for when it is asked for a job. -/
theorem jobRequest_deals {key : Nat × List UInt8} {d : Device} {status : Status} {job : Option Nat}
    {call : LibraryCall} (h : jobRequest d status job call) : call.deals key =
      .uses key (.session d.deviceSession) :: (job.map (fun j => .takes key (.job j))).toList := by
  rcases h with h | ⟨jobId, h⟩
  all_goals
    rw [h]
    cases job
    all_goals rfl

theorem keeps_adoptJob {s : DriverState} {dev : DeviceHandle} {d : Device} {call : LibraryCall}
    (hinv : DriverInv s) (hdev : deviceOf s dev = some d)
    (hcall : jobRequest d .success (some s.nextHandle) call) :
    Keeps s [.call d.library.key call]
      { s with
        jobs := s.jobs.alloc { device := dev, deviceJob := s.nextHandle }
        nextHandle := s.nextHandle + 1 } := by
  refine ⟨⟨hinv.counter, hinv.idle, hinv.keys, hinv.configured, hinv.loaded, ?_,
    hinv.sessionUnique, ?_, ?_, ?_⟩, ?_, fun handle => Int.zero_add _⟩
  · exact fun dev' d' hd' => Nat.lt_succ_of_lt (hinv.sessionBound dev' d' hd')
  · intro i jb hjb
    rw [Heap.get?_alloc] at hjb
    by_cases hi : i = s.jobs.next
    · rw [if_pos hi, Option.some.injEq] at hjb
      rw [← hjb]
      exact ⟨d, hdev⟩
    · rw [if_neg hi] at hjb
      exact hinv.jobDevice i jb hjb
  · intro i jb hjb
    rw [Heap.get?_alloc] at hjb
    by_cases hi : i = s.jobs.next
    · rw [if_pos hi, Option.some.injEq] at hjb
      rw [← hjb]
      exact Nat.lt_succ_self _
    · rw [if_neg hi] at hjb
      exact Nat.lt_succ_of_lt (hinv.jobBound i jb hjb)
  · -- The device job is newer than all others.
    intro i i' jb jb' hjb hjb' heq
    rw [Heap.get?_alloc] at hjb hjb'
    by_cases hi : i = s.jobs.next
    · by_cases hi' : i' = s.jobs.next
      · rw [hi, hi']
      · rw [if_pos hi, Option.some.injEq] at hjb
        rw [if_neg hi'] at hjb'
        rw [← hjb] at heq
        exact absurd (hinv.jobBound i' jb' hjb') (heq ▸ Nat.lt_irrefl _)
    · rw [if_neg hi] at hjb
      by_cases hi' : i' = s.jobs.next
      · rw [if_pos hi', Option.some.injEq] at hjb'
        rw [← hjb'] at heq
        exact absurd (hinv.jobBound i jb hjb) (heq ▸ Nat.lt_irrefl _)
      · rw [if_neg hi'] at hjb'
        exact hinv.jobUnique i i' jb jb' hjb hjb' heq
  · rw [owned_adopt (t := { s with
        jobs := s.jobs.alloc { device := dev, deviceJob := s.nextHandle }
        nextHandle := s.nextHandle + 1 }) rfl rfl rfl hdev, deals, List.flatMap_singleton,
      Event.deals, jobRequest_deals hcall]
    have hnew : ¬ (owned s).held d.library.key (.job s.nextHandle) :=
      fun hheld => Nat.lt_irrefl _ ((owned_bound hinv).2 hheld)
    have hopen := owned_session hinv hdev
    exact leads_cons hopen (leads_cons ⟨hopen.1, hnew⟩ (leads_nil _))

theorem keeps_freeJob {s : DriverState} {j : Nat} {jb : Job} {d : Device} (hinv : DriverInv s)
    (hget : s.jobs.get? j = some jb) (hdev : deviceOf s jb.device = some d) :
    Keeps s [.call d.library.key (.deviceJobFree jb.deviceJob)]
      { s with jobs := s.jobs.free j } := by
  have hold : ∀ {i : Nat} {jb' : Job}, (s.jobs.free j).get? i = some jb' →
      s.jobs.get? i = some jb' := by
    intro i jb' hjb
    rw [Heap.get?_free] at hjb
    by_cases hi : i = j
    · rw [if_pos hi] at hjb
      exact absurd hjb (by simp only [reduceCtorEq, not_false_eq_true])
    · rwa [if_neg hi] at hjb
  refine ⟨⟨hinv.counter, hinv.idle, hinv.keys, hinv.configured, hinv.loaded,
    hinv.sessionBound, hinv.sessionUnique, fun i jb' hjb => hinv.jobDevice i jb' (hold hjb),
    fun i jb' hjb => hinv.jobBound i jb' (hold hjb), fun i i' jb' jb'' hjb hjb' =>
      hinv.jobUnique i i' jb' jb'' (hold hjb) (hold hjb')⟩, ?_, fun handle => Int.zero_add _⟩
  rw [owned_release (t := { s with jobs := s.jobs.free j }) hinv rfl rfl rfl hget hdev]
  exact leads_cons (owned_job hinv hget hdev) (leads_nil _)

/-- A move keeps the invariant, and takes the books from what the driver owned
    before to what it owns after. -/
theorem driverMove_keeps {s t : DriverState} {c : DriverCall} {out : DriverOut}
    (hmove : DriverMove s c out t) (hinv : DriverInv s) (hrule : FreesJobsFirst s c) :
    Keeps s out.events t := by
  cases hmove with
  | stay => exact ⟨hinv, leads_nil _, fun handle => Int.zero_add _⟩
  | loadFails events status hop hzero hload => exact keeps_loadFails hinv hzero hload
  | allocFirst events libraries configuredDevices hop hzero hload =>
      exact keeps_allocFirst hinv hzero hload
  | allocNext => exact keeps_allocNext hinv
  | initFails h sess token o abort hop hget hst htoken hopen =>
      exact keeps_initFails hinv hget hopen
  | init h sess token o hop hget hst htoken hopen => exact keeps_init hinv hget hst hopen
  | free h sess hop hget hpos => exact keeps_free hinv hget hpos (hrule h hop)
  | freeLast h sess hop hget hzero => exact keeps_freeLast hinv hget hzero (hrule h hop)
  | setToken h sess token hop hget hst =>
      exact keeps_replace hinv hget rfl (Nat.le_refl _) (leads_nil _) (fun _ => rfl)
  | refuseJob dev sess d status call hop hdev hmode hstatus hcall =>
      -- A refused request is one more use of a session that is held.
      have hheld := owned_session hinv (deviceOf_of_deviceAt hdev).2
      refine keeps_call hinv ?_
      rw [jobRequest_deals hcall]
      exact leads_cons hheld (leads_nil _)
  | adoptJob dev sess d call hop hdev hmode hcall =>
      exact keeps_adoptJob hinv (deviceOf_of_deviceAt hdev).2 hcall
  | freeJob j jb sess d hop hget hdev =>
      exact keeps_freeJob hinv hget (deviceOf_of_deviceAt hdev).2
  | passJob j jb sess d call hop hget hdev =>
      have hheld := owned_job hinv hget (deviceOf_of_deviceAt hdev).2
      exact keeps_call hinv (leads_cons hheld (leads_nil _))
  | passQuery dev sess d call hop hdev =>
      have hheld := owned_session hinv (deviceOf_of_deviceAt hdev).2
      exact keeps_call hinv (leads_cons hheld (leads_nil _))

/-- A run of clients that keep the rule keeps the invariant, and takes the
    books from nothing to what the driver owns. -/
theorem driverRuns_keeps {addr : DeviceHandle → Nat} {tr : List DriverEntry} {s : DriverState}
    (hrun : DriverRuns addr tr s) (hrule : Respects FreesJobsFirst tr) :
    Keeps {} (eventsOf tr) s := by
  refine runs_invariant (P := fun tr s => Keeps {} (eventsOf tr) s) hrun hrule ?_ ?_
  · exact ⟨driverInv_initial, leads_nil _, fun _ => rfl⟩
  · intro tr t c out u _ _ hkeeps hc hstep
    have hone := driverMove_keeps (driverStep_move hstep) hkeeps.inv hc
    have hevents : eventsOf (tr ++ [⟨t, c, out, u⟩]) = eventsOf tr ++ out.events := by
      rw [eventsOf, List.flatMap_append, List.flatMap_singleton, eventsOf]
    refine ⟨hone.inv, ?_, fun handle => ?_⟩
    · rw [hevents, deals_append]
      exact leads_append hkeeps.leads hone.leads
    · have hbefore := hkeeps.files handle
      have hafter := hone.files handle
      rw [hevents, openFiles_append]
      omega

end Driver

end Qdmi
