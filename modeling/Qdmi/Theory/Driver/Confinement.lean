import Qdmi.Core.Driver.Files
import Qdmi.Theory.Driver.Change
import Qdmi.Theory.Driver.Discipline
import Qdmi.Theory.Driver.Reading
import Qdmi.Theory.Driver.Turns

/-!
# Which Libraries Are Loaded

A library runs with the rights of the client, so it matters where the name of a
library can come from. It comes from a line of a configuration file in the working
directory or the home directory, and from nowhere else.

`isPathAllowed_iff` says what the check of the file is worth: the paths that it
compares are normal, so comparing their elements is asking for the place. In a run
of the driver, everything that happens outside of it is about a library with such
an origin (`fileRuns_confined`): the files it opens and closes, and the calls. The
origin stays with a library in the list of libraries, in the configured devices and
in the devices of the sessions, and this is the invariant.

## Main definitions

* `AllowedDir`: The directories a configuration may be in.
* `Mentioned`, `Vouched`: Where a library comes from.
* `Event.about`, `Confines`: What events are about.
* `Within`, `OpensWithin`, `Confined`: The two loops, and the driver between calls.

## Theorems

* `isPathAllowed_iff`: What is allowed.
* `configSource_text_iff`: When a configuration is read.
* `initializeDriver_within`: What a configuration names is all that is loaded.
* `driverMove_confined`: A move keeps to what is known.
* `fileRuns_driver`, `fileRuns_inv`: What holds of runs of the driver.
* `fileRuns_known`, `fileRuns_confined`: Every library has an origin.
-/

namespace Qdmi

namespace Driver

/-! ## The configuration file -/

/-- A directory that configurations may be in. -/
def AllowedDir (files : FileEnv) (dir : List UInt8) : Prop :=
  (∃ current, files.currentPath = .ok current ∧ files.canonical current = .ok dir) ∨
    ∃ home, files.home = some home ∧ files.canonical home = .ok dir

section

variable {files : FileEnv}

/-- The list holds the allowed directories. -/
theorem mem_allowlist_iff {dirs : List (List UInt8)} (h : allowlist files = .ok dirs)
    (dir : List UInt8) : dir ∈ dirs ↔ AllowedDir files dir := by
  unfold allowlist at h
  rcases hcur : files.currentPath with e | current
  · simp only [hcur, reduceCtorEq] at h
  rcases hwork : files.canonical current with e | working
  · simp only [hcur, hwork, reduceCtorEq] at h
  -- The working directory is always in the list.
  have hworking : (∃ c, files.currentPath = .ok c ∧ files.canonical c = .ok dir) ↔
      dir = working := by
    constructor
    · rintro ⟨c, hc, hdir⟩
      rw [hcur, Except.ok.injEq] at hc
      rw [← hc, hwork, Except.ok.injEq] at hdir
      exact hdir.symm
    · intro heq
      exact ⟨current, hcur, heq ▸ hwork⟩
  rw [AllowedDir, hworking]
  rcases hhome : files.home with _ | home
  · simp only [hcur, hwork, hhome, Except.ok.injEq] at h
    rw [← h]
    simp
  rcases hcan : files.canonical home with e | homeDir
  · -- A home that does not resolve is not a directory.
    have hdirs : dirs = [working] := by
      cases e
      all_goals simp only [hcur, hwork, hhome, hcan, Except.ok.injEq, reduceCtorEq] at h
      exact h.symm
    rw [hdirs]
    simp [hcan]
  · simp only [hcur, hwork, hhome, hcan, Except.ok.injEq] at h
    rw [← h]
    simp [hcan, eq_comm]

/-- The allowed directories are resolved. -/
theorem normal_of_allowedDir {dir : List UInt8} (h : AllowedDir files dir) :
    Paths.Normal 47 46 dir := by
  rcases h with ⟨_, _, hcan⟩ | ⟨_, _, hcan⟩
  · exact files.canonical_normal _ _ hcan
  · exact files.canonical_normal _ _ hcan

/-- A path is allowed if it leads to an allowed directory or below one. -/
theorem isPathAllowed_iff {path : List UInt8} (hpath : Paths.Normal 47 46 path)
    {dirs : List (List UInt8)} (h : allowlist files = .ok dirs) :
    isPathAllowed files path = .ok true ↔
      ∃ dir, AllowedDir files dir ∧ Paths.Inside 47 46 dir path := by
  rw [isPathAllowed, h, Except.map, Except.ok.injEq, List.any_eq_true]
  refine exists_congr (fun dir => ?_)
  rw [mem_allowlist_iff h, List.isPrefixOf_iff_prefix]
  refine and_congr_right (fun hdir => ?_)
  exact Paths.elements_prefix_iff (normal_of_allowedDir hdir) hpath

/-- A configuration is read from a file in an allowed directory. -/
theorem configSource_text_iff {content : List UInt8} : configSource files = .text content ↔
    ∃ path dirs, files.canonical (configFile files) = .ok path ∧ allowlist files = .ok dirs ∧
      (∃ dir, AllowedDir files dir ∧ Paths.Inside 47 46 dir path) ∧
      files.read path = some content := by
  unfold configSource
  rcases hcan : files.canonical (configFile files) with e | path
  · simp
  have hnormal := files.canonical_normal _ _ hcan
  rcases hlist : allowlist files with e | dirs
  · simp [isPathAllowed, hlist, Except.map]
  have hiff := isPathAllowed_iff hnormal hlist
  have hsome : ∃ b, isPathAllowed files path = .ok b := ⟨_, by rw [isPathAllowed, hlist]; rfl⟩
  rcases hsome with ⟨allowed, hallowed⟩
  rw [hallowed, Except.ok.injEq] at hiff
  cases allowed with
  | false => simp [hallowed, ← hiff]
  | true =>
      rcases hread : files.read path with _ | text
      · simp [hallowed, hread]
      · simp [hallowed, hread, hiff.mp rfl]

end

/-! ## Events about libraries -/

/-- What an event is about. -/
def Event.about (key : Nat × List UInt8) : Event → Prop
  | .dlopen handle => handle = key.1
  | .dlclose handle => handle = key.1
  | .call k _ => k = key

/-- Events are about libraries of some kind only. -/
def Confines (P : Nat × List UInt8 → Prop) (events : List Event) : Prop :=
  ∀ event ∈ events, ∃ key, P key ∧ event.about key

section

variable {P : Nat × List UInt8 → Prop}

theorem confines_nil : Confines P [] := fun _ hevent => absurd hevent List.not_mem_nil

theorem confines_append {events events' : List Event} (h : Confines P events)
    (h' : Confines P events') : Confines P (events ++ events') := fun event hevent =>
  (List.mem_append.mp hevent).elim (h event) (h' event)

/-- Events that are all about one library. -/
theorem confines_of_about {key : Nat × List UInt8} (hkey : P key) {events : List Event}
    (h : ∀ event ∈ events, event.about key) : Confines P events :=
  fun event hevent => ⟨key, hkey, h event hevent⟩

theorem confines_unloadAll {libraries : List Library} (h : ∀ lib ∈ libraries, P lib.key) :
    Confines P (unloadAll libraries) := by
  intro event hevent
  rcases List.mem_flatMap.mp hevent with ⟨lib, hlib, hmem⟩
  refine ⟨lib.key, h lib hlib, ?_⟩
  rcases List.mem_cons.mp hmem with heq | hmem
  · rw [heq]
    rfl
  · rw [List.mem_singleton.mp hmem]
    rfl

theorem confines_freeDevices {devices : List Device} (h : ∀ d ∈ devices, P d.library.key) :
    Confines P (freeDevices devices) := by
  intro event hevent
  rcases List.mem_map.mp hevent with ⟨d, hd, heq⟩
  refine ⟨d.library.key, h d hd, ?_⟩
  rw [← heq]
  rfl

/-! ## Loading libraries -/

/-- Everything in the vectors, and everything that happened, is about libraries of
    some kind. -/
structure Within (P : Nat × List UInt8 → Prop) (l : Loading) : Prop where
  events : Confines P l.events
  libraries : ∀ lib ∈ l.libraries, P lib.key
  configured : ∀ cfg ∈ l.configuredDevices, P cfg.library.key

theorem within_log {l : Loading} (h : Within P l) {key : Nat × List UInt8} (hkey : P key)
    {events : List Event} (hevents : ∀ event ∈ events, event.about key) :
    Within P (l.log events) where
  events := confines_append h.events (confines_of_about hkey hevents)
  libraries := h.libraries
  configured := h.configured

/-- Loading a library is about the library that the path and the prefix give. The
    cases are the ways out of the function. -/
theorem libraryLoad_within {env : DriverEnv} {k : Nat} {l l' : Loading}
    {libName libPrefix : List UInt8} {r : Except Exn Library}
    (h : libraryLoad env k l libName libPrefix = (l', r)) (hl : Within P l)
    (hP : ∀ handle, env.dlopen libName = some handle → P (handle, libPrefix)) :
    Within P l' ∧ ∀ library, r = .ok library → P library.key := by
  unfold libraryLoad at h
  split at h
  · cases h
    exact ⟨hl, by rintro _ ⟨⟩⟩
  split at h
  · cases h
    exact ⟨hl, by rintro _ ⟨⟩⟩
  rename_i handle hopen
  have hkey := hP handle hopen
  -- All that can happen now is about this file and this prefix.
  have hnew : (resolved env handle libPrefix).key = (handle, libPrefix) := rfl
  have hclosed : Within P (l.log [.dlopen handle, .dlclose handle]) :=
    within_log hl hkey (by simp [Event.about])
  split at h
  · rename_i loaded hfind
    have hfound := List.find?_some hfind
    rw [beq_iff_eq] at hfound
    cases h
    refine ⟨hclosed, fun library hok => ?_⟩
    rw [← Except.ok.inj hok, hfound]
    exact hkey
  split at h
  · cases h
    exact ⟨hclosed, by rintro _ ⟨⟩⟩
  split at h
  · cases h
    exact ⟨hclosed, by rintro _ ⟨⟩⟩
  dsimp only at h
  split at h
  · cases h
    refine ⟨within_log hl hkey ?_, by rintro _ ⟨⟩⟩
    simp [Event.about, Library.key, resolved]
  split at h
  · cases h
    refine ⟨within_log hl hkey ?_, by rintro _ ⟨⟩⟩
    simp [Event.about, Library.key, unload, resolved]
  · cases h
    have hlog : Within P (l.log [.dlopen handle,
        .call (resolved env handle libPrefix).key (.deviceInitialize (env.status k))]) :=
      within_log hl hkey (by simp [Event.about, hnew])
    refine ⟨⟨hlog.events, fun lib hlib => ?_, hlog.configured⟩, fun library hok => ?_⟩
    · rcases List.mem_append.mp hlib with hold | hlast
      · exact hl.libraries lib hold
      · rw [List.mem_singleton.mp hlast, hnew]
        exact hkey
    · rw [← Except.ok.inj hok, hnew]
      exact hkey

/-- A line is about the library that its entry names. -/
theorem configureLine_within {env : DriverEnv} {k : Nat} {line : List UInt8} {l l' : Loading}
    {r : Option Abort} (h : configureLine env k line l = (l', r)) (hl : Within P l)
    (hP : ∀ e handle, readEntry env.mem k line = some e → env.dlopen e.libName = some handle →
      P (handle, e.libPrefix)) : Within P l' := by
  unfold configureLine at h
  split at h
  · rw [← (Prod.mk.inj h).1]
    exact hl
  rename_i hrelevant
  split at h
  · rw [← (Prod.mk.inj h).1]
    exact hl
  split at h
  · rename_i libName libPrefix deviceId hfields
    have hentry : readEntry env.mem k line = some ⟨libName, libPrefix, deviceId⟩ :=
      readEntry_eq_some_iff.mpr ⟨not_or.mp hrelevant, hfields⟩
    iterate 2
      split at h
      · rw [← (Prod.mk.inj h).1]
        exact hl
    rcases hload : libraryLoad env k l libName libPrefix with ⟨m, e | library⟩
    · simp only [hload] at h
      rw [← (Prod.mk.inj h).1]
      exact (libraryLoad_within hload hl (fun handle => hP _ handle hentry)).1
    · rcases libraryLoad_within hload hl (fun handle => hP _ handle hentry) with ⟨hm, hlib⟩
      simp only [hload] at h
      split at h
      · rw [← (Prod.mk.inj h).1]
        exact hm
      · rw [← (Prod.mk.inj h).1]
        refine ⟨hm.events, hm.libraries, fun cfg hcfg => ?_⟩
        rcases List.mem_append.mp hcfg with hold | hlast
        · exact hm.configured cfg hold
        · rw [List.mem_singleton.mp hlast]
          exact hlib library rfl
  · rw [← (Prod.mk.inj h).1]
    exact hl

end

/-- An entry of the configuration that a call reads names a library. -/
def Mentioned (env : DriverEnv) (key : Nat × List UInt8) : Prop :=
  ∃ content e, env.config = .text content ∧ e ∈ readEntries env.mem content ∧
    env.dlopen e.libName = some key.1 ∧ e.libPrefix = key.2

/-- Reading the configuration is about the libraries that it names. -/
theorem initializeDriver_within {env : DriverEnv} {events : List Event}
    {r : Except Status (List Library × List Configured)} (h : initializeDriver env = (events, r)) :
    Confines (Mentioned env) events ∧ ∀ libraries configuredDevices,
      r = .ok (libraries, configuredDevices) → (∀ lib ∈ libraries, Mentioned env lib.key) ∧
        ∀ cfg ∈ configuredDevices, Mentioned env cfg.library.key := by
  unfold initializeDriver at h
  split at h
  iterate 3
    · rw [Prod.mk.injEq] at h
      rw [← h.1, ← h.2]
      exact ⟨confines_nil, by rintro _ _ ⟨⟩⟩
  rename_i content hconfig
  rcases hloop : configureLines env 0 (readLines env.mem 0 (configLines content)) {} with ⟨l, r'⟩
  have hstart : Within (Mentioned env) {} :=
    ⟨confines_nil, fun _ hmem => absurd hmem List.not_mem_nil,
      fun _ hmem => absurd hmem List.not_mem_nil⟩
  -- The entry of a line is one of the configuration.
  have hline : ∀ {before line after} {l l' : Loading} {r},
      readLines env.mem 0 (configLines content) = before ++ line :: after →
      Within (Mentioned env) l → configureLine env before.length line l = (l', r) →
      Within (Mentioned env) l' := by
    intro before line after l l' r hlines hl hb
    refine configureLine_within hb hl (fun e handle hentry hopen => ?_)
    have hmem : e ∈ readEntries env.mem content := by
      rw [readEntries, hlines]
      exact mem_readEntriesFrom hentry
    exact ⟨content, e, hconfig, hmem, hopen, rfl⟩
  rcases loopFrom_induct_split (P := fun _ l => Within (Mentioned env) l)
    (Q := fun l _ => Within (Mentioned env) l)
    (fun _ _ _ _ _ hlines hP hb => hline hlines hP hb)
    (fun _ _ _ _ _ _ hlines hP hb => hline hlines hP hb) hstart hloop with ⟨hP, hQ⟩
  rcases r' with _ | abort
  · simp only [hloop] at h
    rw [Prod.mk.injEq] at h
    rw [← h.1, ← h.2]
    refine ⟨(hP rfl).events, fun libraries configuredDevices hok => ?_⟩
    rw [Except.ok.injEq, Prod.mk.injEq] at hok
    rw [← hok.1, ← hok.2]
    exact ⟨(hP rfl).libraries, (hP rfl).configured⟩
  · simp only [hloop] at h
    rw [Prod.mk.injEq] at h
    rw [← h.1, ← h.2]
    exact ⟨confines_append (hQ abort rfl).events (confines_unloadAll (hQ abort rfl).libraries),
      by rintro _ _ ⟨⟩⟩

/-! ## Opening devices -/

section

variable {P : Nat × List UInt8 → Prop}

/-- The calls of a turn are about the library of the device. -/
theorem turnCalls_about {env : DriverEnv} {token : List UInt8} {d : Device}
    {events : List Event} {r : Option Abort} (h : TurnCalls env token d events r) :
    ∀ event ∈ events, event.about d.library.key := by
  cases h
  all_goals simp [openedEvents, freeDevice, Event.about]

/-- Everything that was opened, and everything that happened, is about libraries of
    some kind. -/
structure OpensWithin (P : Nat × List UInt8 → Prop) (o : Opening) : Prop where
  events : Confines P o.events
  devices : ∀ d ∈ o.devices, P d.library.key

/-- A turn is about the library of its entry of the configuration. -/
theorem openDevice_within {env : DriverEnv} {token : List UInt8} {k : Nat} {cfg : Configured}
    {o o' : Opening} {r : Option Abort} (h : openDevice env token k cfg o = (o', r))
    (ho : OpensWithin P o) (hcfg : P cfg.library.key) : OpensWithin P o' where
  events := by
    rcases openDevice_calls h with ⟨events, hevents, hcalls⟩
    rw [hevents]
    exact confines_append ho.events (confines_of_about hcfg (turnCalls_about hcalls))
  devices d hd := by
    cases openDevice_turn h with
    | opened =>
        rcases List.mem_append.mp hd with hold | hlast
        · exact ho.devices d hold
        · rw [List.mem_singleton.mp hlast]
          exact hcfg
    | outOfMemory | notAllocated | givenBack => exact ho.devices d hd

/-- The loop of `QDMI_session_init` is about the libraries that are configured. -/
theorem openDevices_within {env : DriverEnv} {token : List UInt8} {cfgs : List Configured}
    {start : Nat} {o : Opening} {r : Option Abort}
    (h : openDevices env token 0 cfgs { next := start } = (o, r))
    (hcfgs : ∀ cfg ∈ cfgs, P cfg.library.key) : OpensWithin P o := by
  have hstart : OpensWithin P { next := start } :=
    ⟨confines_nil, fun _ hmem => absurd hmem List.not_mem_nil⟩
  rcases loopFrom_induct (P := fun _ o => OpensWithin P o) (Q := fun o _ => OpensWithin P o)
    (fun _ _ _ _ _ hP hmem hb => openDevice_within hb hP (hcfgs _ hmem))
    (fun _ _ _ _ _ _ hP hmem hb => openDevice_within hb hP (hcfgs _ hmem)) hstart h with ⟨hP, hQ⟩
  rcases r with _ | abort
  · exact hP rfl
  · exact hQ abort rfl

/-! ## The driver -/

/-- All the libraries that the driver knows are of some kind. -/
structure Confined (P : Nat × List UInt8 → Prop) (s : DriverState) : Prop where
  libraries : ∀ lib ∈ s.libraries, P lib.key
  configured : ∀ cfg ∈ s.configuredDevices, P cfg.library.key
  devices : ∀ dev sess d, deviceAt s dev = some (sess, d) → P d.library.key

/-- A driver without sessions knows none. -/
theorem confined_of_idle {s : DriverState} (hinv : DriverInv s) (hzero : s.count = 0) :
    Confined P s where
  libraries lib hlib := by
    rw [(hinv.idle hzero).1] at hlib
    exact absurd hlib List.not_mem_nil
  configured cfg hcfg := by
    rw [(hinv.idle hzero).2] at hcfg
    exact absurd hcfg List.not_mem_nil
  devices dev sess d hdev := by
    have hnone := deviceOf_of_count_eq_zero (hinv.counter ▸ hzero) dev
    rw [(deviceOf_of_deviceAt hdev).2] at hnone
    exact absurd hnone (by simp only [reduceCtorEq, not_false_eq_true])

variable {s t : DriverState} {c : DriverCall} {out : DriverOut}

/-- The devices of a session that is live. -/
theorem confined_deviceList (hs : Confined P s) {h : Nat} {sess : Session}
    (hget : s.sessions.get? h = some sess) : ∀ d ∈ sess.deviceList, P d.library.key := by
  intro d hd
  rcases List.getElem?_of_mem hd with ⟨i, hi⟩
  refine hs.devices ⟨h, i⟩ sess d ?_
  rw [deviceAt, hget, Option.bind_some, hi, Option.map_some]

/-- What happens in a move is about libraries that the driver knew, or that the
    configuration names which it reads. -/
theorem driverMove_confines (hmove : DriverMove s c out t) (hs : Confined P s)
    (hload : c.op = .sessionAlloc true → s.count = 0 → ∀ key, Mentioned c.env key → P key) :
    Confines P out.events := by
  have hcall : ∀ {dev sess d} {call : LibraryCall}, deviceAt s dev = some (sess, d) →
      Confines P [.call d.library.key call] := by
    intro dev sess d call hdev
    refine confines_of_about (hs.devices dev sess d hdev) (fun event hevent => ?_)
    rw [List.mem_singleton.mp hevent]
    rfl
  have hread : ∀ {events : List Event}, c.op = .sessionAlloc true → s.count = 0 →
      Confines (Mentioned c.env) events → Confines P events := by
    intro events hop hzero hevents event hevent
    rcases hevents event hevent with ⟨key, hkey, habout⟩
    exact ⟨key, hload hop hzero key hkey, habout⟩
  cases hmove with
  | stay | allocNext | setToken => exact confines_nil
  | loadFails events status hop hzero hinit =>
      exact hread hop hzero (initializeDriver_within hinit).1
  | allocFirst events libraries configuredDevices hop hzero hinit =>
      exact confines_append (hread hop hzero (initializeDriver_within hinit).1)
        (confines_unloadAll hs.libraries)
  | initFails h sess token o abort hop hget hst htoken hopen =>
      have hopened := openDevices_within hopen hs.configured
      exact confines_append hopened.events (confines_freeDevices hopened.devices)
  | init h sess token o hop hget hst htoken hopen =>
      exact (openDevices_within hopen hs.configured).events
  | free h sess hop hget => exact confines_freeDevices (confined_deviceList hs hget)
  | freeLast h sess hop hget =>
      exact confines_append (confines_freeDevices (confined_deviceList hs hget))
        (confines_unloadAll hs.libraries)
  | refuseJob dev sess d status call hop hdev => exact hcall hdev
  | adoptJob dev sess d call hop hdev => exact hcall hdev
  | freeJob j jb sess d hop hget hdev => exact hcall hdev
  | passJob j jb sess d call hop hget hdev => exact hcall hdev
  | passQuery dev sess d call hop hdev => exact hcall hdev

/-- The same goes for the libraries that the driver knows after it. -/
theorem driverMove_confined (hmove : DriverMove s c out t) (hs : Confined P s)
    (hload : c.op = .sessionAlloc true → s.count = 0 → ∀ key, Mentioned c.env key → P key) :
    Confined P t := by
  -- A device was there, or its library was configured.
  have hdevices : ∀ dev sess d, deviceAt t dev = some (sess, d) → P d.library.key := by
    intro dev sess d hdev
    rcases driverMove_device hmove hdev with hold | hnew
    · exact hs.devices dev sess d hold
    · rcases hnew.opened with ⟨_, _, o, _, _, _, hopen, _, hd, _⟩
      exact (openDevices_within hopen hs.configured).devices d (List.mem_of_getElem? hd)
  cases hmove with
  | allocFirst events libraries configuredDevices hop hzero hinit =>
      rcases (initializeDriver_within hinit).2 _ _ rfl with ⟨hlibs, hcfgs⟩
      exact ⟨fun lib hlib => hload hop hzero _ (hlibs lib hlib),
        fun cfg hcfg => hload hop hzero _ (hcfgs cfg hcfg), hdevices⟩
  | freeLast =>
      exact ⟨fun _ hlib => absurd hlib List.not_mem_nil,
        fun _ hcfg => absurd hcfg List.not_mem_nil, hdevices⟩
  | _ => exact ⟨hs.libraries, hs.configured, hdevices⟩

end

/-! ## Runs -/

/-- A library that a call may load: the name of the configuration resolves to a path
    in an allowed directory, and an entry that the call reads from the file there names
    it. -/
def Vouched (c : FileCall) (key : Nat × List UInt8) : Prop :=
  ∃ path dir content e, c.files.canonical (configFile c.files) = .ok path ∧
    AllowedDir c.files dir ∧ Paths.Inside 47 46 dir path ∧ c.files.read path = some content ∧
    e ∈ readEntries c.env.mem content ∧ c.env.dlopen e.libName = some key.1 ∧ e.libPrefix = key.2

/-- A library that the last call to find no session may have loaded. -/
def Origin (tr : List FileEntry) (key : Nat × List UInt8) : Prop :=
  ∃ earlier e later, tr = earlier ++ e :: later ∧ e.label.op = .sessionAlloc true ∧
    e.pre.count = 0 ∧ Vouched e.label key ∧ ∀ x ∈ later, x.pre.count ≠ 0

theorem vouched_of_mentioned {c : FileCall} {key : Nat × List UInt8}
    (h : Mentioned c.call.env key) : Vouched c key := by
  rcases h with ⟨content, e, hconfig, he, hopen, hprefix⟩
  rcases configSource_text_iff.mp hconfig with ⟨path, _, hcan, _, ⟨dir, hdir, hinside⟩, hread⟩
  exact ⟨path, dir, content, e, hcan, hdir, hinside, hread, he, hopen, hprefix⟩

/-- One more step leaves what the driver knows with an origin. Without a session it
    knows nothing, and otherwise the step reads no configuration. -/
theorem confined_grown {tr : List FileEntry} {x : FileEntry} (hinv : DriverInv x.pre)
    (h : Confined (Origin tr) x.pre) : Confined (Origin (tr ++ [x])) x.pre := by
  by_cases hzero : x.pre.count = 0
  · exact confined_of_idle hinv hzero
  have hgrow : ∀ key, Origin tr key → Origin (tr ++ [x]) key := by
    rintro key ⟨earlier, e, later, htr, hop, hpre, hvouched, hlater⟩
    refine ⟨earlier, e, later ++ [x], ?_, hop, hpre, hvouched, ?_⟩
    · rw [htr, List.append_assoc, List.cons_append]
    · exact List.forall_mem_append.mpr ⟨hlater, List.forall_mem_singleton.mpr hzero⟩
  exact ⟨fun lib hlib => hgrow _ (h.libraries lib hlib),
    fun cfg hcfg => hgrow _ (h.configured cfg hcfg),
    fun dev sess d hdev => hgrow _ (h.devices dev sess d hdev)⟩

/-- What a step reads has its origin in this step. -/
theorem origin_of_mentioned {tr : List FileEntry} {x : FileEntry}
    (hop : x.label.op = .sessionAlloc true) (hzero : x.pre.count = 0) (key : Nat × List UInt8)
    (h : Mentioned x.label.call.env key) : Origin (tr ++ [x]) key :=
  ⟨tr, x, [], rfl, hop, hzero, vouched_of_mentioned h, fun _ hx => absurd hx List.not_mem_nil⟩

/-- The driver in a run on a machine with files. -/
def driverOf (e : FileEntry) : List DriverEntry := [⟨e.pre, e.label.call, e.out, e.post⟩]

/-- Such a run is a run of the driver. -/
theorem fileRuns_driver {addr : DeviceHandle → Nat} {tr : List FileEntry} {s : DriverState}
    (hrun : FileRuns addr tr s) : DriverRuns addr (tr.flatMap driverOf) s := by
  refine runs_flatMap (f := id) (C := fun _ => True) (fun t c out u _ hstep => ?_) hrun
    (fun _ _ => trivial)
  have hone : driverStep addr t c.call = .ok (out, u) := hstep
  exact Runs.snoc Runs.refl hone

/-- The invariant of the driver holds behind it. -/
theorem fileRuns_inv {addr : DeviceHandle → Nat} {tr : List FileEntry} {s : DriverState}
    (hrun : FileRuns addr tr s) (hrule : Respects (fun s c => FreesJobsFirst s c.call) tr) :
    DriverInv s := by
  refine (driverRuns_keeps (fileRuns_driver hrun) (fun x hx => ?_)).inv
  rcases List.mem_flatMap.mp hx with ⟨e, he, hone⟩
  rw [List.mem_singleton.mp hone]
  exact hrule e he

/-- Behind every run the driver knows only libraries with an origin. The induction is
    on the run. -/
theorem fileRuns_known {addr : DeviceHandle → Nat} {tr : List FileEntry} {s : DriverState}
    (hrun : FileRuns addr tr s) (hrule : Respects (fun s c => FreesJobsFirst s c.call) tr) :
    Confined (Origin tr) s := by
  refine runs_invariant (P := fun tr s => Confined (Origin tr) s) hrun hrule ?_ ?_
  · exact confined_of_idle driverInv_initial rfl
  · intro tr t c out u hr hrule hP _ hstep
    have hgrown := confined_grown (x := ⟨t, c, out, u⟩) (fileRuns_inv hr hrule) hP
    exact driverMove_confined (driverStep_move hstep) hgrown
      (origin_of_mentioned (x := ⟨t, c, out, u⟩))

/-- Whatever happens outside the driver in a run of clients that free jobs before
    their session, and whatever becomes of the files, it is about a library that was
    named in a configuration inside an allowed directory, when the driver last had
    no session. -/
theorem fileRuns_confined (addr : DeviceHandle → Nat) (before after : List FileEntry)
    (e : FileEntry) (s : DriverState) (hrun : FileRuns addr (before ++ e :: after) s)
    (hrule : Respects (fun s c => FreesJobsFirst s c.call) (before ++ e :: after)) (event : Event)
    (hevent : event ∈ e.out.events) :
    ∃ key, event.about key ∧ Origin (before ++ [e]) key := by
  rcases runs_at hrun with ⟨hbefore, hstep, _⟩
  have hrule' := (respects_append.mp hrule).1
  have hknown := confined_grown (fileRuns_inv hbefore hrule') (fileRuns_known hbefore hrule')
  have hevents := driverMove_confines (driverStep_move hstep) hknown origin_of_mentioned
  rcases hevents event hevent with ⟨key, horigin, habout⟩
  exact ⟨key, habout, horigin⟩

/-! ## A configuration that is replaced -/

/-- A machine with a configuration in the working directory. -/
def sampleFiles : FileEnv where
  qdmiConf := none
  home := some (ascii "/h")
  currentPath := .ok (ascii "/w")
  canonical path :=
    if path = ascii "/w" then .ok path
    else if path = ascii "qdmi.conf" then .ok (ascii "/w/qdmi.conf")
    else .error .filesystemError
  read path := if path = ascii "/w/qdmi.conf" then some sampleConfig else none
  canonical_normal path resolved h := by
    have hproper : ∀ name ∈ [ascii "w", ascii "qdmi.conf"], Paths.Proper 47 46 name := by
      simp only [List.forall_mem_cons]
      exact ⟨⟨by decide, by decide, by decide, by decide⟩,
        ⟨by decide, by decide, by decide, by decide⟩, fun _ h => absurd h List.not_mem_nil⟩
    split at h
    · rename_i hpath
      rw [Except.ok.injEq] at h
      rw [← h, hpath]
      exact ⟨[ascii "w"], rfl, fun name hname => hproper name (List.mem_cons.mpr (Or.inl
        (List.mem_singleton.mp hname)))⟩
    split at h
    · rw [Except.ok.injEq] at h
      rw [← h]
      exact ⟨_, rfl, hproper⟩
    · exact absurd h (by simp only [reduceCtorEq, not_false_eq_true])

/-- The same machine when the configuration is gone. -/
def emptiedFiles : FileEnv where
  qdmiConf := sampleFiles.qdmiConf
  home := sampleFiles.home
  currentPath := sampleFiles.currentPath
  canonical := sampleFiles.canonical
  read _ := none
  canonical_normal := sampleFiles.canonical_normal

/-- A session that is opened when the configuration is gone. -/
def emptiedCalls : List FileCall := [
  ⟨.sessionAlloc true, sampleEnv, sampleFiles⟩,
  ⟨.sessionSetParameter (some 0) SessionParameter.token 2 (some (fun _ => 7)), sampleEnv,
    emptiedFiles⟩,
  ⟨.sessionInit (some 0), sampleEnv, emptiedFiles⟩]

/-- Its devices are those of the library that was named before. -/
theorem fileRuns_confined_sample : ∃ before e s event, FileRuns (fun _ => 0) (before ++ [e]) s ∧
    event ∈ e.out.events ∧ event = .call (0, [65]) (.deviceSessionAlloc .success (some 0)) ∧
    ∃ key, event.about key ∧ Origin (before ++ [e]) key := by
  have hplay : (play (fileStep (fun _ => 0)) {} emptiedCalls).toOption.bind
      (fun p => p.1.getLast?.bind (fun e => e.out.events.head?)) =
      some (.call (0, [65]) (.deviceSessionAlloc .success (some 0))) := rfl
  rcases runs_of_evaluated hplay with ⟨tr, s, hrun, hlabels, hv⟩
  rcases Option.bind_eq_some_iff.mp hv with ⟨e, he, hhead⟩
  rcases List.getLast?_eq_some_iff.mp he with ⟨before, rfl⟩
  have hrule : Respects (fun s c => FreesJobsFirst s c.call) (before ++ [e]) := by
    intro x hx h hop
    have hmem : x.label ∈ emptiedCalls := hlabels ▸ List.mem_map_of_mem hx
    have hnever : ∀ c ∈ emptiedCalls, c.op ≠ .sessionFree (some h) := by simp [emptiedCalls]
    exact absurd hop (hnever _ hmem)
  have hevent := List.mem_of_head? hhead
  exact ⟨before, e, s, _, hrun, hevent, rfl,
    fileRuns_confined (fun _ => 0) before [] e s hrun hrule _ hevent⟩

end Driver

end Qdmi
