import Qdmi.Lib.Custody
import Qdmi.Theory.Driver.Session

/-!
# What the Driver Owns

The driver as a client of the device libraries, in terms of deals.

`deals` reads the calls a library receives as deals with a provider: a loaded
library is told apart by its file handle and its prefix, and its resources are
the device sessions and device jobs it hands out. `owned` is the other side,
read off the driver state: the libraries in its list are open, and what it
holds is the device session of every device of a live session and the device
job of every live job. The theorems about runs say that the two agree.

Library files are counted apart from the libraries. A file is opened each time
a line of the configuration names it, and closed again at once if the library
turns out to be loaded.

The loop over the lines of the configuration can end early at any line. What
it has opened by then is in its list of libraries, except for the library of
that line, which the line itself closes.

## Main definitions

* `Resource`, `deals`: Library calls as deals.
* `openFiles`, `filesOf`: How often a library file is open.
* `owned`: What the driver owns.
* `booksOf`: Some libraries are open and nothing is held.
* `LoadingInv`: What holds between two lines of the configuration.
* `LibraryLoaded`: The ways out of loading a library.

## Theorems

* `booksOf_opens`, `booksOf_closes`, `leads_unloadAll`: Opening and closing
  libraries.
* `libraryLoad_cases`: Loading a library ends in one of these ways.
* `libraryLoad_inv`, `configureLine_inv`: One line keeps the invariant.
* `initializeDriver_inv`: What initializing the driver leaves behind.
-/

namespace Qdmi

namespace Driver

/-- What a library hands out. -/
inductive Resource where
  | session (handle : Nat)
  | job (handle : Nat)
  deriving DecidableEq

/-- A deal of the driver with a library. -/
abbrev LibraryDeal := Deal (Nat × List UInt8) Resource

/-- A library call as deals. -/
def LibraryCall.deals (key : Nat × List UInt8) : LibraryCall → List LibraryDeal
  | .deviceInitialize status => [.opens key (decide (status = .success))]
  | .deviceFinalize => [.closes key]
  | .deviceSessionAlloc _ none => [.calls key]
  | .deviceSessionAlloc _ (some h) => [.takes key (.session h)]
  | .deviceSessionSetParameter h _ _ _ => [.uses key (.session h)]
  | .deviceSessionInit h _ => [.uses key (.session h)]
  | .deviceSessionFree h => [.returns key (.session h)]
  | .deviceSessionCreateDeviceJob h _ none => [.uses key (.session h)]
  | .deviceSessionCreateDeviceJob h _ (some j) => [.uses key (.session h), .takes key (.job j)]
  | .deviceSessionRetrieveDeviceJobById h _ _ none => [.uses key (.session h)]
  | .deviceSessionRetrieveDeviceJobById h _ _ (some j) =>
    [.uses key (.session h), .takes key (.job j)]
  | .deviceJobFree j => [.returns key (.job j)]
  | .deviceJob j _ => [.uses key (.job j)]
  | .deviceQuery h _ => [.uses key (.session h)]

/-- The deals of an event; opening and closing a file is none. -/
def Event.deals : Event → List LibraryDeal
  | .dlopen _ => []
  | .dlclose _ => []
  | .call key c => c.deals key

/-- The deals of a list of events. -/
def deals (events : List Event) : List LibraryDeal := events.flatMap Event.deals

@[simp]
theorem deals_append (events events' : List Event) :
    deals (events ++ events') = deals events ++ deals events' := List.flatMap_append

/-- How an event changes the number of times a library file is open. -/
def Event.files (handle : Nat) : Event → Int
  | .dlopen h => if h = handle then 1 else 0
  | .dlclose h => if h = handle then -1 else 0
  | .call _ _ => 0

/-- How often a library file is open after some events. -/
def openFiles (handle : Nat) (events : List Event) : Int :=
  (events.map (Event.files handle)).sum

@[simp]
theorem openFiles_append (handle : Nat) (events events' : List Event) :
    openFiles handle (events ++ events') = openFiles handle events + openFiles handle events' := by
  rw [openFiles, List.map_append, List.sum_append, openFiles, openFiles]

/-- The files a list of libraries keeps open. -/
def filesOf (handle : Nat) (libraries : List Library) : Int :=
  (libraries.map (fun lib => Event.files handle (.dlopen lib.handle))).sum

theorem filesOf_append (handle : Nat) (libraries libraries' : List Library) :
    filesOf handle (libraries ++ libraries') =
      filesOf handle libraries + filesOf handle libraries' := by
  rw [filesOf, List.map_append, List.sum_append, filesOf, filesOf]

/-- Some libraries are open and nothing is held. -/
def booksOf (libraries : List Library) : Books (Nat × List UInt8) Resource where
  opened key := key ∈ libraries.map Library.key
  held _ _ := False

/-- What the driver owns. -/
def owned (s : DriverState) : Books (Nat × List UInt8) Resource where
  opened key := key ∈ s.libraries.map Library.key
  held key
    | .session h => ∃ dev d, deviceOf s dev = some d ∧ key = d.library.key ∧ h = d.deviceSession
    | .job j => ∃ i jb d, s.jobs.get? i = some jb ∧ deviceOf s jb.device = some d ∧
        key = d.library.key ∧ j = jb.deviceJob

/-! ## Loading -/

theorem deals_unloadAll (libraries : List Library) :
    deals (unloadAll libraries) = (libraries.map Library.key).map .closes := by
  induction libraries with
  | nil => rfl
  | cons lib rest ih =>
      have hcons : unloadAll (lib :: rest) = unload lib ++ unloadAll rest := rfl
      rw [hcons, deals_append, ih]
      rfl

theorem openFiles_unloadAll (handle : Nat) (libraries : List Library) :
    openFiles handle (unloadAll libraries) = - filesOf handle libraries := by
  induction libraries with
  | nil => rfl
  | cons lib rest ih =>
      have hcons : unloadAll (lib :: rest) = unload lib ++ unloadAll rest := rfl
      have hfiles : filesOf handle (lib :: rest) =
          Event.files handle (.dlopen lib.handle) + filesOf handle rest := rfl
      -- Unloading closes the one file the library has open.
      have hunload : openFiles handle (unload lib) = - Event.files handle (.dlopen lib.handle) := by
        by_cases heq : lib.handle = handle
        · simp only [openFiles, unload, Event.files, List.map_cons, List.map_nil, List.sum_cons,
            List.sum_nil, if_pos heq]
          omega
        · simp only [openFiles, unload, Event.files, List.map_cons, List.map_nil, List.sum_cons,
            List.sum_nil, if_neg heq]
          omega
      rw [hcons, openFiles_append, ih, hfiles, hunload]
      omega

/-- A file that is opened and closed again, with calls in between. -/
theorem openFiles_transient (handle file : Nat) (calls : List Event)
    (hcalls : openFiles handle calls = 0) :
    openFiles handle (.dlopen file :: (calls ++ [.dlclose file])) = 0 := by
  have hcons : openFiles handle (.dlopen file :: (calls ++ [.dlclose file])) =
      Event.files handle (.dlopen file) + openFiles handle (calls ++ [.dlclose file]) := rfl
  have hlast : openFiles handle [.dlclose file] = Event.files handle (.dlclose file) :=
    Int.add_zero _
  rw [hcons, openFiles_append, hcalls, hlast]
  by_cases heq : file = handle
  · simp only [Event.files, if_pos heq]
    omega
  · simp only [Event.files, if_neg heq]
    omega

/-- Unloading leaves nothing open. -/
theorem leads_unloadAll {libraries : List Library} (hnodup : (libraries.map Library.key).Nodup) :
    Leads (booksOf libraries) (deals (unloadAll libraries)) .empty := by
  rw [deals_unloadAll]
  have hleads := leads_closes (b := booksOf libraries) _ hnodup
    (fun key hkey => ⟨hkey, fun _ hf => hf⟩)
  have hempty : { booksOf libraries with
      opened := fun key => (booksOf libraries).opened key ∧ key ∉ libraries.map Library.key } =
      (Books.empty : Books (Nat × List UInt8) Resource) := by
    ext key
    · exact ⟨fun h => h.2 h.1, fun h => h.elim⟩
    · exact Iff.rfl
  rwa [hempty] at hleads

/-- What holds between two lines of the configuration. -/
structure LoadingInv (l : Loading) : Prop where
  keys : (l.libraries.map Library.key).Nodup
  configured : ∀ cfg ∈ l.configuredDevices, cfg.library ∈ l.libraries
  leads : Leads .empty (deals l.events) (booksOf l.libraries)
  files : ∀ handle, openFiles handle l.events = filesOf handle l.libraries

/-- Events that leave the books and the files as they are. -/
theorem loadingInv_log {l : Loading} (hinv : LoadingInv l) {events : List Event}
    (hleads : Leads (booksOf l.libraries) (deals events) (booksOf l.libraries))
    (hfiles : ∀ handle, openFiles handle events = 0) : LoadingInv (l.log events) := by
  refine ⟨hinv.keys, hinv.configured, ?_, fun handle => ?_⟩
  · rw [Loading.log, deals_append]
    exact leads_append hinv.leads hleads
  · rw [Loading.log, openFiles_append, hfiles handle, hinv.files handle]
    exact Int.add_zero _

/-- Opening a library that is not open, successfully or not. -/
theorem booksOf_opens {libraries : List Library} {lib : Library} (status : Status)
    (hnew : lib.key ∉ libraries.map Library.key) :
    (booksOf libraries).Allows (.opens lib.key (decide (status = .success))) ∧
      (booksOf libraries).after (.opens lib.key (decide (status = .success))) =
        if status = .success then booksOf (libraries ++ [lib]) else booksOf libraries := by
  refine ⟨hnew, ?_⟩
  by_cases hstatus : status = .success
  · rw [if_pos hstatus, decide_eq_true hstatus]
    ext key
    · simp only [Books.after, booksOf, List.map_append, List.map_singleton, List.mem_append,
        List.mem_singleton, and_true]
    · exact Iff.rfl
  · rw [if_neg hstatus, decide_eq_false hstatus]
    ext key
    · exact or_iff_left (fun hc => absurd hc.2 (by decide))
    · exact Iff.rfl

/-- Closing the library opened last. -/
theorem booksOf_closes {libraries : List Library} {lib : Library}
    (hnew : lib.key ∉ libraries.map Library.key) :
    (booksOf (libraries ++ [lib])).Allows (.closes lib.key) ∧
      (booksOf (libraries ++ [lib])).after (.closes lib.key) = booksOf libraries := by
  have hmem : ∀ key, key ∈ (libraries ++ [lib]).map Library.key ↔
      key ∈ libraries.map Library.key ∨ key = lib.key := by
    intro key
    rw [List.map_append, List.map_singleton, List.mem_append, List.mem_singleton]
  refine ⟨⟨(hmem lib.key).mpr (Or.inr rfl), fun _ hf => hf⟩, ?_⟩
  ext key
  · constructor
    · rintro ⟨hin, hne⟩
      exact ((hmem key).mp hin).resolve_right hne
    · exact fun hin => ⟨(hmem key).mpr (Or.inl hin), fun heq => hnew (heq ▸ hin)⟩
  · exact Iff.rfl

/-- What `QDMI_library_load` leaves behind, with a case for each of its ways
    out. An exception can come before the library is opened, with the file open,
    from the library's own initialization, and after it. -/
inductive LibraryLoaded (env : DriverEnv) (l : Loading) (libName libPrefix : List UInt8)
    (status : Status) : Loading → Except Exn Library → Prop
  | unopened (e : Exn) : LibraryLoaded env l libName libPrefix status l (.error e)
  | closed (handle : Nat) (e : Exn) : LibraryLoaded env l libName libPrefix status
      (l.log [.dlopen handle, .dlclose handle]) (.error e)
  | found {library : Library} (hopen : env.dlopen libName = some library.handle)
      (hlib : library.libPrefix = libPrefix) (hmem : library ∈ l.libraries) :
      LibraryLoaded env l libName libPrefix status
        (l.log [.dlopen library.handle, .dlclose library.handle]) (.ok library)
  | refused {library : Library} (hnew : library.key ∉ l.libraries.map Library.key)
      (hstatus : status ≠ .success) (e : Exn) : LibraryLoaded env l libName libPrefix status
        (l.log [.dlopen library.handle, .call library.key (.deviceInitialize status),
          .dlclose library.handle]) (.error e)
  | unloaded {library : Library} (hnew : library.key ∉ l.libraries.map Library.key)
      (hstatus : status = .success) (e : Exn) : LibraryLoaded env l libName libPrefix status
        (l.log ([.dlopen library.handle, .call library.key (.deviceInitialize status)] ++
          unload library)) (.error e)
  | added {library : Library} (hopen : env.dlopen libName = some library.handle)
      (hlib : library.libPrefix = libPrefix)
      (hnew : library.key ∉ l.libraries.map Library.key) (hstatus : status = .success) :
      LibraryLoaded env l libName libPrefix status
        { l.log [.dlopen library.handle, .call library.key (.deviceInitialize status)] with
          libraries := l.libraries ++ [library] } (.ok library)

theorem libraryLoad_cases {env : DriverEnv} {k : Nat} {l l' : Loading}
    {libName libPrefix : List UInt8} {r : Except Exn Library}
    (h : libraryLoad env k l libName libPrefix = (l', r)) :
    LibraryLoaded env l libName libPrefix (env.status k) l' r := by
  unfold libraryLoad at h
  split at h
  · cases h
    exact .unopened _
  split at h
  · cases h
    exact .unopened _
  rename_i handle hdl
  split at h
  · rename_i loaded hfind
    have hkey := List.find?_some hfind
    rw [beq_iff_eq, Library.key, Prod.mk.injEq] at hkey
    cases h
    rw [← hkey.1]
    exact .found (by rw [hdl, hkey.1]) hkey.2 (List.mem_of_find?_eq_some hfind)
  rename_i hfind
  split at h
  · cases h
    exact .closed handle _
  split at h
  · cases h
    exact .closed handle _
  dsimp only at h
  -- From here on the library is a new one, or it would have been found.
  have hnew : (resolved env handle libPrefix).key ∉ l.libraries.map Library.key := by
    intro hmem
    rcases List.mem_map.mp hmem with ⟨loaded, hloaded, heq⟩
    have hno := List.find?_eq_none.mp hfind loaded hloaded
    rw [heq] at hno
    exact hno (beq_self_eq_true _)
  split at h
  · rename_i hstatus
    cases h
    exact .refused hnew hstatus _
  rename_i hstatus
  split at h
  · cases h
    exact .unloaded hnew (not_not.mp hstatus) _
  · cases h
    exact .added hdl rfl hnew (not_not.mp hstatus)

/-- `QDMI_library_load` keeps the invariant, and the library it returns is in
    the list. The cases are the ways out of the function. -/
theorem libraryLoad_inv {env : DriverEnv} {k : Nat} {l l' : Loading}
    {libName libPrefix : List UInt8} {r : Except Exn Library}
    (h : libraryLoad env k l libName libPrefix = (l', r)) (hinv : LoadingInv l) :
    LoadingInv l' ∧ l'.configuredDevices = l.configuredDevices ∧
      (∀ lib ∈ l.libraries, lib ∈ l'.libraries) ∧ ∀ lib, r = .ok lib → lib ∈ l'.libraries := by
  -- An exit with an exception that leaves the books as they were.
  have hthrow : ∀ {m : Loading} {e : Exn}, LoadingInv m →
      m.configuredDevices = l.configuredDevices → m.libraries = l.libraries →
      LoadingInv m ∧ m.configuredDevices = l.configuredDevices ∧
        (∀ lib ∈ l.libraries, lib ∈ m.libraries) ∧
        ∀ lib, (.error e : Except Exn Library) = .ok lib → lib ∈ m.libraries := by
    intro m e hm hconf hlibs
    rw [hlibs]
    exact ⟨hm, hconf, fun _ hlib => hlib, fun _ hr => absurd hr (by simp only [reduceCtorEq,
      not_false_eq_true])⟩
  have hfile : ∀ handle, LoadingInv (l.log [.dlopen handle, .dlclose handle]) :=
    fun handle => loadingInv_log hinv (leads_nil _) (fun h => openFiles_transient h handle [] rfl)
  cases libraryLoad_cases h with
  | unopened e => exact hthrow hinv rfl rfl
  | closed handle e => exact hthrow (hfile handle) rfl rfl
  | @found library _ _ hmem =>
      refine ⟨hfile library.handle, rfl, fun _ hlib => hlib, fun lib hr => ?_⟩
      rw [← Except.ok.inj hr]
      exact hmem
  | @refused library hnew hstatus e =>
      rcases booksOf_opens (env.status k) hnew with ⟨hallow, hafter⟩
      rw [if_neg hstatus] at hafter
      refine hthrow (loadingInv_log hinv ?_ ?_) rfl rfl
      · refine leads_cons hallow ?_
        rw [hafter]
        exact leads_nil _
      · exact fun h => openFiles_transient h library.handle [_] rfl
  | @unloaded library hnew hstatus e =>
      -- The vector could not take the library, and it is finalized again.
      rcases booksOf_opens (env.status k) hnew with ⟨hallow, hafter⟩
      rcases booksOf_closes hnew with ⟨hallow', hafter'⟩
      rw [if_pos hstatus] at hafter
      refine hthrow (loadingInv_log hinv ?_ ?_) rfl rfl
      · refine leads_cons hallow ?_
        rw [hafter]
        refine leads_cons hallow' ?_
        rw [hafter']
        exact leads_nil _
      · rw [unload]
        exact fun h => openFiles_transient h library.handle [_, _] rfl
  | @added library _ _ hnew hstatus =>
      rcases booksOf_opens (env.status k) hnew with ⟨hallow, hafter⟩
      rw [if_pos hstatus] at hafter
      refine ⟨⟨?_, ?_, ?_, fun h => ?_⟩, rfl, fun lib hlib => List.mem_append_left _ hlib,
        fun lib hr => ?_⟩
      · rw [List.map_append, List.map_singleton]
        exact List.Nodup.append hinv.keys (List.nodup_singleton _)
          (List.disjoint_singleton.mpr hnew)
      · exact fun cfg hcfg => List.mem_append_left _ (hinv.configured cfg hcfg)
      · rw [Loading.log, deals_append]
        refine leads_append hinv.leads (leads_cons hallow ?_)
        rw [hafter]
        exact leads_nil _
      · have hlast : filesOf h [library] = openFiles h [.dlopen library.handle] := rfl
        rw [filesOf_append, hlast, Loading.log, openFiles_append, hinv.files h]
        rfl
      · rw [← Except.ok.inj hr]
        exact List.mem_append_right _ (List.mem_singleton.mpr rfl)

/-- One line of the configuration keeps the invariant, however it ends. -/
theorem configureLine_inv {env : DriverEnv} {k : Nat} {line : List UInt8} {l l' : Loading}
    {r : Option Abort} (h : configureLine env k line l = (l', r)) (hinv : LoadingInv l) :
    LoadingInv l' ∧ ∀ abort, r = some abort → abortStatus abort ≠ .success := by
  have hend : ∀ {m : Loading} {r' : Option Abort}, LoadingInv m →
      (∀ abort, r' = some abort → abortStatus abort ≠ .success) → (m, r') = (l', r) →
      LoadingInv l' ∧ ∀ abort, r = some abort → abortStatus abort ≠ .success := by
    intro m r' hm hr' heq
    rw [Prod.mk.injEq] at heq
    rw [← heq.1, ← heq.2]
    exact ⟨hm, hr'⟩
  have hthrown : ∀ {e : Exn} {abort : Abort}, some (Abort.thrown e) = some abort →
      abortStatus abort ≠ .success := by
    intro e abort heq
    rw [← Option.some.inj heq]
    cases e <;> decide
  have hreturned : ∀ {abort : Abort}, some (Abort.returned .errorFatal) = some abort →
      abortStatus abort ≠ .success := by
    intro abort heq
    rw [← Option.some.inj heq]
    decide
  unfold configureLine at h
  split at h
  · exact hend hinv (fun _ hr => absurd hr (by simp only [reduceCtorEq, not_false_eq_true])) h
  split at h
  · exact hend hinv (fun _ => hthrown) h
  split at h
  · rename_i libName libPrefix deviceId hfields
    split at h
    · exact hend hinv (fun _ => hthrown) h
    split at h
    · exact hend hinv (fun _ => hreturned) h
    rcases hload : libraryLoad env k l libName libPrefix with ⟨m, e | library⟩
    · simp only [hload] at h
      exact hend (libraryLoad_inv hload hinv).1 (fun _ => hthrown) h
    · simp only [hload] at h
      rcases libraryLoad_inv hload hinv with ⟨hm, hconf, hmono, hlib⟩
      split at h
      · exact hend hm (fun _ => hthrown) h
      · rw [Prod.mk.injEq] at h
        rw [← h.1, ← h.2]
        -- The device that is added names the library that was just loaded.
        refine ⟨⟨hm.keys, fun cfg hcfg => ?_, hm.leads, hm.files⟩,
          fun _ hr => absurd hr (by simp only [reduceCtorEq, not_false_eq_true])⟩
        rcases List.mem_append.mp hcfg with hold | hnew
        · exact hm.configured cfg hold
        · rw [List.mem_singleton.mp hnew]
          exact hlib library rfl
  · exact hend hinv (fun _ => hreturned) h

theorem booksOf_nil : booksOf [] = Books.empty := by
  ext key
  · exact iff_of_false List.not_mem_nil (fun hf => hf)
  · exact Iff.rfl

/-- Unloading everything keeps the invariant of what is left, which is nothing. -/
theorem loadingInv_unloadAll {l : Loading} (hinv : LoadingInv l) :
    LoadingInv { events := l.events ++ unloadAll l.libraries } := by
  refine ⟨List.nodup_nil, fun _ hcfg => absurd hcfg List.not_mem_nil, ?_, fun handle => ?_⟩
  · rw [deals_append, booksOf_nil]
    exact leads_append hinv.leads (leads_unloadAll hinv.keys)
  · rw [openFiles_append, openFiles_unloadAll, hinv.files handle]
    exact Int.add_right_neg _

/-- Before the first line nothing is open. -/
theorem loadingInv_start : LoadingInv {} := by
  refine ⟨List.nodup_nil, fun _ hcfg => absurd hcfg List.not_mem_nil, ?_, fun _ => rfl⟩
  rw [booksOf_nil]
  exact leads_nil _

/-- Initializing the driver leaves the new libraries open, or nothing. -/
theorem initializeDriver_inv {env : DriverEnv} {events : List Event}
    {r : Except Status (List Library × List Configured)} (h : initializeDriver env = (events, r)) :
    (∀ status, r = .error status → status ≠ .success ∧ LoadingInv { events := events }) ∧
    ∀ libraries configuredDevices, r = .ok (libraries, configuredDevices) →
      LoadingInv { libraries, configuredDevices, events } := by
  have hfail : ∀ {status : Status}, status ≠ .success →
      (([], .error status) : List Event × Except Status (List Library × List Configured)) =
        (events, r) →
      (∀ status, r = .error status → status ≠ .success ∧ LoadingInv { events := events }) ∧
      ∀ libraries configuredDevices, r = .ok (libraries, configuredDevices) →
        LoadingInv { libraries, configuredDevices, events } := by
    intro status hne heq
    rw [Prod.mk.injEq] at heq
    rw [← heq.1, ← heq.2]
    refine ⟨fun status' hs => ⟨?_, loadingInv_start⟩, fun _ _ hs => absurd hs
      (by simp only [reduceCtorEq, not_false_eq_true])⟩
    rwa [← Except.error.inj hs]
  unfold initializeDriver at h
  split at h
  · rename_i e _
    exact hfail (by cases e <;> decide) h
  · exact hfail (by decide) h
  · exact hfail (by decide) h
  rename_i content _
  rcases hloop : configureLines env 0 (readLines env.mem 0 (configLines content)) {} with ⟨l, r'⟩
  -- The invariant rule of the loop: both exits leave it in place.
  rcases loopFrom_induct (P := fun _ l => LoadingInv l)
    (Q := fun l abort => LoadingInv l ∧ abortStatus abort ≠ .success)
    (fun _ _ _ _ _ hP _ hb => (configureLine_inv hb hP).1)
    (fun _ _ _ _ _ abort hP _ hb =>
      ⟨(configureLine_inv hb hP).1, (configureLine_inv hb hP).2 abort rfl⟩)
    loadingInv_start hloop with ⟨hP, hQ⟩
  rcases r' with _ | abort
  · simp only [hloop, Prod.mk.injEq] at h
    have hl := hP rfl
    rw [← h.1, ← h.2]
    refine ⟨fun _ hs => absurd hs (by simp only [reduceCtorEq, not_false_eq_true]),
      fun libraries configuredDevices hs => ?_⟩
    rw [Except.ok.injEq, Prod.mk.injEq] at hs
    rw [← hs.1, ← hs.2]
    exact hl
  · simp only [hloop, Prod.mk.injEq] at h
    rcases hQ abort rfl with ⟨hl, hne⟩
    rw [← h.1, ← h.2]
    refine ⟨fun status hs => ?_, fun _ _ hs => absurd hs (by simp only [reduceCtorEq,
      not_false_eq_true])⟩
    rw [← Except.error.inj hs]
    exact ⟨hne, loadingInv_unloadAll hl⟩

end Driver

end Qdmi
