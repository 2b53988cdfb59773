import Mathlib.Data.List.Forall2
import Qdmi.Lib.Fields
import Qdmi.Theory.Driver.Discipline
import Qdmi.Theory.Driver.Reading

/-!
# Which Configurations Are Configurable

When every library can be loaded and memory lasts, a configuration is accepted if
every line that counts has three fields and no ID occurs twice, and then the driver
has configured just these lines.

The source reads a line with three extractions from a stream, a fourth that
has to fail and an insertion into a set, one behind the other and each only if
the ones before it went well. `extractEntry` is the sequence of extractions,
and `extractEntry_eq_some_iff` says that together they accept the lines made
of three fields. With memory these are the entries that are read
(`readEntries_of_mem`), so the condition for success becomes one on the text
(`configurable_iff`).

What is configured is an induction over the lines. An accepted file has gone
through `ConfiguredInv`, which keeps the entries side by side with the devices. It
also counts the initializations of every library, so that a library which is found
again is known not to be initialized again.

## Main definitions

* `extractEntry`: The fields of a line, as the source reads them.
* `ThreeFields`: The well-formed lines.
* `entryOf`, `entries`: The entries of a configuration.
* `Loads`: All libraries a configuration names can be loaded.
* `Configures`: A device is configured as an entry says.
* `SharesLibrary`: Two devices have the same loaded library.
* `ConfiguredInv`: What holds between two lines.
* `ConfiguredAs`: What an accepted configuration has configured.

## Theorems

* `extractEntry_eq_some_iff`, `entryOf_eq_some_iff`: What is read from a line.
* `readEntry_of_mem`, `readEntries_of_mem`: What is read with memory.
* `configurable_iff`: Which texts are accepted with memory.
* `libraryLoad_done`: Loading a library.
* `configureLine_configured`: One line keeps the invariant.
* `initializeDriver_configures`: Which files are accepted, and as what.
-/

namespace Qdmi

namespace Driver

/-! ## Lines -/

/-- The extractions of `QDMI_initialize_driver` on a line: three fields, and
    then the stream has to be at its end. -/
def extractEntry (line : List UInt8) : Option ConfigEntry :=
  match nextField isSpace line with
  | none => none
  | some (libName, rest) =>
    match nextField isSpace rest with
    | none => none
    | some (libPrefix, rest) =>
      match nextField isSpace rest with
      | none => none
      | some (id, rest) =>
        match nextField isSpace rest with
        | none => some { libName, libPrefix, id }
        | some _ => none

/-- A line is made of three fields, with white space between them and possibly
    around them. -/
def ThreeFields (line : List UInt8) (e : ConfigEntry) : Prop :=
  Separated isSpace line [e.libName, e.libPrefix, e.id]

/-- The entry of a line, if it is relevant and well formed. -/
def entryOf (line : List UInt8) : Option ConfigEntry :=
  if line = [] ∨ line.head? = some 35 then none else extractEntry line

/-- The entries of a configuration, in its order. -/
def entries (content : List UInt8) : List ConfigEntry := (configLines content).filterMap entryOf

/-- The extractions read the fields of the line one by one. -/
theorem extractEntry_eq_some_iff {line : List UInt8} {e : ConfigEntry} :
    extractEntry line = some e ↔ configFields line = [e.libName, e.libPrefix, e.id] := by
  have hfields : configFields line = fields isSpace line := rfl
  rw [hfields, extractEntry, fields_nextField]
  rcases nextField isSpace line with _ | ⟨libName, rest⟩
  · exact iff_of_false (by simp only [reduceCtorEq, not_false_eq_true])
      (by simp only [reduceCtorEq, not_false_eq_true])
  dsimp only
  rw [fields_nextField rest]
  rcases nextField isSpace rest with _ | ⟨libPrefix, rest⟩
  · exact iff_of_false (by simp only [reduceCtorEq, not_false_eq_true])
      (by simp only [List.cons.injEq, reduceCtorEq, and_false, not_false_eq_true])
  dsimp only
  rw [fields_nextField rest]
  rcases nextField isSpace rest with _ | ⟨id, rest⟩
  · exact iff_of_false (by simp only [reduceCtorEq, not_false_eq_true])
      (by simp only [List.cons.injEq, reduceCtorEq, and_false, not_false_eq_true])
  dsimp only
  rw [fields_nextField rest]
  rcases nextField isSpace rest with _ | ⟨extra, rest⟩
  · -- The stream is at its end behind the third field.
    rcases e with ⟨a, b, c⟩
    simp only [Option.some.injEq, ConfigEntry.mk.injEq, List.cons.injEq, and_true]
  · exact iff_of_false (by simp only [reduceCtorEq, not_false_eq_true])
      (by simp only [List.cons.injEq, reduceCtorEq, and_false, not_false_eq_true])

/-- The lines that have an entry are the relevant ones made of three fields. -/
theorem entryOf_eq_some_iff {line : List UInt8} {e : ConfigEntry} :
    entryOf line = some e ↔ Relevant line ∧ ThreeFields line e := by
  rw [ThreeFields, ← fields_eq_iff]
  by_cases hskip : line = [] ∨ line.head? = some 35
  · rw [entryOf, if_pos hskip]
    refine iff_of_false (by simp only [reduceCtorEq, not_false_eq_true]) ?_
    rintro ⟨⟨hne, hhead⟩, _⟩
    rcases hskip with h | h
    · exact hne h
    · exact hhead h
  · rw [entryOf, if_neg hskip, extractEntry_eq_some_iff]
    push Not at hskip
    exact ⟨fun h => ⟨hskip, h⟩, fun h => h.2⟩

/-- With memory the entry that is read from a line is its entry. -/
theorem readEntry_of_mem {mem : Alloc} (hmem : ∀ i, mem i = true) (k : Nat) (line : List UInt8) :
    readEntry mem k line = entryOf line := by
  refine Option.ext (fun e => ?_)
  rw [readEntry_eq_some_iff, entryOf_eq_some_iff, lineFields_of_mem hmem, ThreeFields,
    ← fields_eq_iff]
  rfl

theorem readEntriesFrom_of_mem {mem : Alloc} (hmem : ∀ i, mem i = true)
    (lines : List (List UInt8)) :
    ∀ k, readEntriesFrom mem k lines = lines.filterMap entryOf := by
  induction lines with
  | nil => exact fun _ => rfl
  | cons line lines ih =>
      intro k
      rw [readEntriesFrom, readEntry_of_mem hmem, ih, List.filterMap_cons]
      rcases entryOf line with _ | e
      · rfl
      · rfl

/-- With memory the entries that are read are those of the text. -/
theorem readEntries_of_mem {mem : Alloc} (hmem : ∀ i, mem i = true) (content : List UInt8) :
    readEntries mem content = entries content := by
  rw [readEntries, readLines_of_mem hmem, readEntriesFrom_of_mem hmem, entries]

/-! ## Libraries -/

/-- A call that initializes the library with a given key. -/
def Event.initializes (key : Nat × List UInt8) : Event → Bool
  | .call k (.deviceInitialize _) => k == key
  | _ => false

/-- How `QDMI_library_load` returns a library: it finds one that is loaded, or
    it loads and initializes a new one. -/
theorem libraryLoad_done {env : DriverEnv} {k : Nat} {l l' : Loading}
    {libName libPrefix : List UInt8} {library : Library}
    (h : libraryLoad env k l libName libPrefix = (l', .ok library)) :
    env.dlopen libName = some library.handle ∧ library.libPrefix = libPrefix ∧
      ((library ∈ l.libraries ∧
          l' = l.log [.dlopen library.handle, .dlclose library.handle]) ∨
        (library.key ∉ l.libraries.map Library.key ∧
          l' = { l.log [.dlopen library.handle, .call library.key (.deviceInitialize .success)] with
            libraries := l.libraries ++ [library] })) := by
  have hcases := libraryLoad_cases h
  generalize hstatus : env.status k = status at hcases
  cases hcases with
  | found hopen hprefix hmem => exact ⟨hopen, hprefix, Or.inl ⟨hmem, rfl⟩⟩
  | added hopen hprefix hnew hdone =>
      rw [hdone]
      exact ⟨hopen, hprefix, Or.inr ⟨hnew, rfl⟩⟩

/-- All libraries a configuration names can be loaded: there is memory, the
    paths open, the symbols are there, and initializing a library succeeds. -/
structure Loads (env : DriverEnv) (content : List UInt8) : Prop where
  mem : ∀ k, env.mem k = true
  file : ∀ e ∈ entries content, ∃ handle, env.dlopen e.libName = some handle ∧
    ∀ sym ∈ requiredSymbols, env.dlsym handle (symbolName e.libPrefix sym) = true
  status : ∀ k, env.status k = .success

/-- When all libraries it names can be loaded, a configuration is accepted for its
    text. -/
theorem configurable_iff {env : DriverEnv} {content : List UInt8} (hloads : Loads env content) :
    (Configurable env content ∧ ((entries content).map ConfigEntry.id).Nodup) ↔
      (∀ line ∈ configLines content, Relevant line → ∃ e, ThreeFields line e) ∧
        ((entries content).map ConfigEntry.id).Nodup := by
  refine and_congr_left (fun hnodup => ?_)
  rw [Configurable, readLines_of_mem hloads.mem]
  constructor
  · intro hall line hline hrel
    rcases List.append_of_mem hline with ⟨before, after, hlines⟩
    rcases hall before line after hlines hrel with ⟨e, he, _⟩
    rw [readEntry_of_mem hloads.mem] at he
    exact ⟨e, (entryOf_eq_some_iff.mp he).2⟩
  · intro hform before line after hlines hrel
    have hline : line ∈ configLines content := by
      rw [hlines]
      exact List.mem_append_right _ List.mem_cons_self
    rcases hform line hline hrel with ⟨e, hthree⟩
    have hentry : entryOf line = some e := entryOf_eq_some_iff.mpr ⟨hrel, hthree⟩
    have hentries : entries content =
        before.filterMap entryOf ++ e :: after.filterMap entryOf := by
      rw [entries, hlines, List.filterMap_append, List.filterMap_cons_some hentry]
    have hmem : e ∈ entries content := by
      rw [hentries]
      exact List.mem_append_right _ List.mem_cons_self
    rcases hloads.file e hmem with ⟨handle, hopen, hsyms⟩
    refine ⟨e, (readEntry_of_mem hloads.mem _ _).trans hentry, hloads.mem _, hloads.mem _, ?_,
      ⟨hloads.mem _, handle, hopen, Or.inr ⟨hloads.mem _, hsyms, hloads.status _, hloads.mem _⟩⟩,
      hloads.mem _⟩
    -- An ID that is there already would occur twice.
    rw [readEntriesFrom_of_mem hloads.mem]
    rw [hentries, List.map_append, List.map_cons] at hnodup
    exact fun hold => (List.nodup_append.mp hnodup).2.2 _ hold _ List.mem_cons_self rfl

/-! ## All lines -/

/-- A device is configured as an entry says: with its ID, and with the library
    its path opens to and its prefix. -/
def Configures (env : DriverEnv) (e : ConfigEntry) (cfg : Configured) : Prop :=
  cfg.id = e.id ∧ env.dlopen e.libName = some cfg.library.handle ∧
    cfg.library.libPrefix = e.libPrefix

/-- What holds between two lines, of the lines that are done. -/
structure ConfiguredInv (env : DriverEnv) (done : List (List UInt8)) (l : Loading) : Prop where
  loading : LoadingInv l
  devices : List.Forall₂ (Configures env) (readEntriesFrom env.mem 0 done) l.configuredDevices
  initialized : ∀ key, l.events.countP (Event.initializes key) =
    if key ∈ l.libraries.map Library.key then 1 else 0

/-- Loading a library keeps the count of initializations, and the devices. -/
theorem libraryLoad_initialized {env : DriverEnv} {k : Nat} {l l' : Loading}
    {libName libPrefix : List UInt8} {library : Library}
    (h : libraryLoad env k l libName libPrefix = (l', .ok library))
    (hinit : ∀ key, l.events.countP (Event.initializes key) =
      if key ∈ l.libraries.map Library.key then 1 else 0) :
    (∀ key, l'.events.countP (Event.initializes key) =
      if key ∈ l'.libraries.map Library.key then 1 else 0) ∧
      l'.configuredDevices = l.configuredDevices := by
  rcases libraryLoad_done h with ⟨_, _, ⟨_, hl⟩ | ⟨hnew, hl⟩⟩
  · -- Opening the file of a loaded library once more initializes nothing.
    rw [hl]
    refine ⟨fun key => ?_, rfl⟩
    rw [Loading.log, List.countP_append, hinit key]
    rfl
  · rw [hl]
    refine ⟨fun key => ?_, rfl⟩
    dsimp only [Loading.log]
    rw [List.countP_append, hinit key, List.map_append, List.map_singleton]
    by_cases hkey : library.key = key
    · have hnone : key ∉ l.libraries.map Library.key := by rwa [hkey] at hnew
      rw [if_neg hnone, if_pos (List.mem_append_right _ (List.mem_singleton.mpr hkey.symm))]
      simp [Event.initializes, hkey]
    · have hsame : key ∈ l.libraries.map Library.key ++ [library.key] ↔
          key ∈ l.libraries.map Library.key := by
        rw [List.mem_append, List.mem_singleton]
        exact ⟨fun hor => hor.resolve_right (fun heq => hkey heq.symm), Or.inl⟩
      simp [Event.initializes, hkey, hsame]

/-- A line that is done keeps the invariant. -/
theorem configureLine_configured {env : DriverEnv} {done : List (List UInt8)}
    {line : List UInt8} {l l' : Loading} (h : configureLine env done.length line l = (l', none))
    (hinv : ConfiguredInv env done l) : ConfiguredInv env (done ++ [line]) l' := by
  have hloading := (configureLine_inv h hinv.loading).1
  rcases configureLine_done h with ⟨hskip, hl⟩ | ⟨e, m, library, hentry, _, hload, hl⟩
  · -- A line that is skipped has no entry and adds no device.
    refine ⟨hloading, ?_, hl ▸ hinv.initialized⟩
    rw [readEntriesFrom_snoc, readEntry_of_not_relevant hskip, Option.toList_none, List.append_nil,
      hl]
    exact hinv.devices
  · -- A line with an entry adds one device, behind the ones that are there.
    rcases libraryLoad_initialized hload hinv.initialized with ⟨hinit, hdevices⟩
    rcases libraryLoad_done hload with ⟨hopen, hprefix, _⟩
    refine ⟨hloading, ?_, ?_⟩
    · rw [readEntriesFrom_snoc, hentry, Option.toList_some, hl, hdevices]
      exact List.rel_append hinv.devices
        (List.Forall₂.cons ⟨rfl, hopen, hprefix⟩ List.Forall₂.nil)
    · rw [hl]
      exact hinit

/-! ## The driver -/

/-- Two devices have the same loaded library. -/
def SharesLibrary (libraries : List Library) (cfg cfg' : Configured) : Prop :=
  ∃ p : Nat, libraries[p]? = some cfg.library ∧ libraries[p]? = some cfg'.library

/-- What an accepted configuration has configured. -/
structure ConfiguredAs (env : DriverEnv) (content : List UInt8) (events : List Event)
    (libraries : List Library) (configuredDevices : List Configured) : Prop where
  devices : List.Forall₂ (Configures env) (entries content) configuredDevices
  loaded : (libraries.map Library.key).Nodup ∧ ∀ cfg ∈ configuredDevices, cfg.library ∈ libraries
  shared : ∀ (i j : Nat) e e' cfg cfg', (entries content)[i]? = some e →
    (entries content)[j]? = some e' → configuredDevices[i]? = some cfg →
    configuredDevices[j]? = some cfg' →
    (SharesLibrary libraries cfg cfg' ↔
      env.dlopen e.libName = env.dlopen e'.libName ∧ e.libPrefix = e'.libPrefix)
  initialized : ∀ library ∈ libraries, events.countP (Event.initializes library.key) = 1

/-- The device at an index is configured as the entry there says. -/
theorem configures_at {env : DriverEnv} {es : List ConfigEntry} {cfgs : List Configured}
    (h : List.Forall₂ (Configures env) es cfgs) {i : Nat} {e : ConfigEntry} {cfg : Configured}
    (he : es[i]? = some e) (hcfg : cfgs[i]? = some cfg) : Configures env e cfg := by
  rcases List.getElem?_eq_some_iff.mp he with ⟨hi, hei⟩
  rcases List.getElem?_eq_some_iff.mp hcfg with ⟨hi', hci⟩
  have hat := h.get hi hi'
  rwa [List.get_eq_getElem, List.get_eq_getElem, hei, hci] at hat

/-- What holds behind the last line is what an accepted configuration has. -/
theorem configuredInv_configuredAs {env : DriverEnv} {content : List UInt8} {l : Loading}
    (hmem : ∀ i, env.mem i = true) (hinv : ConfiguredInv env (configLines content) l) :
    ConfiguredAs env content l.events l.libraries l.configuredDevices := by
  have hdevices := hinv.devices
  rw [readEntriesFrom_of_mem hmem] at hdevices
  refine ⟨hdevices, ⟨hinv.loading.keys, hinv.loading.configured⟩, ?_, fun library hlib => ?_⟩
  · intro i j e e' cfg cfg' he he' hcfg hcfg'
    rcases configures_at hdevices he hcfg with ⟨_, hopen, hpre⟩
    rcases configures_at hdevices he' hcfg' with ⟨_, hopen', hpre'⟩
    have hlib := hinv.loading.configured cfg (List.mem_of_getElem? hcfg)
    have hlib' := hinv.loading.configured cfg' (List.mem_of_getElem? hcfg')
    rw [hopen, hopen', Option.some.injEq, ← hpre, ← hpre']
    constructor
    · rintro ⟨p, hp, hp'⟩
      rw [hp, Option.some.injEq] at hp'
      rw [hp']
      exact ⟨rfl, rfl⟩
    · rintro ⟨hhandle, hsame⟩
      -- No two loaded libraries have the same handle and prefix.
      have heq : cfg.library = cfg'.library :=
        List.inj_on_of_nodup_map hinv.loading.keys hlib hlib' (Prod.ext hhandle hsame)
      rcases List.getElem?_of_mem hlib with ⟨p, hp⟩
      exact ⟨p, hp, heq ▸ hp⟩
  · rw [hinv.initialized, if_pos (List.mem_map_of_mem hlib)]

theorem configuredInv_start (env : DriverEnv) : ConfiguredInv env [] {} :=
  ⟨loadingInv_start, List.Forall₂.nil, fun _ => rfl⟩

/-- When all libraries it names can be loaded, a configuration is accepted if
    and only if its relevant lines are made of three fields each and its IDs
    are distinct, and then it has configured its entries. -/
theorem initializeDriver_configures (env : DriverEnv) (content : List UInt8)
    (hconfig : env.config = .text content) (hloads : Loads env content) :
    ((∃ libraries configuredDevices,
        (initializeDriver env).2 = .ok (libraries, configuredDevices)) ↔
      (∀ line ∈ configLines content, Relevant line → ∃ e, ThreeFields line e) ∧
        ((entries content).map ConfigEntry.id).Nodup) ∧
    ∀ events libraries configuredDevices,
      initializeDriver env = (events, .ok (libraries, configuredDevices)) →
        ConfiguredAs env content events libraries configuredDevices := by
  refine ⟨?_, fun events libraries configuredDevices hok => ?_⟩
  · rw [← configurable_iff hloads]
    constructor
    · rintro ⟨libraries, configuredDevices, hok⟩
      rcases (initializeDriver_ok_iff env).mp ⟨_, _, hok⟩ with ⟨content', hconfig', hall⟩
      rw [hconfig, ConfigSource.text.injEq] at hconfig'
      -- The IDs of the devices are distinct, and they are those of the entries.
      rcases initializeDriver_reads (Prod.ext rfl hok) with ⟨content'', hconfig'', hids, hnodup⟩
      rw [hconfig, ConfigSource.text.injEq] at hconfig''
      rw [hids, readEntries_of_mem hloads.mem, ← hconfig''] at hnodup
      exact ⟨hconfig' ▸ hall, hnodup⟩
    · rintro ⟨hall, _⟩
      exact (initializeDriver_ok_iff env).mpr ⟨content, hconfig, hall⟩
  · rcases initializeDriver_done hok with ⟨content', hconfig', hloop⟩
    rw [hconfig, ConfigSource.text.injEq] at hconfig'
    rw [readLines_of_mem hloads.mem, ← hconfig'] at hloop
    -- Going through to the end keeps the invariant.
    have hinv := (loopFrom_induct_split (P := ConfiguredInv env) (Q := fun _ _ => True)
      (fun _ _ _ _ _ _ hP hb => configureLine_configured hb hP) (fun _ _ _ _ _ _ _ _ _ => trivial)
      (configuredInv_start env) hloop).1 rfl
    exact configuredInv_configuredAs hloads.mem hinv

/-- Two devices of one library under two paths, with odd white space, a comment
    and no newline at the end. -/
def aliasConfig : List UInt8 := ascii "# two\n\tlib A  one \n\nalias A two"

/-- Paths that open to one file. -/
def aliasEnv : DriverEnv := { sampleEnv with config := .text aliasConfig }

/-- Both devices are configured, and they share a library that is initialized
    once. -/
theorem initializeDriver_configures_sample : ∃ events libraries cfg cfg',
    initializeDriver aliasEnv = (events, .ok (libraries, [cfg, cfg'])) ∧
      ConfiguredAs aliasEnv aliasConfig events libraries [cfg, cfg'] ∧
      SharesLibrary libraries cfg cfg' := by
  have hentries : entries aliasConfig =
      [⟨ascii "lib", ascii "A", ascii "one"⟩, ⟨ascii "alias", ascii "A", ascii "two"⟩] := by decide
  have hloads : Loads aliasEnv aliasConfig :=
    ⟨fun _ => rfl, fun _ _ => ⟨0, rfl, fun _ _ => rfl⟩, fun _ => rfl⟩
  have hrun : ∃ events libraries cfg cfg',
      initializeDriver aliasEnv = (events, .ok (libraries, [cfg, cfg'])) := ⟨_, _, _, _, rfl⟩
  rcases hrun with ⟨events, libraries, cfg, cfg', hok⟩
  have has := (initializeDriver_configures aliasEnv aliasConfig rfl hloads).2 _ _ _ hok
  refine ⟨events, libraries, cfg, cfg', hok, has, ?_⟩
  refine (has.shared 0 1 _ _ cfg cfg' (by rw [hentries]; rfl) (by rw [hentries]; rfl) rfl
    rfl).mpr ?_
  exact ⟨rfl, rfl⟩

end Driver

end Qdmi
