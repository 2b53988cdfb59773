import Qdmi.Theory.Driver.Ownership

/-!
# Reading the Configuration

What `QDMI_initialize_driver` takes its configuration for, and when it accepts it.

With memory for everything these are questions about the text. Without it they are
not: a stream that finds no memory says nothing, so the file may seem to end early
and a line may seem to have no fourth field, and the configuration is accepted all
the same. `readEntries` is what was read in this way, and everything that is said
about the configured devices is said in terms of it. It agrees with the text where
memory lasts.

`initializeDriver_ok_iff` is the condition for success. Each line that counts needs
its own, which looks at the lines before it for two things: whether its ID is a new
one, and whether its library is there already.

## Main definitions

* `ConfigEntry`, `Relevant`: The fields of a line, and the lines that count.
* `readEntry`, `readEntries`: The entries that are read.
* `LibraryFound`, `Admitted`, `LineAdmitted`: What a line needs.
* `Configurable`: What a configuration needs.
* `ReadInv`: What holds between two lines.

## Theorems

* `lineFields_eq_iff`, `readEntry_eq_some_iff`: What is read of a line.
* `readLines_initial`, `readLines_of_mem`: Which lines are read.
* `libraryLoad_ok_iff`, `configureLine_none_iff`: When a library and a line succeed.
* `configureLine_done`, `configureLine_reads`: What a line has done then.
* `initializeDriver_ok_iff`: When the configuration is accepted.
* `initializeDriver_reads`: What is configured then.
-/

namespace Qdmi

namespace Driver

/-! ## Lines -/

/-- The fields of a line of the configuration. -/
structure ConfigEntry where
  libName : List UInt8
  libPrefix : List UInt8
  id : List UInt8
  deriving DecidableEq

/-- A line that is neither empty nor a comment. -/
def Relevant (line : List UInt8) : Prop := line ≠ [] ∧ line.head? ≠ some 35

/-- The entry that is read from line `k`, if there is one. -/
def readEntry (mem : Alloc) (k : Nat) (line : List UInt8) : Option ConfigEntry :=
  if line = [] ∨ line.head? = some 35 then none
  else
    match lineFields mem k line with
    | [libName, libPrefix, id] => some { libName, libPrefix, id }
    | _ => none

/-- The entries that are read from some lines, from line `k` on. -/
def readEntriesFrom (mem : Alloc) : Nat → List (List UInt8) → List ConfigEntry
  | _, [] => []
  | k, line :: lines => (readEntry mem k line).toList ++ readEntriesFrom mem (k + 1) lines

/-- The entries that are read from a configuration, in its order. -/
def readEntries (mem : Alloc) (content : List UInt8) : List ConfigEntry :=
  readEntriesFrom mem 0 (readLines mem 0 (configLines content))

theorem not_relevant_iff {line : List UInt8} :
    ¬ Relevant line ↔ line = [] ∨ line.head? = some 35 := by
  rw [Relevant, not_and_or, not_not, not_not]

section

variable {mem : Alloc} {k : Nat} {line : List UInt8}

/-- With memory the fields that are read are those of the line. -/
theorem lineFields_of_mem (hmem : ∀ i, mem i = true) :
    lineFields mem k line = configFields line := by
  simp only [lineFields, hmem, Bool.not_true, Bool.false_eq_true, if_false]

/-- Three fields are read from a line that starts with them and has no fourth, or none
    that memory is found for. -/
theorem lineFields_eq_iff {a b c : List UInt8} : lineFields mem k line = [a, b, c] ↔
    mem (9 * k + 3) = true ∧ (configFields line).take 3 = [a, b, c] ∧
      (mem (9 * k + 4) = true → (configFields line).length ≤ 3) := by
  unfold lineFields
  cases mem (9 * k + 3) with
  | false => simp
  | true =>
      cases mem (9 * k + 4) with
      | false => simp
      | true =>
          simp only [Bool.not_true, Bool.false_eq_true, if_false, true_and, forall_const]
          constructor
          · intro h
            rw [h]
            exact ⟨rfl, Nat.le_refl _⟩
          · rintro ⟨htake, hlen⟩
            rwa [List.take_of_length_le hlen] at htake

theorem readEntry_eq_some_iff {e : ConfigEntry} : readEntry mem k line = some e ↔
    Relevant line ∧ lineFields mem k line = [e.libName, e.libPrefix, e.id] := by
  unfold readEntry
  by_cases hskip : line = [] ∨ line.head? = some 35
  · rw [if_pos hskip]
    exact iff_of_false (by simp only [reduceCtorEq, not_false_eq_true])
      (fun h => not_relevant_iff.mpr hskip h.1)
  have hrel : Relevant line := not_or.mp hskip
  rw [if_neg hskip, and_iff_right hrel]
  rcases e with ⟨libName, libPrefix, id⟩
  split
  · rename_i hfields
    rw [hfields]
    simp
  · rename_i hfields
    exact iff_of_false (by simp only [reduceCtorEq, not_false_eq_true]) (hfields _ _ _)

theorem readEntry_of_not_relevant (h : ¬ Relevant line) : readEntry mem k line = none := by
  rw [readEntry, if_pos (not_relevant_iff.mp h)]

theorem readEntriesFrom_append (lines more : List (List UInt8)) :
    ∀ k, readEntriesFrom mem k (lines ++ more) =
      readEntriesFrom mem k lines ++ readEntriesFrom mem (k + lines.length) more := by
  induction lines with
  | nil => exact fun _ => rfl
  | cons line lines ih =>
      intro k
      rw [List.cons_append, readEntriesFrom, readEntriesFrom, ih, List.append_assoc,
        List.length_cons, Nat.add_right_comm, Nat.add_assoc k]

theorem readEntriesFrom_snoc (lines : List (List UInt8)) (line : List UInt8) :
    readEntriesFrom mem 0 (lines ++ [line]) =
      readEntriesFrom mem 0 lines ++ (readEntry mem lines.length line).toList := by
  rw [readEntriesFrom_append, readEntriesFrom, readEntriesFrom, List.append_nil, Nat.zero_add]

/-- The entry of one of the lines. -/
theorem mem_readEntriesFrom {before after : List (List UInt8)} {e : ConfigEntry}
    (h : readEntry mem before.length line = some e) :
    e ∈ readEntriesFrom mem 0 (before ++ line :: after) := by
  rw [readEntriesFrom_append, readEntriesFrom, Nat.zero_add, h, Option.toList_some]
  exact List.mem_append_right _ List.mem_cons_self

/-- The lines that are read come first in the configuration. -/
theorem readLines_initial (lines : List (List UInt8)) : ∀ k, readLines mem k lines <+: lines := by
  induction lines with
  | nil => exact fun _ => List.prefix_refl _
  | cons line lines ih =>
      intro k
      rw [readLines]
      split
      · exact (List.prefix_cons_inj line).mpr (ih (k + 1))
      · exact List.nil_prefix

/-- With memory all lines are read. -/
theorem readLines_of_mem (hmem : ∀ i, mem i = true) (lines : List (List UInt8)) :
    ∀ k, readLines mem k lines = lines := by
  induction lines with
  | nil => exact fun _ => rfl
  | cons line lines ih =>
      intro k
      rw [readLines, if_pos (hmem _), ih]

end

/-! ## What a line needs -/

/-- The library of line `k` can be had, when some libraries are loaded: its path opens,
    and it is one of them or has all symbols and can be initialized. -/
def LibraryFound (env : DriverEnv) (loaded : Nat × List UInt8 → Prop) (k : Nat)
    (libName libPrefix : List UInt8) : Prop :=
  env.mem (9 * k + 6) = true ∧ ∃ handle, env.dlopen libName = some handle ∧
    (loaded (handle, libPrefix) ∨ env.mem (9 * k + 7) = true ∧
      (∀ sym ∈ requiredSymbols, env.dlsym handle (symbolName libPrefix sym) = true) ∧
      env.status k = .success ∧ env.mem (9 * k + 8) = true)

/-- Line `k` can be configured as an entry says, behind the IDs and libraries of the
    lines before it. -/
structure Admitted (env : DriverEnv) (ids : List (List UInt8)) (loaded : Nat × List UInt8 → Prop)
    (k : Nat) (e : ConfigEntry) : Prop where
  stream : env.mem (9 * k + 2) = true
  set : env.mem (9 * k + 5) = true
  fresh : e.id ∉ ids
  library : LibraryFound env loaded k e.libName e.libPrefix
  device : env.mem (9 * k + 9) = true

/-- An entry names the library with a given key. -/
def ConfigEntry.NamesLibrary (env : DriverEnv) (key : Nat × List UInt8) (e : ConfigEntry) : Prop :=
  env.dlopen e.libName = some key.1 ∧ e.libPrefix = key.2

/-- A line that counts has an entry and can be configured, behind the lines before
    it. -/
def LineAdmitted (env : DriverEnv) (before : List (List UInt8)) (line : List UInt8) : Prop :=
  Relevant line → ∃ e, readEntry env.mem before.length line = some e ∧
    Admitted env ((readEntriesFrom env.mem 0 before).map ConfigEntry.id)
      (fun key => ∃ e' ∈ readEntriesFrom env.mem 0 before, e'.NamesLibrary env key) before.length e

/-- Every line that is read can be configured. -/
def Configurable (env : DriverEnv) (content : List UInt8) : Prop :=
  ∀ before line after, readLines env.mem 0 (configLines content) = before ++ line :: after →
    LineAdmitted env before line

/-- When `QDMI_library_load` returns a library. -/
theorem libraryLoad_ok_iff {env : DriverEnv} {k : Nat} {l : Loading}
    {libName libPrefix : List UInt8} :
    (∃ l' library, libraryLoad env k l libName libPrefix = (l', .ok library)) ↔
      LibraryFound env (fun key => key ∈ l.libraries.map Library.key) k libName libPrefix := by
  have hno : ∀ {m : Loading} {e : Exn},
      ¬ ∃ l' library, ((m, .error e) : Loading × Except Exn Library) = (l', .ok library) := by
    rintro m e ⟨l', library, h⟩
    exact absurd (Prod.mk.inj h).2 (by simp only [reduceCtorEq, not_false_eq_true])
  rw [LibraryFound]
  unfold libraryLoad
  cases hmem : env.mem (9 * k + 6) with
  | false => exact iff_of_false hno (fun h => Bool.false_ne_true h.1)
  | true =>
      simp only [Bool.not_true, Bool.false_eq_true, if_false, true_and]
      rcases hopen : env.dlopen libName with _ | handle
      · simp only [reduceCtorEq, false_and, exists_false, iff_false]
        exact hno
      simp only [Option.some.injEq, exists_eq_left']
      rcases hfind : l.libraries.find? (fun loaded => loaded.key == (handle, libPrefix)) with
        _ | loaded
      · -- The library is a new one.
        have hnew : (handle, libPrefix) ∉ l.libraries.map Library.key := by
          intro hmem
          rcases List.mem_map.mp hmem with ⟨loaded, hloaded, heq⟩
          have hnone := List.find?_eq_none.mp hfind loaded hloaded
          rw [heq] at hnone
          exact hnone (beq_self_eq_true _)
        rw [or_iff_right hnew]
        simp only [hfind]
        cases hmem7 : env.mem (9 * k + 7) with
        | false => exact iff_of_false hno (fun h => Bool.false_ne_true h.1)
        | true =>
            simp only [Bool.not_true, Bool.false_eq_true, if_false, true_and]
            rw [← List.all_eq_true]
            cases hall : requiredSymbols.all
                (fun sym => env.dlsym handle (symbolName libPrefix sym)) with
            | false => exact iff_of_false hno (fun h => Bool.false_ne_true h.1)
            | true =>
                simp only [Bool.not_true, Bool.false_eq_true, if_false, true_and]
                by_cases hstatus : env.status k = .success
                · rw [if_neg (not_not.mpr hstatus), and_iff_right hstatus]
                  cases hmem8 : env.mem (9 * k + 8) with
                  | false => exact iff_of_false hno Bool.false_ne_true
                  | true => exact iff_of_true ⟨_, _, rfl⟩ rfl
                · rw [if_pos hstatus]
                  exact iff_of_false hno (fun h => hstatus h.1)
      · have hkey := List.find?_some hfind
        rw [beq_iff_eq] at hkey
        simp only [hfind]
        refine iff_of_true ⟨_, _, rfl⟩ (Or.inl ?_)
        rw [← hkey]
        exact List.mem_map_of_mem (List.mem_of_find?_eq_some hfind)

/-- When a line does not end the loop. -/
theorem configureLine_none_iff {env : DriverEnv} {k : Nat} {line : List UInt8} {l : Loading} :
    (configureLine env k line l).2 = none ↔ (Relevant line →
      ∃ e, readEntry env.mem k line = some e ∧
        Admitted env (l.configuredDevices.map Configured.id)
          (fun key => key ∈ l.libraries.map Library.key) k e) := by
  unfold configureLine
  by_cases hskip : line = [] ∨ line.head? = some 35
  · rw [if_pos hskip]
    exact iff_of_true rfl (fun hrel => absurd hrel (not_relevant_iff.mpr hskip))
  have hrel : Relevant line := not_or.mp hskip
  rw [if_neg hskip, imp_iff_right hrel]
  -- A line that ends the loop lacks something.
  have hno : ∀ {x : Loading × Option Abort} {p : Prop}, x.2 ≠ none → ¬ p → (x.2 = none ↔ p) :=
    fun hx hp => iff_of_false hx hp
  cases hmem2 : env.mem (9 * k + 2) with
  | false =>
      refine hno (by simp) ?_
      rintro ⟨e, _, hadm⟩
      exact Bool.false_ne_true (hmem2.symm.trans hadm.stream)
  | true =>
      simp only [Bool.not_true, Bool.false_eq_true, if_false]
      split
      · rename_i libName libPrefix deviceId hfields
        have hread : ∀ e, readEntry env.mem k line = some e ↔
            e = ⟨libName, libPrefix, deviceId⟩ := by
          rintro ⟨a, b, c⟩
          rw [readEntry_eq_some_iff, and_iff_right hrel, hfields]
          simp [eq_comm]
        simp only [hread, exists_eq_left]
        cases hmem5 : env.mem (9 * k + 5) with
        | false => exact hno (by simp) (fun hadm => Bool.false_ne_true (hmem5.symm.trans hadm.set))
        | true =>
            simp only [Bool.not_true, Bool.false_eq_true, if_false]
            by_cases hold : deviceId ∈ l.configuredDevices.map Configured.id
            · rw [if_pos (List.contains_iff_mem.mpr hold)]
              exact hno (by simp) (fun hadm => hadm.fresh hold)
            rw [if_neg (fun h => hold (List.contains_iff_mem.mp h))]
            have hload : (∃ l' library, libraryLoad env k l libName libPrefix =
                (l', .ok library)) ↔ LibraryFound env
                  (fun key => key ∈ l.libraries.map Library.key) k libName libPrefix :=
              libraryLoad_ok_iff
            rcases hrun : libraryLoad env k l libName libPrefix with ⟨m, e | library⟩
            · refine hno (by simp) (fun hadm => ?_)
              rcases hload.mpr hadm.library with ⟨l', library, hok⟩
              rw [hrun] at hok
              exact absurd (Prod.mk.inj hok).2 (by simp only [reduceCtorEq, not_false_eq_true])
            · dsimp only
              cases hmem9 : env.mem (9 * k + 9) with
              | false =>
                  refine hno (by simp) (fun hadm => ?_)
                  exact Bool.false_ne_true (hmem9.symm.trans hadm.device)
              | true => exact iff_of_true rfl ⟨hmem2, hmem5, hold, hload.mp ⟨_, _, hrun⟩, hmem9⟩
      · rename_i hfields
        refine hno (by simp) ?_
        rintro ⟨e, he, _⟩
        exact hfields _ _ _ (readEntry_eq_some_iff.mp he).2

/-- What a line that does not end the loop has done: nothing if it does not count, and
    otherwise it has loaded its library and added its device. -/
theorem configureLine_done {env : DriverEnv} {k : Nat} {line : List UInt8} {l l' : Loading}
    (h : configureLine env k line l = (l', none)) :
    (¬ Relevant line ∧ l' = l) ∨
      ∃ e m library, readEntry env.mem k line = some e ∧
        e.id ∉ l.configuredDevices.map Configured.id ∧
        libraryLoad env k l e.libName e.libPrefix = (m, .ok library) ∧
        l' = { m with configuredDevices := m.configuredDevices ++ [{ library, id := e.id }] } := by
  unfold configureLine at h
  split at h
  · rename_i hskip
    rw [Prod.mk.injEq] at h
    -- A blank line or a comment.
    exact Or.inl ⟨not_relevant_iff.mpr hskip, h.1.symm⟩
  rename_i hskip
  split at h
  · exact absurd (Prod.mk.inj h).2 (by simp only [reduceCtorEq, not_false_eq_true])
  split at h
  · rename_i libName libPrefix deviceId hfields
    iterate 2
      split at h
      · exact absurd (Prod.mk.inj h).2 (by simp only [reduceCtorEq, not_false_eq_true])
    -- The ID is new, so the line is done if its library is loaded.
    rename_i hnew
    rcases hload : libraryLoad env k l libName libPrefix with ⟨m, e | library⟩
    · simp only [hload, Prod.mk.injEq, reduceCtorEq, and_false] at h
    · simp only [hload] at h
      split at h
      · exact absurd (Prod.mk.inj h).2 (by simp only [reduceCtorEq, not_false_eq_true])
      rw [Prod.mk.injEq] at h
      refine Or.inr ⟨⟨libName, libPrefix, deviceId⟩, m, library, ?_, ?_, hload, h.1.symm⟩
      · exact readEntry_eq_some_iff.mpr ⟨not_or.mp hskip, hfields⟩
      · rwa [List.contains_iff_mem] at hnew
  · exact absurd (Prod.mk.inj h).2 (by simp only [reduceCtorEq, not_false_eq_true])

/-! ## All lines -/

/-- What holds between two lines: the devices have the IDs of the entries before, and the
    libraries are the ones these name. -/
structure ReadInv (env : DriverEnv) (done : List (List UInt8)) (l : Loading) : Prop where
  ids : l.configuredDevices.map Configured.id =
    (readEntriesFrom env.mem 0 done).map ConfigEntry.id
  distinct : (l.configuredDevices.map Configured.id).Nodup
  loaded : ∀ key, key ∈ l.libraries.map Library.key ↔
    ∃ e ∈ readEntriesFrom env.mem 0 done, e.NamesLibrary env key

theorem readInv_start (env : DriverEnv) : ReadInv env [] {} where
  ids := rfl
  distinct := List.nodup_nil
  loaded key := iff_of_false List.not_mem_nil (fun h => by
    rcases h with ⟨e, he, _⟩
    exact absurd he List.not_mem_nil)

/-- A library that is returned is loaded now, and apart from it the list is what it
    was. -/
theorem libraryLoad_loaded {env : DriverEnv} {k : Nat} {l l' : Loading}
    {libName libPrefix : List UInt8} {library : Library}
    (h : libraryLoad env k l libName libPrefix = (l', .ok library)) :
    env.dlopen libName = some library.handle ∧ library.libPrefix = libPrefix ∧
      l'.configuredDevices = l.configuredDevices ∧ ∀ key, key ∈ l'.libraries.map Library.key ↔
        key ∈ l.libraries.map Library.key ∨ key = library.key := by
  have hcases := libraryLoad_cases h
  generalize hstatus : env.status k = status at hcases
  cases hcases with
  | found hopen hprefix hmem =>
      refine ⟨hopen, hprefix, rfl, fun key => ⟨Or.inl, ?_⟩⟩
      rintro (hkey | hkey)
      · exact hkey
      · rw [hkey]
        exact List.mem_map_of_mem hmem
  | added hopen hprefix hnew hdone =>
      refine ⟨hopen, hprefix, rfl, fun key => ?_⟩
      rw [List.map_append, List.map_singleton, List.mem_append, List.mem_singleton]

/-- A line that is done keeps the invariant. -/
theorem configureLine_reads {env : DriverEnv} {done : List (List UInt8)} {line : List UInt8}
    {l l' : Loading} (h : configureLine env done.length line l = (l', none))
    (hinv : ReadInv env done l) : ReadInv env (done ++ [line]) l' := by
  rcases configureLine_done h with ⟨hskip, hl⟩ | ⟨e, m, library, hentry, hnew, hload, hl⟩
  · -- A line that is skipped has no entry and adds no device.
    have hsame : readEntriesFrom env.mem 0 (done ++ [line]) = readEntriesFrom env.mem 0 done := by
      rw [readEntriesFrom_snoc, readEntry_of_not_relevant hskip, Option.toList_none,
        List.append_nil]
    rw [hl]
    exact ⟨hsame ▸ hinv.ids, hinv.distinct, hsame ▸ hinv.loaded⟩
  · -- A line with an entry adds one device, behind the ones that are there.
    rcases libraryLoad_loaded hload with ⟨hopen, hprefix, hdevices, hkeys⟩
    have hmore : readEntriesFrom env.mem 0 (done ++ [line]) =
        readEntriesFrom env.mem 0 done ++ [e] := by
      rw [readEntriesFrom_snoc, hentry, Option.toList_some]
    have hids : l'.configuredDevices.map Configured.id =
        l.configuredDevices.map Configured.id ++ [e.id] := by
      rw [hl, hdevices, List.map_append, List.map_singleton]
    have hnames : ∀ key, e.NamesLibrary env key ↔ key = library.key := by
      intro key
      rw [ConfigEntry.NamesLibrary, hopen, Option.some.injEq, ← hprefix, Prod.ext_iff]
      exact ⟨fun hk => ⟨hk.1.symm, hk.2.symm⟩, fun hk => ⟨hk.1.symm, hk.2.symm⟩⟩
    refine ⟨?_, ?_, fun key => ?_⟩
    · rw [hids, hmore, List.map_append, List.map_singleton, hinv.ids]
    · rw [hids]
      exact List.Nodup.append hinv.distinct (List.nodup_singleton _)
        (List.disjoint_singleton.mpr hnew)
    · rw [hl]
      dsimp only
      rw [hkeys key, hinv.loaded key, hmore]
      simp only [List.mem_append, List.mem_singleton, or_and_right, exists_or, exists_eq_left,
        hnames key]

/-- A line goes through behind the lines before it, as the text and the environment
    say. -/
theorem configureLine_admitted {env : DriverEnv} {done : List (List UInt8)} {line : List UInt8}
    {l : Loading} (hinv : ReadInv env done l) :
    (configureLine env done.length line l).2 = none ↔ LineAdmitted env done line := by
  have hkeys : (fun key => key ∈ l.libraries.map Library.key) =
      fun key => ∃ e ∈ readEntriesFrom env.mem 0 done, e.NamesLibrary env key :=
    funext (fun key => propext (hinv.loaded key))
  rw [configureLine_none_iff, LineAdmitted, hinv.ids, hkeys]

/-- When the driver accepts its configuration. -/
theorem initializeDriver_ok_iff (env : DriverEnv) :
    (∃ libraries configuredDevices,
        (initializeDriver env).2 = .ok (libraries, configuredDevices)) ↔
      ∃ content, env.config = .text content ∧ Configurable env content := by
  have hno : ∀ {status : Status}, ¬ ∃ libraries configuredDevices,
      (.error status : Except Status (List Library × List Configured)) =
        .ok (libraries, configuredDevices) := by
    rintro status ⟨libraries, configuredDevices, h⟩
    exact absurd h (by simp only [reduceCtorEq, not_false_eq_true])
  unfold initializeDriver
  rcases hconfig : env.config with e | _ | _ | content
  iterate 3
    · refine iff_of_false hno ?_
      rintro ⟨content, h, _⟩
      exact absurd h (by simp only [reduceCtorEq, not_false_eq_true])
  simp only [ConfigSource.text.injEq, exists_eq_left']
  have hloop := @loopFrom_none_iff _ _ _ (configureLine env) (ReadInv env) (LineAdmitted env)
    (fun _ _ _ hP => configureLine_admitted hP) (fun _ _ _ _ hP hb => configureLine_reads hb hP)
    (readLines env.mem 0 (configLines content)) [] {} (readInv_start env)
  simp only [List.nil_append, List.length_nil] at hloop
  rw [Configurable, ← hloop, configureLines]
  rcases hrun : loopFrom (configureLine env) 0 (readLines env.mem 0 (configLines content)) {} with
    ⟨l, _ | abort⟩
  · exact iff_of_true ⟨_, _, rfl⟩ rfl
  · exact iff_of_false hno (by simp only [reduceCtorEq, not_false_eq_true])

/-- A configuration that is accepted has gone through all lines that are read. -/
theorem initializeDriver_done {env : DriverEnv} {events : List Event} {libraries : List Library}
    {configuredDevices : List Configured}
    (h : initializeDriver env = (events, .ok (libraries, configuredDevices))) :
    ∃ content, env.config = .text content ∧
      configureLines env 0 (readLines env.mem 0 (configLines content)) {} =
        ({ libraries, configuredDevices, events }, none) := by
  unfold initializeDriver at h
  split at h
  iterate 3 exact absurd (Prod.mk.inj h).2 (by simp only [reduceCtorEq, not_false_eq_true])
  rename_i content hconfig
  refine ⟨content, hconfig, ?_⟩
  rcases hloop : configureLines env 0 (readLines env.mem 0 (configLines content)) {} with ⟨l, r⟩
  rcases r with _ | abort
  · simp only [hloop, Prod.mk.injEq, Except.ok.injEq] at h
    rw [← h.1, ← h.2.1, ← h.2.2]
  · simp only [hloop, Prod.mk.injEq, reduceCtorEq, and_false] at h

/-- The driver configures the entries that it reads. -/
theorem initializeDriver_reads {env : DriverEnv} {events : List Event} {libraries : List Library}
    {configuredDevices : List Configured}
    (h : initializeDriver env = (events, .ok (libraries, configuredDevices))) :
    ∃ content, env.config = .text content ∧
      configuredDevices.map Configured.id = (readEntries env.mem content).map ConfigEntry.id ∧
      (configuredDevices.map Configured.id).Nodup := by
  rcases initializeDriver_done h with ⟨content, hconfig, hloop⟩
  have hinv := (loopFrom_induct_split (P := ReadInv env) (Q := fun _ _ => True)
    (fun _ _ _ _ _ _ hP hb => configureLine_reads hb hP) (fun _ _ _ _ _ _ _ _ _ => trivial)
    (readInv_start env) hloop).1 rfl
  exact ⟨content, hconfig, hinv.ids, hinv.distinct⟩

end Driver

end Qdmi
