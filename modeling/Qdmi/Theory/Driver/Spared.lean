import Qdmi.Theory.Driver.Catalogue

/-!
# Loading With and Without Memory

What a failed allocation does to `QDMI_initialize_driver`, compared with the same
call when memory lasts.

If the call fails, it says `OUTOFMEM` or `FATAL`, whatever the reason. If it
succeeds, every allocation that it noticed was successful, and the two calls differ
only when it missed one. There are two it can miss: the text of a line, which is
then the end of the file, and a fourth field, which is then not there. `CutShort`
says that one of them mattered, and `initializeDriver_spared_iff` that the two calls
differ then and only then: either memory brings out a fourth field, and the line is
rejected, or it brings out a line that configures one device more.

## Main definitions

* `DriverEnv.spared`: The same environment with memory.
* `CutShort`: A failure that a successful call did not notice.

## Theorems

* `libraryLoad_spared`: Loading a library.
* `configureLine_spared`, `configureLines_spared`: What was read in full goes as with
  memory.
* `initializeDriver_failed`: What a call that fails returns.
* `initializeDriver_spared_iff`: When a call that succeeds goes as with memory.
-/

namespace Qdmi

namespace Driver

/-- The same environment, with memory for everything. -/
def DriverEnv.spared (env : DriverEnv) : DriverEnv := { env with mem := fun _ => true }

/-- A line that counts is not read, or its fourth field is not. -/
def CutShort (mem : Alloc) (content : List UInt8) : Prop :=
  ∃ before line after, configLines content = before ++ line :: after ∧ Relevant line ∧
    ((∃ k ≤ before.length, mem (9 * k + 1) = false) ∨
      mem (9 * before.length + 4) = false ∧ 3 < (configFields line).length)

/-! ## One line -/

theorem libraryLoad_spared (env : DriverEnv) (k : Nat) (l : Loading)
    (libName libPrefix : List UInt8) :
    libraryLoad env k l libName libPrefix = libraryLoad env.spared k l libName libPrefix ∨
      (libraryLoad env k l libName libPrefix).2 = .error .badAlloc := by
  unfold libraryLoad
  split
  · exact Or.inr rfl
  rename_i hmem
  rw [if_neg (c := (!env.spared.mem (9 * k + 6)) = true) Bool.false_ne_true]
  -- The loader is asked alike with and without memory.
  rcases hopen : env.dlopen libName with _ | handle
  · exact Or.inl (by simp only [DriverEnv.spared, hopen])
  simp only [DriverEnv.spared, hopen]
  split
  · exact Or.inl rfl
  split
  · exact Or.inr rfl
  simp only [Bool.not_true, Bool.false_eq_true, if_false]
  split
  · exact Or.inl rfl
  split
  · exact Or.inl rfl
  split
  · exact Or.inr rfl
  · exact Or.inl rfl

/-- A line that is done goes as it would with memory, if its fields were read in
    full. -/
theorem configureLine_spared {env : DriverEnv} {k : Nat} {line : List UInt8} {l l' : Loading}
    (h : configureLine env k line l = (l', none))
    (hfields : Relevant line → lineFields env.mem k line = configFields line) :
    configureLine env.spared k line l = (l', none) := by
  have hmem : ∀ i, env.spared.mem i = true := fun _ => rfl
  rcases configureLine_done h with ⟨hskip, hl⟩ | ⟨e, m, library, hentry, hnew, hload, hl⟩
  · rw [configureLine, if_pos (not_relevant_iff.mp hskip), hl]
  rcases readEntry_eq_some_iff.mp hentry with ⟨hrel, hread⟩
  rw [hfields hrel] at hread
  -- The library was loaded, so memory was not what it lacked.
  have hsame : libraryLoad env.spared k l e.libName e.libPrefix = (m, .ok library) := by
    rcases libraryLoad_spared env k l e.libName e.libPrefix with hsame | hbad
    · rw [← hsame, hload]
    · rw [hload] at hbad
      exact absurd hbad (by simp only [reduceCtorEq, not_false_eq_true])
  have hcontains : (l.configuredDevices.map Configured.id).contains e.id = false := by
    rw [← Bool.not_eq_true, List.contains_iff_mem]
    exact hnew
  rw [configureLine, if_neg (fun hskip => not_relevant_iff.mpr hskip hrel),
    lineFields_of_mem hmem, hread, hl]
  simp only [hmem, hcontains, hsame, Bool.not_true, Bool.false_eq_true, if_false]

/-- Lines that do not count do nothing. -/
theorem configureLines_skip {env : DriverEnv} (lines : List (List UInt8))
    (h : ∀ line ∈ lines, ¬ Relevant line) :
    ∀ k l, configureLines env k lines l = (l, none) := by
  induction lines with
  | nil => exact fun _ _ => rfl
  | cons line lines ih =>
      intro k l
      have hone : configureLine env k line l = (l, none) := by
        rw [configureLine, if_pos (not_relevant_iff.mp (h line List.mem_cons_self))]
      rw [configureLines, loopFrom, hone]
      exact ih (fun line' hline => h line' (List.mem_cons_of_mem _ hline)) (k + 1) l

/-! ## All lines -/

/-- A loop that goes through goes as it would with memory, if the lines that count and
    their fields were read in full. The induction is on the lines. -/
theorem configureLines_spared {env : DriverEnv} (lines : List (List UInt8)) :
    ∀ k (l l' : Loading),
      (∀ before line after, lines = before ++ line :: after → Relevant line →
        (∀ j ≤ before.length, env.mem (9 * (k + j) + 1) = true) ∧
          (env.mem (9 * (k + before.length) + 4) = false → (configFields line).length ≤ 3)) →
      configureLines env k (readLines env.mem k lines) l = (l', none) →
      configureLines env.spared k lines l = (l', none) := by
  induction lines with
  | nil => exact fun _ _ _ _ h => h
  | cons line lines ih =>
      intro k l l' hfull h
      rw [readLines] at h
      split at h
      · rename_i hmem
        rw [configureLines, loopFrom] at h
        rcases hturn : configureLine env k line l with ⟨m, _ | abort⟩
        · simp only [hturn] at h
          have hspared : configureLine env.spared k line l = (m, none) := by
            refine configureLine_spared hturn (fun hrel => ?_)
            rcases configureLine_done hturn with ⟨hskip, _⟩ | ⟨e, _, _, hentry, _⟩
            · exact absurd hrel hskip
            -- Three fields were read, and there was no other.
            have hfields := (readEntry_eq_some_iff.mp hentry).2
            rcases lineFields_eq_iff.mp hfields with ⟨_, htake, hmore⟩
            have hlen : (configFields line).length ≤ 3 := by
              cases hmem4 : env.mem (9 * k + 4) with
              | true => exact hmore hmem4
              | false => exact (hfull [] line lines rfl hrel).2 hmem4
            rw [hfields, ← htake, List.take_of_length_le hlen]
          rw [configureLines, loopFrom, hspared]
          refine ih (k + 1) m l' (fun before line' after heq hrel => ?_) h
          rcases hfull (line :: before) line' after (by rw [heq, List.cons_append]) hrel with
            ⟨htext, hfields⟩
          rw [List.length_cons] at htext hfields
          refine ⟨fun j hj => ?_, fun hmem4 => ?_⟩
          · rw [Nat.add_right_comm, Nat.add_assoc k]
            exact htext (j + 1) (Nat.succ_le_succ hj)
          · rw [Nat.add_right_comm, Nat.add_assoc k] at hmem4
            exact hfields hmem4
        · simp only [hturn, Prod.mk.injEq, reduceCtorEq, and_false] at h
      · -- No line that counts comes behind one that was not read.
        rename_i hmem
        rw [configureLines, loopFrom, Prod.mk.injEq] at h
        rw [← h.1]
        refine configureLines_skip _ (fun line' hline hrel => ?_) k l
        rcases List.append_of_mem hline with ⟨before, after, heq⟩
        exact hmem ((hfull before line' after heq hrel).1 0 (Nat.zero_le _))

/-- A line that is read has memory for its text and for those before it. -/
theorem mem_text_of_readLines {mem : Alloc} (lines : List (List UInt8)) :
    ∀ k, ∀ j < (readLines mem k lines).length, mem (9 * (k + j) + 1) = true := by
  induction lines with
  | nil => exact fun _ _ hj => absurd hj (Nat.not_lt_zero _)
  | cons line lines ih =>
      intro k j hj
      rw [readLines] at hj
      split at hj
      · rename_i hmem
        rcases j with _ | j
        · exact hmem
        · rw [List.length_cons] at hj
          rw [← Nat.add_assoc, Nat.add_right_comm]
          exact ih (k + 1) j (Nat.lt_of_succ_lt_succ hj)
      · exact absurd hj (Nat.not_lt_zero _)

/-- A line with a failure at or before it is behind the lines that are read. -/
theorem unread_of_mem_text {mem : Alloc} {lines before after rest : List (List UInt8)}
    {line : List UInt8} (hlines : lines = before ++ line :: after)
    (hrest : readLines mem 0 lines ++ rest = lines) {k : Nat} (hk : k ≤ before.length)
    (hmem : mem (9 * k + 1) = false) : line ∈ rest := by
  have hlen : (readLines mem 0 lines).length ≤ before.length := by
    by_contra hlt
    have htrue : mem (9 * (0 + k) + 1) = true := mem_text_of_readLines lines 0 k (by omega)
    rw [Nat.zero_add, hmem] at htrue
    exact Bool.false_ne_true htrue
  have hat : lines[before.length]? = some line := by
    rw [hlines, List.getElem?_append_right (Nat.le_refl _), Nat.sub_self]
    rfl
  rw [← hrest, List.getElem?_append_right hlen] at hat
  exact List.mem_of_getElem? hat

/-! ## The driver -/

/-- A call that fails says so. -/
theorem initializeDriver_failed {env : DriverEnv} {events : List Event} {status : Status}
    (h : initializeDriver env = (events, .error status)) :
    status = .errorOutofmem ∨ status = .errorFatal := by
  have hthrown : ∀ e, abortStatus (.thrown e) = .errorOutofmem ∨
      abortStatus (.thrown e) = .errorFatal := by
    intro e
    cases e <;> decide
  unfold initializeDriver at h
  rcases hconfig : env.config with e | _ | _ | content
  · simp only [hconfig, Prod.mk.injEq, Except.error.injEq] at h
    exact h.2 ▸ hthrown e
  iterate 2
    · simp only [hconfig, Prod.mk.injEq, Except.error.injEq] at h
      exact Or.inr h.2.symm
  simp only [hconfig] at h
  rcases hloop : configureLines env 0 (readLines env.mem 0 (configLines content)) {} with
    ⟨l, _ | abort⟩
  · simp only [hloop, Prod.mk.injEq, reduceCtorEq, and_false] at h
  · simp only [hloop, Prod.mk.injEq, Except.error.injEq] at h
    rw [← h.2]
    -- A line returns `FATAL`, or throws.
    refine (loopFrom_induct (P := fun _ _ => True)
      (Q := fun _ abort => abortStatus abort = .errorOutofmem ∨ abortStatus abort = .errorFatal)
      (fun _ _ _ _ _ _ _ _ => trivial) (fun _ line k l l' abort _ _ hb => ?_) trivial
      hloop).2 abort rfl
    unfold configureLine at hb
    split at hb
    · exact absurd (Prod.mk.inj hb).2 (by simp only [reduceCtorEq, not_false_eq_true])
    split at hb
    · exact Option.some.inj (Prod.mk.inj hb).2 ▸ hthrown _
    split at hb
    · rename_i libName libPrefix deviceId _
      split at hb
      · exact Option.some.inj (Prod.mk.inj hb).2 ▸ hthrown _
      split at hb
      · exact Option.some.inj (Prod.mk.inj hb).2 ▸ Or.inr rfl
      rcases hload : libraryLoad env k l libName libPrefix with ⟨m, e | library⟩
      · simp only [hload] at hb
        exact Option.some.inj (Prod.mk.inj hb).2 ▸ hthrown _
      · simp only [hload] at hb
        split at hb
        · exact Option.some.inj (Prod.mk.inj hb).2 ▸ hthrown _
        · exact absurd (Prod.mk.inj hb).2 (by simp only [reduceCtorEq, not_false_eq_true])
    · exact Option.some.inj (Prod.mk.inj hb).2 ▸ Or.inr rfl

/-- A call that succeeds goes as it would with memory, unless what it read was cut
    short. -/
theorem initializeDriver_spared_iff {env : DriverEnv} {events : List Event}
    {libraries : List Library} {configuredDevices : List Configured} {content : List UInt8}
    (h : initializeDriver env = (events, .ok (libraries, configuredDevices)))
    (hconfig : env.config = .text content) :
    initializeDriver env.spared = initializeDriver env ↔ ¬ CutShort env.mem content := by
  constructor
  · rintro hsame ⟨before, line, after, hlines, hrel, hshort⟩
    rw [h] at hsame
    -- With memory the line has an entry, so it has three fields.
    have hconfig' : env.spared.config = .text content := hconfig
    have hspare : ∀ i, env.spared.mem i = true := fun _ => rfl
    rcases (initializeDriver_ok_iff env.spared).mp ⟨_, _, congrArg Prod.snd hsame⟩ with
      ⟨content', hcontent', hall⟩
    rw [hconfig', ConfigSource.text.injEq] at hcontent'
    rw [← hcontent', Configurable] at hall
    rcases hall before line after ((readLines_of_mem hspare _ 0).trans hlines) hrel with
      ⟨e, hentry, _⟩
    rcases hshort with ⟨k, hk, hmem⟩ | ⟨_, hlen⟩
    · -- With memory there is a device for it, and so for one line more.
      rcases initializeDriver_readFrom h with ⟨content₁, hconfig₁, hread₁⟩
      rcases initializeDriver_readFrom hsame with ⟨content₂, hconfig₂, hread₂⟩
      rw [hconfig, ConfigSource.text.injEq] at hconfig₁
      rw [hconfig', ConfigSource.text.injEq] at hconfig₂
      have hids := hread₂.complete (fun k => hspare _)
      rw [hread₁.read, ← hconfig₁, ← hconfig₂, configuredIds] at hids
      have hprefix : readLines env.mem 0 (configLines content) <+: configLines content :=
        readLines_initial _ 0
      rcases hprefix with ⟨rest, hrest⟩
      have hmore : (configLines content).filterMap configuredId =
          (readLines env.mem 0 (configLines content)).filterMap configuredId ++
            rest.filterMap configuredId := by
        rw [← List.filterMap_append, hrest]
      have hnone := List.self_eq_append_right.mp (hids.trans hmore)
      have hunread := unread_of_mem_text hlines hrest hk hmem
      rw [List.filterMap_eq_nil_iff] at hnone
      have hsome := configuredId_of_readEntry hentry
      rw [hnone line hunread] at hsome
      exact absurd hsome (by simp only [reduceCtorEq, not_false_eq_true])
    · have hthree := (lineFields_eq_iff.mp (readEntry_eq_some_iff.mp hentry).2).2.2
      exact absurd (hthree (hspare _)) (Nat.not_le_of_lt hlen)
  · intro hfull
    rcases initializeDriver_done h with ⟨content', hconfig', hloop⟩
    rw [hconfig, ConfigSource.text.injEq] at hconfig'
    rw [← hconfig'] at hloop
    -- Every line that counts was read in full.
    have hread : ∀ before line after, configLines content = before ++ line :: after →
        Relevant line → (∀ k ≤ before.length, env.mem (9 * (0 + k) + 1) = true) ∧
          (env.mem (9 * (0 + before.length) + 4) = false → (configFields line).length ≤ 3) := by
      intro before line after hlines hrel
      refine ⟨fun k hk => ?_, fun hmem => Nat.le_of_not_lt (fun hlen => ?_)⟩
      · rw [Nat.zero_add]
        by_contra hmem
        exact hfull ⟨before, line, after, hlines, hrel,
          Or.inl ⟨k, hk, Bool.eq_false_of_not_eq_true hmem⟩⟩
      · rw [Nat.zero_add] at hmem
        exact hfull ⟨before, line, after, hlines, hrel, Or.inr ⟨hmem, hlen⟩⟩
    have hspared := configureLines_spared (configLines content) 0 {} _ hread hloop
    have hconfig'' : env.spared.config = .text content := hconfig
    rw [h, initializeDriver, hconfig'']
    have hall : readLines env.spared.mem 0 (configLines content) = configLines content :=
      readLines_of_mem (fun _ => rfl) _ 0
    simp only [hall, hspared]

end Driver

end Qdmi
