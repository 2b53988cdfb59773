import Qdmi.Theory.Driver.Ownership

/-!
# Opening the Devices of a Session

The loop of `QDMI_session_init`, and what its destructors give back.

`OpenTurn` lists the ways one turn ends. Either the device is open and in the
vector, or nothing is left of it: a device session the turn has allocated was
freed before the turn is over. The devices of earlier turns stay in the vector
either way. They are the ones `freeDevices` gives back when the call fails.

`OpeningInv` holds at every point of the loop and also when it has ended
early. `OpenedAs` says what a loop that got through has done.

## Main definitions

* `withDevices`: Books on which the device sessions of some devices are held.
* `Accepted`, `deviceFor`, `openedEvents`: A device that is opened.
* `OpenTurn`: The ways a turn of the loop ends.
* `takesOf`: How often a device session is taken.
* `OpeningInv`, `OpenedAs`: What holds of the devices opened so far.

## Theorems

* `openDevice_turn`: Every turn is one of them.
* `openTurn_inv`, `openTurn_openedAs`: What a turn keeps.
* `openDevices_abort`, `openDevices_inv`: The loop.
* `leads_freeDevices`: Giving the devices back.
-/

namespace Qdmi

namespace Driver

/-- The books of the driver. -/
abbrev LibraryBooks := Books (Nat × List UInt8) Resource

/-- Books on which the device sessions of some devices are held as well. -/
def withDevices (b : LibraryBooks) (devices : List Device) : LibraryBooks :=
  { b with held := fun key r => b.held key r ∨
      ∃ d ∈ devices, key = d.library.key ∧ r = .session d.deviceSession }

/-- The answers to a token with which a device is opened. -/
def Accepted (auth : Status) : Prop := auth = .success ∨ auth = .errorNotsupported

/-- The device for an entry of the configuration. -/
def deviceFor (cfg : Configured) (deviceSession : Nat) : Device where
  library := cfg.library
  deviceSession := deviceSession
  id := cfg.id

/-- What the library of a device receives when the device is opened. -/
def openedEvents (token : List UInt8) (d : Device) (auth : Status) : List Event := [
  .call d.library.key (.deviceSessionAlloc .success (some d.deviceSession)),
  .call d.library.key (.deviceSessionSetParameter d.deviceSession DeviceSessionParameter.token
    (token ++ [0]) auth),
  .call d.library.key (.deviceSessionInit d.deviceSession .success)]

/-- The ways a turn of `QDMI_session_init` ends. -/
inductive OpenTurn (token : List UInt8) (cfg : Configured) (o : Opening) :
    Opening → Option Abort → Prop where
  | opened (auth : Status) (hauth : Accepted auth) :
      OpenTurn token cfg o
        { devices := o.devices ++ [deviceFor cfg o.next]
          events := o.events ++ openedEvents token (deviceFor cfg o.next) auth
          next := o.next + 1 } none
  | outOfMemory : OpenTurn token cfg o o (some (.thrown .badAlloc))
  | notAllocated (status : Status) (hstatus : status ≠ .success) :
      OpenTurn token cfg o
        { o with events := o.events ++ [.call cfg.library.key (.deviceSessionAlloc status none)] }
        (some (.returned status))
  | givenBack (events : List Event) (uses : List LibraryDeal) (abort : Abort)
      (huses : ∀ d ∈ uses, d = .uses cfg.library.key (.session o.next))
      (hdeals : deals events = .takes cfg.library.key (.session o.next) ::
        (uses ++ [.returns cfg.library.key (.session o.next)]))
      (hfiles : ∀ handle, openFiles handle events = 0) (habort : abortStatus abort ≠ .success) :
      OpenTurn token cfg o { o with events := o.events ++ events, next := o.next + 1 } (some abort)

/-- Every turn is one of them. -/
theorem openDevice_turn {env : DriverEnv} {token : List UInt8} {k : Nat} {cfg : Configured}
    {o o' : Opening} {r : Option Abort} (h : openDevice env token k cfg o = (o', r)) :
    OpenTurn token cfg o o' r := by
  unfold openDevice at h
  split at h
  · rw [Prod.mk.injEq] at h
    rw [← h.1, ← h.2]
    exact OpenTurn.outOfMemory
  split at h
  · rename_i hstatus
    rw [handleFor_of_failure hstatus, Prod.mk.injEq] at h
    rw [← h.1, ← h.2]
    exact OpenTurn.notAllocated _ hstatus
  rename_i hstatus
  -- The library has answered with its next handle.
  simp only [handleFor_of_success (not_not.mp hstatus)] at h
  split at h
  · -- The token was refused.
    rename_i hauth
    rw [Prod.mk.injEq] at h
    rw [← h.1, ← h.2]
    exact OpenTurn.givenBack _ [.uses _ _] _ (fun d hd => List.mem_singleton.mp hd) rfl
      (fun _ => rfl) hauth.1
  rename_i hauth
  have hused : ∀ d ∈ [(.uses cfg.library.key (.session o.next) : LibraryDeal),
      .uses cfg.library.key (.session o.next)], d = .uses cfg.library.key (.session o.next) :=
    List.forall_mem_cons.mpr ⟨rfl, List.forall_mem_singleton.mpr rfl⟩
  split at h
  · -- The device session could not be initialized.
    rename_i hinit
    rw [Prod.mk.injEq] at h
    rw [← h.1, ← h.2]
    exact OpenTurn.givenBack _ _ _ hused rfl (fun _ => rfl) hinit
  rename_i hinit
  split at h
  · -- The vector could not take the device.
    rw [Prod.mk.injEq] at h
    rw [← h.1, ← h.2]
    exact OpenTurn.givenBack _ _ _ hused rfl (fun _ => rfl) (by decide)
  · rw [Prod.mk.injEq] at h
    rw [← h.1, ← h.2, not_not.mp hinit]
    refine OpenTurn.opened (env.status (3 * k + 1)) ?_
    by_cases hs : env.status (3 * k + 1) = .success
    · exact Or.inl hs
    · refine Or.inr ?_
      -- Any other status of the token parameter would have given the session back.
      by_contra hn
      exact hauth ⟨hs, hn⟩

/-- How often some deals take a device session. -/
def takesOf (ds : List LibraryDeal) (key : Nat × List UInt8) (n : Nat) : Nat :=
  ds.count (.takes key (.session n))

theorem takesOf_append (ds ds' : List LibraryDeal) (key : Nat × List UInt8) (n : Nat) :
    takesOf (ds ++ ds') key n = takesOf ds key n + takesOf ds' key n := List.count_append

/-- Taking one device session and using it. -/
theorem takesOf_takes {key : Nat × List UInt8} {m : Nat} {ds : List LibraryDeal}
    (hrest : ∀ d ∈ ds, ∀ key' r, d ≠ .takes key' r) (key' : Nat × List UInt8) (n : Nat) :
    takesOf (.takes key (.session m) :: ds) key' n ≤ if n = m then 1 else 0 := by
  have hnone : ds.count (.takes key' (.session n)) = 0 :=
    List.count_eq_zero.mpr (fun hmem => hrest _ hmem _ _ rfl)
  rw [takesOf, List.count_cons, hnone]
  by_cases hn : n = m
  · rw [if_pos hn]
    split
    · exact Nat.le_refl _
    · exact Nat.zero_le _
  · have hne : ¬ ((.takes key (.session m) : LibraryDeal) == .takes key' (.session n)) = true := by
      intro heq
      rw [beq_iff_eq, Deal.takes.injEq, Resource.session.injEq] at heq
      exact hn heq.2.symm
    rw [if_neg hn, if_neg hne]

/-- What holds of the devices opened so far, with the handles from `start` on. -/
structure OpeningInv (b : LibraryBooks) (start : Nat) (o : Opening) : Prop where
  start_le : start ≤ o.next
  range : ∀ d ∈ o.devices, start ≤ d.deviceSession ∧ d.deviceSession < o.next
  distinct : (o.devices.map Device.deviceSession).Nodup
  opened : ∀ d ∈ o.devices, b.opened d.library.key
  leads : Leads b (deals o.events) (withDevices b o.devices)
  files : ∀ handle, openFiles handle o.events = 0
  once : ∀ key n, takesOf (deals o.events) key n ≤ if n < o.next then 1 else 0

/-- What a loop that got through has done: the devices correspond to the
    configuration, and each was opened in its turn. -/
structure OpenedAs (token : List UInt8) (cfgs : List Configured) (o : Opening) : Prop where
  devices : List.Forall₂ (fun cfg d => d.library = cfg.library ∧ d.id = cfg.id) cfgs o.devices
  events : ∃ turns, List.Forall₂ (fun d turn => ∃ auth, Accepted auth ∧
    turn = openedEvents token d auth) o.devices turns ∧ o.events = turns.flatten

theorem withDevices_nil (b : LibraryBooks) : withDevices b [] = b := by
  ext key r
  · exact Iff.rfl
  · refine or_iff_left ?_
    rintro ⟨d, hd, _⟩
    exact absurd hd List.not_mem_nil

/-- Taking a device session is holding one more device. -/
theorem withDevices_takes (b : LibraryBooks) (devices : List Device) (d : Device) :
    (withDevices b devices).after (.takes d.library.key (.session d.deviceSession)) =
      withDevices b (devices ++ [d]) := by
  ext key r
  · exact Iff.rfl
  · constructor
    · rintro ((hin | ⟨d', hd', heq⟩) | heq)
      · exact Or.inl hin
      · exact Or.inr ⟨d', List.mem_append_left _ hd', heq⟩
      · exact Or.inr ⟨d, List.mem_append_right _ (List.mem_singleton.mpr rfl), heq⟩
    · rintro (hin | ⟨d', hd', heq⟩)
      · exact Or.inl (Or.inl hin)
      · rcases List.mem_append.mp hd' with hold | hnew
        · exact Or.inl (Or.inr ⟨d', hold, heq⟩)
        · rw [List.mem_singleton.mp hnew] at heq
          exact Or.inr heq

section

variable {token : List UInt8} {cfg : Configured} {o o' : Opening} {r : Option Abort}
  {b : LibraryBooks} {start : Nat}

/-- A turn keeps the invariant, however it ends. -/
theorem openTurn_inv (h : OpenTurn token cfg o o' r) (hinv : OpeningInv b start o)
    (hopen : b.opened cfg.library.key) (hfresh : ∀ key n, b.held key (.session n) → n < start) :
    OpeningInv b start o' := by
  -- The next handle is not held, by the driver or by this call.
  have hnew : ¬ (withDevices b o.devices).held cfg.library.key (.session o.next) := by
    rintro (hold | ⟨d, hd, _, heq⟩)
    · have hlt := hfresh _ _ hold
      have hle := hinv.start_le
      omega
    · have hlt := (hinv.range d hd).2
      rw [Resource.session.injEq] at heq
      omega
  -- A turn that takes a device session takes the next one.
  have htakes : ∀ {ds : List LibraryDeal}, (∀ d ∈ ds, ∀ key r, d ≠ .takes key r) → ∀ key n,
      takesOf (deals o.events ++ .takes cfg.library.key (.session o.next) :: ds) key n ≤
        if n < o.next + 1 then 1 else 0 := by
    intro ds hds key n
    have hold := hinv.once key n
    have hone : takesOf (.takes cfg.library.key (.session o.next) :: ds) key n ≤
        if n = o.next then 1 else 0 := takesOf_takes hds key n
    rw [takesOf_append]
    by_cases hlt : n < o.next
    · rw [if_pos hlt] at hold
      rw [if_neg (Nat.ne_of_lt hlt)] at hone
      rw [if_pos (Nat.lt_succ_of_lt hlt)]
      omega
    · rw [if_neg hlt] at hold
      by_cases heq : n = o.next
      · rw [if_pos heq] at hone
        rw [if_pos (by omega)]
        omega
      · rw [if_neg heq] at hone
        rw [if_neg (by omega)]
        omega
  have huse : ∀ {d : LibraryDeal} {key : Nat × List UInt8} {r : Resource}, d = .uses key r →
      ∀ key' r', d ≠ .takes key' r' := by
    intro d key r hd key' r'
    rw [hd]
    simp only [ne_eq, reduceCtorEq, not_false_eq_true]
  cases h with
  | opened auth hauth =>
      have hdeals : deals (openedEvents token (deviceFor cfg o.next) auth) =
          [.takes cfg.library.key (.session o.next), .uses cfg.library.key (.session o.next),
            .uses cfg.library.key (.session o.next)] := rfl
      have hnotin : o.next ∉ o.devices.map Device.deviceSession := by
        intro hmem
        rcases List.mem_map.mp hmem with ⟨d, hd, heq⟩
        have hlt := (hinv.range d hd).2
        omega
      refine ⟨Nat.le_succ_of_le hinv.start_le, fun d hd => ?_, ?_, fun d hd => ?_, ?_, ?_, ?_⟩
      · rcases List.mem_append.mp hd with hold | hlast
        · exact ⟨(hinv.range d hold).1, Nat.lt_succ_of_lt (hinv.range d hold).2⟩
        · rw [List.mem_singleton.mp hlast]
          exact ⟨hinv.start_le, Nat.lt_succ_self _⟩
      · rw [List.map_append]
        exact List.Nodup.append hinv.distinct (List.nodup_singleton _)
          (List.disjoint_singleton.mpr hnotin)
      · rcases List.mem_append.mp hd with hold | hlast
        · exact hinv.opened d hold
        · rw [List.mem_singleton.mp hlast]
          exact hopen
      · rw [deals_append, hdeals, ← withDevices_takes]
        refine leads_append hinv.leads (leads_takes hopen hnew ?_)
        exact List.forall_mem_cons.mpr ⟨rfl, List.forall_mem_singleton.mpr rfl⟩
      · intro handle
        rw [openFiles_append, hinv.files handle]
        rfl
      · rw [deals_append, hdeals]
        exact htakes (List.forall_mem_cons.mpr ⟨huse rfl, List.forall_mem_singleton.mpr (huse rfl)⟩)
  | outOfMemory => exact hinv
  | notAllocated status hstatus =>
      refine ⟨hinv.start_le, hinv.range, hinv.distinct, hinv.opened, ?_, fun handle => ?_,
        fun key n => ?_⟩
      · rw [deals_append]
        exact leads_append hinv.leads (leads_cons hopen (leads_nil _))
      · rw [openFiles_append, hinv.files handle]
        rfl
      · rw [deals_append, takesOf_append]
        exact hinv.once key n
  | givenBack events uses abort huses hdeals hfiles habort =>
      refine ⟨Nat.le_succ_of_le hinv.start_le, fun d hd => ?_, hinv.distinct, hinv.opened, ?_,
        fun handle => ?_, ?_⟩
      · exact ⟨(hinv.range d hd).1, Nat.lt_succ_of_lt (hinv.range d hd).2⟩
      · rw [deals_append, hdeals]
        exact leads_append hinv.leads (leads_borrow hopen hnew huses)
      · rw [openFiles_append, hinv.files handle, hfiles handle]
        rfl
      · rw [deals_append, hdeals]
        refine htakes (fun d hd => ?_)
        rcases List.mem_append.mp hd with hin | hlast
        · exact huse (huses d hin)
        · intro key r
          rw [List.mem_singleton.mp hlast]
          simp only [ne_eq, reduceCtorEq, not_false_eq_true]

/-- A turn that gets through adds its device. -/
theorem openTurn_openedAs {cfgs : List Configured} (h : OpenTurn token cfg o o' none)
    (hdone : OpenedAs token cfgs o) : OpenedAs token (cfgs ++ [cfg]) o' := by
  cases h with
  | opened auth hauth =>
      rcases hdone.events with ⟨turns, hturns, hevents⟩
      refine ⟨List.rel_append hdone.devices (List.Forall₂.cons ⟨rfl, rfl⟩ List.Forall₂.nil),
        turns ++ [openedEvents token (deviceFor cfg o.next) auth], ?_, ?_⟩
      · exact List.rel_append hturns (List.Forall₂.cons ⟨auth, hauth, rfl⟩ List.Forall₂.nil)
      · rw [List.flatten_append, hevents, List.flatten_singleton]

theorem openTurn_abort {abort : Abort} (h : OpenTurn token cfg o o' (some abort)) :
    abortStatus abort ≠ .success := by
  cases h with
  | outOfMemory => decide
  | notAllocated status hstatus => exact hstatus
  | givenBack _ _ _ _ _ _ habort => exact habort

end

/-- The loop of `QDMI_session_init` does not give up with a success. -/
theorem openDevices_abort {env : DriverEnv} {token : List UInt8} {cfgs : List Configured}
    {o o' : Opening} {abort : Abort} (h : openDevices env token 0 cfgs o = (o', some abort)) :
    abortStatus abort ≠ .success :=
  (loopFrom_induct (P := fun _ _ => True) (Q := fun _ abort => abortStatus abort ≠ .success)
    (fun _ _ _ _ _ _ _ _ => trivial)
    (fun _ _ _ _ _ _ _ _ hb => openTurn_abort (openDevice_turn hb)) trivial h).2 abort rfl

/-- The loop of `QDMI_session_init`, through to its end or not. -/
theorem openDevices_inv {env : DriverEnv} {token : List UInt8} {cfgs : List Configured}
    {b : LibraryBooks} {start : Nat} {o : Opening} {r : Option Abort}
    (h : openDevices env token 0 cfgs { next := start } = (o, r))
    (hopen : ∀ cfg ∈ cfgs, b.opened cfg.library.key)
    (hfresh : ∀ key n, b.held key (.session n) → n < start) :
    OpeningInv b start o ∧ (r = none → OpenedAs token cfgs o) := by
  -- Before the first device nothing has been taken.
  have hstart : OpeningInv b start { next := start } := by
    refine ⟨Nat.le_refl _, fun _ hd => absurd hd List.not_mem_nil, List.nodup_nil,
      fun _ hd => absurd hd List.not_mem_nil, ?_, fun _ => rfl, fun _ _ => Nat.zero_le _⟩
    rw [withDevices_nil]
    exact leads_nil b
  have hnone : OpenedAs token [] { next := start } :=
    ⟨List.Forall₂.nil, [], List.Forall₂.nil, rfl⟩
  rcases loopFrom_induct (P := fun done o => OpeningInv b start o ∧ OpenedAs token done o)
    (Q := fun o _ => OpeningInv b start o)
    (fun _ cfg _ _ _ hP hcfg hb => ⟨openTurn_inv (openDevice_turn hb) hP.1 (hopen cfg hcfg) hfresh,
      openTurn_openedAs (openDevice_turn hb) hP.2⟩)
    (fun _ cfg _ _ _ _ hP hcfg hb =>
      openTurn_inv (openDevice_turn hb) hP.1 (hopen cfg hcfg) hfresh)
    ⟨hstart, hnone⟩ h with ⟨hP, hQ⟩
  rcases r with _ | abort
  · exact ⟨(hP rfl).1, fun _ => (hP rfl).2⟩
  · exact ⟨hQ abort rfl, fun hr => absurd hr (by simp only [reduceCtorEq, not_false_eq_true])⟩

theorem deals_freeDevices (devices : List Device) :
    deals (freeDevices devices) =
      (devices.map (fun d => (d.library.key, Resource.session d.deviceSession))).map
        (fun x => .returns x.1 x.2) := by
  induction devices with
  | nil => rfl
  | cons d rest ih =>
      have hcons : deals (freeDevices (d :: rest)) =
          .returns d.library.key (.session d.deviceSession) :: deals (freeDevices rest) := rfl
      rw [hcons, ih]
      rfl

theorem openFiles_freeDevices (handle : Nat) (devices : List Device) :
    openFiles handle (freeDevices devices) = 0 := by
  induction devices with
  | nil => rfl
  | cons d rest ih =>
      have hcons : openFiles handle (freeDevices (d :: rest)) =
          0 + openFiles handle (freeDevices rest) := rfl
      rw [hcons, ih]
      rfl

/-- Giving back devices with device sessions of their own. -/
theorem leads_freeDevices {b : LibraryBooks} {devices : List Device}
    (hdistinct : (devices.map Device.deviceSession).Nodup)
    (hopen : ∀ d ∈ devices, b.opened d.library.key)
    (hnew : ∀ d ∈ devices, ¬ b.held d.library.key (.session d.deviceSession)) :
    Leads (withDevices b devices) (deals (freeDevices devices)) b := by
  have hnodup : (devices.map
      (fun d => (d.library.key, Resource.session d.deviceSession))).Nodup := by
    refine List.Nodup.of_map (fun x => x.2) ?_
    rw [List.map_map]
    have hsessions := hdistinct.map (f := Resource.session)
      (fun _ _ heq => Resource.session.inj heq)
    rwa [List.map_map] at hsessions
  have hleads := leads_returns (b := withDevices b devices) _ hnodup (fun x hx => by
    rcases List.mem_map.mp hx with ⟨d, hd, heq⟩
    rw [← heq]
    exact ⟨hopen d hd, Or.inr ⟨d, hd, rfl, rfl⟩⟩)
  rw [deals_freeDevices]
  -- Giving back all devices undoes what adding them did.
  have hbooks : { withDevices b devices with
      held := fun key r => (withDevices b devices).held key r ∧
        (key, r) ∉ devices.map (fun d => (d.library.key, Resource.session d.deviceSession)) } =
      b := by
    ext key r
    · exact Iff.rfl
    · constructor
      · rintro ⟨hin | ⟨d, hd, hkey, hr⟩, hnot⟩
        · exact hin
        · exact absurd (List.mem_map.mpr ⟨d, hd, by rw [hkey, hr]⟩) hnot
      · intro hin
        refine ⟨Or.inl hin, fun hmem => ?_⟩
        rcases List.mem_map.mp hmem with ⟨d, hd, heq⟩
        rw [Prod.mk.injEq] at heq
        rw [← heq.1, ← heq.2] at hin
        exact hnew d hd hin
  rwa [hbooks] at hleads

end Driver

end Qdmi
