import Qdmi.Theory.Driver.Opening

/-!
# The Calls of a Turn

What `QDMI_session_init` calls while it opens one device, call by call, and why a
turn ends it.

The books only see what a turn takes, uses and gives back. Here its calls are
spelled out with the answers they got, so that a library that is known can be
asked whether it would have answered so. A turn ends the loop for one of two
reasons: an allocation of the driver fails, or a library answers with a status
the driver does not accept, which is then the status of the whole call.

## Main definitions

* `TurnCalls`: The calls of a turn, and how it ends.
* `LibraryCall.ofSession`, `SessionsOnly`: Calls about device sessions.

## Theorems

* `openDevice_calls`: Every turn is one of them.
* `openDevices_calls`: The turns of a loop, up to the one that ends it.
* `openDevices_sessionsOnly`: A loop makes calls about device sessions only.
-/

namespace Qdmi

namespace Driver

/-- The calls of a turn that is about to open a device, and how it ends. -/
inductive TurnCalls (env : DriverEnv) (token : List UInt8) (d : Device) :
    List Event → Option Abort → Prop where
  | outOfMemory (hmem : ∃ i, env.mem i = false) :
      TurnCalls env token d [] (some (.thrown .badAlloc))
  | notAllocated (status : Status) (hstatus : status ≠ .success) :
      TurnCalls env token d [.call d.library.key (.deviceSessionAlloc status none)]
        (some (.returned status))
  | notAccepted (auth : Status) (hauth : ¬ Accepted auth) :
      TurnCalls env token d
        [.call d.library.key (.deviceSessionAlloc .success (some d.deviceSession)),
          .call d.library.key (.deviceSessionSetParameter d.deviceSession
            DeviceSessionParameter.token (token ++ [0]) auth),
          freeDevice d] (some (.returned auth))
  | notInitialized (auth status : Status) (hauth : Accepted auth) (hstatus : status ≠ .success) :
      TurnCalls env token d
        [.call d.library.key (.deviceSessionAlloc .success (some d.deviceSession)),
          .call d.library.key (.deviceSessionSetParameter d.deviceSession
            DeviceSessionParameter.token (token ++ [0]) auth),
          .call d.library.key (.deviceSessionInit d.deviceSession status),
          freeDevice d] (some (.returned status))
  | notStored (auth : Status) (hauth : Accepted auth) (hmem : ∃ i, env.mem i = false) :
      TurnCalls env token d (openedEvents token d auth ++ [freeDevice d])
        (some (.thrown .badAlloc))
  | opened (auth : Status) (hauth : Accepted auth) :
      TurnCalls env token d (openedEvents token d auth) none

/-- Every turn is one of them. -/
theorem openDevice_calls {env : DriverEnv} {token : List UInt8} {k : Nat} {cfg : Configured}
    {o o' : Opening} {r : Option Abort} (h : openDevice env token k cfg o = (o', r)) :
    ∃ events, o'.events = o.events ++ events ∧
      TurnCalls env token (deviceFor cfg o.next) events r := by
  unfold openDevice at h
  split at h
  · rename_i hmem
    rw [Prod.mk.injEq] at h
    rw [← h.1, ← h.2]
    refine ⟨[], (List.append_nil _).symm, TurnCalls.outOfMemory ?_⟩
    rw [Bool.or_eq_true, Bool.not_eq_true', Bool.not_eq_true'] at hmem
    exact hmem.elim (fun h => ⟨_, h⟩) (fun h => ⟨_, h⟩)
  split at h
  · rename_i hstatus
    rw [handleFor_of_failure hstatus, Prod.mk.injEq] at h
    rw [← h.1, ← h.2]
    exact ⟨_, rfl, TurnCalls.notAllocated _ hstatus⟩
  rename_i hstatus
  -- The library has answered with its next handle.
  simp only [handleFor_of_success (not_not.mp hstatus)] at h
  split at h
  · -- The token was refused.
    rename_i hauth
    rw [Prod.mk.injEq] at h
    rw [← h.1, ← h.2]
    exact ⟨_, rfl, TurnCalls.notAccepted _ (fun hc => hc.elim hauth.1 hauth.2)⟩
  rename_i hauth
  have haccept : Accepted (env.status (3 * k + 1)) := by
    by_contra hn
    rw [Accepted, not_or] at hn
    exact hauth hn
  split at h
  · rename_i hinit
    rw [Prod.mk.injEq] at h
    rw [← h.1, ← h.2]
    exact ⟨_, rfl, TurnCalls.notInitialized _ _ haccept hinit⟩
  rename_i hinit
  rw [not_not.mp hinit] at h
  split at h
  · -- The vector could not take the device.
    rename_i hmem
    rw [Prod.mk.injEq] at h
    rw [← h.1, ← h.2]
    rw [Bool.not_eq_true'] at hmem
    exact ⟨_, rfl, TurnCalls.notStored _ haccept ⟨_, hmem⟩⟩
  · rw [Prod.mk.injEq] at h
    rw [← h.1, ← h.2]
    exact ⟨_, rfl, TurnCalls.opened _ haccept⟩

/-- The calls of the loop, up to the turn that ends it. -/
theorem openDevices_calls {env : DriverEnv} {token : List UInt8} {cfgs : List Configured}
    {start : Nat} {o : Opening} {abort : Abort}
    (h : openDevices env token 0 cfgs { next := start } = (o, some abort)) :
    ∃ before cfg n events, cfg ∈ cfgs ∧ o.events = before ++ events ∧
      TurnCalls env token (deviceFor cfg n) events (some abort) :=
  (loopFrom_induct (P := fun _ _ => True)
    (Q := fun o abort => ∃ before cfg n events, cfg ∈ cfgs ∧ o.events = before ++ events ∧
      TurnCalls env token (deviceFor cfg n) events (some abort))
    (fun _ _ _ _ _ _ _ _ => trivial)
    (fun _ cfg _ o _ _ _ hcfg hb => by
      rcases openDevice_calls hb with ⟨events, hevents, hturn⟩
      exact ⟨o.events, cfg, o.next, events, hcfg, hevents, hturn⟩) trivial h).2 abort rfl

/-! ## Calls about device sessions -/

/-- A call about a device session that is opened or given back. -/
def LibraryCall.ofSession : LibraryCall → Bool
  | .deviceSessionAlloc _ _ => true
  | .deviceSessionSetParameter _ _ _ _ => true
  | .deviceSessionInit _ _ => true
  | .deviceSessionFree _ => true
  | _ => false

/-- No other calls are made. -/
def SessionsOnly (events : List Event) : Prop :=
  ∀ key call, .call key call ∈ events → call.ofSession = true

theorem sessionsOnly_append {events events' : List Event} (h : SessionsOnly events)
    (h' : SessionsOnly events') : SessionsOnly (events ++ events') := fun key call hmem =>
  (List.mem_append.mp hmem).elim (h key call) (h' key call)

theorem sessionsOnly_freeDevices (devices : List Device) : SessionsOnly (freeDevices devices) := by
  intro key call hmem
  rcases List.mem_map.mp hmem with ⟨d, _, heq⟩
  rw [← (Event.call.inj heq).2]
  rfl

theorem turnCalls_sessionsOnly {env : DriverEnv} {token : List UInt8} {d : Device}
    {events : List Event} {r : Option Abort} (h : TurnCalls env token d events r) :
    SessionsOnly events := by
  intro key call hmem
  cases h
  all_goals simp only [openedEvents, freeDevice, List.cons_append, List.nil_append, List.mem_cons,
    List.not_mem_nil, or_false, Event.call.injEq] at hmem
  case notAllocated => rw [hmem.2]; rfl
  case notAccepted =>
      rcases hmem with h | h | h
      all_goals rw [h.2]; rfl
  case notInitialized =>
      rcases hmem with h | h | h | h
      all_goals rw [h.2]; rfl
  case notStored =>
      rcases hmem with h | h | h | h
      all_goals rw [h.2]; rfl
  case opened =>
      rcases hmem with h | h | h
      all_goals rw [h.2]; rfl

/-- The loop makes no other calls. -/
theorem openDevices_sessionsOnly {env : DriverEnv} {token : List UInt8} {cfgs : List Configured}
    {start : Nat} {o : Opening} {r : Option Abort}
    (h : openDevices env token 0 cfgs { next := start } = (o, r)) : SessionsOnly o.events := by
  have hturn : ∀ {k cfg} {o o' : Opening} {r}, SessionsOnly o.events →
      openDevice env token k cfg o = (o', r) → SessionsOnly o'.events := by
    intro k cfg o o' r hP hb
    rcases openDevice_calls hb with ⟨events, hevents, hcalls⟩
    rw [hevents]
    exact sessionsOnly_append hP (turnCalls_sessionsOnly hcalls)
  rcases loopFrom_induct (P := fun _ o => SessionsOnly o.events)
    (Q := fun o _ => SessionsOnly o.events) (fun _ _ _ _ _ hP _ hb => hturn hP hb)
    (fun _ _ _ _ _ _ hP _ hb => hturn hP hb)
    (fun _ _ hmem => absurd hmem List.not_mem_nil) h with ⟨hP, hQ⟩
  rcases r with _ | abort
  · exact hP rfl
  · exact hQ abort rfl

end Driver

end Qdmi
