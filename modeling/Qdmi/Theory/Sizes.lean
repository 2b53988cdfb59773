import Qdmi.Theory.Device.Sizes
import Qdmi.Theory.Driver.Catalogue

/-!
# The Size Protocol of Device and Driver

The driver passes most queries on, and what the client is told is what the
library said. Two it answers itself, the list of the devices of a session and
the ID of a device. With these the size protocol covers every query that
reports a size.

The rule has one exception, and both components make it on purpose. A buffer
of no bytes is refused before anything is looked at, even when there are no
bytes to be written; `probe_empty` is a session without devices.

## Theorems

* `sessionQuerySessionProperty_sizes`: The list of devices.
* `deviceQueryDeviceProperty_sizes`: The ID of a device.
* `runs_followSizes`: Every query of the device and the driver.
* `probe_empty`: An empty list cannot be fetched with a buffer of its size.
-/

namespace Qdmi

namespace Driver

theorem sessionQuerySessionProperty_answersOrFails (addr : DeviceHandle → Nat) (s : DriverState)
    (session : Option Nat) (prop : Nat) :
    AnswersOrFails (sessionQuerySessionProperty addr s session prop) := by
  unfold sessionQuerySessionProperty
  rcases session with _ | h
  · exact answersOrFails_reject (by decide)
  refine guarded_answersOrFails ?_ _
  rcases s.sessions.get? h with _ | sess
  · exact answersOrFails_fault _
  refine answersOrFails_ite (fun _ => answersOrFails_reject (by decide)) (fun _ => ?_)
  refine answersOrFails_ite (fun _ => answersOrFails_reject (by decide)) (fun _ => ?_)
  -- The loop writes one address of eight bytes for each device.
  refine Or.inl ⟨(List.range sess.deviceList.length).flatMap
    (fun i => sizeTBytes (addr { session := h, index := i })), respond_puts_answers ?_ ?_⟩
  · rw [List.length_flatMap]
    simp only [sizeTBytes, length_leBytes, List.map_const', List.sum_replicate_nat,
      List.length_range]
  · exact fun buf ret => foldlM_puts _ _ _ (fun _ _ _ => rfl) _

/-- The list of the devices of a session. -/
theorem sessionQuerySessionProperty_sizes (addr : DeviceHandle → Nat) (s : DriverState)
    (session : Option Nat) (prop : Nat) :
    FollowsSizes (fun out => (sessionQuerySessionProperty addr s session prop out).map .ok)
      (fun out => (sessionQuerySessionProperty addr s session prop out).map .ok) := by
  refine followsSizes_of_answersOrFails
    (sessionQuerySessionProperty_answersOrFails addr s session prop) ?_
    (fun _ => rfl) (fun _ => rfl)
  rcases session with _ | h
  · exact fun _ => ⟨none, rfl⟩
  · exact fun _ => ⟨none, rfl⟩

/-- What a client is told by `QDMI_device_query_device_property`. -/
def deviceProperty (s : DriverState) (env : DriverEnv) (dev : Option DeviceHandle) (prop : Nat)
    (out : OutArgs) : Except Fault (Except Exn Reply) :=
  (deviceQueryDeviceProperty s env dev prop out).map (fun r => r.1.reply)

/-- The ID of a device. -/
theorem deviceQueryDeviceProperty_sizes (s : DriverState) (env : DriverEnv)
    (dev : Option DeviceHandle) : FollowsSizes (deviceProperty s env dev DeviceProperty.id.code)
      (deviceProperty s env dev DeviceProperty.id.code) := by
  rcases dev with _ | dev
  · exact followsSizes_of_fails (fails_reject (by decide : Status.errorInvalidargument ≠ _))
      (fun _ => rfl) _
  rcases hdev : deviceAt s dev with _ | ⟨sess, d⟩
  · refine followsSizes_of_fails (fails_fault .danglingHandle) (fun out => ?_) _
    simp only [deviceProperty, deviceQueryDeviceProperty, hdev, if_true]
    rfl
  -- The driver answers the id itself, in the way the query does.
  have hsame : ∀ out, deviceProperty s env (some dev) DeviceProperty.id.code out =
      (queryDeviceId d out).map .ok := by
    intro out
    simp only [deviceProperty, deviceQueryDeviceProperty, hdev, if_true]
    rcases queryDeviceId d out with e | reply
    · rfl
    · rfl
  have hq := queryDeviceId_answers d
  have hne : d.id ++ [0] ≠ [] := List.append_ne_nil_of_right_ne_nil _ (List.cons_ne_nil _ _)
  exact followsSizes_of_answers hq (refusesEmpty_of_answers hq hne) hsame hsame

end Driver

section

variable {R : Type} [Zero R] [DecidableEq R] [Add R] [Mul R] [Div R] [DoubleRepr R]

/-- In every reachable state of the device and in every state of the driver,
    the queries they answer follow the size protocol. -/
theorem runs_followSizes (img : Image) (tr : List (DeviceEntry R)) (s : DeviceState R)
    (hrun : DeviceRuns img tr s) (q : Query) (hclaimed : SizesClaimed s q) (mem mem' : Alloc)
    (hmem : ∀ k, mem' k = true) (addr : Driver.DeviceHandle → Nat) (u : Driver.DriverState)
    (env : Driver.DriverEnv) (session : Option Nat) (dev : Option Driver.DeviceHandle)
    (prop : Nat) :
    FollowsSizes (deviceQuery img s mem q) (deviceQuery img s mem' q) ∧
    FollowsSizes
      (fun out => (Driver.sessionQuerySessionProperty addr u session prop out).map .ok)
      (fun out => (Driver.sessionQuerySessionProperty addr u session prop out).map .ok) ∧
    FollowsSizes (Driver.deviceProperty u env dev DeviceProperty.id.code)
      (Driver.deviceProperty u env dev DeviceProperty.id.code) :=
  ⟨deviceRuns_sizes hrun hclaimed mem hmem,
    Driver.sessionQuerySessionProperty_sizes addr u session prop,
    Driver.deviceQueryDeviceProperty_sizes u env dev⟩

end

/-- A driver with one initialized session, on one device. -/
def openState : Driver.DriverState :=
  let library : Driver.Library := { handle := 0, libPrefix := [65], retrieve := true }
  { libraries := [library]
    configuredDevices := [{ library, id := ascii "one" }]
    count := 1
    sessions := ⟨[some {
      status := .initialized
      deviceList := [{ library, deviceSession := 0, id := ascii "one" }]
      token := some [7]
      bare := fun hst => absurd hst (by decide) }]⟩
    nextHandle := 1 }

/-- The program of a job, the devices of a session and the ID of one. -/
theorem runs_followSizes_sample : ∃ tr s, DeviceRuns (R := ℚ) sampleImage tr s ∧
    FollowsSizes (deviceQuery sampleImage s (fun _ => true) (.jobProgram (some 0) 0))
      (deviceQuery sampleImage s (fun _ => true) (.jobProgram (some 0) 0)) ∧
    FollowsSizes
      (fun out => (Driver.sessionQuerySessionProperty (fun _ => 0) openState (some 0)
        SessionProperty.devices out).map .ok)
      (fun out => (Driver.sessionQuerySessionProperty (fun _ => 0) openState (some 0)
        SessionProperty.devices out).map .ok) ∧
    FollowsSizes
      (Driver.deviceProperty openState Driver.sampleEnv (some { session := 0, index := 0 })
        DeviceProperty.id.code)
      (Driver.deviceProperty openState Driver.sampleEnv (some { session := 0, index := 0 })
        DeviceProperty.id.code) ∧
    Driver.deviceProperty openState Driver.sampleEnv (some { session := 0, index := 0 })
      DeviceProperty.id.code ⟨4, some [9, 9, 9, 9], true⟩ =
      .ok (.ok { status := .success, value := some (ascii "one" ++ [0]), sizeRet := some 4 }) := by
  rcases deviceRuns_sample sampleSetup (.created, 1, 0) rfl with ⟨tr, s, jb, hrun, _, hget, hjb⟩
  rcases runs_followSizes sampleImage tr s hrun (.jobProgram (some 0) 0) trivial (fun _ => true)
    (fun _ => true) (fun _ => rfl) (fun _ => 0) openState Driver.sampleEnv (some 0)
    (some { session := 0, index := 0 }) SessionProperty.devices with ⟨hjob, hdevices, hid⟩
  exact ⟨tr, s, hrun, hjob, hdevices, hid, rfl⟩

namespace Driver

/-- An empty configuration, and a session that is initialized with it. -/
def emptyCalls : List DriverCall := [
  ⟨.sessionAlloc true, { sampleEnv with config := .text [] }⟩,
  ⟨.sessionSetParameter (some 0) SessionParameter.token 1 (some (fun _ => 0)), sampleEnv⟩,
  ⟨.sessionInit (some 0), sampleEnv⟩]

/-- The statuses of the probe and of a call with a buffer of no bytes. -/
def playProbe (addr : DeviceHandle → Nat) (calls : List DriverCall) :
    Option (Except Fault Reply × Except Fault Reply) :=
  match play (driverStep addr) {} calls with
  | .ok (_, s) => some
    (sessionQuerySessionProperty addr s (some 0) SessionProperty.devices ⟨0, none, true⟩,
      sessionQuerySessionProperty addr s (some 0) SessionProperty.devices ⟨0, some [], true⟩)
  | .error _ => none

/-- A session without devices reports that its list takes no bytes and refuses
    a buffer of no bytes. -/
theorem probe_empty : ∃ tr s, DriverRuns (fun _ => 0) tr s ∧
    sessionQuerySessionProperty (fun _ => 0) s (some 0) SessionProperty.devices ⟨0, none, true⟩ =
      .ok { status := .success, sizeRet := some 0 } ∧
    sessionQuerySessionProperty (fun _ => 0) s (some 0) SessionProperty.devices ⟨0, some [], true⟩ =
      .ok { status := .errorInvalidargument, value := some [] } := by
  have hplay : playProbe (fun _ => 0) emptyCalls = some
      (.ok { status := .success, sizeRet := some 0 },
        .ok { status := .errorInvalidargument, value := some [] }) := by rfl
  unfold playProbe at hplay
  split at hplay
  · rename_i tr s hrun
    rw [Option.some.injEq, Prod.mk.injEq] at hplay
    exact ⟨tr, s, runs_of_play _ hrun, hplay.1, hplay.2⟩
  · exact absurd hplay (by simp only [reduceCtorEq, not_false_eq_true])

end Driver

end Qdmi
