import Qdmi.Theory.Driver.Move

/-!
# Sessions and Their Devices

What a move does to the sessions, and to the devices a client reaches through
them.

There are only four things a move can do to the sessions: nothing, allocate
one, replace one that is still allocated, or free one. A session that has been
initialized is therefore left as it is for as long as it lives.

## Main definitions

* `SessionsMove`: What a move does to the sessions.
* `SessionsKept`: A session that has been initialized is as it was, or gone.
* `deviceOf`: The device behind a device handle.

## Theorems

* `driverMove_sessions`: A move does one of four things.
* `sessionsKept_move`, `runs_sessionsKept`: Sessions that have been initialized.
* `deviceOf_set`, `deviceOf_alloc`, `deviceOf_free`: The devices after a move.
-/

namespace Qdmi

namespace Driver

/-- What a move does to the sessions. -/
inductive SessionsMove (hp : Heap Session) : Heap Session → Prop where
  | same : SessionsMove hp hp
  | alloc : SessionsMove hp (hp.alloc {})
  | replace (h : Nat) (sess sess' : Session) (hget : hp.get? h = some sess)
      (hst : sess.status = .allocated) :
      SessionsMove hp (hp.set h sess')
  | free (h : Nat) : SessionsMove hp (hp.free h)

/-- A move does one of four things to the sessions. -/
theorem driverMove_sessions {s t : DriverState} {c : DriverCall} {out : DriverOut}
    (hmove : DriverMove s c out t) : SessionsMove s.sessions t.sessions := by
  cases hmove with
  | stay | loadFails | refuseJob | adoptJob | freeJob | passJob | passQuery =>
      exact SessionsMove.same
  | allocFirst | allocNext => exact SessionsMove.alloc
  | initFails h sess token o abort hop hget hst =>
      exact SessionsMove.replace h sess _ hget hst
  | init h sess token o hop hget hst =>
      exact SessionsMove.replace h sess _ hget hst
  | free h | freeLast h => exact SessionsMove.free h
  | setToken h sess token hop hget hst =>
      exact SessionsMove.replace h sess _ hget hst

/-- A session that has been initialized is as it was, or gone for good. -/
def SessionsKept (hp hp' : Heap Session) : Prop :=
  hp.next ≤ hp'.next ∧ ∀ h sess', h < hp.next → hp'.get? h = some sess' →
    ∃ sess, hp.get? h = some sess ∧ (sess.status = .initialized → sess' = sess)

theorem sessionsKept_refl (hp : Heap Session) : SessionsKept hp hp :=
  ⟨Nat.le_refl _, fun _ sess' _ hget => ⟨sess', hget, fun _ => rfl⟩⟩

theorem sessionsKept_trans {hp hp' hp'' : Heap Session} (h : SessionsKept hp hp')
    (h' : SessionsKept hp' hp'') : SessionsKept hp hp'' := by
  refine ⟨Nat.le_trans h.1 h'.1, fun i sess'' hi hget => ?_⟩
  rcases h'.2 i sess'' (Nat.lt_of_lt_of_le hi h.1) hget with ⟨sess', hget', hsame'⟩
  rcases h.2 i sess' hi hget' with ⟨sess, hget₀, hsame⟩
  refine ⟨sess, hget₀, fun hst => ?_⟩
  have heq := hsame hst
  rw [hsame' (heq ▸ hst), heq]

theorem sessionsKept_move {hp hp' : Heap Session} (hmove : SessionsMove hp hp') :
    SessionsKept hp hp' := by
  cases hmove with
  | same => exact sessionsKept_refl hp
  | alloc =>
      refine ⟨by rw [Heap.next_alloc]; omega, fun i sess' hi hget => ?_⟩
      rw [Heap.get?_alloc, if_neg (Nat.ne_of_lt hi)] at hget
      exact ⟨sess', hget, fun _ => rfl⟩
  | replace h old new hget hold =>
      refine ⟨by rw [Heap.next_set], fun i sess' hi hget' => ?_⟩
      rw [Heap.get?_set _ _ _ _ hget] at hget'
      by_cases hh : i = h
      · -- The session was allocated, so there is nothing to keep.
        refine ⟨old, hh ▸ hget, fun hst => ?_⟩
        rw [hold] at hst
        exact absurd hst (by simp only [reduceCtorEq, not_false_eq_true])
      · rw [if_neg hh] at hget'
        exact ⟨sess', hget', fun _ => rfl⟩
  | free h =>
      refine ⟨by rw [Heap.next_free], fun i sess' hi hget' => ?_⟩
      rw [Heap.get?_free] at hget'
      by_cases hh : i = h
      · rw [if_pos hh] at hget'
        exact absurd hget' (by simp only [reduceCtorEq, not_false_eq_true])
      · rw [if_neg hh] at hget'
        exact ⟨sess', hget', fun _ => rfl⟩

theorem runs_sessionsKept {addr : DeviceHandle → Nat} {s u : DriverState} {tr : List DriverEntry}
    (hrun : Runs (driverStep addr) s tr u) : SessionsKept s.sessions u.sessions :=
  runs_relation (R := fun s u => SessionsKept s.sessions u.sessions)
    (fun _ => sessionsKept_refl _) (fun _ _ _ => sessionsKept_trans)
    (fun _ _ _ _ hstep => sessionsKept_move (driverMove_sessions (driverStep_move hstep))) hrun

/-! ## The devices after a move -/

/-- The device behind a device handle. -/
def deviceOf (s : DriverState) (dev : DeviceHandle) : Option Device :=
  (s.sessions.get? dev.session).bind (fun sess => sess.deviceList[dev.index]?)

theorem deviceOf_of_deviceAt {s : DriverState} {dev : DeviceHandle} {sess : Session} {d : Device}
    (h : deviceAt s dev = some (sess, d)) :
    s.sessions.get? dev.session = some sess ∧ deviceOf s dev = some d := by
  rcases Option.bind_eq_some_iff.mp h with ⟨sess', hget, hmap⟩
  rcases Option.map_eq_some_iff.mp hmap with ⟨d', hd, heq⟩
  rw [Prod.mk.injEq] at heq
  rw [deviceOf, hget, ← heq.1, ← heq.2]
  exact ⟨rfl, hd⟩

section

variable {s : DriverState} {h : Nat} {sess sess' : Session} {dev : DeviceHandle}

/-- The devices of a session that is live. -/
theorem deviceOf_eq (hget : s.sessions.get? h = some sess) (hdev : dev.session = h) :
    deviceOf s dev = sess.deviceList[dev.index]? := by
  rw [deviceOf, hdev, hget, Option.bind_some]

/-- No session, no devices. -/
theorem deviceOf_none (hget : s.sessions.get? dev.session = none) : deviceOf s dev = none := by
  rw [deviceOf, hget, Option.bind_none]

/-- The devices after a session is replaced. -/
theorem deviceOf_set {t : DriverState} (hget : s.sessions.get? h = some sess)
    (ht : t.sessions = s.sessions.set h sess') :
    deviceOf t dev = if dev.session = h then sess'.deviceList[dev.index]? else deviceOf s dev := by
  rw [deviceOf, ht, Heap.get?_set _ _ _ _ hget]
  by_cases hdev : dev.session = h
  · rw [if_pos hdev, if_pos hdev, Option.bind_some]
  · rw [if_neg hdev, if_neg hdev, deviceOf]

/-- A session replaced by one with the same devices. -/
theorem deviceOf_set_same {t : DriverState} (hget : s.sessions.get? h = some sess)
    (ht : t.sessions = s.sessions.set h sess') (hsame : sess'.deviceList = sess.deviceList) :
    deviceOf t dev = deviceOf s dev := by
  rw [deviceOf_set hget ht, hsame]
  by_cases hdev : dev.session = h
  · rw [if_pos hdev, deviceOf_eq hget hdev]
  · rw [if_neg hdev]

/-- A new session has no devices. -/
theorem deviceOf_alloc {t : DriverState} (ht : t.sessions = s.sessions.alloc {}) :
    deviceOf t dev = deviceOf s dev := by
  rw [deviceOf, ht, Heap.get?_alloc]
  by_cases hdev : dev.session = s.sessions.next
  · rw [if_pos hdev, deviceOf_none (hdev ▸ Heap.get?_next s.sessions)]
    rfl
  · rw [if_neg hdev, deviceOf]

/-- A freed session has no devices any more. -/
theorem deviceOf_free {t : DriverState} (ht : t.sessions = s.sessions.free h) :
    deviceOf t dev = if dev.session = h then none else deviceOf s dev := by
  rw [deviceOf, ht, Heap.get?_free]
  by_cases hdev : dev.session = h
  · rw [if_pos hdev, if_pos hdev, Option.bind_none]
  · rw [if_neg hdev, if_neg hdev, deviceOf]

end

end Driver

end Qdmi
