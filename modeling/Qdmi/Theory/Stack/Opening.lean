import Qdmi.Theory.Stack.Kept

/-!
# Opening a Device and Asking It for a Job

What becomes of a device session and of a device job in the library, when the
driver makes the calls by which it opens a device or creates a job.

The driver passes the token of a session with its terminator. So the token a
device session gets is never empty, and the example device, which rejects an
empty token, accepts every session the driver opens. `worldRuns_opened` is the
result of the three calls: a session that is initialized, with the token of the
client and a zero behind it.

## Theorems

* `worldStep_call`: A step that is a call.
* `alloc_sessionAt`, `setToken_sessionAt`, `init_sessionAt`: The three calls.
* `worldRuns_opened`: All three.
* `createDeviceJob_jobAt`: The job that is created.
-/

namespace Qdmi

namespace Driver

variable {R : Type}

theorem readBytes_getD (value : List UInt8) :
    readBytes (fun i => value.getD i 0) value.length = value := by
  refine List.ext_getElem? fun i => ?_
  rw [readBytes, List.getElem?_map]
  by_cases hi : i < value.length
  · rw [List.getElem?_range hi, List.getElem?_eq_getElem hi, Option.map_some,
      List.getD_eq_getElem?_getD, List.getElem?_eq_getElem hi, Option.getD_some]
  · rw [List.getElem?_eq_none (Nat.le_of_not_lt hi), List.getElem?_eq_none (by
      rw [List.length_range]
      exact Nat.le_of_not_lt hi), Option.map_none]

section

variable [Zero R] [DecidableEq R] [Add R] [Mul R] [Div R] [DoubleRepr R]
variable {img : Nat × List UInt8 → Image} {w w' : World R} {a : Delivery R}
variable {o : Option (Call R × Except Exn Reply)} {key : Nat × List UInt8} {n : Nat}

/-- A step that is a call. -/
theorem worldStep_call {call : LibraryCall} (hstep : worldStep img w a = .ok (o, w'))
    (hevent : a.event = .call key call) : ∃ op outcome s, call.op (img key) (w key) = .ok op ∧
      deviceStep (img key) ((w key).found a.fresh call) ⟨op, a.env⟩ = .ok (outcome, s) ∧
      call.hears outcome = true ∧ o = some (⟨op, a.env⟩, outcome) ∧
      w' = Function.update w key ((w key).after s outcome call) := by
  rcases worldStep_cases hstep with
    ⟨_, _, _, hno⟩ | ⟨key', call', op, outcome, s, hevent', hop, hdev, hhears, ho, hw⟩
  · exact absurd hevent (hno key call)
  · rw [hevent', Event.call.injEq] at hevent
    rcases hevent with ⟨rfl, rfl⟩
    exact ⟨op, outcome, s, hop, hdev, hhears, ho, hw⟩

/-- A session that is allocated. -/
theorem alloc_sessionAt (hstep : worldStep img w a = .ok (o, w'))
    (hevent : a.event = .call key (.deviceSessionAlloc .success (some n))) :
    sessionAt (w' key) n = some {} := by
  rcases worldStep_call hstep hevent with ⟨op, outcome, s, hop, hdev, hhears, _, hw⟩
  rw [← Except.ok.inj hop] at hdev
  rw [LibraryCall.hears, Bool.and_eq_true, beq_iff_eq] at hhears
  have hcall : deviceSessionAlloc (w key).device a.env true = .ok (outcome, s) := hdev
  simp only [deviceSessionAlloc, Bool.not_true, Bool.false_eq_true, if_false] at hcall
  split at hcall
  · rw [(raise_eq_ok.mp hcall).1] at hhears
    exact absurd hhears.1 (by decide)
  · rw [Except.ok.injEq, Prod.mk.injEq] at hcall
    rw [hw, Function.update_self, sessionAt, after_device, ← hcall.1, ← hcall.2]
    simp only [LibraryState.after, Function.update_self, handleOf, Except.toOption,
      Option.bind_some, Heap.get?_alloc, if_true]

/-- A session whose token is set. The library has taken the token if it did not
    fail with an exception. -/
theorem setToken_sessionAt {value : List UInt8} {auth : Status} {sess : DeviceSession}
    (hstep : worldStep img w a = .ok (o, w'))
    (hevent : a.event = .call key
      (.deviceSessionSetParameter n DeviceSessionParameter.token value auth))
    (hauth : Accepted auth) (hvalue : value ≠ []) (hget : sessionAt (w key) n = some sess)
    (hst : sess.status = .allocated) :
    sessionAt (w' key) n = some { sess with token := value } := by
  rcases worldStep_call hstep hevent with ⟨op, outcome, s, hop, hdev, hhears, _, hw⟩
  rcases pointer_eq_ok hop with ⟨p, hp, hop⟩
  rw [hop] at hdev
  rw [LibraryCall.hears, beq_iff_eq] at hhears
  rw [sessionAt, hp, Option.bind_some] at hget
  have hcall : deviceSessionSetParameter (w key).device a.env (some p)
      DeviceSessionParameter.token value.length (some (fun i => value.getD i 0)) =
      .ok (outcome, s) := hdev
  have hlen : (value.length == 0) = false := by
    rw [beq_eq_false_iff_ne, ne_eq, List.length_eq_zero_iff]
    exact hvalue
  have hparam : isInvalidEnumValue DeviceSessionParameter.token DeviceSessionParameter.max =
      false := by decide
  simp only [deviceSessionSetParameter, hlen, Bool.and_false, Bool.false_eq_true, if_false, hparam,
    hget, hst, ne_eq, not_true_eq_false] at hcall
  have hthrown : ∀ {e : Exn}, outcome = .error e → ¬ Accepted (heardStatus outcome) := by
    rintro e rfl
    cases e
    all_goals exact fun hc => hc.elim (by decide) (by decide)
  split at hcall
  · exact absurd (hhears ▸ hauth) (hthrown (raise_eq_ok.mp hcall).1)
  split at hcall
  · exact absurd (hhears ▸ hauth) (hthrown (raise_eq_ok.mp hcall).1)
  rw [hw, Function.update_self, sessionAt, after_device, (answer_eq_ok.mp hcall).2]
  simp only [LibraryState.after, hp, Option.bind_some]
  rw [Heap.get?_set _ _ _ _ hget, if_pos rfl, readBytes_getD, hst]

/-- A session that is initialized. -/
theorem init_sessionAt {sess : DeviceSession} (hstep : worldStep img w a = .ok (o, w'))
    (hevent : a.event = .call key (.deviceSessionInit n .success))
    (hget : sessionAt (w key) n = some sess) :
    sessionAt (w' key) n = some { sess with status := .initialized } := by
  rcases worldStep_call hstep hevent with ⟨op, outcome, s, hop, hdev, hhears, _, hw⟩
  rcases pointer_eq_ok hop with ⟨p, hp, hop⟩
  rw [hop] at hdev
  rw [LibraryCall.hears, beq_iff_eq] at hhears
  rw [sessionAt, hp, Option.bind_some] at hget
  have hcall : deviceSessionInit (w key).device (some p) = .ok (outcome, s) := hdev
  rcases deviceSessionInit_cases hcall with ⟨_, hfail⟩ | ⟨i, sess', hi, hget', _, _, hs⟩
  · -- The status that was heard is a success.
    rcases outcome with e | reply
    · cases e
      all_goals exact absurd hhears (by decide)
    · exact absurd ⟨reply, rfl, hhears.symm⟩ hfail
  · rw [← Option.some.inj hi] at hget' hs
    rw [hget, Option.some.injEq] at hget'
    rw [hw, Function.update_self, sessionAt, after_device, hs]
    simp only [LibraryState.after, hp, Option.bind_some]
    rw [Heap.get?_set _ _ _ _ hget, if_pos rfl, hget']

/-- The calls by which the driver opens a device. -/
theorem worldRuns_opened {tr : List (WorldEntry R)} {token : List UInt8} {d : Device}
    {auth : Status} (hrun : Runs (worldStep img) w tr w')
    (hevents : tr.map (fun e => e.label.event) = openedEvents token d auth)
    (hauth : Accepted auth) : sessionAt (w' d.library.key) d.deviceSession =
      some { token := token ++ [0], status := .initialized } := by
  rcases List.map_eq_cons_iff.mp hevents with ⟨e₁, tr₁, rfl, h₁, hevents⟩
  rcases List.map_eq_cons_iff.mp hevents with ⟨e₂, tr₂, rfl, h₂, hevents⟩
  rcases List.map_eq_cons_iff.mp hevents with ⟨e₃, tr₃, rfl, h₃, hevents⟩
  rw [List.map_eq_nil_iff.mp hevents] at hrun
  rcases runs_cons hrun with ⟨hstep₁, hrun⟩
  rcases runs_cons hrun with ⟨hstep₂, hrun⟩
  rcases runs_cons hrun with ⟨hstep₃, hrun⟩
  rw [runs_nil hrun]
  have halloc := alloc_sessionAt hstep₁ h₁
  have htoken := setToken_sessionAt hstep₂ h₂ hauth (List.append_ne_nil_of_right_ne_nil _
    (List.cons_ne_nil _ _)) halloc rfl
  exact init_sessionAt hstep₃ h₃ htoken

/-- The job that is created when the driver asks for one. -/
theorem createDeviceJob_jobAt {d : Device} {call : LibraryCall}
    (hstep : worldStep img w a = .ok (o, w'))
    (hevent : a.event = .call d.library.key call) (hcall : jobRequest d .success (some n) call) :
    ∃ p id, (w d.library.key).session d.deviceSession = some p ∧
      (w' d.library.key).session = (w d.library.key).session ∧
      jobAt (w' d.library.key) n = some { session := p, id := id, status := .created } := by
  rcases worldStep_call hstep hevent with ⟨op, outcome, s, hop, hdev, hhears, _, hw⟩
  rcases hcall with rfl | ⟨jobId, rfl⟩
  · rcases pointer_eq_ok hop with ⟨p, hp, hop⟩
    rw [hop] at hdev
    rw [LibraryCall.hears, Bool.and_eq_true, beq_iff_eq] at hhears
    have hcall : deviceSessionCreateDeviceJob (w d.library.key).device a.env (some p) true =
        .ok (outcome, s) := hdev
    refine ⟨p, a.env.jobId.val, hp, ?_, ?_⟩
    · rw [hw, Function.update_self]
      rfl
    simp only [deviceSessionCreateDeviceJob, Bool.not_true, Bool.false_eq_true, if_false] at hcall
    split at hcall
    · exact absurd hcall (by simp only [reduceCtorEq, not_false_eq_true])
    split at hcall
    · rw [(answer_eq_ok.mp hcall).1] at hhears
      exact absurd hhears.1 (by decide)
    split at hcall
    · rw [(raise_eq_ok.mp hcall).1] at hhears
      exact absurd hhears.1 (by decide)
    rw [Except.ok.injEq, Prod.mk.injEq] at hcall
    rw [hw, Function.update_self, jobAt, after_device, ← hcall.1, ← hcall.2]
    simp only [LibraryState.after, Function.update_self, handleOf, Except.toOption,
      Option.bind_some, Heap.get?_alloc, if_true]
  · -- The example device retrieves no jobs.
    rcases pointer_eq_ok hop with ⟨p, _, hop⟩
    rw [hop] at hdev
    rw [LibraryCall.hears, Bool.and_eq_true, beq_iff_eq, (answer_eq_ok.mp hdev).1] at hhears
    exact absurd hhears.1 (by decide)

end

end Driver

end Qdmi
