import Qdmi.Theory.Device.Lifecycle

/-!
# Reachable States of the Device

What holds in every state the device can be driven into, whatever is called.

`DeviceInv` collects it, job by job. The payload fields say that no stored
program is empty and that every stored result has the shape submission gives
it. They are read off the automaton of the previous module. The session
fields say that a job belongs to a session that was handed out and that is
initialized for as long as it lives; they need the other half of the state,
so `SessionsKept` first says how sessions change. A session is never taken out
of `initialized`, and a handle that was freed stays dead, so it cannot come to
name a session of another status.

## Main definitions

* `SessionsKept`: What every session handle keeps between two states.
* `JobInv`, `DeviceInv`: The invariant.

## Theorems

* `deviceStep_sessions`: The ways a call changes the sessions.
* `deviceStep_session`: What a call does to the session behind one handle.
* `deviceStep_sessionsKept`: What one call keeps of them.
* `deviceStep_inv`, `deviceRuns_inv`: The invariant holds in every reachable
  state.
-/

namespace Qdmi

variable {R : Type}

/-- What every session handle keeps between two states. -/
def SessionsKept (s t : DeviceState R) : Prop :=
  s.sessions.next ≤ t.sessions.next ∧ ∀ i, i < s.sessions.next →
    ∀ sess', t.sessions.get? i = some sess' → ∃ sess, s.sessions.get? i = some sess ∧
      (sess.status = .initialized → sess'.status = .initialized)

/-- What holds of a live job of a reachable state. -/
structure JobInv (s : DeviceState R) (jb : DeviceJob R) : Prop where
  session_lt : jb.session < s.sessions.next
  session : ∀ sess, s.sessions.get? jb.session = some sess → sess.status = .initialized
  programs : ∀ program ∈ jb.programs, program ≠ []
  results : ∀ result ∈ jb.results, ResultSound result

/-- What holds of a reachable state. -/
def DeviceInv (s : DeviceState R) : Prop := ∀ h jb, s.jobs.get? h = some jb → JobInv s jb

/-- The invariant of a job looks at its session, its programs and its results
    only, and at how the sessions have changed. -/
theorem jobInv_mono {s s' : DeviceState R} {jb jb' : DeviceJob R} (hinv : JobInv s jb)
    (hkept : SessionsKept s s') (hsession : jb'.session = jb.session)
    (hprogs : ∀ program ∈ jb'.programs, program ≠ [])
    (hres : ∀ result ∈ jb'.results, ResultSound result) : JobInv s' jb' := by
  refine ⟨?_, fun sess' hsess' => ?_, hprogs, hres⟩
  · rw [hsession]
    exact Nat.lt_of_lt_of_le hinv.session_lt hkept.1
  · rw [hsession] at hsess'
    rcases hkept.2 jb.session hinv.session_lt sess' hsess' with ⟨sess, hsess, hst⟩
    exact hst (hinv.session sess hsess)

section

variable [Zero R] [DecidableEq R] [Add R] [Mul R] [Div R] [DoubleRepr R]

/-- The ways a call changes the sessions. The token is set on a session in
    `allocated` only, and a session is initialized by its own call only. -/
theorem deviceStep_sessions {img : Image} {s s' : DeviceState R} {c : Call R}
    {out : Except Exn Reply} (hstep : deviceStep img s c = .ok (out, s')) :
    s'.sessions = s.sessions ∨ s'.sessions = s.sessions.alloc {} ∨
      (∃ i sess token, s.sessions.get? i = some sess ∧ sess.status = .allocated ∧
        s'.sessions = s.sessions.set i { sess with token := token }) ∨
      (∃ i sess, c.op = .sessionInit (some i) ∧ Succeeds out ∧ s.sessions.get? i = some sess ∧
        s'.sessions = s.sessions.set i { sess with status := .initialized }) ∨
      ∃ i, s'.sessions = s.sessions.free i := by
  rcases c with ⟨op, env⟩
  cases op with
  | deviceInitialize => exact Or.inl (by rw [(answer_eq_ok.mp hstep).2])
  | deviceFinalize => exact Or.inl (by rw [(answer_eq_ok.mp hstep).2])
  | sessionAlloc session =>
      rcases deviceSessionAlloc_cases hstep with hs | ⟨_, hs⟩
      · exact Or.inl (sameButGen_sessions hs)
      · exact Or.inr (Or.inl (by rw [hs]))
  | sessionInit session =>
      rcases deviceSessionInit_cases hstep with ⟨hs, _⟩ | ⟨i, sess, hsession, hget, _, hsucc, hs⟩
      · exact Or.inl (sameButGen_sessions hs)
      · refine Or.inr (Or.inr (Or.inr (Or.inl ⟨i, sess, ?_, hsucc, hget, by rw [hs]⟩)))
        rw [hsession]
  | sessionFree session =>
      rcases deviceSessionFree_cases hstep with ⟨_, hs | ⟨i, _, _, _, hs⟩⟩
      · exact Or.inl (by rw [hs])
      · exact Or.inr (Or.inr (Or.inr (Or.inr ⟨i, by rw [hs]⟩)))
  | sessionSetParameter session param size value =>
      rcases deviceSessionSetParameter_cases hstep with hs | ⟨i, sess, token, _, hget, hst, _, hs⟩
      · exact Or.inl (sameButGen_sessions hs)
      · exact Or.inr (Or.inr (Or.inl ⟨i, sess, token, hget, hst, by rw [hs]⟩))
  | createDeviceJob session job =>
      rcases deviceSessionCreateDeviceJob_cases hstep with ⟨hs, _⟩ | ⟨_, _, _, _, _, _, _, hs⟩
      · exact Or.inl (sameButGen_sessions hs)
      · exact Or.inl (by rw [hs])
  | retrieveDeviceJobById => exact Or.inl (by rw [(answer_eq_ok.mp hstep).2])
  -- Calls on a job change the jobs and what is drawn, not the sessions.
  | jobFree job =>
      rcases deviceJobFree_cases hstep with ⟨_, hs | ⟨_, _, _, _, hs⟩⟩
      · exact Or.inl (by rw [hs])
      · exact Or.inl (by rw [hs])
  | jobSetParameter job param size value =>
      rcases deviceJobSetParameter_cases hstep with hs | ⟨_, _, _, _, _, _, _, hs⟩
      · exact Or.inl (sameButGen_sessions hs)
      · exact Or.inl (by rw [hs])
  | jobSetPrograms job format count sizes programs =>
      rcases deviceJobSetPrograms_cases hstep with
        ⟨hs, _⟩ | ⟨_, _, _, _, _, _, _, _, _, _, _, _, _, _, hs⟩
      · exact Or.inl (sameButGen_sessions hs)
      · exact Or.inl (by rw [hs])
  | jobGetProgramStatus job i => exact Or.inl (by rw [deviceJobGetProgramStatus_same hstep])
  | jobSubmit job =>
      rcases deviceJobSubmit_cases hstep with ⟨hs, _⟩ | ⟨_, _, _, _, _, _, _, _, _, _, _, _, hs⟩
      · exact Or.inl (sameButGen_sessions hs)
      · exact Or.inl (by rw [hs])
  | jobCancel job =>
      rcases deviceJobCancel_cases hstep with hs | ⟨_, _, _, _, _, _, hs⟩
      · exact Or.inl (sameButGen_sessions hs)
      · exact Or.inl (by rw [hs])
  | jobCheck job status =>
      rcases deviceJobCheck_cases hstep with hs | ⟨_, _, _, _, _, _, _, hs⟩
      · exact Or.inl (sameButGen_sessions hs)
      · exact Or.inl (by rw [hs])
  | jobWait job =>
      rcases deviceJobWait_cases hstep with hs | ⟨_, _, _, _, _, _, _, _, hs⟩
      · exact Or.inl (sameButGen_sessions hs)
      · exact Or.inl (by rw [hs])
  | query q out' => exact Or.inl (by rw [(deviceStep_query hstep).2])

/-- Only allocation gives out a session handle. -/
theorem deviceStep_sessions_next {img : Image} {s s' : DeviceState R} {c : Call R}
    {out : Except Exn Reply} (hstep : deviceStep img s c = .ok (out, s')) :
    s.sessions.next ≤ s'.sessions.next := by
  rcases deviceStep_sessions hstep with
    hs | hs | ⟨j, sess, token, _, _, hs⟩ | ⟨j, sess, _, _, _, hs⟩ | ⟨j, hs⟩
  · rw [hs]
  · rw [hs, Heap.next_alloc]
    exact Nat.le_succ _
  · rw [hs, Heap.next_set]
  · rw [hs, Heap.next_set]
  · rw [hs, Heap.next_free]

/-- What one call does to the session behind one handle: nothing, unless it
    hands the session out, sets its token, initializes it or frees it. -/
theorem deviceStep_session {img : Image} {s s' : DeviceState R} {c : Call R}
    {out : Except Exn Reply} (hstep : deviceStep img s c = .ok (out, s')) (i : Nat) :
    s'.sessions.get? i = s.sessions.get? i ∨
      (i = s.sessions.next ∧ s'.sessions.get? i = some {}) ∨
      (∃ sess token, s.sessions.get? i = some sess ∧ sess.status = .allocated ∧
        s'.sessions.get? i = some { sess with token := token }) ∨
      (∃ sess, c.op = .sessionInit (some i) ∧ Succeeds out ∧ s.sessions.get? i = some sess ∧
        s'.sessions.get? i = some { sess with status := .initialized }) ∨
      s'.sessions.get? i = none := by
  -- Each change is at one handle, and all others read what they did.
  rcases deviceStep_sessions hstep with
    hs | hs | ⟨j, sess, token, hget, hst, hs⟩ | ⟨j, sess, hop, hsucc, hget, hs⟩ | ⟨j, hs⟩
  · exact Or.inl (by rw [hs])
  · rw [hs, Heap.get?_alloc]
    by_cases hi : i = s.sessions.next
    · rw [if_pos hi]
      exact Or.inr (Or.inl ⟨hi, rfl⟩)
    · rw [if_neg hi]
      exact Or.inl rfl
  · rw [hs, Heap.get?_set _ _ _ _ hget]
    by_cases hi : i = j
    · rw [if_pos hi, hi]
      exact Or.inr (Or.inr (Or.inl ⟨sess, token, hget, hst, rfl⟩))
    · rw [if_neg hi]
      exact Or.inl rfl
  · rw [hs, Heap.get?_set _ _ _ _ hget]
    by_cases hi : i = j
    · rw [if_pos hi, hi]
      exact Or.inr (Or.inr (Or.inr (Or.inl ⟨sess, hop, hsucc, hget, rfl⟩)))
    · rw [if_neg hi]
      exact Or.inl rfl
  · rw [hs, Heap.get?_free]
    by_cases hi : i = j
    · rw [if_pos hi]
      exact Or.inr (Or.inr (Or.inr (Or.inr rfl)))
    · rw [if_neg hi]
      exact Or.inl rfl

theorem deviceStep_sessionsKept {img : Image} {s s' : DeviceState R} {c : Call R}
    {out : Except Exn Reply} (hstep : deviceStep img s c = .ok (out, s')) : SessionsKept s s' := by
  refine ⟨deviceStep_sessions_next hstep, fun i hi sess' hsess' => ?_⟩
  rcases deviceStep_session hstep i with
    hs | ⟨hnext, _⟩ | ⟨sess, token, hget, _, hs⟩ | ⟨sess, _, _, hget, hs⟩ | hs
  · exact ⟨sess', hs ▸ hsess', fun h => h⟩
  · exact absurd hnext (Nat.ne_of_lt hi)
  · rw [hs, Option.some.injEq] at hsess'
    exact ⟨sess, hget, fun h => hsess' ▸ h⟩
  · rw [hs, Option.some.injEq] at hsess'
    exact ⟨sess, hget, fun _ => hsess' ▸ rfl⟩
  · exact absurd (hs.symm.trans hsess') (by simp only [reduceCtorEq, not_false_eq_true])

/-- Every call keeps the invariant. The cases are the moves of the job. -/
theorem deviceStep_inv {img : Image} {s s' : DeviceState R} {c : Call R} {out : Except Exn Reply}
    (hstep : deviceStep img s c = .ok (out, s')) (hinv : DeviceInv s) : DeviceInv s' := by
  intro h jb' hget'
  have hkept := deviceStep_sessionsKept hstep
  rcases deviceStep_job hstep h with ⟨m, hm⟩
  have hold := hinv h
  have hmove := hm.step
  have hfresh := hm.fresh
  rw [hget'] at hmove hfresh
  generalize s.jobs.get? h = job at hold hmove
  cases hmove with
  | stay =>
      exact jobInv_mono (hold jb' rfl) hkept rfl (hold jb' rfl).programs (hold jb' rfl).results
  | create session id =>
      -- The new job belongs to a session that is initialized already.
      rcases (hfresh rfl).2 with ⟨hsame, jb, sess, hjb, hsess, hst⟩
      rw [Option.some.injEq] at hjb
      rw [← hjb] at hsess
      refine ⟨?_, fun sess' hsess' => ?_, fun _ hp => absurd hp List.not_mem_nil,
        fun _ hr => absurd hr List.not_mem_nil⟩
      · rw [hsame]
        exact Heap.get?_lt_next hsess
      · rw [hsame, hsess, Option.some.injEq] at hsess'
        rw [← hsess']
        exact hst
  | setShots jb n hst =>
      exact jobInv_mono (hold jb rfl) hkept rfl (hold jb rfl).programs (hold jb rfl).results
  | setPrograms jb format programs hst hprogs =>
      exact jobInv_mono (hold jb rfl) hkept rfl hprogs (hold jb rfl).results
  | submit jb results hst hne hlen hres =>
      exact jobInv_mono (hold jb rfl) hkept rfl (hold jb rfl).programs hres
  | cancel jb hst =>
      exact jobInv_mono (hold jb rfl) hkept rfl (hold jb rfl).programs (hold jb rfl).results
  | finish jb hst =>
      exact jobInv_mono (hold jb rfl) hkept rfl (hold jb rfl).programs (hold jb rfl).results
  | wait jb hdone hcanceled hfailed =>
      exact jobInv_mono (hold jb rfl) hkept rfl (hold jb rfl).programs (hold jb rfl).results

/-- Every reachable state satisfies the invariant. -/
theorem deviceRuns_inv {img : Image} {s : DeviceState R} {tr : List (DeviceEntry R)}
    (hrun : DeviceRuns img tr s) : DeviceInv s := by
  refine runs_invariant (C := fun _ _ => True) (P := fun _ s => DeviceInv s) hrun
    (fun _ _ => trivial) ?_ ?_
  · intro h jb hjb
    exact absurd hjb (by simp only [Heap.get?_empty, reduceCtorEq, not_false_eq_true])
  · intro _ t c out u _ _ hinv _ hstep
    exact deviceStep_inv hstep hinv

end

end Qdmi
