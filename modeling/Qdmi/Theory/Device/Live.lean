import Qdmi.Theory.Device.Frame

/-!
# Calls on Live Handles

A call that is given live handles does not look behind a dead one.

Each entry point looks behind the handle it is given and behind no other, with
one exception. A submission asks the session of its job for the number of
qubits, and the client of a job does not name that session. So a submission
needs it to be live as well, and this is the only thing a caller has to know of
a handle that it does not pass.

Entry points go wrong in other ways too. A query writes into a buffer and may
write past its end. Faults of these kinds are told apart with `Avoids`.

## Main definitions

* `sessionArg`, `jobArg`: The handles that a call is given and looks behind.
* `LiveCall`: The handles a call looks behind are live.

## Theorems

* `deviceQuery_avoids`: Queries on live handles.
* `deviceStep_avoids`: All calls on live handles.
-/

namespace Qdmi

variable {R : Type}

/-- The session a call looks behind. The queries of sites and operations do not
    look behind theirs. -/
def sessionArg : Op → Option Nat
  | .sessionInit session => session
  | .sessionFree session => session
  | .sessionSetParameter session _ _ _ => session
  | .createDeviceJob session _ => session
  | .query (.deviceProperty session _) _ => session
  | _ => none

/-- The job a call looks behind. -/
def jobArg : Op → Option Nat
  | .jobGetProgramStatus job _ => job
  | .query (.jobProgram job _) _ => job
  | .query (.jobProperty job _) _ => job
  | .query (.jobResults job _ _) _ => job
  | op => jobOf op

/-- The handles a call looks behind are live. -/
structure LiveCall (s : DeviceState R) (op : Op) : Prop where
  session : ∀ h, sessionArg op = some h → ∃ sess, s.sessions.get? h = some sess
  job : ∀ h, jobArg op = some h → ∃ jb, s.jobs.get? h = some jb
  submit : ∀ h jb, op = .jobSubmit (some h) → s.jobs.get? h = some jb →
    ∃ sess, s.sessions.get? jb.session = some sess

/-! ## The property macros -/

section

variable {e : Fault} {name prop : Nat} {out : OutArgs} {rest : Except Fault Reply}

theorem addSingleValueProperty_avoids (he : e ≠ .writePastEnd) (bytes : List UInt8)
    (hrest : Avoids e rest) : Avoids e (addSingleValueProperty name bytes prop out rest) := by
  unfold addSingleValueProperty
  split
  · exact respond_avoids (fun cur => cur.avoids_puts he _)
  · exact hrest

theorem addListProperty_avoids (he : e ≠ .writePastEnd) (elems : List (List UInt8))
    (hrest : Avoids e rest) : Avoids e (addListProperty name elems prop out rest) := by
  unfold addListProperty
  split
  · exact respond_avoids (fun cur => cur.avoids_puts he _)
  · exact hrest

theorem addStringProperty_avoids (he : e ≠ .writePastEnd) (str : CString)
    (hrest : Avoids e rest) : Avoids e (addStringProperty name str prop out rest) := by
  unfold addStringProperty
  split
  · refine respond_avoids (fun cur => ?_)
    exact avoids_bind (cur.avoids_puts he _) (fun cur => cur.avoids_patchBack he 0)
  · exact hrest

end

/-! ## Queries -/

section

variable {e : Fault} {s : DeviceState R} {h : Nat}

theorem deviceProperty_avoids (he : e ≠ .writePastEnd) (img : Image) {sess : DeviceSession}
    (hget : s.sessions.get? h = some sess) (prop : Nat) (out : OutArgs) :
    Avoids e (deviceSessionQueryDeviceProperty img s (some h) prop out) := by
  simp only [deviceSessionQueryDeviceProperty, hget]
  split
  · exact avoids_ok _
  split
  · exact avoids_ok _
  · repeat' first
      | apply addStringProperty_avoids he
      | apply addSingleValueProperty_avoids he
      | apply addListProperty_avoids he
    exact avoids_ok _

theorem siteProperty_avoids (he : e ≠ .writePastEnd) (session site : Option Nat) (prop : Nat)
    (out : OutArgs) : Avoids e (deviceSessionQuerySiteProperty session site prop out) := by
  unfold deviceSessionQuerySiteProperty
  split
  · split
    · exact avoids_ok _
    · repeat' apply addSingleValueProperty_avoids he
      exact avoids_ok _
  · exact avoids_ok _

theorem operationProperty_avoids (he : e ≠ .writePastEnd) (img : Image) (session : Option Nat)
    (operation : Option Operation) (args : OperationArgs) (prop : Nat) (out : OutArgs) :
    Avoids e (deviceSessionQueryOperationProperty img session operation args prop out) := by
  have hcx : Avoids e (queryCxProperty img args prop out) := by
    unfold queryCxProperty
    split
    · exact avoids_ok _
    refine addSingleValueProperty_avoids he _ (addSingleValueProperty_avoids he _
      (addListProperty_avoids he _ ?_))
    split
    · exact addSingleValueProperty_avoids he _ (avoids_ok _)
    split
    · exact avoids_ok _
    split
    · exact avoids_ok _
    split
    · exact avoids_ok _
    · exact addSingleValueProperty_avoids he _ (avoids_ok _)
  have hrotation : Avoids e (queryRotationProperty img args prop out) := by
    unfold queryRotationProperty
    split
    · exact avoids_ok _
    · repeat' first
        | apply addSingleValueProperty_avoids he
        | apply addListProperty_avoids he
      exact avoids_ok _
  unfold deviceSessionQueryOperationProperty
  split
  · split
    · exact avoids_ok _
    · refine addStringProperty_avoids he _ (addSingleValueProperty_avoids he _ ?_)
      split
      · exact hcx
      all_goals exact hrotation
  · exact avoids_ok _

theorem foreignOperation_avoids (he : e ≠ .writePastEnd) (session : Option Nat)
    (args : OperationArgs) (prop : Nat) (out : OutArgs) :
    Avoids e (deviceSessionQueryForeignOperation session args prop out) := by
  unfold deviceSessionQueryForeignOperation
  split
  · exact avoids_ok _
  split
  · exact avoids_ok _
  split
  · split
    · exact avoids_ok _
    · exact avoids_ok _
  · exact avoids_map (addSingleValueProperty_avoids he _ (avoids_ok _))

theorem deviceJobQueryProperty_avoids (he : e ≠ .writePastEnd) {jb : DeviceJob R}
    (hget : s.jobs.get? h = some jb) (prop : Nat) (out : OutArgs) :
    Avoids e (deviceJobQueryProperty s (some h) prop out) := by
  simp only [deviceJobQueryProperty, hget]
  split
  · exact avoids_ok _
  refine addStringProperty_avoids he _ ?_
  split
  · exact avoids_ok _
  refine addSingleValueProperty_avoids he _ (addSingleValueProperty_avoids he _ ?_)
  split
  · exact avoids_ok _
  · exact addSingleValueProperty_avoids he _ (avoids_ok _)

end

section

variable [Zero R] [DecidableEq R] [Add R] [Mul R] [DoubleRepr R]

/-- A query on live handles looks behind no dead one. -/
theorem deviceQuery_avoids (img : Image) {s : DeviceState R} {q : Query} {out : OutArgs}
    (hlive : LiveCall s (.query q out)) (mem : Alloc) :
    Avoids Fault.danglingHandle (deviceQuery img s mem q out) := by
  have he : Fault.danglingHandle ≠ .writePastEnd := by decide
  cases q with
  | jobProgram job i =>
      refine avoids_map ?_
      rcases job with _ | h
      · exact avoids_ok _
      rcases hlive.job h rfl with ⟨jb, hget⟩
      simp only [deviceJobGetProgram, hget]
      split
      · exact avoids_ok _
      split
      · exact avoids_ok _
      · exact respond_avoids (fun cur => cur.avoids_puts he _)
  | jobProperty job prop =>
      refine avoids_map ?_
      rcases job with _ | h
      · exact avoids_ok _
      rcases hlive.job h rfl with ⟨jb, hget⟩
      exact deviceJobQueryProperty_avoids he hget prop out
  | jobResults job i kind =>
      rcases job with _ | h
      · exact avoids_ok _
      rcases hlive.job h rfl with ⟨jb, hget⟩
      simp only [deviceQuery, deviceJobGetResults, hget]
      split
      · exact avoids_ok _
      split
      · exact avoids_ok _
      split
      · exact avoids_ok _
      split
      · exact avoids_error (by decide)
      · exact encodeResult_avoids he (by decide) (by decide) mem _ kind out
  | deviceProperty session prop =>
      refine avoids_map ?_
      rcases session with _ | h
      · exact avoids_ok _
      rcases hlive.session h rfl with ⟨sess, hget⟩
      exact deviceProperty_avoids he img hget prop out
  | siteProperty session site prop =>
      exact avoids_map (siteProperty_avoids he session site prop out)
  | operationProperty session operation args prop =>
      exact avoids_map (operationProperty_avoids he img session operation args prop out)
  | foreignOperation session args prop => exact foreignOperation_avoids he session args prop out

end

/-! ## All calls -/

section

variable {σ : Type} {e : Fault}

theorem avoids_answer (status : Status) (s : σ) : Avoids e (answer status s) := avoids_ok _

theorem avoids_raise (x : Exn) (s : σ) : Avoids e (raise x s) := avoids_ok _

end

section

variable [Zero R] [Add R] [Mul R] [Div R] [DoubleRepr R]

/-- A submission of a job whose session is live. -/
theorem deviceJobSubmit_avoids (img : Image) {s : DeviceState R} (env : Env R) {h : Nat}
    {jb : DeviceJob R} {sess : DeviceSession} (hget : s.jobs.get? h = some jb)
    (hsess : s.sessions.get? jb.session = some sess) :
    Avoids Fault.danglingHandle (deviceJobSubmit img s env (some h)) := by
  have hqubits : Avoids Fault.danglingHandle (submitQubits img s jb.session) :=
    avoids_bind (deviceProperty_avoids (by decide) img hsess _ _) (fun _ => avoids_ok _)
  simp only [deviceJobSubmit, hget]
  split
  · exact avoids_answer _ _
  split
  · exact avoids_answer _ _
  rcases hn : submitQubits img s jb.session with fault | numQubits
  · exact avoids_error (fun hc => hqubits (by rw [hn, hc]))
  dsimp only
  split
  · exact avoids_error (by decide)
  split
  all_goals exact avoids_answer _ _

end

section

variable [Zero R] [DecidableEq R] [Add R] [Mul R] [Div R] [DoubleRepr R]

/-- A call on live handles looks behind no dead one. -/
theorem deviceStep_avoids (img : Image) {s : DeviceState R} {c : Call R}
    (hlive : LiveCall s c.op) : Avoids Fault.danglingHandle (deviceStep img s c) := by
  rcases c with ⟨op, env⟩
  cases op with
  | deviceInitialize | deviceFinalize | retrieveDeviceJobById => exact avoids_answer _ _
  | sessionAlloc session =>
      simp only [deviceStep, deviceSessionAlloc]
      split
      · exact avoids_answer _ _
      split
      · exact avoids_raise _ _
      · exact avoids_ok _
  | sessionInit session | sessionFree session | sessionSetParameter session _ _ _
  | createDeviceJob session _ =>
      rcases session with _ | h
      · exact avoids_answer _ _
      rcases hlive.session h rfl with ⟨sess, hget⟩
      simp only [deviceStep, deviceSessionInit, deviceSessionFree, deviceSessionSetParameter,
        deviceSessionCreateDeviceJob, hget]
      -- Whatever the guards decide, the session is there.
      repeat' split
      all_goals first
        | exact avoids_answer _ _
        | exact avoids_raise _ _
        | exact avoids_ok _
  | jobSubmit job =>
      rcases job with _ | h
      · exact avoids_answer _ _
      rcases hlive.job h rfl with ⟨jb, hget⟩
      rcases hlive.submit h jb rfl hget with ⟨sess, hsess⟩
      exact deviceJobSubmit_avoids img env hget hsess
  | jobFree job | jobSetParameter job _ _ _ | jobSetPrograms job _ _ _ _ | jobGetProgramStatus job _
  | jobCancel job | jobCheck job _ | jobWait job =>
      rcases job with _ | h
      · exact avoids_answer _ _
      rcases hlive.job h rfl with ⟨jb, hget⟩
      simp only [deviceStep, deviceJobFree, deviceJobSetParameter, deviceJobSetPrograms,
        deviceJobGetProgramStatus, deviceJobCancel, deviceJobCheck, deviceJobWait, hget]
      repeat' split
      all_goals first
        | exact avoids_answer _ _
        | exact avoids_raise _ _
        | exact avoids_ok _
  | query q out => exact avoids_map (deviceQuery_avoids img hlive env.mem)

end

end Qdmi
