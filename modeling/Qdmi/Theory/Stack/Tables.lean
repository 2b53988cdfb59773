import Qdmi.Theory.Device.Inversion
import Qdmi.Theory.Stack.Jobs

/-!
# The Tables of a Library

What a device tells a client about itself does not depend on who asks, when, or
what has happened before.

The example device answers queries from static tables, after it has looked at the
session. A client of the driver never sees a session that is not initialized, so
what is left are the tables, and the state of the device for the one property
that reports it. `tableAnswer` is the answer of a library that has just been
loaded and has a single session, and `stackRuns_tables` says that this is the
answer in every state that clients can reach. Two clients that ask the same
library therefore read the same tables at all times, the handles of its sites and
operations included.

## Main definitions

* `openedAlone`: A device with a single session, which is open.
* `tableAnswer`: Its answer to a query of a client.
* `QueryCall.fixed`: The query is not about the state of the device.

## Theorems

* `deviceProperty_tables`: The sessions of a device and what it does besides
  decide nothing.
* `stackStep_queryCall`: A query through the driver.
* `stackRuns_tables`: Behind every run.
-/

namespace Qdmi

namespace Driver

variable {R : Type}

/-- A device with a single session, which is open. -/
def openedAlone : DeviceState R where
  status := .idle
  sessions := ⟨[some { token := [0], status := .initialized }]⟩

/-- What such a device answers to a query of a client. -/
def tableAnswer (img : Image) : QueryCall → Except Fault Reply
  | .deviceProperty prop out =>
    deviceSessionQueryDeviceProperty img (openedAlone : DeviceState Unit) (some 0) prop out
  | .siteProperty none prop out => deviceSessionQuerySiteProperty (some 0) none prop out
  | .siteProperty (some addr) prop out =>
    match siteAt img addr with
    | none => .error .danglingHandle
    | some site => deviceSessionQuerySiteProperty (some 0) (some site) prop out
  | .operationProperty none args prop out =>
    deviceSessionQueryOperationProperty img (some 0) none args prop out
  | .operationProperty (some addr) args prop out =>
    match operationAt img addr with
    | none => .error .danglingHandle
    | some operation =>
      let args := { args with sites := args.sites.map (fun sites i => siteIndex img (sites i)) }
      deviceSessionQueryOperationProperty img (some 0) (some operation) args prop out

/-- A query is not about the state of the device. -/
def QueryCall.fixed : QueryCall → Bool
  | .deviceProperty prop _ => prop != DeviceProperty.status.code
  | _ => true

/-- Two devices with open sessions answer alike, unless they are asked for their
    state. -/
theorem deviceProperty_tables {R' : Type} (img : Image) {s : DeviceState R} {s' : DeviceState R'}
    {p p' : Nat} {sess sess' : DeviceSession} (hget : s.sessions.get? p = some sess)
    (hget' : s'.sessions.get? p' = some sess') (hst : sess.status = .initialized)
    (hst' : sess'.status = .initialized) {prop : Nat} (hprop : prop ≠ DeviceProperty.status.code)
    (out : OutArgs) : deviceSessionQueryDeviceProperty img s (some p) prop out =
      deviceSessionQueryDeviceProperty img s' (some p') prop out := by
  have hskip : ∀ bytes rest,
      addSingleValueProperty DeviceProperty.status.code bytes prop out rest = rest :=
    fun _ _ => if_neg hprop
  simp only [deviceSessionQueryDeviceProperty, hget, hget', hst, hst', hskip]

/-- A query of the entry points that is a query of a client has the answer of the
    tables. -/
theorem query_tables {img : Image} {s : DeviceState R} {p : Nat} {sess : DeviceSession}
    [Zero R] [DecidableEq R] [Add R] [Mul R] [DoubleRepr R]
    (hget : s.sessions.get? p = some sess) (hst : sess.status = .initialized) {qc : QueryCall}
    (hfixed : qc.fixed = true) {q : Query} {args : OutArgs}
    (hop : qc.op img p = .ok (.query q args)) (mem : Alloc) :
    deviceQuery img s mem q args = (tableAnswer img qc).map .ok := by
  cases qc with
  | deviceProperty prop out =>
      rw [← (Op.query.inj (Except.ok.inj hop)).1, ← (Op.query.inj (Except.ok.inj hop)).2]
      rw [QueryCall.fixed, bne_iff_ne] at hfixed
      have hopened : (openedAlone : DeviceState Unit).sessions.get? 0 =
          some { token := [0], status := .initialized } := rfl
      rw [deviceQuery, tableAnswer, deviceProperty_tables img hget hopened hst rfl hfixed out]
  | siteProperty site prop out =>
      rcases site with _ | addr
      · rw [← (Op.query.inj (Except.ok.inj hop)).1, ← (Op.query.inj (Except.ok.inj hop)).2]
        rfl
      · rcases hsite : siteAt img addr with _ | site
        · simp only [QueryCall.op, hsite, reduceCtorEq] at hop
        simp only [QueryCall.op, hsite, Except.ok.injEq, Op.query.injEq] at hop
        rw [← hop.1, ← hop.2]
        simp only [deviceQuery, tableAnswer, hsite, deviceSessionQuerySiteProperty]
  | operationProperty operation opArgs prop out =>
      rcases operation with _ | addr
      · rw [← (Op.query.inj (Except.ok.inj hop)).1, ← (Op.query.inj (Except.ok.inj hop)).2]
        rfl
      · rcases hoperation : operationAt img addr with _ | operation
        · simp only [QueryCall.op, hoperation, reduceCtorEq] at hop
        simp only [QueryCall.op, hoperation, Except.ok.injEq, Op.query.injEq] at hop
        rw [← hop.1, ← hop.2]
        simp only [deviceQuery, tableAnswer, hoperation, deviceSessionQueryOperationProperty]

section

variable [Zero R] [DecidableEq R] [Add R] [Mul R] [Div R] [DoubleRepr R]
variable {addr : DeviceHandle → Nat} {img : Nat × List UInt8 → Image}
variable {t t' : Stack R} {c : StackCall R} {out : StackOut R} {dev : DeviceHandle}
variable {qc : QueryCall}

/-- A query of a client is one query of the device session behind the device, and
    the client is told what the library has answered. It changes nothing. -/
theorem stackStep_queryCall (hop : queryCallOf c.call.op = some (dev, qc))
    (hstep : stackStep addr img t c = .ok (out, t')) :
    ∃ sess d p q args, deviceAt t.driver dev = some (sess, d) ∧
      (t.world d.library.key).session d.deviceSession = some p ∧
      qc.op (img d.library.key) p = .ok (.query q args) ∧
      deviceQuery (img d.library.key) (t.world d.library.key).device (c.env 0).mem q args =
        .ok out.reply ∧
      t'.driver = t.driver ∧ t'.world = t.world := by
  rcases stackStep_cases hstep with ⟨hdriver, hworld, _⟩
  have hlabels := stackStep_labels hstep
  rcases driverStep_queryCall hop hdriver with ⟨sess, d, hdev, _, hevents, ht⟩
  rw [hevents] at hlabels
  rcases List.map_eq_singleton_iff.mp hlabels with ⟨e, htr, hlabel⟩
  rw [htr] at hworld
  rcases runs_cons hworld with ⟨hone, hnil⟩
  rw [hlabel] at hone
  rcases worldStep_call hone rfl with ⟨op, outcome, s, hlib, hdevice, _, ho, hw⟩
  rcases hp : (t.world d.library.key).session d.deviceSession with _ | p
  · rw [LibraryCall.op, hp] at hlib
    exact absurd hlib (by simp only [pointer, Except.bind, reduceCtorEq, not_false_eq_true])
  rw [LibraryCall.op, hp] at hlib
  rcases queryCall_op hlib with ⟨q, args, hquery⟩
  rw [hquery] at hdevice
  rcases deviceStep_query hdevice with ⟨hanswer, hs⟩
  have hreply : out.reply = outcome := by
    rcases e with ⟨pre, label, o, post⟩
    dsimp only at hlabel ho
    rw [StackOut.reply, htr, hlabel, ho]
    rfl
  refine ⟨sess, d, p, q, args, hdev, hp, by rw [← hquery]; exact hlib, ?_, ht, ?_⟩
  · rw [hreply]
    exact hanswer
  · -- The library is as it was.
    rw [runs_nil hnil, hw, hs]
    exact Function.update_eq_self d.library.key t.world

/-- A query of a client is answered from the tables of the library. -/
theorem stackStep_tables (hinv : StackInv t) (hop : queryCallOf c.call.op = some (dev, qc))
    (hfixed : qc.fixed = true) (hstep : stackStep addr img t c = .ok (out, t')) :
    ∃ sess d, deviceAt t.driver dev = some (sess, d) ∧
      (tableAnswer (img d.library.key) qc).map .ok = .ok out.reply ∧ t' = t := by
  rcases stackStep_queryCall hop hstep with ⟨sess, d, p, q, args, hdev, hp, hquery, hanswer, hd, hw⟩
  rcases hinv.ready dev sess d hdev with ⟨token, _, hready⟩
  rw [sessionAt, hp, Option.bind_some] at hready
  rw [query_tables hready rfl hfixed hquery] at hanswer
  refine ⟨sess, d, hdev, hanswer, ?_⟩
  rcases t with ⟨driver, world⟩
  rcases t' with ⟨driver', world'⟩
  rw [show driver' = driver from hd, show world' = world from hw]

/-- Behind every run of clients that free jobs before their session, a query that
    is not about the state of the device has the answer of a library that was just
    loaded, and changes nothing. -/
theorem stackRuns_tables (addr : DeviceHandle → Nat) (img : Nat × List UInt8 → Image)
    (tr : List (StackEntry R)) (t t' : Stack R) (hrun : StackRuns addr img tr t)
    (hrule : Respects FreesJobs tr) (c : StackCall R) (dev : DeviceHandle) (qc : QueryCall)
    (hop : queryCallOf c.call.op = some (dev, qc)) (hfixed : qc.fixed = true) (out : StackOut R)
    (hstep : stackStep addr img t c = .ok (out, t')) :
    ∃ sess d, deviceAt t.driver dev = some (sess, d) ∧
      (tableAnswer (img d.library.key) qc).map .ok = .ok out.reply ∧ t' = t :=
  stackStep_tables (stackRuns_inv hrun hrule) hop hfixed hstep

end

/-- A client asks the second device for its sites. -/
def sitesOp : DriverOp :=
  .deviceQueryDeviceProperty (some { session := 0, index := 1 }) DeviceProperty.sites.code
    { size := 40, value := some (List.replicate 40 0), sizeRet := true }

/-- Its library has run a job by then. -/
theorem stackRuns_tables_sample :
    ∃ tr t t', ∃ out : StackOut ℚ, StackRuns (R := ℚ) (fun _ => 0) (fun _ => sampleImage) tr t ∧
      ∃ sess d, deviceAt t.driver { session := 0, index := 1 } = some (sess, d) ∧
        (tableAnswer sampleImage (.deviceProperty DeviceProperty.sites.code
          { size := 40, value := some (List.replicate 40 0), sizeRet := true })).map .ok =
            .ok out.reply ∧ t' = t := by
  rcases stackRuns_continued submitOps [sitesOp] (fun _ _ _ => some ()) () rfl with
    ⟨tr, tr', t, u, hrun, hrule, hrun', _, hlabels, _⟩
  rcases runs_single hrun' hlabels with ⟨out, hstep⟩
  exact ⟨tr, t, u, out, hrun, stackRuns_tables (fun _ => 0) (fun _ => sampleImage) tr t u hrun hrule
    _ { session := 0, index := 1 } _ rfl rfl out hstep⟩

end Driver

end Qdmi
