import Mathlib.Data.List.Basic
import Qdmi.Core.Fomac
import Qdmi.Lib.Asking
import Qdmi.Theory.Stack.Tables

/-!
# Client Programs

A client library makes several calls for one answer, and other clients call in
between. Over the example device this makes no difference.

`Asking` programs are what a client does with a device. In a run of all clients
the program's questions are some of the calls, in their order (`Converses`), and
anything may happen between two of them: others open and free sessions, submit
jobs, cancel them. `EndsWith` says that the program comes to the same end
whatever that is, and that it does come to an end, in any environment.

The end is the one that the program has with the tables of a library that was
just loaded (`stackRuns_client`). It can be computed without a driver, a session
or a run. Once a device is opened its library stays the same, so the tables are
known from then on (`stackRuns_sameDevice`).

## Main definitions

* `QueryCall.askable`, `QueryCall.clientOp`: What a client may ask of tables, and
  the function of the driver for it.
* `tables`: The answers.
* `exchange`, `Converses`: The part of a client in a run.
* `EndsWith`: The end of a program in every run.

## Theorems

* `stackRuns_sameDevice`: A device that was opened.
* `exchange_tables`: Every answer in a run is from the tables.
* `stackStep_answers`: A question can be asked.
* `endsWith_iff_alone`: The end of a program is that with the tables.
* `stackRuns_client`: The end of a client program.
-/

namespace Qdmi

namespace Driver

variable {R : Type}

/-- A query that the tables of a library answer. -/
def QueryCall.askable : QueryCall → Bool
  | .deviceProperty prop _ =>
    prop != DeviceProperty.status.code && prop != DeviceProperty.id.code
  | _ => true

/-- The function of the driver for a query. -/
def QueryCall.clientOp (dev : DeviceHandle) : QueryCall → DriverOp
  | .deviceProperty prop out => .deviceQueryDeviceProperty (some dev) prop out
  | .siteProperty site prop out => .deviceQuerySiteProperty (some dev) site prop out
  | .operationProperty operation args prop out =>
    .deviceQueryOperationProperty (some dev) operation args prop out

/-- What the tables of a library answer. -/
def tables (img : Image) (qc : QueryCall) : Option Reply :=
  if qc.askable then (tableAnswer img qc).toOption else none

/-- A question to a device that its tables answer, and the answer. -/
def exchange (dev : DeviceHandle) (e : StackEntry R) : Option (QueryCall × Reply) :=
  (queryCallOf e.label.call.op).bind (fun x =>
    if x.1 = dev ∧ x.2.askable = true then e.out.reply.toOption.map (fun reply => (x.2, reply))
    else none)

/-- A conversation with a device, among the calls of a run. -/
def Converses (dev : DeviceHandle) (tr : List (StackEntry R)) (l : List (QueryCall × Reply)) :
    Prop :=
  l.Sublist (tr.filterMap (exchange dev))

/-- The same surroundings for another call. -/
def StackCall.asking (c : StackCall R) (op : DriverOp) : StackCall R :=
  { c with call := { c.call with op := op } }

theorem fixed_of_askable {qc : QueryCall} (h : qc.askable = true) : qc.fixed = true := by
  cases qc with
  | deviceProperty prop out =>
      rw [QueryCall.askable, Bool.and_eq_true] at h
      exact h.1
  | siteProperty => rfl
  | operationProperty => rfl

theorem queryCallOf_clientOp {dev : DeviceHandle} {qc : QueryCall} (h : qc.askable = true) :
    queryCallOf (qc.clientOp dev) = some (dev, qc) := by
  cases qc with
  | deviceProperty prop out =>
      rw [QueryCall.askable, Bool.and_eq_true, bne_iff_ne, bne_iff_ne] at h
      exact if_neg h.2
  | siteProperty => rfl
  | operationProperty => rfl

theorem exchange_eq_some {dev : DeviceHandle} {e : StackEntry R} {z : QueryCall × Reply}
    (h : exchange dev e = some z) : queryCallOf e.label.call.op = some (dev, z.1) ∧
      z.1.askable = true ∧ e.out.reply = .ok z.2 := by
  unfold exchange at h
  rcases Option.bind_eq_some_iff.mp h with ⟨x, hx, h⟩
  by_cases hc : x.1 = dev ∧ x.2.askable = true
  · rw [if_pos hc] at h
    rcases Option.map_eq_some_iff.mp h with ⟨reply, hreply, rfl⟩
    refine ⟨by rw [hx, ← hc.1], hc.2, ?_⟩
    rcases hout : e.out.reply with x | reply'
    · rw [hout] at hreply
      exact absurd hreply (by simp only [Except.toOption, reduceCtorEq, not_false_eq_true])
    · rw [hout] at hreply
      rw [Option.some.inj hreply]
  · rw [if_neg hc] at h
    exact absurd h (by simp only [reduceCtorEq, not_false_eq_true])

/-- A question frees no session. -/
theorem freesJobs_of_query {t : Stack R} {c : StackCall R} {x : DeviceHandle × QueryCall}
    (h : queryCallOf c.call.op = some x) : FreesJobs t c := by
  intro k hop
  rw [hop] at h
  exact absurd h (by simp only [queryCallOf, reduceCtorEq, not_false_eq_true])

section

variable [Zero R] [DecidableEq R] [Add R] [Mul R] [Div R] [DoubleRepr R]
variable {addr : DeviceHandle → Nat} {img : Nat × List UInt8 → Image}
variable {t u : Stack R} {tr : List (StackEntry R)} {dev : DeviceHandle} {sess : Session}
variable {d : Device}

/-- A program with a device, in every run from a state on: it ends with the same
    result whatever else is called in between, and it can be run to its end in any
    surroundings. -/
def EndsWith (addr : DeviceHandle → Nat) (img : Nat × List UInt8 → Image) (t : Stack R)
    (dev : DeviceHandle) {ε α : Type} (prog : Asking QueryCall Reply ε α) (res : Except ε α) :
    Prop :=
  (∀ tr u l res', Runs (stackStep addr img) t tr u → Respects FreesJobs tr → Converses dev tr l →
    Plays prog l res' → res' = res) ∧
  ∀ c : StackCall R, ∃ tr, Runs (stackStep addr img) t tr t ∧ Respects FreesJobs tr ∧
    (∀ e ∈ tr, ∃ op, e.label = c.asking op) ∧ Plays prog (tr.filterMap (exchange dev)) res

/-! ## The same device -/

/-- A device that was opened stays what it is. The induction is on the run, with
    the fact that its session is not opened again. -/
theorem stackRuns_sameDevice (hrun : Runs (stackStep addr img) t tr u)
    (hdev : deviceAt t.driver dev = some (sess, d)) {sess' : Session} {d' : Device}
    (hdev' : deviceAt u.driver dev = some (sess', d')) : sess' = sess ∧ d' = d := by
  have hkept : WasOpened u.driver dev.session ∧ ∀ sess' d',
      deviceAt u.driver dev = some (sess', d') → sess' = sess ∧ d' = d := by
    refine runs_invariant (C := fun _ _ => True) (P := fun _ v =>
      WasOpened v.driver dev.session ∧ ∀ sess' d',
        deviceAt v.driver dev = some (sess', d') → sess' = sess ∧ d' = d) hrun
      (fun _ _ => trivial) ⟨wasOpened_of_deviceAt hdev, fun sess' d' h => ?_⟩ ?_
    · rw [hdev, Option.some.injEq, Prod.mk.injEq] at h
      exact ⟨h.1.symm, h.2.symm⟩
    · intro tr v c out w _ _ ih _ hstep
      have hmove := driverStep_move (stackStep_cases hstep).1
      refine ⟨driverMove_wasOpened hmove ih.1, fun sess' d' h => ?_⟩
      rcases driverMove_device hmove h with hold | hnew
      · exact ih.2 sess' d' hold
      · rcases hnew.opened with ⟨sess₀, _, _, hget, hst, _⟩
        exact absurd hst (ih.1.2 sess₀ hget)
  exact hkept.2 sess' d' hdev'

/-! ## What a client is told -/

/-- Every answer in a run is from the tables. -/
theorem exchange_tables (hinv : StackInv t) (hrun : Runs (stackStep addr img) t tr u)
    (hrule : Respects FreesJobs tr) (hdev : deviceAt t.driver dev = some (sess, d))
    {z : QueryCall × Reply} (hz : z ∈ tr.filterMap (exchange dev)) :
    tables (img d.library.key) z.1 = some z.2 := by
  rcases List.mem_filterMap.mp hz with ⟨e, he, hex⟩
  rcases exchange_eq_some hex with ⟨hop, hask, hreply⟩
  rcases runs_mem hrun he with ⟨tr₁, tr₂, htr, hrun₁, hstep, _⟩
  rw [htr] at hrule
  have hinv' := stackRuns_keeps hinv hrun₁ (respects_append.mp hrule).1
  rcases stackStep_tables hinv' hop (fixed_of_askable hask) hstep with ⟨sess', d', hdev', h, _⟩
  rw [(stackRuns_sameDevice hrun₁ hdev hdev').2, hreply] at h
  unfold tables
  rw [if_pos hask]
  rcases htable : tableAnswer (img d.library.key) z.1 with fault | reply
  · rw [htable] at h
    exact absurd h (by simp only [Except.map, reduceCtorEq, not_false_eq_true])
  · rw [htable, Except.map, Except.ok.injEq, Except.ok.injEq] at h
    rw [h]
    rfl

/-- A query is an entry point of the library, unless it names something that is
    not there. -/
theorem queryCall_op_of_tables {img : Image} {qc : QueryCall} {reply : Reply}
    (htable : tableAnswer img qc = .ok reply) (p : Nat) :
    ∃ q args, qc.op img p = .ok (.query q args) := by
  cases qc with
  | deviceProperty prop out => exact ⟨_, _, rfl⟩
  | siteProperty site prop out =>
      rcases site with _ | a
      · exact ⟨_, _, rfl⟩
      · rcases hsite : siteAt img a with _ | site
        · simp only [tableAnswer, hsite, reduceCtorEq] at htable
        · simp only [QueryCall.op, hsite]
          exact ⟨_, _, rfl⟩
  | operationProperty operation args prop out =>
      rcases operation with _ | a
      · exact ⟨_, _, rfl⟩
      · rcases hoperation : operationAt img a with _ | operation
        · simp only [tableAnswer, hoperation, reduceCtorEq] at htable
        · simp only [QueryCall.op, hoperation]
          exact ⟨_, _, rfl⟩

/-- The driver passes a question on. -/
theorem driverStep_clientOp {s : DriverState} {qc : QueryCall} (hask : qc.askable = true)
    (hdev : deviceAt s dev = some (sess, d)) {c : DriverCall} (hop : c.op = qc.clientOp dev) :
    driverStep addr s c = .ok
      ({ reply := .ok c.env.reply
         events := [.call d.library.key (.deviceQuery d.deviceSession qc)] }, s) := by
  unfold driverStep
  rw [hop]
  cases qc with
  | deviceProperty prop out =>
      rw [QueryCall.askable, Bool.and_eq_true, bne_iff_ne, bne_iff_ne] at hask
      simp only [QueryCall.clientOp, deviceQueryDeviceProperty, if_neg hask.2, passQuery, hdev]
  | siteProperty => simp only [QueryCall.clientOp, deviceQuerySiteProperty, passQuery, hdev]
  | operationProperty =>
      simp only [QueryCall.clientOp, deviceQueryOperationProperty, passQuery, hdev]

/-- A question can be asked, in any surroundings. -/
theorem stackStep_answers (addr : DeviceHandle → Nat) (hinv : StackInv t)
    (hdev : deviceAt t.driver dev = some (sess, d))
    {qc : QueryCall} {reply : Reply} (hask : qc.askable = true)
    (htable : tableAnswer (img d.library.key) qc = .ok reply) (c : StackCall R)
    (hop : c.call.op = qc.clientOp dev) :
    ∃ out, stackStep addr img t c = .ok (out, t) ∧ out.reply = .ok reply := by
  rcases hinv.ready dev sess d hdev with ⟨token, _, hready⟩
  rcases Option.bind_eq_some_iff.mp hready with ⟨p, hp, hget⟩
  rcases queryCall_op_of_tables htable p with ⟨q, args, hquery⟩
  have hanswer := query_tables hget rfl (fixed_of_askable hask) hquery (c.env 0).mem
  rw [htable] at hanswer
  let event : Event := .call d.library.key (.deviceQuery d.deviceSession qc)
  let delivery : Delivery R := ⟨event, c.env 0, c.fresh 0⟩
  -- The library hears the one call, and is as it was.
  have hworld : worldStep img t.world delivery =
      .ok (some (⟨.query q args, c.env 0⟩, .ok reply), t.world) := by
    simp only [delivery, event, worldStep, LibraryCall.op, hp, pointer, Except.bind, hquery,
      deviceStep, LibraryState.found, hanswer, Except.map, LibraryCall.hears, if_true,
      LibraryState.after, Function.update_eq_self]
  refine ⟨⟨{ reply := .ok c.call.env.reply, events := [event] },
    [⟨t.world, delivery, some (⟨.query q args, c.env 0⟩, .ok reply), t.world⟩]⟩, ?_, rfl⟩
  unfold stackStep
  rw [driverStep_clientOp hask hdev hop]
  simp only [StackCall.deliveries, List.mapIdx_cons, List.mapIdx_nil, play]
  rw [hworld]

/-- Questions with answers in the tables can be asked one after the other. -/
theorem exchanges_run (addr : DeviceHandle → Nat) (hinv : StackInv t)
    (hdev : deviceAt t.driver dev = some (sess, d))
    (c : StackCall R) {l : List (QueryCall × Reply)}
    (hl : ∀ z ∈ l, tables (img d.library.key) z.1 = some z.2) :
    ∃ tr, Runs (stackStep addr img) t tr t ∧ Respects FreesJobs tr ∧
      (∀ e ∈ tr, ∃ op, e.label = c.asking op) ∧ tr.filterMap (exchange dev) = l := by
  induction l with
  | nil => exact ⟨[], Runs.refl, fun e he => absurd he List.not_mem_nil,
      fun e he => absurd he List.not_mem_nil, rfl⟩
  | cons z l ih =>
      rcases List.forall_mem_cons.mp hl with ⟨hz, hl⟩
      rcases ih hl with ⟨tr, hrun, hrule, hlabels, hsame⟩
      rw [tables] at hz
      by_cases hask : z.1.askable = true
      · rw [if_pos hask] at hz
        rcases htable : tableAnswer (img d.library.key) z.1 with fault | reply
        · rw [htable] at hz
          exact absurd hz (by simp only [Except.toOption, reduceCtorEq, not_false_eq_true])
        rw [htable] at hz
        have hreply : reply = z.2 := Option.some.inj hz
        rcases stackStep_answers addr hinv hdev hask htable (c.asking (z.1.clientOp dev))
          rfl with ⟨out, hstep, hout⟩
        -- The first question, and the others behind it.
        have hfirst : Runs (stackStep addr img) t [⟨t, c.asking (z.1.clientOp dev), out, t⟩] t :=
          Runs.snoc Runs.refl hstep
        have hexchange : exchange dev (⟨t, c.asking (z.1.clientOp dev), out, t⟩ : StackEntry R) =
            some z := by
          unfold exchange
          dsimp only [StackCall.asking]
          rw [queryCallOf_clientOp hask, Option.bind_some, if_pos ⟨rfl, hask⟩, hout, hreply]
          rfl
        refine ⟨_, runs_append hfirst hrun, ?_, ?_, ?_⟩
        · refine respects_append.mpr ⟨fun e he => ?_, hrule⟩
          rw [List.mem_singleton.mp he]
          exact freesJobs_of_query (queryCallOf_clientOp hask)
        · intro e he
          rcases List.mem_append.mp he with he | he
          · rw [List.mem_singleton.mp he]
            exact ⟨_, rfl⟩
          · exact hlabels e he
        · rw [List.filterMap_append, hsame, List.filterMap_cons, hexchange]
          rfl
      · rw [if_neg hask] at hz
        exact absurd hz (by simp only [reduceCtorEq, not_false_eq_true])

/-- What a program comes to is decided by the tables. -/
theorem endsWith_iff_alone (hinv : StackInv t) (hdev : deviceAt t.driver dev = some (sess, d))
    {ε α : Type} {prog : Asking QueryCall Reply ε α} {res : Except ε α} :
    EndsWith addr img t dev prog res ↔ prog.alone (tables (img d.library.key)) = some res := by
  constructor
  · intro h
    -- It comes to an end, and all it is told are answers of the tables.
    rcases h.2 ⟨⟨.sessionFree none, sampleEnv⟩, fun _ => ⟨fun _ => true, 0, true, fun _ => 0⟩,
      fun _ => true⟩ with ⟨tr', hrun', hrule', _, hplays⟩
    exact plays_alone hplays (fun z hz => exchange_tables hinv hrun' hrule' hdev hz)
  · intro h
    refine ⟨fun tr' u l res' hrun' hrule' hconv hplays => ?_, fun c => ?_⟩
    · have halone := plays_alone hplays (fun z hz =>
        exchange_tables hinv hrun' hrule' hdev (hconv.subset hz))
      rw [h, Option.some.injEq] at halone
      exact halone.symm
    · rcases plays_of_alone h with ⟨l, hplays, hl⟩
      rcases exchanges_run addr hinv hdev c hl with
        ⟨tr', hrun', hrule', hlabels, hsame⟩
      refine ⟨tr', hrun', hrule', hlabels, ?_⟩
      rw [hsame]
      exact hplays

/-- Behind every run of clients that free jobs before their session, a program of
    a client ends in every continuation as it does with the tables of the library
    alone. -/
theorem stackRuns_client (addr : DeviceHandle → Nat) (img : Nat × List UInt8 → Image)
    (tr : List (StackEntry R)) (t : Stack R) (hrun : StackRuns addr img tr t)
    (hrule : Respects FreesJobs tr) (dev : DeviceHandle) (sess : Session) (d : Device)
    (hdev : deviceAt t.driver dev = some (sess, d)) {ε α : Type}
    (prog : Asking QueryCall Reply ε α) (res : Except ε α) :
    EndsWith addr img t dev prog res ↔ prog.alone (tables (img d.library.key)) = some res :=
  endsWith_iff_alone (stackRuns_inv hrun hrule) hdev

end

/-- A client asks how long the list of sites is, reads the list, and asks for the
    index of the last site. -/
def lastSite : Asking QueryCall Reply Thrown Reply := do
  let probe ← Asking.question (.deviceProperty DeviceProperty.sites.code
    { size := 0, value := none, sizeRet := true })
  let size := probe.sizeRet.getD 0
  let list ← Asking.question (.deviceProperty DeviceProperty.sites.code
    { size, value := some (List.replicate size 0), sizeRet := false })
  let site := leNat ((list.value.getD []).drop (size - 8))
  Asking.question (.siteProperty (some site) SiteProperty.index.code
    { size := 8, value := some (List.replicate 8 0), sizeRet := false })

/-- The answer is four, while a job runs and others come and go. -/
theorem stackRuns_client_sample :
    ∃ tr t, StackRuns (R := ℚ) (fun _ => 0) (fun _ => sampleImage) tr t ∧
      EndsWith (fun _ => 0) (fun _ => sampleImage) t { session := 0, index := 1 } lastSite
        (.ok { status := .success, value := some [4, 0, 0, 0, 0, 0, 0, 0] }) := by
  rcases stackRuns_evaluated submitOps (fun p =>
    (deviceAt p.2.driver { session := 0, index := 1 }).map (fun x => x.2.library.key)) (0, [65])
    rfl with ⟨tr, t, hrun, hrule, hv⟩
  rcases Option.map_eq_some_iff.mp hv with ⟨⟨sess, d⟩, hdev, _⟩
  exact ⟨tr, t, hrun, (stackRuns_client (fun _ => 0) (fun _ => sampleImage) tr t hrun hrule
    { session := 0, index := 1 } sess d hdev _ _).mpr rfl⟩

end Driver

end Qdmi
