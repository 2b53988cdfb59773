import Qdmi.Theory.Driver.Change
import Qdmi.Theory.Stack.Opening

/-!
# The Driver and Its Libraries, Step by Step

One call of a client is one move of the driver and some steps of the libraries.
The invariant of the stack has two parts for each side and two that join them:
the driver keeps its own invariant, the libraries mirror its books, behind every
device there is an initialized device session with the token of the client, and
behind every job there is a device job of that device session.

The first two parts come from the invariant of the driver and from the books. The
other two are about objects and follow them through the calls of a move. What is
there before and after a move is never given back in between
(`driverMove_not_returns`), so a session or a job that is not new is kept by the
libraries. What is new is found among the calls of the move: a device was opened
by the three calls of its turn, and the rest of the calls leave its session alone
(`openedDevice_ready`); a job was created by the only call of its move.

## Main definitions

* `Ready`, `Joined`: What is behind a device and behind a job.
* `StackInv`: The invariant of the stack.
* `FreesJobs`: Clients free a session after the jobs on its devices.
* `driverPart`, `worldPart`: A run of the stack as a run of either side.

## Theorems

* `stackStep_cases`: A step is a move and a run of the libraries.
* `openedDevice_ready`: A device that a move has opened.
* `stackStep_keeps`: One call of a client.
* `stackRuns_keeps`, `stackRuns_inv`, `worldPart_runs`: All calls of a run.
-/

namespace Qdmi

namespace Driver

variable {R : Type}

/-- The steps of the libraries that are calls of a list of events. -/
def Follow (tr : List (WorldEntry R)) (events : List Event) : Prop :=
  tr.map (fun e => e.label.event) = events

theorem deliveries_events (c : StackCall R) (events : List Event) :
    (c.deliveries events).map Delivery.event = events := by
  refine List.ext_getElem? fun i => ?_
  rw [StackCall.deliveries, List.getElem?_map, List.getElem?_mapIdx, Option.map_map]
  exact Option.map_id'

theorem dealsOf_follow {tr : List (WorldEntry R)} {events : List Event} (h : Follow tr events) :
    dealsOf tr = deals events := by
  rw [dealsOf, deals, ← h, List.flatMap_map]

/-- Steps that follow a list of events can be cut where the list is cut. -/
theorem follow_split {tr : List (WorldEntry R)} {events events' : List Event}
    (h : Follow tr (events ++ events')) :
    ∃ tr₁ tr₂, tr = tr₁ ++ tr₂ ∧ Follow tr₁ events ∧ Follow tr₂ events' :=
  List.map_eq_append_iff.mp h

/-- Behind a device there is a device session that is initialized with the token
    of the client session, terminator included. -/
def Ready (w : World R) (sess : Session) (d : Device) : Prop :=
  ∃ token, sess.token = some token ∧ sessionAt (w d.library.key) d.deviceSession =
    some { token := token ++ [0], status := .initialized }

/-- Behind a job there is a device job of the device session of its device. -/
def Joined (w : World R) (d : Device) (jb : Job) : Prop :=
  ∃ djb, jobAt (w d.library.key) jb.deviceJob = some djb ∧
    (w d.library.key).session d.deviceSession = some djb.session

/-- The invariant of the stack. -/
structure StackInv (t : Stack R) : Prop where
  driver : DriverInv t.driver
  mirrors : Mirrors (owned t.driver) t.world
  ready : ∀ dev sess d, deviceAt t.driver dev = some (sess, d) → Ready t.world sess d
  joined : ∀ j jb d, t.driver.jobs.get? j = some jb → deviceOf t.driver jb.device = some d →
    Joined t.world d jb

/-- A session is freed after the jobs on its devices. -/
def FreesJobs (t : Stack R) (c : StackCall R) : Prop := FreesJobsFirst t.driver c.call

theorem stackInv_initial : StackInv ({} : Stack R) where
  driver := driverInv_initial
  mirrors := by
    rw [owned_empty driverInv_initial rfl]
    exact mirrors_empty
  ready _ _ _ hdev := absurd hdev (by simp only [deviceAt, Heap.get?_empty, Option.bind_none,
    reduceCtorEq, not_false_eq_true])
  joined _ _ _ hget := absurd hget (by simp only [Heap.get?_empty, reduceCtorEq,
    not_false_eq_true])

section

variable [Zero R] [DecidableEq R] [Add R] [Mul R] [Div R] [DoubleRepr R]
variable {addr : DeviceHandle → Nat} {img : Nat × List UInt8 → Image}
variable {t t' : Stack R} {c : StackCall R} {out : StackOut R}

/-- A step is a move of the driver and a run of the libraries through its
    events. -/
theorem stackStep_cases (hstep : stackStep addr img t c = .ok (out, t')) :
    driverStep addr t.driver c.call = .ok (out.driver, t'.driver) ∧
      Runs (worldStep img) t.world out.world t'.world ∧ Follow out.world out.driver.events := by
  unfold stackStep at hstep
  rcases hdriver : driverStep addr t.driver c.call with e | ⟨dout, driver⟩
  · rw [hdriver] at hstep
    exact absurd hstep (by simp only [reduceCtorEq, not_false_eq_true])
  rw [hdriver] at hstep
  dsimp only at hstep
  rcases hplay : play (worldStep img) t.world (c.deliveries dout.events) with e | ⟨entries, world⟩
  · rw [hplay] at hstep
    exact absurd hstep (by simp only [reduceCtorEq, not_false_eq_true])
  rw [hplay, Except.ok.injEq, Prod.mk.injEq] at hstep
  rw [← hstep.1, ← hstep.2]
  refine ⟨rfl, runs_of_play _ hplay, ?_⟩
  rw [Follow, ← deliveries_events c dout.events, ← play_labels _ hplay, List.map_map]
  rfl

/-- The libraries are given the environments of the call, one for each event. -/
theorem stackStep_labels (hstep : stackStep addr img t c = .ok (out, t')) :
    out.world.map Entry.label = c.deliveries out.driver.events := by
  unfold stackStep at hstep
  rcases hdriver : driverStep addr t.driver c.call with e | ⟨dout, driver⟩
  · rw [hdriver] at hstep
    exact absurd hstep (by simp only [reduceCtorEq, not_false_eq_true])
  rw [hdriver] at hstep
  dsimp only at hstep
  rcases hplay : play (worldStep img) t.world (c.deliveries dout.events) with e | ⟨entries, world⟩
  · rw [hplay] at hstep
    exact absurd hstep (by simp only [reduceCtorEq, not_false_eq_true])
  rw [hplay, Except.ok.injEq, Prod.mk.injEq] at hstep
  rw [← hstep.1]
  exact play_labels _ hplay

/-! ## What a move has opened -/

/-- The calls of the loop of `QDMI_session_init`, if it gets through, around the
    turn of one device. Nothing is given back. -/
theorem openedAs_turn {token : List UInt8} {cfgs : List Configured} {o : Opening}
    (h : OpenedAs token cfgs o) {i : Nat} {d : Device} (hd : o.devices[i]? = some d) :
    (∃ before behind auth, Accepted auth ∧
      o.events = before ++ (openedEvents token d auth ++ behind)) ∧
    ∀ key r, Deal.returns key r ∉ deals o.events := by
  rcases h.events with ⟨turns, hturns, hevents⟩
  refine ⟨?_, fun key r hmem => ?_⟩
  · rcases List.getElem?_eq_some_iff.mp hd with ⟨hi, hdi⟩
    have hi' : i < turns.length := hturns.length_eq ▸ hi
    rcases (List.forall₂_iff_get.mp hturns).2 i hi hi' with ⟨auth, hauth, hturn⟩
    rw [List.get_eq_getElem, List.get_eq_getElem, hdi] at hturn
    refine ⟨(turns.take i).flatten, (turns.drop (i + 1)).flatten, auth, hauth, ?_⟩
    rw [hevents, ← hturn, ← List.flatten_cons, ← List.flatten_append,
      ← List.drop_eq_getElem_cons hi', List.take_append_drop]
  · rw [hevents] at hmem
    rcases List.mem_flatMap.mp hmem with ⟨event, hevent, hdeal⟩
    rcases List.mem_flatten.mp hevent with ⟨turn, hturn, hin⟩
    rcases List.getElem_of_mem hturn with ⟨k, hk, hget⟩
    have hk' : k < o.devices.length := hturns.length_eq ▸ hk
    rcases (List.forall₂_iff_get.mp hturns).2 k hk' hk with ⟨auth, _, heq⟩
    rw [List.get_eq_getElem, hget] at heq
    subst heq
    -- A turn takes a session and uses it twice.
    simp only [openedEvents, List.mem_cons, List.not_mem_nil, or_false] at hin
    rcases hin with rfl | rfl | rfl
    all_goals exact absurd (List.mem_singleton.mp hdeal) (by simp only [reduceCtorEq,
      not_false_eq_true])

/-- A device that a move has opened. Its turn leaves a session that is
    initialized, and the calls behind it leave that session alone. -/
theorem openedDevice_ready {dev : DeviceHandle} {sess : Session} {d : Device}
    (hinv : DriverInv t.driver) (hmirrors : Mirrors (owned t.driver) t.world)
    (hnew : NewDevice t.driver c.call out.driver dev sess d)
    (hworld : Runs (worldStep img) t.world out.world t'.world)
    (hfollow : Follow out.world out.driver.events) {b : LibraryBooks}
    (hleads : Leads (owned t.driver) (deals out.driver.events) b) : Ready t'.world sess d := by
  rcases hnew.opened with ⟨sess₀, token, o, _, _, htoken, hopen, hsess, hd, hevents⟩
  have hdone := (openDevices_inv hopen (fun cfg hcfg =>
    List.mem_map_of_mem (hinv.configured cfg hcfg)) (fun _ _ => (owned_bound hinv).1)).2 rfl
  rcases openedAs_turn hdone hd with ⟨⟨before, behind, auth, hauth, hsplit⟩, hback⟩
  rw [← hevents] at hback
  rw [hevents, hsplit] at hfollow
  -- The run of the libraries before the turn of the device, through it and behind it.
  rcases follow_split hfollow with ⟨tr₁, tr, htr, h₁, hfollow⟩
  rcases follow_split hfollow with ⟨tr₂, tr₃, htr', h₂, h₃⟩
  rcases runs_split hworld tr₁ tr htr with ⟨w₁, hrun₁, hrun⟩
  rcases runs_split hrun tr₂ tr₃ htr' with ⟨w₂, hrun₂, hrun₃⟩
  rw [hevents, hsplit, deals_append, deals_append] at hleads hback
  rcases leads_split hleads with ⟨b₁, hleads₁, hleads⟩
  rcases leads_split hleads with ⟨b₂, hleads₂, hleads₃⟩
  have hmirrors₁ := worldRuns_mirrors hmirrors hrun₁ (by rwa [dealsOf_follow h₁])
  have hmirrors₂ := worldRuns_mirrors hmirrors₁ hrun₂ (by rwa [dealsOf_follow h₂])
  have hready := worldRuns_opened hrun₂ h₂ hauth
  -- The turn takes the session, so it is held when the turn is over.
  have hheld : b₂.held d.library.key (.session d.deviceSession) := by
    rcases leads_split (show Leads _ ([Deal.takes d.library.key
      (Resource.session d.deviceSession)] ++ _) _ from hleads₂) with ⟨c₁, htaken, hused⟩
    refine leads_held hused ?_ (fun hmem => ?_)
    · rw [(leads_one htaken).2]
      exact Or.inr ⟨rfl, rfl⟩
    · rcases List.mem_cons.mp hmem with heq | hmem
      · exact absurd heq (by simp only [reduceCtorEq, not_false_eq_true])
      · exact absurd (List.mem_singleton.mp hmem) (by simp only [reduceCtorEq,
          not_false_eq_true])
  have hkept := worldRuns_session hmirrors₂ hrun₃ (by rwa [dealsOf_follow h₃]) hheld (by
    rw [dealsOf_follow h₃]
    exact fun hmem => hback _ _ (List.mem_append_right _ (List.mem_append_right _ hmem)))
  refine ⟨token, ?_, hkept.ready _ hready rfl⟩
  rw [hsess]
  exact htoken

/-! ## One call of a client -/

/-- A job that a move has adopted. -/
theorem adoptedJob_joined {j : Nat} {jb : Job} {d : Device}
    (hnew : NewJob t.driver c.call out.driver t'.driver j jb)
    (hdev : deviceOf t'.driver jb.device = some d)
    (hworld : Runs (worldStep img) t.world out.world t'.world)
    (hfollow : Follow out.world out.driver.events) : Joined t'.world d jb := by
  rcases hnew.request with ⟨sess, d', call, hdev', hcall, hevents⟩
  have hsame := (deviceOf_of_deviceAt hdev').2
  rw [deviceOf, hnew.sessions] at hdev
  rw [deviceOf, hdev, Option.some.injEq] at hsame
  rw [← hsame] at hcall hevents
  rw [hevents] at hfollow
  rcases List.map_eq_singleton_iff.mp hfollow with ⟨e, htr, hevent⟩
  rw [htr] at hworld
  rcases runs_cons hworld with ⟨hstep, hnil⟩
  rcases createDeviceJob_jobAt hstep hevent hcall with ⟨p, id, hp, hsessions, hjob⟩
  rw [runs_nil hnil]
  exact ⟨_, hjob, by rw [hsessions, hp]⟩

/-- One call of a client keeps the invariant of the stack. -/
theorem stackStep_keeps (hinv : StackInv t) (hrule : FreesJobs t c)
    (hstep : stackStep addr img t c = .ok (out, t')) : StackInv t' := by
  rcases stackStep_cases hstep with ⟨hdriver, hworld, hfollow⟩
  have hmove := driverStep_move hdriver
  have hkeeps := driverMove_keeps hmove hinv.driver hrule
  have hdeals := dealsOf_follow hfollow
  have hleads : Leads (owned t.driver) (dealsOf out.world) (owned t'.driver) := by
    rw [hdeals]
    exact hkeeps.leads
  -- What is held on both sides of the move is not given back in between.
  have hback : ∀ {key r}, (owned t.driver).held key r → (owned t'.driver).held key r →
      Deal.returns key r ∉ dealsOf out.world := by
    intro key r hheld hheld'
    rw [hdeals]
    exact driverMove_not_returns hmove hinv.driver hkeeps.leads hheld hheld'
  refine ⟨hkeeps.inv, worldRuns_mirrors hinv.mirrors hworld hleads, ?_, ?_⟩
  · intro dev sess d hdev
    rcases driverMove_device hmove hdev with hold | hnew
    · rcases hinv.ready dev sess d hold with ⟨token, htoken, hsess⟩
      have hheld := (owned_session hinv.driver (deviceOf_of_deviceAt hold).2).2
      have hheld' := (owned_session hkeeps.inv (deviceOf_of_deviceAt hdev).2).2
      exact ⟨token, htoken, (worldRuns_session hinv.mirrors hworld hleads hheld
        (hback hheld hheld')).ready _ hsess rfl⟩
    · exact openedDevice_ready hinv.driver hinv.mirrors hnew hworld hfollow hkeeps.leads
  · intro j jb d hget hdev
    rcases driverMove_job hmove hget with hold | hnew
    · -- The device of a job that was there has not changed.
      rcases hinv.driver.jobDevice j jb hold with ⟨d₀, hd₀⟩
      have hsame : d = d₀ := by
        rcases Option.bind_eq_some_iff.mp hdev with ⟨sess, hsess, hd⟩
        have hat : deviceAt t'.driver jb.device = some (sess, d) := by
          rw [deviceAt, hsess, Option.bind_some, hd, Option.map_some]
        rcases driverMove_device hmove hat with hbefore | hnew
        · rw [(deviceOf_of_deviceAt hbefore).2, Option.some.injEq] at hd₀
          exact hd₀
        · -- A session that is opened now has had no devices, and so no jobs.
          rcases hnew.opened with ⟨sess₀, _, _, hsess₀, hst, _⟩
          rw [deviceOf_eq hsess₀ rfl, sess₀.bare hst, List.getElem?_nil] at hd₀
          exact absurd hd₀ (by simp only [reduceCtorEq, not_false_eq_true])
      rw [← hsame] at hd₀
      rcases hinv.joined j jb d hold hd₀ with ⟨djb, hdjb, hname⟩
      have hheldj := (owned_job hinv.driver hold hd₀).2
      have hheldj' := (owned_job hkeeps.inv hget hdev).2
      have hheld := (owned_session hinv.driver hd₀).2
      have hheld' := (owned_session hkeeps.inv hdev).2
      rcases (worldRuns_job hinv.mirrors hworld hleads hheldj (hback hheldj hheldj')).kept djb hdjb
        with ⟨djb', hdjb', hsession, _⟩
      refine ⟨djb', hdjb', ?_⟩
      rw [(worldRuns_session hinv.mirrors hworld hleads hheld (hback hheld hheld')).name, hname,
        hsession]
    · exact adoptedJob_joined hnew hdev hworld hfollow

/-! ## All calls of a run -/

/-- Runs keep the invariant. -/
theorem stackRuns_keeps {tr : List (StackEntry R)} (hinv : StackInv t)
    (hrun : Runs (stackStep addr img) t tr t') (hrule : Respects FreesJobs tr) : StackInv t' :=
  runs_invariant (P := fun _ t => StackInv t) hrun hrule hinv
    (fun _ _ _ _ _ _ _ hinv hc hstep => stackStep_keeps hinv hc hstep)

/-- The invariant holds behind every run. -/
theorem stackRuns_inv {tr : List (StackEntry R)} (hrun : StackRuns addr img tr t)
    (hrule : Respects FreesJobs tr) : StackInv t :=
  stackRuns_keeps stackInv_initial hrun hrule

/-- The driver in a run of the stack. -/
def driverPart (e : StackEntry R) : List DriverEntry :=
  [⟨e.pre.driver, e.label.call, e.out.driver, e.post.driver⟩]

/-- The libraries in a run of the stack. -/
def worldPart (e : StackEntry R) : List (WorldEntry R) := e.out.world

theorem worldPart_runs {s : Stack R} {tr : List (StackEntry R)}
    (hrun : Runs (stackStep addr img) s tr t) :
    Runs (worldStep img) s.world (tr.flatMap worldPart) t.world :=
  runs_flatMap (C := fun _ => True) (fun _ _ _ _ _ hstep => (stackStep_cases hstep).2.1) hrun
    (fun _ _ => trivial)

end

end Driver

end Qdmi
