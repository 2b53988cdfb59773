import Qdmi.Theory.Device.Reachable

/-!
# Sessions as Gates

What initializing a session changes, over a whole run.

Whether a session is initialized is a question about the past, and the state
answers it: a session is in `initialized` exactly when an initialization of it
has succeeded (`initialized_iff`). One direction is an invariant of the run.
The other needs that an initialized session never changes again, which is a
relation between two states, `InitializedKept`.

Two promises hang on the gate, and the device breaks both in one place.
Initialization is to succeed once, but it does not look at the status of the
session; `deviceRuns_oneShot_iff` says that a run keeps the protocol if and
only if nobody asks a second time. And a session that is not initialized is to
be refused by every call that needs one, but the site and the operation query
check their session for null only; `deviceRuns_gated_iff` says that these two
are the only calls that let it through.

## Main definitions

* `InitializedKept`: What every session handle keeps once it is initialized.
* `Initializes`, `InitializedIn`: A successful initialization, in a history.
* `Reinitializes`: A call initializes a session again.
* `OneShot`: The protocol of a session.
* `initTarget`, `gateView`: What a sample run is looked at for.
* `gateOf`, `wellArgued`, `refusal`: The calls that need a session, the checks
  they make before they look at it, and how they refuse it.
* `Refused`: A call was refused and disclosed nothing.
* `unguarded`: The calls that do not look at the session.
* `Blameless`: An answer that does not blame the state.

## Theorems

* `runs_initializedKept`: An initialized session never changes again.
* `initialized_iff`: The status of a session and the history of a run.
* `deviceRuns_oneShot_iff`: When a session is initialized once.
* `blameless_siteProperty`, `blameless_operationProperty`,
  `blameless_foreignOperation`: Two queries never blame the state.
* `refused_of_guarded`, `not_refused_of_unguarded`: One call on a session that
  is not initialized.
* `deviceRuns_gated_iff`: When every call on such a session is refused.
-/

namespace Qdmi

variable {R : Type}

/-! ## An initialized session never changes again -/

/-- What every session handle keeps between two states: a dead handle stays
    dead, and an initialized session keeps its status and its token. -/
def InitializedKept (s t : DeviceState R) : Prop :=
  s.sessions.next ≤ t.sessions.next ∧ ∀ i, i < s.sessions.next →
    (s.sessions.get? i = none → t.sessions.get? i = none) ∧
    ∀ sess sess', s.sessions.get? i = some sess → sess.status = .initialized →
      t.sessions.get? i = some sess' → sess' = sess

theorem initializedKept_refl (s : DeviceState R) : InitializedKept s s := by
  refine ⟨Nat.le_refl _, fun i _ => ⟨fun hn => hn, fun sess sess' hget _ hget' => ?_⟩⟩
  exact Option.some.inj (hget'.symm.trans hget)

theorem initializedKept_trans (s t u : DeviceState R) (hst : InitializedKept s t)
    (htu : InitializedKept t u) : InitializedKept s u := by
  refine ⟨Nat.le_trans hst.1 htu.1, fun i hlt => ?_⟩
  rcases hst.2 i hlt with ⟨hdead₁, hkept₁⟩
  rcases htu.2 i (Nat.lt_of_lt_of_le hlt hst.1) with ⟨hdead₂, hkept₂⟩
  refine ⟨fun hn => hdead₂ (hdead₁ hn), fun sess sess'' hget hinit hget'' => ?_⟩
  rcases hmid : t.sessions.get? i with _ | sess'
  · -- The session was freed on the way.
    exact absurd ((hdead₂ hmid).symm.trans hget'')
      (by simp only [reduceCtorEq, not_false_eq_true])
  · have hsame := hkept₁ sess sess' hget hinit hmid
    rw [← hsame] at hinit ⊢
    exact hkept₂ sess' sess'' hmid hinit hget''

section

variable [Zero R] [DecidableEq R] [Add R] [Mul R] [Div R] [DoubleRepr R]

theorem deviceStep_initializedKept {img : Image} {s s' : DeviceState R} {c : Call R}
    {out : Except Exn Reply} (hstep : deviceStep img s c = .ok (out, s')) :
    InitializedKept s s' := by
  refine ⟨deviceStep_sessions_next hstep, fun i hlt => ?_⟩
  rcases deviceStep_session hstep i with
    hs | ⟨hnext, _⟩ | ⟨sess, token, hget, hst, hs⟩ | ⟨sess, _, _, hget, hs⟩ | hs
  · rw [hs]
    exact ⟨fun hn => hn, fun sess sess' hget _ hget' => Option.some.inj (hget'.symm.trans hget)⟩
  · exact absurd hnext (Nat.ne_of_lt hlt)
  · -- Only a session in `allocated` is given a token.
    rw [hget]
    refine ⟨fun hn => absurd hn (by simp only [reduceCtorEq, not_false_eq_true]),
      fun sess₀ sess' hget₀ hinit _ => ?_⟩
    rw [← Option.some.inj hget₀] at hinit
    exact absurd (hst.symm.trans hinit) (by decide)
  · rw [hget]
    refine ⟨fun hn => absurd hn (by simp only [reduceCtorEq, not_false_eq_true]),
      fun sess₀ sess' hget₀ hinit hget' => ?_⟩
    rw [hs, Option.some.injEq] at hget'
    rw [← Option.some.inj hget₀] at hinit ⊢
    rw [← hget', ← hinit]
  · rw [hs]
    exact ⟨fun _ => rfl, fun _ _ _ _ hget' => absurd hget'
      (by simp only [reduceCtorEq, not_false_eq_true])⟩

theorem runs_initializedKept {img : Image} {s t : DeviceState R} {tr : List (DeviceEntry R)}
    (hrun : Runs (deviceStep img) s tr t) : InitializedKept s t :=
  runs_relation initializedKept_refl initializedKept_trans
    (fun _ _ _ _ hstep => deviceStep_initializedKept hstep) hrun

end

/-! ## The status of a session and the history of a run -/

/-- A step that initialized a session. -/
def Initializes (h : Nat) (e : DeviceEntry R) : Prop :=
  e.label.op = .sessionInit (some h) ∧ Succeeds e.out

/-- A history contains a successful initialization of a session. -/
def InitializedIn (h : Nat) (tr : List (DeviceEntry R)) : Prop := ∃ e ∈ tr, Initializes h e

section

variable [Zero R] [DecidableEq R] [Add R] [Mul R] [Div R] [DoubleRepr R]

/-- The session before and after a successful initialization of it. -/
theorem deviceStep_init {img : Image} {s s' : DeviceState R} {c : Call R} {out : Except Exn Reply}
    {h : Nat} (hstep : deviceStep img s c = .ok (out, s')) (hop : c.op = .sessionInit (some h))
    (hsucc : Succeeds out) : ∃ sess, s.sessions.get? h = some sess ∧
      s'.sessions.get? h = some { sess with status := .initialized } := by
  rw [deviceStep, hop] at hstep
  rcases deviceSessionInit_cases hstep with ⟨_, hfail⟩ | ⟨i, sess, hi, hget, _, _, hs⟩
  · exact absurd hsucc hfail
  · rw [Option.some.injEq] at hi
    rw [← hi] at hget hs
    refine ⟨sess, hget, ?_⟩
    rw [hs, Heap.get?_set _ _ _ _ hget, if_pos rfl]

/-- A live session is in `initialized` if and only if the history contains a
    successful initialization of it. -/
theorem initialized_iff {img : Image} {s : DeviceState R} {tr : List (DeviceEntry R)}
    (hrun : DeviceRuns img tr s) {h : Nat} {sess : DeviceSession}
    (hget : s.sessions.get? h = some sess) :
    sess.status = .initialized ↔ InitializedIn h tr := by
  constructor
  · -- By induction on the run: the status is entered by an initialization only.
    have hinv : ∀ sess, s.sessions.get? h = some sess → sess.status = .initialized →
        InitializedIn h tr := by
      refine runs_invariant (C := fun _ _ => True)
        (P := fun tr s => ∀ sess, s.sessions.get? h = some sess → sess.status = .initialized →
          InitializedIn h tr) hrun (fun _ _ => trivial) ?_ ?_
      · intro sess hsess _
        exact absurd hsess (by simp only [Heap.get?_empty, reduceCtorEq, not_false_eq_true])
      · intro tr t c out u _ _ ih _ hstep sess' hget' hinit
        have hlift : InitializedIn h tr → InitializedIn h (tr ++ [⟨t, c, out, u⟩]) := by
          rintro ⟨e, he, hini⟩
          exact ⟨e, List.mem_append_left _ he, hini⟩
        rcases deviceStep_session hstep h with
          hs | ⟨_, hs⟩ | ⟨sess, token, _, hst, hs⟩ | ⟨sess, hop, hsucc, _, _⟩ | hs
        · exact hlift (ih sess' (hs ▸ hget') hinit)
        · rw [hs, Option.some.injEq] at hget'
          rw [← hget'] at hinit
          exact absurd hinit (by decide)
        · rw [hs, Option.some.injEq] at hget'
          rw [← hget'] at hinit
          exact absurd (hst.symm.trans hinit) (by decide)
        · exact ⟨_, List.mem_append_right _ List.mem_cons_self, hop, hsucc⟩
        · exact absurd (hs.symm.trans hget') (by simp only [reduceCtorEq, not_false_eq_true])
    exact hinv sess hget
  · rintro ⟨e, he, hop, hsucc⟩
    -- From the step on the status is kept, up to the end of the run.
    rcases runs_mem hrun he with ⟨_, _, _, _, hstep, hrest⟩
    rcases deviceStep_init hstep hop hsucc with ⟨sess₀, _, hpost⟩
    have hlt := Heap.get?_lt_next hpost
    rw [((runs_initializedKept hrest).2 h hlt).2 _ sess hpost rfl hget]

end

/-! ## Initializing once -/

/-- A call initializes a session that is initialized already. -/
def Reinitializes (h : Nat) (s : DeviceState R) (c : Call R) : Prop :=
  c.op = .sessionInit (some h) ∧
    ∃ sess, s.sessions.get? h = some sess ∧ sess.status = .initialized

/-- The protocol of a session: after it has been initialized, no call
    initializes it again, a live one answers `badstate`, no parameter is
    accepted, and its token is the one it was initialized with. -/
structure OneShot (h : Nat) (tr : List (DeviceEntry R)) : Prop where
  once : ∀ tr₁ e tr₂, tr = tr₁ ++ e :: tr₂ → InitializedIn h tr₁ →
    e.label.op = .sessionInit (some h) → ¬ Succeeds e.out ∧
      ∀ sess, e.pre.sessions.get? h = some sess → e.out = .ok { status := .errorBadstate }
  parameters : ∀ tr₁ e tr₂, tr = tr₁ ++ e :: tr₂ → InitializedIn h tr₁ →
    ∀ param size value, e.label.op = .sessionSetParameter (some h) param size value →
      ¬ Succeeds e.out
  token : ∀ tr₁ e tr₂, tr = tr₁ ++ e :: tr₂ → Initializes h e → ∀ e' ∈ tr₂, ∀ sess sess',
    e.pre.sessions.get? h = some sess → e'.post.sessions.get? h = some sess' →
      sess'.token = sess.token

/-- Initialization never answers that the session is in the wrong state. -/
theorem deviceSessionInit_ne_badstate {s s' : DeviceState R} {session : Option Nat}
    {out : Except Exn Reply} (h : deviceSessionInit s session = .ok (out, s')) :
    out ≠ .ok { status := .errorBadstate } := by
  -- None of the statuses it answers with is the one.
  have hans : ∀ {status : Status} {t : DeviceState R}, status ≠ .errorBadstate →
      answer status t = .ok (out, s') → out ≠ .ok { status := .errorBadstate } := by
    intro status t hne h hout
    rw [(answer_eq_ok.mp h).1, Except.ok.injEq, Reply.mk.injEq] at hout
    exact hne hout.1
  unfold deviceSessionInit at h
  split at h
  · exact hans (by decide) h
  · split at h
    iterate 3 exact hans (by decide) h
    split at h
    · exact absurd h (by simp only [reduceCtorEq, not_false_eq_true])
    · split at h
      · exact hans (by decide) h
      · exact hans (by decide) h

section

variable [Zero R] [DecidableEq R] [Add R] [Mul R] [Div R] [DoubleRepr R]

/-- In every run, a session follows its protocol if and only if no call
    initializes it while it is initialized. -/
theorem deviceRuns_oneShot_iff (img : Image) (tr : List (DeviceEntry R)) (s : DeviceState R)
    (hrun : DeviceRuns img tr s) (h : Nat) :
    OneShot h tr ↔ Respects (fun s c => ¬ Reinitializes h s c) tr := by
  constructor
  · rintro honce e he ⟨hop, sess, hget, hinit⟩
    -- The first such call would have to be refused, and no call is.
    rcases runs_mem hrun he with ⟨tr₁, tr₂, htr, hpre, hstep, _⟩
    have hbad := (honce.once tr₁ e tr₂ htr ((initialized_iff hpre hget).mp hinit) hop).2 sess hget
    rw [deviceStep, hop] at hstep
    exact absurd hbad (deviceSessionInit_ne_badstate hstep)
  · intro hresp
    refine ⟨fun tr₁ e tr₂ htr hin hop => ?_, fun tr₁ e tr₂ htr hin param size value hop hsucc => ?_,
      fun tr₁ e tr₂ htr hini e' he' sess sess' hget hget' => ?_⟩
    all_goals
      have hrun' := hrun
      rw [htr] at hrun'
      rcases runs_at hrun' with ⟨hpre, hstep, hrest⟩
    · -- A live session would be initialized again.
      have hdead : ∀ sess, e.pre.sessions.get? h = some sess → False := by
        intro sess hget
        refine hresp e ?_ ⟨hop, sess, hget, (initialized_iff hpre hget).mpr hin⟩
        rw [htr]
        exact List.mem_append_right _ List.mem_cons_self
      refine ⟨fun hsucc => ?_, fun sess hget => (hdead sess hget).elim⟩
      rcases deviceStep_init hstep hop hsucc with ⟨sess, hget, _⟩
      exact hdead sess hget
    · -- A parameter is accepted in `allocated` only.
      rw [deviceStep, hop] at hstep
      rcases deviceSessionSetParameter_allocated hstep hsucc with ⟨sess, hget, hst⟩
      exact absurd (hst.symm.trans ((initialized_iff hpre hget).mpr hin)) (by decide)
    · rcases deviceStep_init hstep hini.1 hini.2 with ⟨sess₀, hget₀, hpost⟩
      rw [hget, Option.some.injEq] at hget₀
      rcases runs_mem hrest he' with ⟨_, _, _, hmid, hstep', _⟩
      have hkept := runs_initializedKept (Runs.snoc hmid hstep')
      rw [(hkept.2 h (Heap.get?_lt_next hpost)).2 _ sess' hpost rfl hget', hget₀]

end

/-- The session a call is to initialize and its status, if it is live. -/
def initTarget (e : DeviceEntry R) : Option (Nat × SessionStatus) :=
  match e.label.op with
  | .sessionInit (some h) => (e.pre.sessions.get? h).map (fun sess => (h, sess.status))
  | _ => none

theorem reinitializes_iff {h : Nat} {e : DeviceEntry R} :
    Reinitializes h e.pre e.label ↔ initTarget e = some (h, .initialized) := by
  unfold initTarget
  constructor
  · rintro ⟨hop, sess, hget, hinit⟩
    simp only [hop, hget, Option.map_some, hinit]
  · intro htarget
    split at htarget
    · rename_i i hop
      rcases Option.map_eq_some_iff.mp htarget with ⟨sess, hget, hpair⟩
      rw [Prod.mk.injEq] at hpair
      rw [hpair.1] at hop hget
      exact ⟨hop, sess, hget, hpair.2⟩
    · exact absurd htarget (by simp only [reduceCtorEq, not_false_eq_true])

/-- A session that is initialized once follows its protocol, in a run that also
    tries to set its token again. -/
theorem deviceRuns_oneShot_sample :
    ∃ tr s, DeviceRuns (R := ℚ) sampleImage tr s ∧ InitializedIn 0 tr ∧ OneShot 0 tr := by
  rcases deviceRuns_played
    (callsIn sampleEnv (sampleSetup ++ [.sessionSetParameter (some 0) DeviceSessionParameter.token
      1 (some (fun _ => 1)), .jobSubmit (some 0)]))
    (fun p => some (p.1.all (fun e => initTarget e != some (0, .initialized)),
      (p.2.sessions.get? 0).map DeviceSession.status)) (true, some .initialized) rfl with
    ⟨tr, s, hrun, _, hv⟩
  rw [Option.some.injEq, Prod.mk.injEq, List.all_eq_true] at hv
  rcases Option.map_eq_some_iff.mp hv.2 with ⟨sess, hget, hinit⟩
  refine ⟨tr, s, hrun, (initialized_iff hrun hget).mp hinit,
    (deviceRuns_oneShot_iff sampleImage tr s hrun 0).mpr fun e he => ?_⟩
  exact fun hagain => bne_iff_ne.mp (hv.1 e he) (reinitializes_iff.mp hagain)

/-- A second initialization of a session is not refused. -/
theorem initialized_twice :
    ∃ tr s e, DeviceRuns (R := ℚ) sampleImage tr s ∧ e ∈ tr ∧ Reinitializes 0 e.pre e.label ∧
      Succeeds e.out ∧ ¬ OneShot 0 tr := by
  rcases deviceRuns_played (callsIn sampleEnv (sampleSetup ++ [.sessionInit (some 0)]))
    (fun p => p.1.getLast?.bind (fun e => (initTarget e).map (fun v => (v, e.out.toOption))))
    ((0, .initialized), some { status := .success }) rfl with ⟨tr, s, hrun, _, hv⟩
  rcases Option.bind_eq_some_iff.mp hv with ⟨e, hlast, hmap⟩
  rcases Option.map_eq_some_iff.mp hmap with ⟨v, htarget, hpair⟩
  rw [Prod.mk.injEq] at hpair
  rw [hpair.1] at htarget
  have he := List.mem_of_getLast? hlast
  have hagain := reinitializes_iff.mpr htarget
  refine ⟨tr, s, e, hrun, he, hagain, ?_, fun honce => ?_⟩
  · exact succeeds_of_toOption hpair.2 rfl
  · rcases runs_mem hrun he with ⟨tr₁, tr₂, htr, hpre, hstep, _⟩
    rcases hagain with ⟨hop, sess, hget, hinit⟩
    have hbad := (honce.once tr₁ e tr₂ htr ((initialized_iff hpre hget).mp hinit) hop).2 sess hget
    rw [deviceStep, hop] at hstep
    exact deviceSessionInit_ne_badstate hstep hbad

/-! ## Calls that need an initialized session -/

/-- The session of a call that needs an initialized one. -/
def gateOf : Op → Option Nat
  | .createDeviceJob session _ => session
  | .query (.deviceProperty session _) _ => session
  | .query (.siteProperty session _ _) _ => session
  | .query (.operationProperty session _ _ _) _ => session
  | .query (.foreignOperation session _ _) _ => session
  | _ => none

/-- The checks such a call makes on its other arguments before it looks at the
    session. -/
def wellArgued : Op → Bool
  | .createDeviceJob _ job => job
  | .query (.deviceProperty _ prop) out =>
    !(out.degenerate || isInvalidEnumValue prop DeviceProperty.max)
  | .query (.siteProperty _ site prop) out =>
    site.isSome && !(out.degenerate || isInvalidEnumValue prop SiteProperty.max)
  | .query (.operationProperty _ operation args prop) out =>
    operation.isSome && !((args.sites.isSome && args.numSites == 0) ||
      (args.params && args.numParams == 0) || out.degenerate ||
      isInvalidEnumValue prop OperationProperty.max)
  | .query (.foreignOperation _ args prop) out =>
    !((args.sites.isSome && args.numSites == 0) || (args.params && args.numParams == 0) ||
      out.degenerate || isInvalidEnumValue prop OperationProperty.max)
  | _ => false

/-- How such a call refuses a session: nothing is handed out or written. -/
def refusal : Op → Reply
  | .query _ out => out.reject .errorBadstate
  | _ => { status := .errorBadstate }

/-- A call was refused. -/
structure Refused (op : Op) (out : Except Exn Reply) : Prop where
  fails : ¬ Succeeds out
  badstate : wellArgued op = true → out = .ok (refusal op)

/-- The calls that check their session for null only. -/
def unguarded : Op → Bool
  | .query (.siteProperty _ _ _) _ => true
  | .query (.operationProperty _ _ _ _) _ => true
  | .query (.foreignOperation _ _ _) _ => true
  | _ => false

/-- An answer that does not blame the state. -/
def Blameless (x : Except Fault Reply) : Prop :=
  ∀ reply, x = .ok reply → reply.status ≠ .errorBadstate

theorem blameless_reject (out : OutArgs) {status : Status} (h : status ≠ .errorBadstate) :
    Blameless (.ok (out.reject status)) := by
  intro reply hreply
  rw [← Except.ok.inj hreply]
  exact h

theorem blameless_respond (out : OutArgs) (need : Nat) (write : Cursor → Except Fault Cursor) :
    Blameless (respond out need write) := by
  intro reply hreply
  unfold respond at hreply
  split at hreply
  · rw [← Except.ok.inj hreply]
    simp only [ne_eq, reduceCtorEq, not_false_eq_true]
  split at hreply
  · rw [← Except.ok.inj hreply]
    simp only [OutArgs.reject, ne_eq, reduceCtorEq, not_false_eq_true]
  · rcases bind_eq_ok hreply with ⟨cur, _, hlast⟩
    rw [← Except.ok.inj hlast]
    simp only [ne_eq, reduceCtorEq, not_false_eq_true]

theorem blameless_addSingleValueProperty (name : Nat) (bytes : List UInt8) (prop : Nat)
    (out : OutArgs) {rest : Except Fault Reply} (h : Blameless rest) :
    Blameless (addSingleValueProperty name bytes prop out rest) := by
  unfold addSingleValueProperty
  split
  · exact blameless_respond _ _ _
  · exact h

theorem blameless_addStringProperty (name : Nat) (str : CString) (prop : Nat) (out : OutArgs)
    {rest : Except Fault Reply} (h : Blameless rest) :
    Blameless (addStringProperty name str prop out rest) := by
  unfold addStringProperty
  split
  · exact blameless_respond _ _ _
  · exact h

theorem blameless_addListProperty (name : Nat) (elems : List (List UInt8)) (prop : Nat)
    (out : OutArgs) {rest : Except Fault Reply} (h : Blameless rest) :
    Blameless (addListProperty name elems prop out rest) := by
  unfold addListProperty
  split
  · exact blameless_respond _ _ _
  · exact h

/-- The site query never blames the state. -/
theorem blameless_siteProperty (session site : Option Nat) (prop : Nat) (out : OutArgs) :
    Blameless (deviceSessionQuerySiteProperty session site prop out) := by
  unfold deviceSessionQuerySiteProperty
  split
  · split
    · exact blameless_reject _ (by decide)
    · iterate 4 apply blameless_addSingleValueProperty
      exact blameless_reject _ (by decide)
  · exact blameless_reject _ (by decide)

theorem blameless_queryCxProperty (img : Image) (args : OperationArgs) (prop : Nat)
    (out : OutArgs) : Blameless (queryCxProperty img args prop out) := by
  unfold queryCxProperty
  split
  · exact blameless_reject _ (by decide)
  iterate 2 apply blameless_addSingleValueProperty
  apply blameless_addListProperty
  split
  · apply blameless_addSingleValueProperty
    exact blameless_reject _ (by decide)
  split
  · exact blameless_reject _ (by decide)
  split
  · exact blameless_reject _ (by decide)
  split
  · exact blameless_reject _ (by decide)
  · apply blameless_addSingleValueProperty
    exact blameless_reject _ (by decide)

theorem blameless_queryRotationProperty (img : Image) (args : OperationArgs) (prop : Nat)
    (out : OutArgs) : Blameless (queryRotationProperty img args prop out) := by
  unfold queryRotationProperty
  split
  · exact blameless_reject _ (by decide)
  · iterate 4 apply blameless_addSingleValueProperty
    apply blameless_addListProperty
    exact blameless_reject _ (by decide)

/-- Neither does the operation query. -/
theorem blameless_operationProperty (img : Image) (session : Option Nat)
    (operation : Option Operation) (args : OperationArgs) (prop : Nat) (out : OutArgs) :
    Blameless (deviceSessionQueryOperationProperty img session operation args prop out) := by
  unfold deviceSessionQueryOperationProperty
  split
  · split
    · exact blameless_reject _ (by decide)
    · apply blameless_addStringProperty
      apply blameless_addSingleValueProperty
      split
      · exact blameless_queryCxProperty img args prop out
      all_goals exact blameless_queryRotationProperty img args prop out
  · exact blameless_reject _ (by decide)

/-- Nor does it for a foreign operation. -/
theorem blameless_foreignOperation {session : Option Nat} {args : OperationArgs} {prop : Nat}
    {out : OutArgs} {reply : Reply}
    (h : deviceSessionQueryForeignOperation session args prop out = .ok (.ok reply)) :
    reply.status ≠ .errorBadstate := by
  have hreject : ∀ {status : Status}, status ≠ .errorBadstate →
      (.ok (.ok (out.reject status)) : Except Fault (Except Exn Reply)) = .ok (.ok reply) →
      reply.status ≠ .errorBadstate := by
    intro status hne heq
    exact blameless_reject out hne reply (congrArg Except.ok (Except.ok.inj (Except.ok.inj heq)))
  unfold deviceSessionQueryForeignOperation at h
  split at h
  · exact hreject (by decide) h
  split at h
  · exact hreject (by decide) h
  split at h
  · split at h
    · exact absurd h (by simp only [Except.ok.injEq, reduceCtorEq, not_false_eq_true])
    · rw [← Except.ok.inj (Except.ok.inj h)]
      decide
  · rcases map_eq_ok h with ⟨reply', hreply, heq⟩
    rw [← Except.ok.inj heq]
    exact blameless_addSingleValueProperty _ _ _ _ (blameless_reject _ (by decide)) reply' hreply

section

variable [Zero R] [DecidableEq R] [Add R] [Mul R] [Div R] [DoubleRepr R]

/-- Wrong arguments are rejected before anything else is looked at. -/
theorem siteProperty_rejects {session site : Option Nat} {prop : Nat} {args : OutArgs}
    (h : wellArgued (.query (.siteProperty session site prop) args) = false) :
    deviceSessionQuerySiteProperty session site prop args =
      .ok (args.reject .errorInvalidargument) := by
  rcases session with _ | _
  · rfl
  rcases site with _ | i
  · rfl
  simp only [wellArgued, Option.isSome_some, Bool.true_and, Bool.not_eq_false'] at h
  simp only [deviceSessionQuerySiteProperty, h, if_true]

theorem operationProperty_rejects {img : Image} {session : Option Nat}
    {operation : Option Operation} {oargs : OperationArgs} {prop : Nat} {args : OutArgs}
    (h : wellArgued (.query (.operationProperty session operation oargs prop) args) = false) :
    deviceSessionQueryOperationProperty img session operation oargs prop args =
      .ok (args.reject .errorInvalidargument) := by
  rcases session with _ | _
  · rfl
  rcases operation with _ | op
  · rfl
  simp only [wellArgued, Option.isSome_some, Bool.true_and, Bool.not_eq_false'] at h
  simp only [deviceSessionQueryOperationProperty, h, if_true]

theorem foreignOperation_rejects {session : Option Nat} {oargs : OperationArgs} {prop : Nat}
    {args : OutArgs} (h : wellArgued (.query (.foreignOperation session oargs prop) args) = false) :
    deviceSessionQueryForeignOperation session oargs prop args =
      .ok (.ok (args.reject .errorInvalidargument)) := by
  rcases session with _ | _
  · rfl
  simp only [wellArgued, Bool.not_eq_false'] at h
  simp only [deviceSessionQueryForeignOperation, h, if_true]

theorem refused_of_reject {q : Query} {args : OutArgs} {status : Status} {out : Except Exn Reply}
    (hne : status ≠ .success)
    (hargs : wellArgued (.query q args) = true → status = .errorBadstate)
    (hout : .ok (args.reject status) = out) : Refused (.query q args) out := by
  rw [← hout]
  refine ⟨?_, fun hwell => by rw [hargs hwell, refusal]⟩
  rintro ⟨r, hr, hsucc⟩
  rw [← Except.ok.inj hr] at hsucc
  exact hne hsucc

/-- A call that looks at its session refuses one that is not initialized, and
    the others refuse wrong arguments. -/
theorem refused_of_guarded {img : Image} {s s' : DeviceState R} {op : Op} {env : Env R}
    {out : Except Exn Reply} {h : Nat} {sess : DeviceSession}
    (hstep : deviceStep img s ⟨op, env⟩ = .ok (out, s')) (hgate : gateOf op = some h)
    (hget : s.sessions.get? h = some sess) (hst : sess.status ≠ .initialized)
    (hcall : ¬ (unguarded op = true ∧ wellArgued op = true)) : Refused op out := by
  cases op with
  | createDeviceJob session job =>
      rw [gateOf] at hgate
      simp only [deviceStep, deviceSessionCreateDeviceJob, hgate, hget] at hstep
      split at hstep
      · rename_i hjob
        refine ⟨(failed_of_answer (sameButGen_refl s) (by decide) hstep).2, fun hargs => ?_⟩
        rw [wellArgued] at hargs
        rw [hargs] at hjob
        exact absurd hjob (by decide)
      · exact ⟨(failed_of_answer (sameButGen_refl s) (by decide) hstep).2,
          fun _ => (answer_eq_ok.mp hstep).1⟩
  | query q args =>
      -- A query changes nothing, so its answer is all there is to see.
      have hanswer := (deviceStep_query hstep).1
      cases q with
      | deviceProperty session prop =>
          rw [gateOf] at hgate
          rw [deviceQuery, hgate] at hanswer
          rcases map_eq_ok hanswer with ⟨reply, hreply, hout⟩
          simp only [deviceSessionQueryDeviceProperty, hget] at hreply
          split at hreply
          · rename_i hguard
            rw [← Except.ok.inj hreply] at hout
            refine refused_of_reject (by decide) (fun hargs => ?_) hout
            rw [wellArgued, hguard] at hargs
            exact absurd hargs (by decide)
          · -- The session is looked at, and its status is wrong.
            rw [← Except.ok.inj hreply] at hout
            exact refused_of_reject (by decide) (fun _ => rfl) hout
      | siteProperty session site prop =>
          rw [deviceQuery, siteProperty_rejects (Bool.eq_false_of_not_eq_true (hcall ⟨rfl, ·⟩))]
            at hanswer
          rcases map_eq_ok hanswer with ⟨reply, hreply, hout⟩
          rw [← Except.ok.inj hreply] at hout
          exact refused_of_reject (by decide) (fun hargs => absurd ⟨rfl, hargs⟩ hcall) hout
      | operationProperty session operation oargs prop =>
          rw [deviceQuery,
            operationProperty_rejects (Bool.eq_false_of_not_eq_true (hcall ⟨rfl, ·⟩))] at hanswer
          rcases map_eq_ok hanswer with ⟨reply, hreply, hout⟩
          rw [← Except.ok.inj hreply] at hout
          exact refused_of_reject (by decide) (fun hargs => absurd ⟨rfl, hargs⟩ hcall) hout
      | foreignOperation session oargs prop =>
          rw [deviceQuery,
            foreignOperation_rejects (Bool.eq_false_of_not_eq_true (hcall ⟨rfl, ·⟩))] at hanswer
          exact refused_of_reject (by decide) (fun hargs => absurd ⟨rfl, hargs⟩ hcall)
            (Except.ok.inj hanswer)
      | jobProgram job i => exact absurd hgate (by simp only [gateOf, reduceCtorEq,
          not_false_eq_true])
      | jobProperty job prop => exact absurd hgate (by simp only [gateOf, reduceCtorEq,
          not_false_eq_true])
      | jobResults job i kind => exact absurd hgate (by simp only [gateOf, reduceCtorEq,
          not_false_eq_true])
  | _ => exact absurd hgate (by simp only [gateOf, reduceCtorEq, not_false_eq_true])

/-- A call that does not look at its session never refuses it. -/
theorem not_refused_of_unguarded {img : Image} {s s' : DeviceState R} {op : Op} {env : Env R}
    {out : Except Exn Reply} (hstep : deviceStep img s ⟨op, env⟩ = .ok (out, s'))
    (hun : unguarded op = true) (hwell : wellArgued op = true) : ¬ Refused op out := by
  intro href
  have hout := href.badstate hwell
  -- With proper arguments a refusal would say `badstate`, which none of these queries does.
  cases op with
  | query q args =>
      have hanswer := (deviceStep_query hstep).1
      rw [hout] at hanswer
      cases q with
      | siteProperty session site prop =>
          rcases map_eq_ok hanswer with ⟨reply, hreply, heq⟩
          refine blameless_siteProperty session site prop args reply hreply ?_
          rw [Except.ok.inj heq]
          rfl
      | operationProperty session operation oargs prop =>
          rcases map_eq_ok hanswer with ⟨reply, hreply, heq⟩
          refine blameless_operationProperty img session operation oargs prop args reply hreply ?_
          rw [Except.ok.inj heq]
          rfl
      | foreignOperation session oargs prop => exact blameless_foreignOperation hanswer rfl
      | _ => exact absurd hun (by simp only [unguarded, Bool.false_eq_true, not_false_eq_true])
  | _ => exact absurd hun (by simp only [unguarded, Bool.false_eq_true, not_false_eq_true])

/-- In every run, each call that needs an initialized session refuses a live one
    that has not been initialized yet, if and only if no site or operation
    query with proper arguments is made on such a session. -/
theorem deviceRuns_gated_iff (img : Image) (tr : List (DeviceEntry R)) (s : DeviceState R)
    (hrun : DeviceRuns img tr s) :
    (∀ tr₁ e tr₂ h sess, tr = tr₁ ++ e :: tr₂ → gateOf e.label.op = some h →
      e.pre.sessions.get? h = some sess → ¬ InitializedIn h tr₁ →
      Refused e.label.op e.out) ↔
    Respects (fun s c => ∀ h sess, gateOf c.op = some h → s.sessions.get? h = some sess →
      sess.status = .allocated → ¬ (unguarded c.op = true ∧ wellArgued c.op = true)) tr := by
  -- A session has two statuses.
  have hstatus : ∀ sess : DeviceSession, sess.status = .allocated ↔ sess.status ≠ .initialized := by
    intro sess
    cases sess.status
    all_goals decide
  constructor
  · intro hgated e he h sess hgate hget hst hcall
    rcases runs_mem hrun he with ⟨tr₁, tr₂, htr, hpre, hstep, _⟩
    have hnot : ¬ InitializedIn h tr₁ :=
      fun hin => (hstatus sess).mp hst ((initialized_iff hpre hget).mpr hin)
    exact not_refused_of_unguarded hstep hcall.1 hcall.2
      (hgated tr₁ e tr₂ h sess htr hgate hget hnot)
  · intro hresp tr₁ e tr₂ h sess htr hgate hget hnot
    have hmem : e ∈ tr := by
      rw [htr]
      exact List.mem_append_right _ List.mem_cons_self
    rw [htr] at hrun
    rcases runs_at hrun with ⟨hpre, hstep, _⟩
    have hst : sess.status ≠ .initialized :=
      fun hinit => hnot ((initialized_iff hpre hget).mp hinit)
    exact refused_of_guarded hstep hgate hget hst
      (hresp e hmem h sess hgate hget ((hstatus sess).mpr hst))

end

/-- The session a call needs with its status, whether the call lets every session
    through, and what it answered. -/
def gateView (e : DeviceEntry R) : Option (Nat × SessionStatus) × Bool × Option Reply :=
  ((gateOf e.label.op).bind
      (fun h => (e.pre.sessions.get? h).map (fun sess => (h, sess.status))),
    unguarded e.label.op && wellArgued e.label.op, e.out.toOption)

/-- The session a call needs is live, in the status shown. -/
theorem gateView_session {e : DeviceEntry R} {h : Nat} {st : SessionStatus}
    {v : Bool × Option Reply} (hv : gateView e = (some (h, st), v)) :
    gateOf e.label.op = some h ∧ ∃ sess, e.pre.sessions.get? h = some sess ∧ sess.status = st := by
  rcases Option.bind_eq_some_iff.mp (congrArg Prod.fst hv) with ⟨i, hgate, hmap⟩
  rcases Option.map_eq_some_iff.mp hmap with ⟨sess, hget, hpair⟩
  rw [Prod.mk.injEq] at hpair
  rw [hpair.1] at hgate hget
  exact ⟨hgate, sess, hget, hpair.2⟩

/-- A second session that is not initialized is refused a job. -/
theorem deviceRuns_gated_sample :
    ∃ tr s e, DeviceRuns (R := ℚ) sampleImage tr s ∧ e ∈ tr ∧ gateOf e.label.op = some 1 ∧
      Refused e.label.op e.out := by
  rcases deviceRuns_played
    (callsIn sampleEnv (sampleSetup ++ [.sessionAlloc true, .createDeviceJob (some 1) true]))
    (fun p => p.1.getLast?.map (fun e => (gateView e, p.1.all (fun e => !unguarded e.label.op))))
    ((some (1, .allocated), false, some { status := .errorBadstate }), true) rfl with
    ⟨tr, s, hrun, _, hv⟩
  rcases Option.map_eq_some_iff.mp hv with ⟨e, hlast, hpair⟩
  rw [Prod.mk.injEq, List.all_eq_true] at hpair
  have he := List.mem_of_getLast? hlast
  rcases gateView_session hpair.1 with ⟨hgate, sess, hget, hst⟩
  rcases runs_mem hrun he with ⟨tr₁, tr₂, htr, hpre, _, _⟩
  -- The status tells that the session has not been initialized.
  have hnot : ¬ InitializedIn 1 tr₁ := by
    rw [← initialized_iff hpre hget, hst]
    decide
  refine ⟨tr, s, e, hrun, he, hgate, (deviceRuns_gated_iff sampleImage tr s hrun).mpr
    (fun e' he' _ _ _ _ _ hcall => ?_) tr₁ e tr₂ 1 sess htr hgate hget hnot⟩
  have hguarded := hpair.2 e' he'
  rw [hcall.1] at hguarded
  exact absurd hguarded (by decide)

/-- A site query with a session that is not initialized hands out the index of
    the site. -/
theorem ungated_site :
    ∃ tr s tr₁ e tr₂ sess, DeviceRuns (R := ℚ) sampleImage tr s ∧ tr = tr₁ ++ e :: tr₂ ∧
      gateOf e.label.op = some 1 ∧ e.pre.sessions.get? 1 = some sess ∧ ¬ InitializedIn 1 tr₁ ∧
      e.out.toOption =
        some { status := .success, value := some (sizeTBytes 3), sizeRet := some 8 } ∧
      ¬ Refused e.label.op e.out := by
  rcases deviceRuns_played
    (callsIn sampleEnv (sampleSetup ++ [.sessionAlloc true,
      .query (.siteProperty (some 1) (some 3) SiteProperty.index.code)
        { size := 8, value := some (List.replicate 8 255), sizeRet := true }]))
    (fun p => p.1.getLast?.map gateView)
    (some (1, .allocated), true,
      some { status := .success, value := some (sizeTBytes 3), sizeRet := some 8 }) rfl with
    ⟨tr, s, hrun, _, hv⟩
  rcases Option.map_eq_some_iff.mp hv with ⟨e, hlast, hview⟩
  rcases gateView_session hview with ⟨hgate, sess, hget, hst⟩
  rcases runs_mem hrun (List.mem_of_getLast? hlast) with ⟨tr₁, tr₂, htr, hpre, _, _⟩
  have hout : e.out.toOption =
      some { status := .success, value := some (sizeTBytes 3), sizeRet := some 8 } :=
    congrArg (fun v => v.2.2) hview
  refine ⟨tr, s, tr₁, e, tr₂, sess, hrun, htr, hgate, hget, ?_, hout,
    fun href => href.fails (succeeds_of_toOption hout rfl)⟩
  rw [← initialized_iff hpre hget, hst]
  decide

end Qdmi
