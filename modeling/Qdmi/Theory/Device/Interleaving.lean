import Mathlib.Data.List.Forall2
import Qdmi.Theory.Device.Atomicity
import Qdmi.Theory.Device.Frame

/-!
# One Job Among Others

What a client sees of its job does not depend on what else happens on the
device.

All jobs share the device state, the generator and possibly a session, so this
compares two runs. One is any run in which the job takes part; the other makes
the calls on the job and nothing else, on another device state, in another
session and with other values from the generator except for the bits its own
checks draw. `deviceRuns_alone` says that the second run exists and gets the
same replies.

The argument has two halves. A call on something else leaves the job alone,
which is the frame of the previous module. A call on the job goes alike for two
jobs that are alike (`jobOp_matches`), where jobs are alike if they differ in
their identity, in their session and in the amplitudes of their results only.
Submission is the one call on a job that looks outside: it asks the session for
the number of qubits. The session of a job is initialized as long as it lives,
so the answer is always the same.

What the generator decides is left out: the identity and the amplitudes. The
calls that report them are no `JobOp.comparable` calls, and since they change
nothing the run need not make them.

## Main definitions

* `JobOp`, `JobOp.on`: An operation on a job, and the call it is.
* `JobOp.comparable`: Its reply does not depend on the generator.
* `JobAlike`: Jobs that differ in what the generator decides.
* `Paired`: A job in each of two states, alike, with initialized sessions.
* `Matches`: A call goes alike in both.
* `OwnCall`, `ownPart`: The calls on one job in a history.

## Theorems

* `submitResults_alike`, `encodeResult_alike`: The results of a job.
* `jobOp_matches`: A call on the job.
* `paired_frame`: A call on something else.
* `deviceRuns_alone`: A job gets the same replies alone.
-/

namespace Qdmi

variable {R : Type}

/-- An operation on a job. -/
inductive JobOp where
  | setParameter (param size : Nat) (value : Option (Nat → UInt8))
  | setPrograms (format count : Nat) (sizes : Option (Nat → Nat))
      (programs : Option (Nat → Option (Nat → UInt8)))
  | getProgram (programIndex : Nat) (out : OutArgs)
  | getProgramStatus (programIndex : Nat)
  | queryProperty (prop : Nat) (out : OutArgs)
  | submit
  | cancel
  | check (status : Bool)
  | wait
  | getResults (programIndex kind : Nat) (out : OutArgs)

namespace JobOp

/-- The call that makes an operation on a job. -/
def on (h : Nat) : JobOp → Op
  | .setParameter param size value => .jobSetParameter (some h) param size value
  | .setPrograms format count sizes programs =>
    .jobSetPrograms (some h) format count sizes programs
  | .getProgram i out => .query (.jobProgram (some h) i) out
  | .getProgramStatus i => .jobGetProgramStatus (some h) i
  | .queryProperty prop out => .query (.jobProperty (some h) prop) out
  | .submit => .jobSubmit (some h)
  | .cancel => .jobCancel (some h)
  | .check status => .jobCheck (some h) status
  | .wait => .jobWait (some h)
  | .getResults i kind out => .query (.jobResults (some h) i kind) out

/-- The kinds of results that are computed from the amplitudes. -/
def ofAmplitudes (kind : Nat) : Bool :=
  kind == JobResult.statevectorDense.code || kind == JobResult.probabilitiesDense.code ||
    kind == JobResult.statevectorSparseKeys.code ||
    kind == JobResult.statevectorSparseValues.code ||
    kind == JobResult.probabilitiesSparseKeys.code ||
    kind == JobResult.probabilitiesSparseValues.code

/-- The reply to an operation does not depend on the identity and the amplitudes
    the generator yields. -/
def comparable : JobOp → Bool
  | .queryProperty prop _ => prop != DeviceJobProperty.id.code
  | .getResults _ kind _ => !ofAmplitudes kind
  | _ => true

end JobOp

/-! ## Jobs that are alike -/

/-- Jobs that differ in their session, their identity and the amplitudes of their
    results only. -/
structure JobAlike (jb jb' : DeviceJob R) : Prop where
  format : jb.format = jb'.format
  programs : jb.programs = jb'.programs
  status : jb.status = jb'.status
  numShots : jb.numShots = jb'.numShots
  results : List.Forall₂ (fun r r' : ResultData R => r.shots = r'.shots) jb.results jb'.results

/-- A job in each of two states: the jobs are alike, the session of the first is
    initialized if it lives, and that of the second lives and is initialized. -/
structure Paired (h h' : Nat) (s t : DeviceState R) (jb jb' : DeviceJob R) : Prop where
  get : s.jobs.get? h = some jb
  get' : t.jobs.get? h' = some jb'
  alike : JobAlike jb jb'
  session : jb.session < s.sessions.next ∧
    ∀ sess, s.sessions.get? jb.session = some sess → sess.status = .initialized
  session' : ∃ sess, t.sessions.get? jb'.session = some sess ∧ sess.status = .initialized

/-- Whatever the first call returns, the second returns the same, and the jobs
    are alike again. -/
def Matches (h h' : Nat) (x y : Result (DeviceState R)) : Prop :=
  ∀ out s, x = .ok (out, s) → ∃ t, y = .ok (out, t) ∧ ∃ jb jb', Paired h h' s t jb jb'

section

variable {h h' : Nat} {s t : DeviceState R} {jb jb' : DeviceJob R}

theorem matches_answer (hp : Paired h h' s t jb jb') (status : Status) :
    Matches h h' (answer status s) (answer status t) := by
  intro out u hx
  rcases answer_eq_ok.mp hx with ⟨hout, hu⟩
  rw [hout, hu]
  exact ⟨t, rfl, jb, jb', hp⟩

theorem matches_raise (hp : Paired h h' s t jb jb') (e : Exn) :
    Matches h h' (raise e s) (raise e t) := by
  intro out u hx
  rcases raise_eq_ok.mp hx with ⟨hout, hu⟩
  rw [hout, hu]
  exact ⟨t, rfl, jb, jb', hp⟩

theorem matches_fault (e : Fault) (y : Result (DeviceState R)) : Matches h h' (.error e) y := by
  intro out u hx
  exact absurd hx (by simp only [reduceCtorEq, not_false_eq_true])

/-- Two states after an update of the job that keeps its session. -/
theorem paired_set (hp : Paired h h' s t jb jb') {s' t' : DeviceState R} {jb₁ jb₁' : DeviceJob R}
    (hs : s'.jobs = s.jobs.set h jb₁) (ht : t'.jobs = t.jobs.set h' jb₁')
    (hss : s'.sessions = s.sessions) (hts : t'.sessions = t.sessions) (halike : JobAlike jb₁ jb₁')
    (hses : jb₁.session = jb.session) (hses' : jb₁'.session = jb'.session) :
    Paired h h' s' t' jb₁ jb₁' where
  get := by rw [hs, Heap.get?_set _ _ _ _ hp.get, if_pos rfl]
  get' := by rw [ht, Heap.get?_set _ _ _ _ hp.get', if_pos rfl]
  alike := halike
  session := by
    rw [hss, hses]
    exact hp.session
  session' := by
    rw [hts, hses']
    exact hp.session'

/-- The same reply, and such an update on both sides. -/
theorem matches_set (hp : Paired h h' s t jb jb') {s' t' : DeviceState R}
    {jb₁ jb₁' : DeviceJob R} (out : Except Exn Reply)
    (hs : s'.jobs = s.jobs.set h jb₁) (ht : t'.jobs = t.jobs.set h' jb₁')
    (hss : s'.sessions = s.sessions) (hts : t'.sessions = t.sessions) (halike : JobAlike jb₁ jb₁')
    (hses : jb₁.session = jb.session) (hses' : jb₁'.session = jb'.session) :
    Matches h h' (.ok (out, s')) (.ok (out, t')) := by
  intro out' u hx
  rw [Except.ok.injEq, Prod.mk.injEq] at hx
  rw [← hx.1, ← hx.2]
  exact ⟨t', rfl, jb₁, jb₁', paired_set hp hs ht hss hts halike hses hses'⟩

/-! ## Configuring a job -/

theorem setParameter_matches (hp : Paired h h' s t jb jb') (param size : Nat)
    (value : Option (Nat → UInt8)) :
    Matches h h' (deviceJobSetParameter s (some h) param size value)
      (deviceJobSetParameter t (some h') param size value) := by
  simp only [deviceJobSetParameter, hp.get, hp.get', ← hp.alike.status]
  split
  · exact matches_answer hp _
  split
  · exact matches_answer hp _
  split
  · exact matches_answer hp _
  split
  · exact matches_answer hp _
  rcases value with _ | v
  · exact matches_answer hp _
  dsimp only
  split
  · exact matches_answer hp _
  · refine matches_set hp _ rfl rfl rfl rfl ?_ rfl rfl
    exact ⟨hp.alike.format, hp.alike.programs, rfl, rfl, hp.alike.results⟩

/-- The copies that are made depend on the arguments only. -/
theorem copyPrograms_alike {env env' : Env R} (hmem : env.mem = env'.mem) (format count : Nat)
    (sizes : Nat → Nat) (programs : Nat → Option (Nat → UInt8)) :
    copyPrograms env format count sizes programs =
      copyPrograms env' format count sizes programs := by
  have hturn : copyProgram env format sizes programs = copyProgram env' format sizes programs := by
    funext i
    rw [copyProgram, copyProgram, hmem]
  rw [copyPrograms, copyPrograms, hmem, hturn]

theorem setPrograms_matches (hp : Paired h h' s t jb jb') {env env' : Env R}
    (hmem : env.mem = env'.mem) (format count : Nat) (sizes : Option (Nat → Nat))
    (programs : Option (Nat → Option (Nat → UInt8))) :
    Matches h h' (deviceJobSetPrograms s env (some h) format count sizes programs)
      (deviceJobSetPrograms t env' (some h') format count sizes programs) := by
  simp only [deviceJobSetPrograms, hp.get, hp.get', ← hp.alike.status]
  split
  · exact matches_answer hp _
  split
  · exact matches_answer hp _
  split
  · exact matches_answer hp _
  rcases programs with _ | progs
  · exact matches_answer hp _
  rcases sizes with _ | szs
  · exact matches_answer hp _
  -- Both copying loops see the same arguments and the same memory.
  simp only [copyPrograms_alike hmem format count szs progs]
  rcases copyPrograms env' format count szs progs with (status | e) | newPrograms
  · exact matches_answer hp _
  · cases e
    case badAlloc => exact matches_answer hp _
    case lengthError => exact matches_answer hp _
    all_goals exact matches_raise hp _
  · refine matches_set hp _ rfl rfl rfl rfl ?_ rfl rfl
    exact ⟨rfl, rfl, rfl, hp.alike.numShots, hp.alike.results⟩

theorem cancel_matches (hp : Paired h h' s t jb jb') :
    Matches h h' (deviceJobCancel s (some h)) (deviceJobCancel t (some h')) := by
  simp only [deviceJobCancel, hp.get, hp.get', ← hp.alike.status]
  split
  · exact matches_answer hp _
  · refine matches_set hp _ rfl rfl rfl rfl ?_ rfl rfl
    exact ⟨hp.alike.format, hp.alike.programs, rfl, hp.alike.numShots, hp.alike.results⟩

theorem wait_matches (hp : Paired h h' s t jb jb') :
    Matches h h' (deviceJobWait s (some h)) (deviceJobWait t (some h')) := by
  simp only [deviceJobWait, hp.get, hp.get', ← hp.alike.status]
  split
  · exact matches_answer hp _
  · refine matches_set hp _ rfl rfl rfl rfl ?_ rfl rfl
    exact ⟨hp.alike.format, hp.alike.programs, rfl, hp.alike.numShots, hp.alike.results⟩

/-- Two states that differ from paired ones in the generator. -/
theorem paired_gen (hp : Paired h h' s t jb jb') (n m : Nat) :
    Paired h h' { s with gen := n } { t with gen := m } jb jb' :=
  ⟨hp.get, hp.get', hp.alike, hp.session, hp.session'⟩

/-- A check draws a bit; it goes alike if the bits are the same. -/
theorem check_matches (hp : Paired h h' s t jb jb') {env env' : Env R} (hbit : env.bit = env'.bit)
    (status : Bool) :
    Matches h h' (deviceJobCheck s env (some h) status)
      (deviceJobCheck t env' (some h') status) := by
  simp only [deviceJobCheck, hp.get, hp.get', ← hp.alike.status, ← hbit]
  split
  · exact matches_answer hp _
  split
  · intro out u hx
    rw [Except.ok.injEq, Prod.mk.injEq] at hx
    rw [← hx.1, ← hx.2]
    exact ⟨t, rfl, jb, jb', hp⟩
  split
  · refine matches_set hp _ rfl rfl rfl rfl ?_ rfl rfl
    exact ⟨hp.alike.format, hp.alike.programs, rfl, hp.alike.numShots, hp.alike.results⟩
  · intro out u hx
    rw [Except.ok.injEq, Prod.mk.injEq] at hx
    rw [← hx.1, ← hx.2]
    exact ⟨_, rfl, jb, jb', paired_gen hp _ _⟩

theorem getProgramStatus_matches (hp : Paired h h' s t jb jb') (i : Nat) :
    Matches h h' (deviceJobGetProgramStatus s (some h) i)
      (deviceJobGetProgramStatus t (some h') i) := by
  simp only [deviceJobGetProgramStatus, hp.get, hp.get', ← hp.alike.programs]
  split
  · exact matches_answer hp _
  split
  · exact matches_answer hp _
  · exact matches_answer hp _

/-! ## Queries -/

theorem query_matches (hp : Paired h h' s t jb jb') {x y : Except Fault (Except Exn Reply)}
    (hxy : x = y) :
    Matches h h' (x.map (fun reply => (reply, s))) (y.map (fun reply => (reply, t))) := by
  intro out u hx
  rcases map_eq_ok hx with ⟨reply, hreply, hpair⟩
  rw [Prod.mk.injEq] at hpair
  refine ⟨t, ?_, jb, jb', hpair.2 ▸ hp⟩
  rw [← hxy, hreply, Except.map, hpair.1]

theorem getProgram_alike (hp : Paired h h' s t jb jb') (i : Nat) (out : OutArgs) :
    deviceJobGetProgram s (some h) i out = deviceJobGetProgram t (some h') i out := by
  simp only [deviceJobGetProgram, hp.get, hp.get', hp.alike.programs]

theorem queryProperty_alike (hp : Paired h h' s t jb jb') {prop : Nat}
    (hprop : prop ≠ DeviceJobProperty.id.code) (out : OutArgs) :
    deviceJobQueryProperty s (some h) prop out = deviceJobQueryProperty t (some h') prop out := by
  simp only [deviceJobQueryProperty, hp.get, hp.get', hp.alike.programs, hp.alike.format,
    hp.alike.numShots, addStringProperty, if_neg hprop]

end

section

variable [Zero R] [DecidableEq R] [Add R] [Mul R] [DoubleRepr R]
variable {h h' : Nat} {s t : DeviceState R} {jb jb' : DeviceJob R}

/-- Apart from the amplitudes, a result depends on its shots. -/
theorem encodeResult_alike {mem mem' : Alloc} (hmem : mem = mem') {r r' : ResultData R}
    (hshots : r.shots = r'.shots) {kind : Nat} (hkind : JobOp.ofAmplitudes kind = false)
    (out : OutArgs) : encodeResult mem r kind out = encodeResult mem' r' kind out := by
  simp only [JobOp.ofAmplitudes, Bool.or_eq_false_iff, beq_eq_false_iff_ne, ne_eq] at hkind
  rcases hkind with ⟨⟨⟨⟨⟨hdense, hprob⟩, hkeys⟩, hvalues⟩, hpkeys⟩, hpvalues⟩
  simp only [encodeResult, hdense, hprob, hkeys, hvalues, hpkeys, hpvalues, or_self, if_false,
    getResultsShots, getResultsHist, respondHist, hshots, hmem]

theorem getResults_alike (hp : Paired h h' s t jb jb') {mem mem' : Alloc} (hmem : mem = mem')
    (i : Nat) {kind : Nat} (hkind : JobOp.ofAmplitudes kind = false) (out : OutArgs) :
    deviceJobGetResults s mem (some h) i kind out =
      deviceJobGetResults t mem' (some h') i kind out := by
  simp only [deviceJobGetResults, hp.get, hp.get', ← hp.alike.programs, ← hp.alike.status]
  have hlen := hp.alike.results.length_eq
  by_cases hi : i < jb.results.length
  · have hi' : i < jb'.results.length := hlen ▸ hi
    have hshots : jb.results[i].shots = jb'.results[i].shots := hp.alike.results.get hi hi'
    rw [List.getElem?_eq_getElem hi, List.getElem?_eq_getElem hi']
    dsimp only
    rw [encodeResult_alike hmem hshots hkind out]
  · rw [List.getElem?_eq_none (Nat.le_of_not_lt hi),
      List.getElem?_eq_none (hlen ▸ Nat.le_of_not_lt hi)]

end

/-! ## Submission -/

section

variable [Zero R] [Add R] [Mul R] [Div R] [DoubleRepr R]
variable {h h' : Nat} {s t : DeviceState R} {jb jb' : DeviceJob R}

/-- Two computations fail alike or yield results with the same shots. -/
def ShotsAlike (x y : Except Exn (List (ResultData R))) : Prop :=
  (∃ e, x = .error e ∧ y = .error e) ∨ ∃ rs rs', x = .ok rs ∧ y = .ok rs' ∧
    List.Forall₂ (fun r r' : ResultData R => r.shots = r'.shots) rs rs'

theorem prepareResult_alike (halike : JobAlike jb jb') {env env' : Env R}
    (hmem : env.mem = env'.mem) (n i : Nat) (program : List UInt8) :
    (∃ e, prepareResult env jb n i program = .error e ∧
      prepareResult env' jb' n i program = .error e) ∨
    ∃ r r', prepareResult env jb n i program = .ok r ∧
      prepareResult env' jb' n i program = .ok r' ∧ r.shots = r'.shots := by
  have hindex : outputIndex jb' program = outputIndex jb program := by
    rw [outputIndex, outputIndex, halike.programs, halike.format]
  simp only [prepareResult, hindex, ← halike.numShots, ← hmem]
  -- What is left asks for memory in the same places.
  rcases outputIndex jb program with e | index
  · exact Or.inl ⟨e, rfl, rfl⟩
  simp only [bind, Except.bind]
  rcases paddedShot n index with e | shot
  · exact Or.inl ⟨e, rfl, rfl⟩
  dsimp only
  split
  · exact Or.inl ⟨_, rfl, rfl⟩
  split
  · exact Or.inl ⟨_, rfl, rfl⟩
  split
  · exact Or.inl ⟨_, rfl, rfl⟩
  · exact Or.inr ⟨_, _, rfl, rfl, rfl⟩

/-- The loop of a submission. The induction is on the programs; a turn that
    fails ends both loops. -/
theorem prepareResults_alike (halike : JobAlike jb jb') {env env' : Env R}
    (hmem : env.mem = env'.mem) (n : Nat) (programs : List (List UInt8)) :
    ∀ i, ShotsAlike (prepareResults env jb n i programs).1
      (prepareResults env' jb' n i programs).1 := by
  induction programs with
  | nil => exact fun _ => Or.inr ⟨[], [], rfl, rfl, List.Forall₂.nil⟩
  | cons program rest ih =>
      intro i
      rcases prepareResult_alike halike hmem n i program with
        ⟨e, hx, hy⟩ | ⟨r, r', hx, hy, hshots⟩
      · simp only [prepareResults, hx, hy]
        exact Or.inl ⟨e, rfl, rfl⟩
      · simp only [prepareResults, hx, hy]
        rcases ih (i + 1) with ⟨e, hx', hy'⟩ | ⟨rs, rs', hx', hy', hall⟩
        · rw [hx', hy']
          exact Or.inl ⟨e, rfl, rfl⟩
        · rw [hx', hy']
          exact Or.inr ⟨_, _, rfl, rfl, List.Forall₂.cons hshots hall⟩

theorem submitResults_alike (halike : JobAlike jb jb') {env env' : Env R}
    (hmem : env.mem = env'.mem) (n : Nat) :
    ShotsAlike (submitResults env jb n).1 (submitResults env' jb' n).1 := by
  simp only [submitResults, ← halike.programs, ← hmem]
  split
  · exact Or.inl ⟨_, rfl, rfl⟩
  split
  · exact Or.inl ⟨_, rfl, rfl⟩
  · exact prepareResults_alike halike hmem n jb.programs 0

/-- Submission asks the session for the number of qubits. If the first session
    was freed the first call goes wrong, otherwise both find five. -/
theorem submit_matches (hp : Paired h h' s t jb jb') {env env' : Env R} (hmem : env.mem = env'.mem)
    (img : Image) :
    Matches h h' (deviceJobSubmit img s env (some h)) (deviceJobSubmit img t env' (some h')) := by
  rcases hp.session' with ⟨sess', hget', hinit'⟩
  simp only [deviceJobSubmit, hp.get, hp.get', ← hp.alike.status, ← hp.alike.programs,
    submitQubits_initialized img hget' hinit']
  split
  · exact matches_answer hp _
  split
  · exact matches_answer hp _
  rcases hsess : s.sessions.get? jb.session with _ | sess
  · rw [submitQubits_dead img hsess]
    exact matches_fault _ _
  rw [submitQubits_initialized img hsess (hp.session.2 sess hsess)]
  dsimp only
  rw [if_neg (by decide), if_neg (by decide)]
  -- The bits drawn may differ, but both submissions fail alike or have the same shots.
  have hresults := submitResults_alike hp.alike hmem 5
  generalize submitResults env jb 5 = x at hresults ⊢
  generalize submitResults env' jb' 5 = y at hresults ⊢
  have hp' := paired_gen hp (s.gen + x.2 * (2 * 2 ^ 5)) (t.gen + y.2 * (2 * 2 ^ 5))
  rcases hresults with ⟨e, hx, hy⟩ | ⟨rs, rs', hx, hy, hall⟩
  · rw [hx, hy]
    cases e
    all_goals exact matches_answer hp' _
  · rw [hx, hy]
    refine matches_set hp _ rfl rfl rfl rfl ?_ rfl rfl
    exact ⟨hp.alike.format, rfl, rfl, hp.alike.numShots, hall⟩

end

/-! ## One call -/

section

variable [Zero R] [DecidableEq R] [Add R] [Mul R] [Div R] [DoubleRepr R]
variable {h h' : Nat} {s t : DeviceState R} {jb jb' : DeviceJob R}

/-- A call on the job goes alike, with the same outcomes of its allocations and,
    if it is a check, with the same bit. -/
theorem jobOp_matches (hp : Paired h h' s t jb jb') (img : Image) {op : JobOp}
    (hop : op.comparable = true) {env env' : Env R} (hmem : env.mem = env'.mem)
    (hbit : ∀ status, op = .check status → env.bit = env'.bit) :
    Matches h h' (deviceStep img s ⟨op.on h, env⟩) (deviceStep img t ⟨op.on h', env'⟩) := by
  cases op with
  | setParameter param size value => exact setParameter_matches hp param size value
  | setPrograms format count sizes programs =>
      exact setPrograms_matches hp hmem format count sizes programs
  | getProgram i out =>
      exact query_matches hp (congrArg (Except.map Except.ok) (getProgram_alike hp i out))
  | getProgramStatus i => exact getProgramStatus_matches hp i
  | queryProperty prop out =>
      have hprop : prop ≠ DeviceJobProperty.id.code := bne_iff_ne.mp hop
      exact query_matches hp (congrArg (Except.map Except.ok) (queryProperty_alike hp hprop out))
  | submit => exact submit_matches hp hmem img
  | cancel => exact cancel_matches hp
  | check status => exact check_matches hp (hbit status rfl) status
  | wait => exact wait_matches hp
  | getResults i kind out =>
      have hkind : JobOp.ofAmplitudes kind = false := by
        rwa [JobOp.comparable, Bool.not_eq_true'] at hop
      exact query_matches hp (getResults_alike hp hmem i hkind out)

/-- A call that does not name the job leaves it alone. -/
theorem paired_frame {img : Image} {s' : DeviceState R} {c : Call R} {out : Except Exn Reply}
    (hstep : deviceStep img s c = .ok (out, s')) (hname : jobOf c.op ≠ some h)
    (hp : Paired h h' s t jb jb') : Paired h h' s' t jb jb' where
  get := deviceStep_frame hstep hp.get hname
  get' := hp.get'
  alike := hp.alike
  session := by
    have hkept := deviceStep_sessionsKept hstep
    refine ⟨Nat.lt_of_lt_of_le hp.session.1 hkept.1, fun sess' hsess' => ?_⟩
    rcases hkept.2 jb.session hp.session.1 sess' hsess' with ⟨sess, hsess, hst⟩
    exact hst (hp.session.2 sess hsess)
  session' := hp.session'

end

/-! ## The calls on one job in a history -/

/-- A call on a job in a history, with what it returned. -/
structure OwnCall (R : Type) where
  op : JobOp
  env : Env R
  out : Except Exn Reply

/-- The operation a call makes on the job behind a handle, if its reply can be
    compared. -/
def ownOp (h : Nat) : Op → Option JobOp
  | .jobSetParameter (some i) param size value =>
    if i = h then some (.setParameter param size value) else none
  | .jobSetPrograms (some i) format count sizes programs =>
    if i = h then some (.setPrograms format count sizes programs) else none
  | .query (.jobProgram (some i) index) out =>
    if i = h then some (.getProgram index out) else none
  | .jobGetProgramStatus (some i) index => if i = h then some (.getProgramStatus index) else none
  | .query (.jobProperty (some i) prop) out =>
    if i = h ∧ prop ≠ DeviceJobProperty.id.code then some (.queryProperty prop out) else none
  | .jobSubmit (some i) => if i = h then some .submit else none
  | .jobCancel (some i) => if i = h then some .cancel else none
  | .jobCheck (some i) status => if i = h then some (.check status) else none
  | .jobWait (some i) => if i = h then some .wait else none
  | .query (.jobResults (some i) index kind) out =>
    if i = h ∧ JobOp.ofAmplitudes kind = false then some (.getResults index kind out) else none
  | _ => none

/-- The calls on a job in a history, in their order. -/
def ownPart (h : Nat) (tr : List (DeviceEntry R)) : List (OwnCall R) :=
  tr.filterMap (fun e => (ownOp h e.label.op).map (fun op => ⟨op, e.label.env, e.out⟩))

/-- What `ownOp` finds is the operation the call makes, and its reply can be
    compared. -/
theorem ownOp_sound {h : Nat} {op : Op} {jop : JobOp} (hown : ownOp h op = some jop) :
    op = jop.on h ∧ jop.comparable = true := by
  unfold ownOp at hown
  split at hown
  case h_11 => exact absurd hown (by simp only [reduceCtorEq, not_false_eq_true])
  all_goals
    rcases Option.ite_none_right_eq_some.mp hown with ⟨hi, hjop⟩
    rw [← Option.some.inj hjop]
  case h_5 =>
      rw [hi.1]
      exact ⟨rfl, bne_iff_ne.mpr hi.2⟩
  case h_10 =>
      rw [hi.1]
      exact ⟨rfl, by rw [JobOp.comparable, hi.2]; rfl⟩
  all_goals
    rw [hi]
    exact ⟨rfl, rfl⟩

/-- It finds every call that could change the job but freeing it. -/
theorem ownOp_complete {h : Nat} {op : Op} (hname : jobOf op = some h)
    (hfree : op ≠ .jobFree (some h)) : ∃ jop, ownOp h op = some jop := by
  cases op with
  | jobFree job =>
      rw [jobOf] at hname
      exact absurd (congrArg Op.jobFree hname) hfree
  | jobSetParameter job param size value =>
      rw [jobOf] at hname
      rw [hname]
      exact ⟨_, if_pos rfl⟩
  | jobSetPrograms job format count sizes programs =>
      rw [jobOf] at hname
      rw [hname]
      exact ⟨_, if_pos rfl⟩
  | jobSubmit job =>
      rw [jobOf] at hname
      rw [hname]
      exact ⟨_, if_pos rfl⟩
  | jobCancel job =>
      rw [jobOf] at hname
      rw [hname]
      exact ⟨_, if_pos rfl⟩
  | jobCheck job status =>
      rw [jobOf] at hname
      rw [hname]
      exact ⟨_, if_pos rfl⟩
  | jobWait job =>
      rw [jobOf] at hname
      rw [hname]
      exact ⟨_, if_pos rfl⟩
  | _ => exact absurd hname (by simp only [jobOf, reduceCtorEq, not_false_eq_true])

section

variable [Zero R] [DecidableEq R] [Add R] [Mul R] [Div R] [DoubleRepr R]

/-- The calls on a job, made alone from a state that is paired with the start of
    the history, get the same replies. The induction is on the history. -/
theorem ownPart_alone {img : Image} {h h' : Nat} {s₁ u t₁ : DeviceState R} {jb jb' : DeviceJob R}
    {tr : List (DeviceEntry R)} (hrun : Runs (deviceStep img) s₁ tr u)
    (hp : Paired h h' s₁ t₁ jb jb') (hkept : Respects (fun _ c => c.op ≠ .jobFree (some h)) tr)
    (envs : Nat → Env R) (henvs : ∀ k own, (ownPart h tr)[k]? = some own →
      own.env.mem = (envs k).mem ∧ ∀ status, own.op = .check status →
        own.env.bit = (envs k).bit) :
    ∃ tr' u', Runs (deviceStep img) t₁ tr' u' ∧
      tr'.map Entry.label = (ownPart h tr).mapIdx (fun k own => ⟨own.op.on h', envs k⟩) ∧
      tr'.map Entry.out = (ownPart h tr).map OwnCall.out ∧ ∃ jb jb', Paired h h' u u' jb jb' := by
  induction hrun with
  | refl => exact ⟨[], t₁, Runs.refl, rfl, rfl, jb, jb', hp⟩
  | snoc hr hstep ih =>
      rename_i t u tr c out
      rcases respects_append.mp hkept with ⟨hkeptPre, hkeptLast⟩
      have hfree : c.op ≠ .jobFree (some h) := hkeptLast _ (List.mem_singleton.mpr rfl)
      have hsplit : ownPart h (tr ++ [⟨t, c, out, u⟩]) =
          ownPart h tr ++ ownPart h [⟨t, c, out, u⟩] := List.filterMap_append
      rw [hsplit] at henvs ⊢
      have hpre : ∀ k own, (ownPart h tr)[k]? = some own →
          own.env.mem = (envs k).mem ∧ ∀ status, own.op = .check status →
            own.env.bit = (envs k).bit := by
        intro k own hown
        refine henvs k own ?_
        rw [List.getElem?_append_left (List.getElem?_eq_some_iff.mp hown).1, hown]
      rcases ih hkeptPre hpre with ⟨tr', u', hrun', hlabels, houts, jb₁, jb₁', hp₁⟩
      rcases hown : ownOp h c.op with _ | jop
      · -- The call is on something else.
        have hnil : ownPart h [⟨t, c, out, u⟩] = [] := by
          simp only [ownPart, List.filterMap_cons, hown, Option.map_none, List.filterMap_nil]
        have hname : jobOf c.op ≠ some h := by
          intro hname
          rcases ownOp_complete hname hfree with ⟨jop, hjop⟩
          exact absurd (hown.symm.trans hjop) (by simp only [reduceCtorEq, not_false_eq_true])
        rw [hnil, List.append_nil]
        exact ⟨tr', u', hrun', hlabels, houts, jb₁, jb₁', paired_frame hstep hname hp₁⟩
      · have hone : ownPart h [⟨t, c, out, u⟩] = [⟨jop, c.env, out⟩] := by
          simp only [ownPart, List.filterMap_cons, hown, Option.map_some, List.filterMap_nil]
        rcases ownOp_sound hown with ⟨hop, hcomp⟩
        have hlast := henvs (ownPart h tr).length ⟨jop, c.env, out⟩ (by
          rw [hone, List.getElem?_concat_length])
        have hcall : c = ⟨jop.on h, c.env⟩ := by rw [← hop]
        rw [hcall] at hstep
        rcases jobOp_matches hp₁ img hcomp hlast.1 hlast.2 out u hstep with
          ⟨v, hstep', jb₂, jb₂', hp₂⟩
        rw [hone]
        refine ⟨_, v, Runs.snoc hrun' hstep', ?_, ?_, jb₂, jb₂', hp₂⟩
        · rw [List.map_append, List.mapIdx_concat, hlabels]
          rfl
        · rw [List.map_append, List.map_append, houts]
          rfl

/-- A job that is created on an initialized session gets the same replies as a
    job that is created on another one and is used alone: take any run after
    the creation that does not free the job, make its calls on the job in the
    same order with the same outcomes of their allocations and the same bits
    for its checks, and every reply is the same. -/
theorem deviceRuns_alone (img : Image) (s s₁ u t : DeviceState R) (i i' : Nat)
    (sess sess' : DeviceSession) (env₀ env₀' : Env R) (out₀ : Except Exn Reply)
    (tr : List (DeviceEntry R)) (envs : Nat → Env R) (hget : s.sessions.get? i = some sess)
    (hinit : sess.status = .initialized) (hmem : env₀.mem 0 = true)
    (hcreate : deviceStep img s ⟨.createDeviceJob (some i) true, env₀⟩ = .ok (out₀, s₁))
    (hrun : Runs (deviceStep img) s₁ tr u)
    (hkept : Respects (fun _ c => c.op ≠ .jobFree (some s.jobs.next)) tr)
    (hget' : t.sessions.get? i' = some sess') (hinit' : sess'.status = .initialized)
    (hmem' : env₀'.mem 0 = true)
    (henvs : ∀ k own, (ownPart s.jobs.next tr)[k]? = some own →
      own.env.mem = (envs k).mem ∧ ∀ status, own.op = .check status →
        own.env.bit = (envs k).bit) :
    out₀ = .ok { status := .success, handle := some s.jobs.next } ∧
    ∃ t₁ tr' u',
      deviceStep img t ⟨.createDeviceJob (some i') true, env₀'⟩ =
        .ok (.ok { status := .success, handle := some t.jobs.next }, t₁) ∧
      Runs (deviceStep img) t₁ tr' u' ∧
      tr'.map Entry.label =
        (ownPart s.jobs.next tr).mapIdx (fun k own => ⟨own.op.on t.jobs.next, envs k⟩) ∧
      tr'.map Entry.out = (ownPart s.jobs.next tr).map OwnCall.out := by
  rcases deviceStep_create hcreate rfl hget hinit hmem with ⟨hout, hs₁⟩
  have hcreate' : deviceStep img t ⟨.createDeviceJob (some i') true, env₀'⟩ =
      .ok (.ok { status := .success, handle := some t.jobs.next },
        { t with
          gen := t.gen + 1
          jobs := t.jobs.alloc { session := i', id := env₀'.jobId.val, status := .created } }) := by
    simp only [deviceStep, deviceSessionCreateDeviceJob, hget', hinit', hmem', Bool.not_true,
      Bool.false_eq_true, ne_eq, not_true_eq_false, if_false]
  -- The two new jobs differ in what no call on them reads.
  have hp : Paired s.jobs.next t.jobs.next s₁
      { t with
        gen := t.gen + 1
        jobs := t.jobs.alloc { session := i', id := env₀'.jobId.val, status := .created } }
      { session := i, id := env₀.jobId.val, status := .created }
      { session := i', id := env₀'.jobId.val, status := .created } := by
    refine ⟨?_, ?_, ⟨rfl, rfl, rfl, rfl, List.Forall₂.nil⟩, ⟨?_, fun sess₁ hsess₁ => ?_⟩,
      ⟨sess', hget', hinit'⟩⟩
    · rw [hs₁, Heap.get?_alloc, if_pos rfl]
    · rw [Heap.get?_alloc, if_pos rfl]
    · rw [hs₁]
      exact Heap.get?_lt_next hget
    · rw [hs₁] at hsess₁
      rw [← Option.some.inj (hget.symm.trans hsess₁)]
      exact hinit
  rcases ownPart_alone hrun hp hkept envs henvs with ⟨tr', u', hrun', hlabels, houts, _⟩
  exact ⟨hout, _, tr', u', hcreate', hrun', hlabels, houts⟩

end

/-- An idle device with one initialized session. -/
def sampleOpened : DeviceState ℚ where
  status := .idle
  sessions := ⟨[some { token := [116, 0], status := .initialized }]⟩

/-- The same with a first job. -/
def sampleCreated : DeviceState ℚ where
  status := .idle
  gen := 1
  sessions := sampleOpened.sessions
  jobs := ⟨[some { session := 0, status := .created }]⟩

/-- The first of two jobs is configured, submitted and polled while the second
    is submitted and canceled. -/
def sampleTwoJobs : List Op := [
  .createDeviceJob (some 0) true,
  .jobSetPrograms (some 0) ProgramFormat.qasm2.code 1 (some (fun _ => 2))
    (some (fun _ => some (fun i => if i = 0 then 120 else 0))),
  .jobSubmit (some 1),
  .jobSubmit (some 0),
  .jobCancel (some 1),
  .jobCheck (some 0) true,
  .query (.jobResults (some 0) 0 JobResult.shots.code)
    { size := 0, value := none, sizeRet := true }]

/-- Alone, the first job gets the same four replies. -/
theorem deviceRuns_alone_sample :
    ∃ s₁ tr u t₁ tr' u', Runs (deviceStep (R := ℚ) sampleImage) s₁ tr u ∧ tr.length = 7 ∧
      Runs (deviceStep (R := ℚ) sampleImage) t₁ tr' u' ∧ tr'.length = 4 ∧
      tr'.map Entry.out = (ownPart 0 tr).map OwnCall.out := by
  have hcreate : deviceStep sampleImage sampleOpened
      ⟨.createDeviceJob (some 0) true, sampleEnv⟩ =
      .ok (.ok { status := .success, handle := some 0 }, sampleCreated) := rfl
  rcases runs_played sampleCreated (callsIn sampleEnv sampleTwoJobs)
    (fun p => some (p.1.length, (ownPart 0 p.1).length)) (7, 4) rfl with
    ⟨tr, u, hrun, hlabels, hv⟩
  rw [Option.some.injEq, Prod.mk.injEq] at hv
  have hlabel : ∀ e ∈ tr, ∃ op ∈ sampleTwoJobs, e.label = ⟨op, sampleEnv⟩ := by
    intro e he
    have hmem : e.label ∈ tr.map Entry.label := List.mem_map_of_mem he
    rw [hlabels, callsIn, List.mem_map] at hmem
    rcases hmem with ⟨op, hop, heq⟩
    exact ⟨op, hop, heq.symm⟩
  have hkept : Respects (fun _ c => c.op ≠ .jobFree (some 0)) tr := by
    intro e he hfree
    rcases hlabel e he with ⟨op, hop, heq⟩
    rw [heq] at hfree
    simp [sampleTwoJobs, show op = .jobFree (some 0) from hfree] at hop
  have henvs : ∀ (k : Nat) (own : OwnCall ℚ), (ownPart 0 tr)[k]? = some own →
      own.env.mem = sampleEnv.mem ∧
        ∀ status, own.op = .check status → own.env.bit = sampleEnv.bit := by
    intro k own hown
    rcases List.mem_filterMap.mp (List.mem_of_getElem? hown) with ⟨e, he, hmap⟩
    rcases Option.map_eq_some_iff.mp hmap with ⟨_, _, heq⟩
    rcases hlabel e he with ⟨_, _, hsame⟩
    rw [← heq, hsame]
    exact ⟨rfl, fun _ _ => rfl⟩
  rcases (deviceRuns_alone sampleImage sampleOpened _ u sampleOpened 0 0 _ _ sampleEnv
    { sampleEnv with jobId := 5 } _ tr (fun _ => sampleEnv) rfl rfl rfl hcreate hrun hkept rfl rfl
    rfl henvs).2 with ⟨t₁, tr', u', _, hrun', _, houts⟩
  refine ⟨_, tr, u, t₁, tr', u', hrun, hv.1, hrun', ?_, houts⟩
  have hlen := congrArg List.length houts
  rw [List.length_map, List.length_map] at hlen
  rw [hlen]
  exact hv.2

end Qdmi
