import Qdmi.Theory.Driver.Invariant

/-!
# How the Driver Treats the Libraries

What the books of the driver mean for its clients and for the libraries.

`Disciplined` says it without books, of the calls the libraries have received
in a run and of the state the run has led to. The counter is the number of live
sessions, and without sessions no library is loaded. A library is initialized
when it is not, once for each time it is loaded, and if that succeeds it is
finalized once and hears nothing more until it is loaded again. What it hands
out comes back before it is finalized, one return for each time a handle was
handed out.

## Main definitions

* `Disciplined`: How the driver has treated the libraries.

## Theorems

* `disciplined_of_keeps`: What the books say.
* `driverRuns_disciplined`: The driver is disciplined in every run.
* `driverRuns_evaluated`: The run of given calls.
-/

namespace Qdmi

namespace Driver

open Classical in
/-- How the driver has treated the libraries, up to a state. The deals with a
    library are told apart by its file and prefix. -/
structure Disciplined (events : List Event) (s : DriverState) : Prop where
  /-- The counter is the number of live sessions. -/
  counter : s.count = s.sessions.count
  /-- Libraries are loaded only while there are sessions. -/
  loaded : s.libraries ≠ [] → 0 < s.count
  /-- A library file is open as often as a loaded library needs it. -/
  files : ∀ handle, openFiles handle events = filesOf handle s.libraries
  /-- Every call is allowed when it is made. -/
  lawful : Lawful .empty (deals events)
  /-- A library is initialized only while it is not. -/
  initialized : ∀ key ok before after, deals events = before ++ .opens key ok :: after →
    before.count (.opens key true) = before.count (.closes key)
  /-- Until a library is initialized successfully, and once it is finalized,
      it receives no call but the next initialization. -/
  quiet : ∀ key before between after, deals events = before ++ (between ++ after) →
    before.count (.opens key true) = before.count (.closes key) →
    (∀ ok, Deal.opens key ok ∉ between) → ∀ deal ∈ between, deal.provider ≠ key
  /-- Successful initializations are finalized once, or the library is loaded. -/
  finalized : ∀ key, (deals events).count (.opens key true) =
    (deals events).count (.closes key) + if key ∈ s.libraries.map Library.key then 1 else 0
  /-- A device session or device job comes back before its library is
      finalized: once, and once more for each time its handle is reused. -/
  freed : ∀ key r before between after,
    deals events = before ++ .takes key r :: (between ++ .closes key :: after) →
    between.count (.returns key r) = between.count (.takes key r) + 1
  /-- What has not come back belongs to a live session or a live job. -/
  balance : ∀ key r, (deals events).count (.takes key r) =
    (deals events).count (.returns key r) + if (owned s).held key r then 1 else 0

open Classical in
/-- What the books say. -/
theorem disciplined_of_keeps {events : List Event} {s : DriverState} (h : Keeps {} events s) :
    Disciplined events s := by
  have hstart : owned ({} : DriverState) = Books.empty := owned_empty driverInv_initial rfl
  have hleads := h.leads
  rw [hstart] at hleads
  refine ⟨h.inv.counter, fun hloaded => ?_, fun handle => ?_, hleads.1, ?_, ?_, fun key => ?_, ?_,
    fun key r => ?_⟩
  · -- With no session all libraries are unloaded.
    by_contra hc
    exact hloaded (h.inv.idle (by omega)).1
  · have hfiles := h.files handle
    have hnone : filesOf handle ({} : DriverState).libraries = 0 := rfl
    omega
  · intro key ok before after hsplit
    rw [hsplit] at hleads
    exact lawful_opens hleads
  · intro key before between after hsplit hclosed hnot
    rw [hsplit] at hleads
    exact lawful_idle hleads hclosed hnot
  · have hbalance := leads_balance_opened hleads key
    have hempty : ¬ (Books.empty : LibraryBooks).opened key := fun hf => hf
    rw [if_neg hempty, Nat.add_zero] at hbalance
    rw [hbalance]
    exact congrArg _ (if_congr Iff.rfl rfl rfl)
  · intro key r before between after hsplit
    rw [hsplit] at hleads
    exact lawful_returns hleads
  · have hbalance := leads_balance_held hleads key r
    have hempty : ¬ (Books.empty : LibraryBooks).held key r := fun hf => hf
    rw [if_neg hempty] at hbalance
    exact hbalance

/-- In every run of clients that free jobs before their session, with any
    configuration and any answers of the libraries, the driver is disciplined. -/
theorem driverRuns_disciplined (addr : DeviceHandle → Nat) (tr : List DriverEntry)
    (s : DriverState) (hrun : DriverRuns addr tr s) (hrule : Respects FreesJobsFirst tr) :
    Disciplined (eventsOf tr) s :=
  disciplined_of_keeps (driverRuns_keeps hrun hrule)

/-- A configuration with two devices in one library. -/
def sampleConfig : List UInt8 := ascii "lib A one" ++ [10] ++ ascii "lib A two"

/-- Everything goes well, and every file is a library. -/
def sampleEnv : DriverEnv where
  mem _ := true
  config := .text sampleConfig
  dlopen _ := some 0
  dlsym _ _ := true
  status _ := .success
  reply := { status := .success }

/-- The same surroundings, with libraries that give these answers. -/
def answering (status : Nat → Status) : DriverEnv :=
  { sampleEnv with
      status, gives := fun k => decide (status k = .success), givesOnSuccess := gives_of_status }

/-- Calls of a client. -/
def sampleCalls (ops : List DriverOp) : List DriverCall := ops.map (fun op => ⟨op, sampleEnv⟩)

/-- Calls whose run evaluates to some value have a run, and it is the value of
    that run. -/
theorem driverRuns_evaluated {α : Type} (calls : List DriverCall)
    (f : List DriverEntry × DriverState → Option α) (v : α)
    (h : (play (driverStep (fun _ => 0)) {} calls).toOption.bind f = some v) :
    ∃ tr s, DriverRuns (fun _ => 0) tr s ∧ tr.map Entry.label = calls ∧ f (tr, s) = some v :=
  runs_of_evaluated h

/-- No job is left when a session is freed. -/
def jobless (e : DriverEntry) : Bool :=
  match e.label.op with
  | .sessionFree (some _) => e.pre.jobs.count == 0
  | _ => true

theorem freesJobsFirst_of_jobless {tr : List DriverEntry} (h : tr.all jobless = true) :
    Respects FreesJobsFirst tr := by
  intro e he j hop i jb hget
  have hone := List.all_eq_true.mp h e he
  rw [jobless, hop, beq_iff_eq] at hone
  rw [Heap.count_eq_zero hone] at hget
  exact absurd hget (by simp only [reduceCtorEq, not_false_eq_true])

/-- Two sessions, of which one opens both devices and a job on the second. -/
def sampleOps : List DriverOp := [
  .sessionAlloc true,
  .sessionSetParameter (some 0) SessionParameter.token 2 (some (fun _ => 7)),
  .sessionInit (some 0), .sessionAlloc true,
  .deviceCreateJob (some { session := 0, index := 1 }) true, .jobSubmit (some 0),
  .jobFree (some 0), .sessionFree (some 0), .sessionFree (some 1)]

/-- What happened in a run that did not go wrong, if its clients left no job. -/
def playDeals (addr : DeviceHandle → Nat) (calls : List DriverCall) : Option (List LibraryDeal) :=
  match play (driverStep addr) {} calls with
  | .ok (tr, _) => if tr.all jobless then some (deals (eventsOf tr)) else none
  | .error _ => none

/-- The run of these calls: the library is initialized once, its two device
    sessions and the job come back, and it is finalized. -/
theorem driverRuns_disciplined_sample :
    ∃ tr s, DriverRuns (fun _ => 0) tr s ∧ Respects FreesJobsFirst tr ∧
      deals (eventsOf tr) = [
        .opens (0, [65]) true,
        .takes (0, [65]) (.session 0), .uses (0, [65]) (.session 0), .uses (0, [65]) (.session 0),
        .takes (0, [65]) (.session 1), .uses (0, [65]) (.session 1), .uses (0, [65]) (.session 1),
        .uses (0, [65]) (.session 1), .takes (0, [65]) (.job 2), .uses (0, [65]) (.job 2),
        .returns (0, [65]) (.job 2),
        .returns (0, [65]) (.session 0), .returns (0, [65]) (.session 1),
        .closes (0, [65])] ∧
      Disciplined (eventsOf tr) s := by
  have hplay : playDeals (fun _ => 0) (sampleCalls sampleOps) = some [
      .opens (0, [65]) true,
      .takes (0, [65]) (.session 0), .uses (0, [65]) (.session 0), .uses (0, [65]) (.session 0),
      .takes (0, [65]) (.session 1), .uses (0, [65]) (.session 1), .uses (0, [65]) (.session 1),
      .uses (0, [65]) (.session 1), .takes (0, [65]) (.job 2), .uses (0, [65]) (.job 2),
      .returns (0, [65]) (.job 2),
      .returns (0, [65]) (.session 0), .returns (0, [65]) (.session 1),
      .closes (0, [65])] := by rfl
  unfold playDeals at hplay
  split at hplay
  · rename_i tr s hrun
    split at hplay
    · rename_i hjobless
      have hruns : DriverRuns (fun _ => 0) tr s := runs_of_play _ hrun
      have hrule := freesJobsFirst_of_jobless hjobless
      exact ⟨tr, s, hruns, hrule, Option.some.inj hplay,
        driverRuns_disciplined (fun _ => 0) tr s hruns hrule⟩
    · exact absurd hplay (by simp only [reduceCtorEq, not_false_eq_true])
  · exact absurd hplay (by simp only [reduceCtorEq, not_false_eq_true])

end Driver

end Qdmi
