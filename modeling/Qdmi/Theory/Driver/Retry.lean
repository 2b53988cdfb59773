import Qdmi.Theory.Driver.Discipline

/-!
# Trying Again

`QDMI_session_alloc` is a transaction. The vectors it fills are its own until
the last line of the configuration is done, so whatever goes wrong before, at
any line and for any reason, the driver is as it was. What the lines before had
opened is in the local list of libraries, and unloading it closes every file
again; that is the invariant of the loop, taken at an early exit.

Between calls nothing remembers the failed ones. Leaving them out of a run
leaves a run to the same state, in which the next allocation finds what it
would have found without them.

## Main definitions

* `AllocUndone`: What a failed allocation has done.
* `failedAlloc`: A step is a failed allocation.

## Theorems

* `sessionAlloc_failed`: One failed allocation.
* `failedAllocs_undone`: Any number of them, anywhere in a run.
-/

namespace Qdmi

namespace Driver

open Classical in
/-- What a failed allocation has done. -/
structure AllocUndone (s : DriverState) (out : DriverOut) (t : DriverState) : Prop where
  /-- It returns, and does not say `SUCCESS`. -/
  returned : ∃ r, out.reply = .ok r ∧ r.status ≠ .success
  /-- The out parameter holds a null pointer. -/
  cleared : sessionVariable out = none
  unchanged : t = s
  /-- Every file that was opened is closed again. -/
  closed : ∀ handle, openFiles handle out.events = 0
  /-- Every library that was initialized is finalized. -/
  finalized : ∀ key, (deals out.events).count (.opens key true) =
    (deals out.events).count (.closes key)

/-- A call that answers with another status, when its events leave nothing
    open. -/
theorem allocUndone_finish {s t : DriverState} {out : DriverOut} {status : Status}
    {events : List Event} (hne : status ≠ .success) (hevents : LoadingInv { events := events })
    (h : finish status events s = .ok (out, t)) : AllocUndone s out t := by
  rw [finish, Except.ok.injEq, Prod.mk.injEq] at h
  rw [← h.1, ← h.2]
  refine ⟨⟨_, rfl, hne⟩, rfl, rfl, hevents.files, fun key => ?_⟩
  have hleads := hevents.leads
  rw [booksOf_nil] at hleads
  -- No library is open before, and none is open after.
  have hbalance := leads_balance_opened hleads key
  have hnone : ¬ (Books.empty : LibraryBooks).opened key := fun hf => hf
  rwa [if_neg hnone, Nat.add_zero, Nat.add_zero] at hbalance

/-- One failed allocation. -/
theorem sessionAlloc_failed {s t : DriverState} {env : DriverEnv} {session : Bool}
    {out : DriverOut} (h : sessionAlloc s env session = .ok (out, t))
    (hfail : ¬ Succeeds out.reply) : AllocUndone s out t := by
  have hgiven : ∀ {o : DriverOut} {u : DriverState}, (.ok (o, u) : DriverResult) = .ok (out, t) →
      Succeeds o.reply → AllocUndone s out t := by
    intro o u heq hsucc
    rw [Except.ok.injEq, Prod.mk.injEq] at heq
    exact absurd (heq.1 ▸ hsucc) hfail
  unfold sessionAlloc at h
  split at h
  · exact allocUndone_finish (by decide) loadingInv_start h
  split at h
  · exact allocUndone_finish (by decide) loadingInv_start h
  dsimp only at h
  split at h
  · rcases hload : initializeDriver env with ⟨events, status | ⟨libraries, configuredDevices⟩⟩
    · rw [hload] at h
      -- A driver that cannot be set up unloads what it has loaded.
      rcases (initializeDriver_inv hload).1 status rfl with ⟨hne, hevents⟩
      exact allocUndone_finish hne hevents h
    · rw [hload] at h
      exact hgiven h rfl
  · exact hgiven h rfl

/-- A step is an allocation that failed. -/
def failedAlloc (e : DriverEntry) : Bool :=
  match e.label.op, e.out.reply with
  | .sessionAlloc _, .ok reply => reply.status != .success
  | .sessionAlloc _, .error _ => true
  | _, _ => false

theorem failedAlloc_eq_true {e : DriverEntry} (h : failedAlloc e = true) :
    (∃ session, e.label.op = .sessionAlloc session) ∧ ¬ Succeeds e.out.reply := by
  unfold failedAlloc at h
  split at h
  · rename_i session reply hop hreply
    refine ⟨⟨session, hop⟩, fun hsucc => ?_⟩
    rw [hreply] at hsucc
    exact absurd hsucc (bne_iff_ne.mp h)
  · rename_i session e' hop hreply
    refine ⟨⟨session, hop⟩, fun hsucc => ?_⟩
    rw [hreply] at hsucc
    exact hsucc
  · exact absurd h Bool.false_ne_true

/-- In every run from any state, an allocation that fails has changed nothing,
    and leaving such allocations out leaves a run to the same state. What is
    called after a number of them goes as it would without them. -/
theorem failedAllocs_undone (addr : DeviceHandle → Nat) (s t : DriverState)
    (tr : List DriverEntry) (hrun : Runs (driverStep addr) s tr t) :
    (∀ e ∈ tr, failedAlloc e = true → AllocUndone e.pre e.out e.post) ∧
    Runs (driverStep addr) s (tr.filter (fun e => !failedAlloc e)) t ∧
    ((∀ e ∈ tr, failedAlloc e = true) → ∀ c, driverStep addr t c = driverStep addr s c) := by
  have hundone : ∀ e ∈ tr, failedAlloc e = true → AllocUndone e.pre e.out e.post := by
    intro e he hfailed
    rcases failedAlloc_eq_true hfailed with ⟨⟨session, hop⟩, hfail⟩
    rcases runs_mem hrun he with ⟨_, _, _, _, hstep, _⟩
    rw [driverStep, hop] at hstep
    exact sessionAlloc_failed hstep hfail
  have hkept : Runs (driverStep addr) s (tr.filter (fun e => !failedAlloc e)) t := by
    refine runs_filter hrun (fun e he hidle => (hundone e he ?_).unchanged)
    rwa [Bool.not_eq_false'] at hidle
  refine ⟨hundone, hkept, fun hall c => ?_⟩
  -- Nothing is left of the run, so it ends where it starts.
  have hnil : tr.filter (fun e => !failedAlloc e) = [] := by
    refine List.filter_eq_nil_iff.mpr (fun e he => ?_)
    rw [hall e he]
    exact Bool.false_ne_true
  rw [hnil] at hkept
  rw [runs_nil hkept]

/-- Twice an allocation that fails, at a line that is not understood and at a
    device that was there before, and one that succeeds. -/
def retryCalls : List DriverCall := [
  ⟨.sessionAlloc true, { sampleEnv with
    config := .text (sampleConfig ++ [10] ++ ascii "lib B") }⟩,
  ⟨.sessionAlloc true, { sampleEnv with
    config := .text (sampleConfig ++ [10] ++ ascii "lib B one") }⟩,
  ⟨.sessionAlloc true, sampleEnv⟩]

/-- The run of these calls. -/
theorem failedAllocs_undone_sample :
    ∃ tr t, DriverRuns (fun _ => 0) tr t ∧ tr.map Entry.label = retryCalls ∧
      tr.map failedAlloc = [true, true, false] ∧
      (∀ e ∈ tr, failedAlloc e = true → AllocUndone e.pre e.out e.post) ∧
      Runs (driverStep (fun _ => 0)) {} (tr.filter (fun e => !failedAlloc e)) t ∧
      ((∀ e ∈ tr, failedAlloc e = true) →
        ∀ c, driverStep (fun _ => 0) t c = driverStep (fun _ => 0) {} c) := by
  rcases driverRuns_evaluated retryCalls (fun r => some (r.1.map failedAlloc)) [true, true, false]
    rfl with ⟨tr, t, hrun, hlabels, hv⟩
  exact ⟨tr, t, hrun, hlabels, Option.some.inj hv, failedAllocs_undone (fun _ => 0) {} t tr hrun⟩

end Driver

end Qdmi
