import Qdmi.Theory.Device.Counts
import Qdmi.Theory.Stack.Service

/-!
# What a Client Collects

A client whose request was served reads the shots of one of its programs. What it
finds in its buffer is a text that depends on the request alone: the bitstring
that the program selects, as often as shots were asked for.

The bitstring is computed from the bytes of the program that the client has passed
to the driver, and read from the buffer that it passes to the driver later. On the
way the programs were copied into a device job, the shots computed when the job was
submitted, and other clients have called what they liked.

## Main definitions

* `Request.numShots`, `Request.shot`: The shots that a request asks for.
* `shotsText`: The text of some shots.

## Theorems

* `served_shots`: A served job has these shots.
* `getResults_shots`: Reading shots that are all the same.
* `stackRuns_collects`: From a request to the buffer of the client.
-/

namespace Qdmi

namespace Driver

variable {R : Type}

/-- The number of shots of a request. -/
def Request.numShots (req : Request) : Nat := leNat (readBytes req.shots 8)

/-- The bitstring for a program of a request. A program that is alone is not looked
    at. -/
def Request.shot (req : Request) (i : Nat) : Except Exn (List UInt8) :=
  if 1 < req.count then programShot req.format (programBytes req.sizes req.programs i)
  else paddedShot 5 0

/-- The text of some shots. Without any there is no terminator either. -/
def shotsText (n : Nat) (shot : List UInt8) : List UInt8 :=
  if n = 0 then [] else [comma].intercalate (List.replicate n shot) ++ [0]

theorem length_shotsText {shot : List UInt8} (hlen : shot.length = 5) (n : Nat) :
    (shotsText n shot).length = 6 * n := by
  unfold shotsText
  by_cases hn : n = 0
  · rw [if_pos hn, hn]
    rfl
  · -- Five characters for each, and the separator or terminator behind it.
    have hne : List.replicate n shot ≠ [] := by
      rw [ne_eq, List.replicate_eq_nil_iff]
      exact hn
    have hwidth : ∀ s ∈ List.replicate n shot, s.length = 5 := by
      intro s hs
      rw [List.eq_of_mem_replicate hs]
      exact hlen
    rw [if_neg hn, length_intercalate comma 0 _ hne hwidth, List.length_replicate]
    omega

/-- The shots of a served job. -/
theorem served_shots {req : Request} {djb : DeviceJob R} (h : Served req djb) {i : Nat}
    (hi : i < req.count) : i < djb.programs.length ∧ ∃ result shot,
      djb.results[i]? = some result ∧ req.shot i = .ok shot ∧ shot.length = 5 ∧
      result.shots = List.replicate req.numShots shot := by
  have hcount : djb.programs.length = req.count := by
    rw [h.programs, List.length_map, List.length_range]
  have hprogram : i < djb.programs.length := by omega
  have hresult : i < djb.results.length := by
    rw [← h.results.length_eq]
    exact hprogram
  rcases h.results.get hprogram hresult with ⟨index, shot, hindex, hshot, hshots⟩
  refine ⟨hprogram, djb.results[i], shot, List.getElem?_eq_getElem hresult, ?_,
    (paddedShot_bits hshot).1, ?_⟩
  · -- The program at the index is the one of the request.
    have hbytes : djb.programs.get ⟨i, hprogram⟩ = programBytes req.sizes req.programs i := by
      simp [h.programs]
    rw [hbytes, outputIndex, hcount, h.format] at hindex
    rw [Request.shot]
    by_cases hseveral : 1 < req.count
    · rw [if_pos hseveral] at hindex ⊢
      rw [programShot, hindex]
      exact hshot
    · rw [if_neg hseveral, Except.ok.injEq] at hindex
      rw [if_neg hseveral, hindex]
      exact hshot
  · rw [Request.numShots, ← h.numShots, ← hshots, List.get_eq_getElem]

section

variable [Zero R] [Add R] [Mul R] [DoubleRepr R] [DecidableEq R]

/-- Reading shots that are all the same, into a buffer with room for them. -/
theorem getResults_shots {s : DeviceState R} {mem : Alloc} {h i n : Nat} {jb : DeviceJob R}
    {result : ResultData R} {shot buf : List UInt8} {ret : Bool}
    (hget : s.jobs.get? h = some jb) (hst : jb.status = .done) (hi : i < jb.programs.length)
    (hres : jb.results[i]? = some result) (hlen : shot.length = 5)
    (hshots : result.shots = List.replicate n shot) (hbuf : buf ≠ [])
    (hroom : 6 * n ≤ buf.length) :
    deviceJobGetResults s mem (some h) i JobResult.shots.code ⟨buf.length, some buf, ret⟩ =
      .ok (.ok { status := .success, value := some (shotsText n shot ++ buf.drop (6 * n)),
                 sizeRet := if ret then some (6 * n) else none }) := by
  rw [deviceJobGetResults_body hget hst hi hres mem rfl (encodeResult_shots mem result)]
  have htext := length_shotsText hlen n
  by_cases hn : n = 0
  · have hz : (buf.length == 0) = false :=
      beq_eq_false_iff_ne.mpr (fun h => hbuf (List.length_eq_zero_iff.mp h))
    rw [hn] at hshots ⊢
    simp [getResultsShots, hshots, OutArgs.degenerate, hz, shotsText, Except.map, OutArgs.reported]
  · -- The first shot says how long they all are.
    have hne : result.shots ≠ [] := by
      rw [hshots, ne_eq, List.replicate_eq_nil_iff]
      exact hn
    have hbody : getResultsShots result = fun out =>
        respond out (6 * n) (writeShots result.shots) := by
      funext out
      rcases Nat.exists_eq_succ_of_ne_zero hn with ⟨m, hm⟩
      simp only [getResultsShots, hshots, hm, List.replicate_succ, List.length_cons,
        List.length_replicate, hlen]
      congr 1
      omega
    have hwrite : ∀ buf, writeShots result.shots (Cursor.start buf) =
        (Cursor.start buf).puts (shotsText n shot) := by
      intro buf
      rw [writeShots_eq _ hne, shotsText, if_neg hn, hshots]
    have hnil : shotsText n shot ≠ [] := by
      rw [← List.length_pos_iff, htext]
      omega
    have hfits := (delivers_respond hnil htext hwrite).fits buf ret (by omega)
    rw [htext] at hfits
    rw [hbody]
    exact hfits

variable [Div R]

/-- Behind every run of clients that free jobs before their session, a client whose
    request was served among any other calls reads what its programs select: the same
    bitstring for every shot, and as many as it has asked for. -/
theorem stackRuns_collects (addr : DeviceHandle → Nat) (img : Nat × List UInt8 → Image)
    (tr tr' : List (StackEntry R)) (e : StackEntry R) (t u : Stack R)
    (hrun : StackRuns addr img tr t) (hrule : Respects FreesJobs tr)
    (hcont : Runs (stackStep addr img) t (tr' ++ [e]) u) (hrule' : Respects FreesJobs tr')
    (j : Nat) (cj : Job) (hget : t.driver.jobs.get? j = some cj)
    (hkeep : Respects (fun _ c => KeepsJob j c) tr') (djb : DeviceJob R)
    (hdjb : deviceJobOf t j = some djb) (hst : djb.status = .created) (req : Request)
    (timeout : Nat) (hcalls : (commands j tr').map Command.call = req.calls timeout)
    (hmem : ∀ k ∈ commands j tr', ∀ i, k.env.mem i = true) (i : Nat) (hi : i < req.count)
    (buf : List UInt8) (ret : Bool) (hbuf : buf ≠ [])
    (hroom : 6 * req.numShots ≤ buf.length)
    (hop : e.label.call.op = .jobGetResults (some j) i JobResult.shots.code
      ⟨buf.length, some buf, ret⟩) :
    ∃ shot, req.shot i = .ok shot ∧ e.out.reply = .ok {
      status := .success
      value := some (shotsText req.numShots shot ++ buf.drop (6 * req.numShots))
      sizeRet := if ret then some (6 * req.numShots) else none } := by
  rcases runs_at hcont with ⟨hbefore, hstep, _⟩
  rcases runs_behind ⟨stackRuns_inv hrun hrule, hget, hdjb⟩ hbefore hrule' hkeep with
    ⟨djb', hb', hobeys⟩
  rcases obeys_request hobeys hcalls hmem hst with ⟨_, hserved⟩
  rcases served_shots hserved hi with ⟨hprogram, result, shot, hres, hshot, hlen, hshots⟩
  have hread : jobCallOf e.label.call.op =
      some (j, .getResults i JobResult.shots.code ⟨buf.length, some buf, ret⟩) := by
    rw [hop]
    rfl
  rcases stackStep_onJob hb' hread hstep with ⟨_, p, s, s', _, _, hjob, _, _, hdevice, _⟩
  have hquery := (deviceStep_query hdevice).1
  simp only [deviceQuery] at hquery
  rw [getResults_shots hjob hserved.status hprogram hres hlen hshots hbuf hroom,
    Except.ok.injEq] at hquery
  exact ⟨shot, hshot, hquery.symm⟩

end

/-! ## Collecting the shot of a request -/

/-- The first client reads its shot into a buffer of eight bytes. -/
def collectOp : DriverOp :=
  .jobGetResults (some 0) 0 JobResult.shots.code ⟨8, some (List.replicate 8 9), true⟩

theorem stackRuns_collects_sample :
    ∃ tr tr' e t u, StackRuns (R := ℚ) (fun _ => 0) (fun _ => sampleImage) tr t ∧
      Runs (stackStep (fun _ => 0) (fun _ => sampleImage)) t (tr' ++ [e]) u ∧ tr'.length = 10 ∧
      e.out.reply = .ok { status := .success, value := some (ascii "00001" ++ [0, 9, 9]),
                          sizeRet := some 6 } := by
  rcases stackRuns_continued (submitOps.take 5) (requestOps ++ [collectOp]) (fun t _ _ =>
    (t.driver.jobs.get? 0).bind (fun cj => (deviceJobOf t 0).map (fun djb => (djb, cj))))
    ({ session := 1, status := .created }, ⟨⟨0, 1⟩, 2⟩) rfl with
    ⟨tr, tr', t, u, hrun, hrule, hrun', hrule', hall, hv⟩
  rcases Option.bind_eq_some_iff.mp hv with ⟨cj, hget, hv⟩
  rcases Option.map_eq_some_iff.mp hv with ⟨djb, hdjb, hv⟩
  rw [Prod.mk.injEq] at hv
  have hst : djb.status = .created := by rw [hv.1]
  have hsplit : tr'.map Entry.label = stackCalls requestOps ++ stackCalls [collectOp] := hall
  rcases List.map_eq_append_iff.mp hsplit with ⟨tr', last, rfl, hlabels, hlast⟩
  rcases List.map_eq_singleton_iff.mp hlast with ⟨e, rfl, he⟩
  have hcalls : (commands 0 tr').map Command.call = sampleRequest.calls 0 := by
    rw [commands_calls, hlabels]
    rfl
  have hop : e.label.call.op = collectOp := by
    rw [he]
  rcases stackRuns_collects (fun _ => 0) (fun _ => sampleImage) tr tr' e t u hrun hrule hrun'
    (respects_append.mp hrule').1 0 cj hget (respects_of_calls hlabels requestOps_keeps) djb hdjb
    hst sampleRequest 0 hcalls (commands_mem hlabels 0) 0 (by decide) (List.replicate 8 9) true
    (by decide) (by decide) hop with ⟨shot, hshot, hreply⟩
  have hfirst : sampleRequest.shot 0 = .ok (ascii "00001") := by rfl
  rw [hfirst, Except.ok.injEq] at hshot
  rw [← hshot] at hreply
  have hlen := congrArg List.length hlabels
  rw [List.length_map] at hlen
  exact ⟨tr, tr', e, t, u, hrun, hrun', hlen, hreply⟩

end Driver

end Qdmi
