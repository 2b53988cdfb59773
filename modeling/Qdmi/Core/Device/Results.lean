import Qdmi.Core.Device.Job

/-!
# Retrieving Results

`CXX_QDMI_device_job_get_results` and the five encoders behind it.

The encoders write through a pointer in loops of their own, and the loops are
kept: `writeShots`, `writeHistKeys`, `writeSparseKeys` and the rest advance a
`Cursor`, so an encoder that writes more than it was given room for is a fault
and not a longer list. `writeNorms` is shared between the dense and the sparse
probabilities because the two loops of the source are the same, and neither
looks for zero amplitudes.

The histogram is a `std::map`, kept as a list sorted by key. A key that is not
in it yet costs an allocation, and nothing around it catches the exception.

## Main definitions

* `writeShots`, `getResultsShots`: The shots.
* `bump`, `histogram`, `writeHistKeys`, `getResultsHist`: The histogram.
* `amplitudeBytes`, `getResultsStatevector`: The dense state vector.
* `isNonzero`, `oneShiftedBy`, `log2Size`, `writeKey`, `writeSparseKeys`,
  `writeNorms`, `getResultsSparse`: The sparse results.
* `getResultsProbabilities`: The dense probabilities.
* `deviceJobGetResults`: The entry point.
-/

namespace Qdmi

variable {R : Type}

/-- The separator between the entries of a result string. -/
def comma : UInt8 := 44

/-! ## Shots -/

/-- The loop of `Get_results_shots`: each shot is followed by a separator, the
    last one by the terminator. -/
def writeShots : List (List UInt8) → Cursor → Except Fault Cursor
  | [], cur => .ok cur
  | [shot], cur => do
    let cur ← cur.puts shot
    cur.puts [0]
  | shot :: next :: rest, cur => do
    let cur ← cur.puts shot
    let cur ← cur.puts [comma]
    writeShots (next :: rest) cur

/-- `Get_results_shots`. -/
def getResultsShots (result : ResultData R) (out : OutArgs) : Except Fault Reply :=
  match result.shots with
  | [] => .ok { status := .success, value := out.value, sizeRet := out.reported 0 }
  | front :: _ =>
    respond out (result.shots.length * (front.length + 1)) (writeShots result.shots)

/-! ## Histogram -/

/-- `hist[shot]++` on a map given by its sorted entries. -/
def bump (shot : List UInt8) : List (List UInt8 × Nat) → List (List UInt8 × Nat)
  | [] => [(shot, 1)]
  | (key, n) :: rest =>
    if shot = key then (key, n + 1) :: rest
    else if shot < key then (shot, 1) :: (key, n) :: rest
    else (key, n) :: bump shot rest

/-- The counting loop of `Get_results_hist`, from the `k`-th shot on. -/
def histogram (mem : Alloc) : Nat → List (List UInt8) → List (List UInt8 × Nat) →
    Except Exn (List (List UInt8 × Nat))
  | _, [], hist => .ok hist
  | k, shot :: rest, hist =>
    if shot ∉ hist.map Prod.fst ∧ mem k = false then .error .badAlloc
    else histogram mem (k + 1) rest (bump shot hist)

/-- The key loop of `Get_results_hist`. -/
def writeHistKeys (hist : List (List UInt8 × Nat)) (cur : Cursor) : Except Fault Cursor := do
  let cur ← hist.foldlM (fun cur entry => do
    let cur ← cur.puts entry.1
    cur.puts [comma]) cur
  cur.patchBack 0

/-- The value loop of `Get_results_hist`. -/
def writeHistValues (hist : List (List UInt8 × Nat)) (cur : Cursor) : Except Fault Cursor :=
  hist.foldlM (fun cur entry => cur.puts (sizeTBytes entry.2)) cur

/-- The body of `Get_results_hist` for one result kind. Unlike `respond` it
    reports the size before it checks the buffer. -/
def respondEarly (out : OutArgs) (need : Nat) (write : Cursor → Except Fault Cursor) :
    Except Fault Reply :=
  match out.value with
  | none => .ok { status := .success, sizeRet := out.reported need }
  | some buf =>
    if out.size < need then
      .ok { status := .errorInvalidargument, value := some buf, sizeRet := out.reported need }
    else do
      let cur ← write (Cursor.start buf)
      .ok { status := .success, value := some cur.buf, sizeRet := out.reported need }

/-- `Get_results_hist`, after the histogram has been built. -/
def respondHist (result : ResultData R) (hist : List (List UInt8 × Nat)) (kind : Nat)
    (out : OutArgs) : Except Fault Reply :=
  if kind = JobResult.histKeys.code then
    let bitstringSize := (result.shots.headD []).length
    let need := hist.length * (bitstringSize + 1)
    if hist = [] then
      .ok { status := .success, value := out.value, sizeRet := out.reported need }
    else respondEarly out need (writeHistKeys hist)
  else respondEarly out (hist.length * 8) (writeHistValues hist)

/-- `Get_results_hist`. -/
def getResultsHist (mem : Alloc) (result : ResultData R) (kind : Nat) (out : OutArgs) :
    Except Fault (Except Exn Reply) :=
  match histogram mem 0 result.shots [] with
  | .error e => .ok (.error e)
  | .ok hist => (respondHist result hist kind out).map .ok

/-! ## State vector and probabilities -/

section

variable [Zero R] [DecidableEq R] [Add R] [Mul R] [DoubleRepr R]

/-- An amplitude as two `double` values. -/
def amplitudeBytes (c : R × R) : List UInt8 := DoubleRepr.bytes c.1 ++ DoubleRepr.bytes c.2

/-- `Get_results_statevector`. -/
def getResultsStatevector (result : ResultData R) (out : OutArgs) : Except Fault Reply :=
  respond out (result.stateVec.length * 2 * 8)
    (fun cur => cur.puts (result.stateVec.flatMap amplitudeBytes))

/-- `c != 0.` on an amplitude. -/
def isNonzero (c : R × R) : Bool := c.1 != 0 || c.2 != 0

/-- `static_cast<size_t>(std::log2(size))`. The logarithm of zero is minus
    infinity, which no integer type holds. -/
def log2Size (size : Nat) : Except Fault Nat :=
  if size = 0 then .error .floatCast else .ok size.log2

/-- `1 << k`, an `int`, converted to `size_t`: the sign bit is extended. -/
def oneShiftedBy (k : Nat) : Except Fault Nat :=
  if k < 31 then .ok (2 ^ k)
  else if k = 31 then .ok (sizeTMod - 2 ^ 31)
  else .error .shiftCount

/-- The inner loop of the sparse keys: the bits of `i`, most significant
    first. -/
def writeKey (numQubits i : Nat) (cur : Cursor) : Except Fault Cursor :=
  (List.range numQubits).foldlM (fun cur j => do
    let mask ← oneShiftedBy (numQubits - j - 1)
    cur.puts [if i &&& mask ≠ 0 then 49 else 48]) cur

/-- The outer loop of the sparse keys. -/
def writeSparseKeys (stateVec : List (R × R)) (numQubits : Nat) (cur : Cursor) :
    Except Fault Cursor := do
  let cur ← stateVec.zipIdx.foldlM (fun cur entry =>
    if isNonzero entry.1 then do
      let cur ← writeKey numQubits entry.2 cur
      cur.puts [comma]
    else .ok cur) cur
  cur.patchBack 0

/-- The loop of the sparse state vector. -/
def writeSparseAmplitudes (stateVec : List (R × R)) (cur : Cursor) : Except Fault Cursor :=
  stateVec.foldlM (fun cur c => if isNonzero c then cur.puts (amplitudeBytes c) else .ok cur) cur

/-- The loop of the probabilities, sparse and dense. -/
def writeNorms (stateVec : List (R × R)) (cur : Cursor) : Except Fault Cursor :=
  stateVec.foldlM (fun cur c => cur.puts (DoubleRepr.bytes (cnorm c))) cur

/-- `Get_results_sparse`. -/
def getResultsSparse (result : ResultData R) (kind : Nat) (out : OutArgs) :
    Except Fault Reply := do
  let count := result.stateVec.countP isNonzero
  let numQubits ← log2Size result.stateVec.length
  if kind = JobResult.statevectorSparseKeys.code ∨ kind = JobResult.probabilitiesSparseKeys.code
  then respond out (count * (numQubits + 1)) (writeSparseKeys result.stateVec numQubits)
  else if kind = JobResult.statevectorSparseValues.code then
    respond out (count * 2 * 8) (writeSparseAmplitudes result.stateVec)
  else respond out (count * 8) (writeNorms result.stateVec)

/-- `Get_results_probabilities`. -/
def getResultsProbabilities (result : ResultData R) (out : OutArgs) : Except Fault Reply :=
  respond out (result.stateVec.length * 8) (writeNorms result.stateVec)

/-- The `switch` of `CXX_QDMI_device_job_get_results`. -/
def encodeResult (mem : Alloc) (result : ResultData R) (kind : Nat) (out : OutArgs) :
    Except Fault (Except Exn Reply) :=
  if kind = JobResult.shots.code then (getResultsShots result out).map .ok
  else if kind = JobResult.histKeys.code ∨ kind = JobResult.histValues.code then
    getResultsHist mem result kind out
  else if kind = JobResult.statevectorDense.code then (getResultsStatevector result out).map .ok
  else if kind = JobResult.statevectorSparseKeys.code ∨
      kind = JobResult.statevectorSparseValues.code ∨
      kind = JobResult.probabilitiesSparseKeys.code ∨
      kind = JobResult.probabilitiesSparseValues.code then
    (getResultsSparse result kind out).map .ok
  else if kind = JobResult.probabilitiesDense.code then
    (getResultsProbabilities result out).map .ok
  else .ok (.ok (out.reject .errorNotsupported))

/-- `CXX_QDMI_device_job_get_results`. The index is checked against the
    programs and used on the results. -/
def deviceJobGetResults (s : DeviceState R) (mem : Alloc) (job : Option Nat)
    (programIndex kind : Nat) (out : OutArgs) : Except Fault (Except Exn Reply) :=
  match job with
  | none => .ok (.ok (out.reject .errorInvalidargument))
  | some h =>
    if out.degenerate || isInvalidEnumValue kind JobResult.max then
      .ok (.ok (out.reject .errorInvalidargument))
    else
      match s.jobs.get? h with
      | none => .error .danglingHandle
      | some jb =>
        if jb.programs.length ≤ programIndex then .ok (.ok (out.reject .errorOutofrange))
        else if jb.status ≠ .done then .ok (.ok (out.reject .errorBadstate))
        else
          match jb.results[programIndex]? with
          | none => .error .readPastEnd
          | some result => encodeResult mem result kind out

end

end Qdmi
