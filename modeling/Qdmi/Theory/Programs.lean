import Mathlib.Data.List.Basic
import Qdmi.Core.Programs
import Qdmi.Theory.SizeProtocol

/-!
# Reading Lists of a Device

What the getters of the library return, for every device that follows the size
protocol, and what they do when a device does not.

A device is known by its answers. It has a list, a string or a number when its
queries have that as their value, which is the protocol from the side of the
client (`HasValue`). One lemma for each kind of call says what it returns then, and
the getters follow step by step.

The operation map keeps the first operation of each name
(`getOperationMap_plays`). That a device lists two operations of one name does
not make the library fail, but the second is lost.

A device need not keep to any protocol, and need not answer alike. What a getter
returns then is anything, but it does not return when a call has reported an
error: every status is looked at, and none of the messages is empty
(`programs_heed`).

## Main definitions

* `HasValue`: A device has a value.
* `HasOperations`: A device has operations with names.
* `Smooth`: An answer that reports no error.

## Theorems

* `hasValue_of_answers`: A query with a value.
* `askOrThrow_alone`, `askSize_alone`, `askValue_alone`: Single calls.
* `askList_alone`, `askString_alone`, `getOperationNum_alone`: What a device has.
* `getOperationMap_alone`, `getOperationMap_plays`: The map of the operations.
* `programs_heed`: No error is overlooked.
-/

namespace Qdmi

open Driver (QueryCall)

/-- A device has a value: it reports its size, and a buffer with room for it begins
    with it afterwards. -/
structure HasValue (answer : QueryCall → Option Reply) (query : OutArgs → QueryCall)
    (bytes : List UInt8) : Prop where
  probe : ∀ size ret, answer (query ⟨size, none, ret⟩) = some {
    status := .success, sizeRet := if ret then some bytes.length else none }
  fits : ∀ buf ret, 0 < buf.length → bytes.length ≤ buf.length →
    ∃ rest, bytes.length + rest.length = buf.length ∧
      answer (query ⟨buf.length, some buf, ret⟩) = some {
        status := .success, value := some (bytes ++ rest),
        sizeRet := if ret then some bytes.length else none }

/-- An answer that reports no error. -/
def Smooth (_ : QueryCall) (reply : Reply) : Prop :=
  reply.status = .success ∨ reply.status = .warnGeneral

section

variable {answer : QueryCall → Option Reply} {query : OutArgs → QueryCall}
variable {bytes message sizeMessage : List UInt8}

/-- A query with a value is one of a device that has it. -/
theorem hasValue_of_answers {q : OutArgs → Except Fault Reply} (h : Answers q bytes)
    (hsame : ∀ out, answer (query out) = (q out).toOption) : HasValue answer query bytes where
  probe size ret := by
    rw [hsame, h.probe]
    rfl
  fits buf ret hpos hroom := by
    rcases h.fits buf ret hpos hroom with ⟨rest, hlen, hreply⟩
    exact ⟨rest, hlen, by rw [hsame, hreply]; rfl⟩

/-! ## Single calls -/

theorem askOrThrow_alone {q : QueryCall} {reply : Reply} (h : answer q = some reply)
    (hsucc : reply.status = .success) : (askOrThrow q message).alone answer = some (.ok reply) := by
  have hask : (Asking.question q : FomacProgram Reply).alone answer = some (.ok reply) := by
    rw [Asking.question, Asking.alone, h]
    rfl
  have hpass : throwIfError reply.status message = .ok () := by
    rw [hsucc]
    rfl
  unfold askOrThrow
  rw [alone_bind hask, hpass]
  rfl

/-- A device reports the size of what it has. -/
theorem askSize_alone (h : HasValue answer query bytes) :
    (askSize query message).alone answer = some (.ok bytes.length) := by
  unfold askSize
  rw [alone_bind (askOrThrow_alone (h.probe 0 true) rfl)]
  rfl

/-- A buffer with room for what the device has begins with it afterwards. -/
theorem askValue_alone (message : List UInt8) (h : HasValue answer query bytes) {init : Buffer}
    {size : Nat} (hsize : size = init.length) (hroom : bytes.length ≤ init.length) :
    ∃ rest, bytes.length + rest.length = init.length ∧
      (askValue query size init message).alone answer = some (.ok (bytes ++ rest)) := by
  unfold askValue
  by_cases hnil : init = []
  · -- There is nothing to be read, and the data pointer is null.
    rw [hnil, List.length_nil, Nat.le_zero, List.length_eq_zero_iff] at hroom
    rw [if_pos hnil, hnil, hroom]
    exact ⟨[], rfl, by rw [alone_bind (askOrThrow_alone (h.probe size false) rfl)]; rfl⟩
  · have hpos := List.length_pos_iff.mpr hnil
    rcases h.fits init false hpos hroom with ⟨rest, hlen, hreply⟩
    rw [if_neg hnil, hsize]
    exact ⟨rest, hlen, by rw [alone_bind (askOrThrow_alone hreply rfl)]; rfl⟩

/-! ## What a device has -/

/-- A list of numbers. -/
theorem askList_alone {width : Nat} (hwidth : 0 < width) {values : List Nat}
    (h : HasValue answer query (values.flatMap (leBytes width)))
    (hbound : ∀ v ∈ values, v < 256 ^ width) (hlen : values.length ≤ vectorMaxSize width) :
    (askList width query sizeMessage message).alone answer = some (.ok values) := by
  have hbytes : (values.flatMap (leBytes width)).length = values.length * width :=
    length_flatMap_eq values (fun n _ => length_leBytes width n)
  have hcount : (values.flatMap (leBytes width)).length / width = values.length := by
    rw [hbytes, Nat.mul_div_cancel _ hwidth]
  have hinit : (values.flatMap (leBytes width)).length =
      (List.replicate (values.length * width) (0 : UInt8)).length := by
    rw [hbytes, List.length_replicate]
  rcases askValue_alone message h hinit (Nat.le_of_eq hinit) with ⟨rest, _, hvalue⟩
  unfold askList
  rw [alone_bind (askSize_alone h)]
  dsimp only
  rw [hcount, if_neg (Nat.not_lt.mpr hlen), alone_bind hvalue]
  -- The vector is as long as the list, so each element is a record of it.
  refine congrArg (fun l => some (Except.ok l)) (List.ext_getElem ?_ (fun i hi hi' => ?_))
  · rw [List.length_map, List.length_range]
  · have hfit : width * (i + 1) ≤ (values.flatMap (leBytes width)).length := by
      rw [hbytes, Nat.mul_comm]
      exact Nat.mul_le_mul_right width hi'
    rw [List.getElem_map, List.getElem_range, field_append hfit,
      field_flatMap (fun n _ => length_leBytes width n) (List.getElem?_eq_getElem hi'),
      leNat_leBytes, Nat.mod_eq_of_lt (hbound _ (List.getElem_mem hi'))]

/-- A string, with its terminator. -/
theorem askString_alone {str : List UInt8} (h : HasValue answer query (str ++ [0]))
    (hlen : str.length ≤ vectorMaxSize 1) :
    (askString query sizeMessage message).alone answer = some (.ok str) := by
  have hbytes : (str ++ [0]).length = str.length + 1 := by
    rw [List.length_append, List.length_singleton]
  have hlength : ((str ++ [0]).length + sizeTMod - 1) % sizeTMod = str.length := by
    unfold vectorMaxSize at hlen
    rw [hbytes]
    unfold sizeTMod
    omega
  have hinit : (str ++ [0]).length = (List.replicate (str.length + 1) (0 : UInt8)).length := by
    rw [hbytes, List.length_replicate]
  rcases askValue_alone message h hinit (Nat.le_of_eq hinit) with ⟨rest, _, hvalue⟩
  unfold askString
  rw [alone_bind (askSize_alone h)]
  dsimp only
  rw [hlength, if_neg (Nat.not_lt.mpr hlen), alone_bind hvalue, List.append_assoc]
  exact congrArg (fun l => some (Except.ok l)) List.take_left

/-- A number, read from a buffer of its width. -/
theorem askWord_alone (message : List UInt8) {n : Nat} (h : HasValue answer query (sizeTBytes n))
    (hn : n < sizeTMod) : ∃ buf, leNat buf = n ∧
      (askValue query 8 (sizeTBytes 0) message).alone answer = some (.ok buf) := by
  have hwidth : (sizeTBytes n).length = (sizeTBytes 0).length := by
    rw [sizeTBytes, sizeTBytes, length_leBytes, length_leBytes]
  rcases askValue_alone message h (show 8 = _ from rfl) (Nat.le_of_eq hwidth) with
    ⟨rest, hrest, hvalue⟩
  have hnil : rest = [] := List.length_eq_zero_iff.mp (by omega)
  have hbig : sizeTMod = 256 ^ 8 := by norm_num [sizeTMod]
  rw [hnil, List.append_nil] at hvalue
  refine ⟨_, ?_, hvalue⟩
  rw [sizeTBytes, leNat_leBytes, ← hbig, Nat.mod_eq_of_lt hn]

theorem getQubitsNum_alone {n : Nat}
    (h : HasValue answer (.deviceProperty DeviceProperty.qubitsnum.code) (sizeTBytes n))
    (hn : n < sizeTMod) : Fomac.getQubitsNum.alone answer = some (.ok n) := by
  unfold Fomac.getQubitsNum
  rcases askWord_alone (ascii "Failed to query the number of qubits.") h hn with ⟨buf, rfl, hbuf⟩
  rw [alone_bind hbuf]
  rfl

theorem getSiteId_alone {site n : Nat}
    (h : HasValue answer (siteQuery site SiteProperty.index.code) (sizeTBytes n))
    (hn : n < sizeTMod) : (Fomac.getSiteId site).alone answer = some (.ok n) := by
  unfold Fomac.getSiteId
  rcases askWord_alone (ascii "Failed to query the site ID") h hn with ⟨buf, rfl, hbuf⟩
  rw [alone_bind hbuf]
  rfl

/-- A number of an operation. -/
theorem getOperationNum_alone {op prop n : Nat}
    (h : HasValue answer (operationQuery op prop) (sizeTBytes n)) (hn : n < sizeTMod) :
    (Fomac.getOperationNum prop message op).alone answer = some (.ok n) := by
  unfold Fomac.getOperationNum
  rcases askWord_alone message h hn with ⟨buf, rfl, hbuf⟩
  rw [alone_bind hbuf]
  rfl

/-- The bytes of a pair of handles. -/
def pairBytes (p : Nat × Nat) : List UInt8 := leBytes 8 p.1 ++ leBytes 8 p.2

/-- A pair of handles is a record of sixteen bytes. -/
theorem sitePair_flatMap {pairs : List (Nat × Nat)} (rest : List UInt8)
    (hbound : ∀ p ∈ pairs, p.1 < sizeTMod ∧ p.2 < sizeTMod) {i : Nat} (hi : i < pairs.length) :
    sitePair (pairs.flatMap pairBytes ++ rest) i = pairs[i] := by
  have hwidth : ∀ p ∈ pairs, (pairBytes p).length = 16 := by
    intro p _
    rw [pairBytes, List.length_append, length_leBytes, length_leBytes]
  have hfit : 16 * (i + 1) ≤ (pairs.flatMap pairBytes).length := by
    rw [length_flatMap_eq pairs hwidth]
    omega
  have hrecord : field 16 (pairs.flatMap pairBytes ++ rest) i = pairBytes pairs[i] := by
    rw [field_append hfit]
    exact field_flatMap hwidth (List.getElem?_eq_getElem hi)
  have hbig : sizeTMod = 256 ^ 8 := by norm_num [sizeTMod]
  -- Its halves are the two handles.
  have hfirst : ∀ buf : List UInt8, (buf.drop (16 * i)).take 8 = (field 16 buf i).take 8 := by
    intro buf
    rw [field, List.take_take]
    rfl
  have hsecond : ∀ buf : List UInt8, (buf.drop (16 * i + 8)).take 8 = (field 16 buf i).drop 8 := by
    intro buf
    rw [field, List.drop_take, List.drop_drop]
  rcases hbound _ (List.getElem_mem hi) with ⟨hp, hp'⟩
  rw [sitePair, hfirst, hsecond, hrecord, pairBytes, List.take_left' (length_leBytes 8 _),
    List.drop_left' (length_leBytes 8 _), leNat_leBytes, leNat_leBytes, ← hbig,
    Nat.mod_eq_of_lt hp, Nat.mod_eq_of_lt hp']

theorem getCouplingMap_alone {pairs : List (Nat × Nat)}
    (h : HasValue answer (.deviceProperty DeviceProperty.couplingmap.code)
      (pairs.flatMap pairBytes))
    (hbound : ∀ p ∈ pairs, p.1 < sizeTMod ∧ p.2 < sizeTMod)
    (hlen : pairs.length ≤ vectorMaxSize 16) :
    Fomac.getCouplingMap.alone answer = some (.ok pairs) := by
  have hbytes : (pairs.flatMap pairBytes).length = pairs.length * 16 := by
    refine length_flatMap_eq pairs (fun p _ => ?_)
    rw [pairBytes, List.length_append, length_leBytes, length_leBytes]
  have hcount : (pairs.flatMap pairBytes).length / 8 = 2 * pairs.length := by
    rw [hbytes]
    omega
  have hinit : (pairs.flatMap pairBytes).length =
      (List.replicate (16 * (2 * pairs.length / 2)) (0 : UInt8)).length := by
    rw [hbytes, List.length_replicate]
    omega
  rcases askValue_alone (ascii "Failed to query the coupling map.") h hinit (Nat.le_of_eq hinit)
    with ⟨rest, _, hvalue⟩
  unfold Fomac.getCouplingMap
  rw [alone_bind (askSize_alone h)]
  dsimp only
  rw [hcount, if_neg (by omega), if_neg (by omega), alone_bind hvalue]
  refine congrArg (fun l => some (Except.ok l)) (List.ext_getElem ?_ (fun i hi hi' => ?_))
  · rw [List.length_map, List.length_range]
    omega
  · rw [List.getElem_map, List.getElem_range]
    exact sitePair_flatMap rest hbound hi'

/-- A device that reports microseconds, and its scale factor. -/
theorem getUsScaleFactor_alone {K : Type} [Field K] [DoubleValue K] {scale : List UInt8}
    (hunit : HasValue answer (.deviceProperty DeviceProperty.durationunit.code) (ascii "us" ++ [0]))
    (hscale : HasValue answer (.deviceProperty DeviceProperty.durationscalefactor.code) scale)
    (hlen : scale.length = 8) : (Fomac.getUsScaleFactor : FomacProgram K).alone answer =
      some (.ok (DoubleValue.ofBytes scale)) := by
  rcases askValue_alone (ascii "Failed to retrieve the device's duration unit.") hunit
    (show 3 = (List.replicate 3 (0 : UInt8)).length from rfl) (by decide) with
    ⟨rest, hrest, hvalue⟩
  have hroom : scale.length = (List.replicate 8 (0 : UInt8)).length := hlen
  rcases askValue_alone (ascii "Failed to query the duration scale factor") hscale
    (show 8 = (List.replicate 8 (0 : UInt8)).length from rfl) (Nat.le_of_eq hroom) with
    ⟨rest', hrest', hvalue'⟩
  have hnil : rest' = [] := List.length_eq_zero_iff.mp (by omega)
  have hlength : ((ascii "us" ++ [0]).length + sizeTMod - 1) % sizeTMod = 2 := by decide
  unfold Fomac.getUsScaleFactor
  rw [alone_bind (askSize_alone hunit)]
  dsimp only
  rw [hlength, if_neg (by decide), alone_bind hvalue, alone_bind hvalue', hnil, List.append_nil]
  rfl

theorem getSiteTime_alone {K : Type} [Field K] [DoubleValue K] {site prop raw : Nat} {factor : K}
    (h : HasValue answer (siteQuery site prop) (sizeTBytes raw)) (hraw : raw < sizeTMod)
    (hfactor : (Fomac.getUsScaleFactor : FomacProgram K).alone answer = some (.ok factor)) :
    (Fomac.getSiteTime prop message site : FomacProgram K).alone answer =
      some (.ok (raw * factor)) := by
  unfold Fomac.getSiteTime
  rcases askWord_alone message h hraw with ⟨buf, rfl, hbuf⟩
  rw [alone_bind hbuf, alone_bind hfactor]
  rfl

/-! ## The map of the operations -/

/-- A device has a list of operations, and a name for each. -/
structure HasOperations (answer : QueryCall → Option Reply) (ops : List Nat)
    (name : Nat → List UInt8) : Prop where
  list : HasValue answer (.deviceProperty DeviceProperty.operations.code)
    (ops.flatMap (leBytes 8))
  bound : ∀ op ∈ ops, op < 256 ^ 8
  length : ops.length ≤ vectorMaxSize 8
  names : ∀ op ∈ ops,
    HasValue answer (operationQuery op OperationProperty.name.code) (name op ++ [0])
  nameLength : ∀ op ∈ ops, (name op).length ≤ vectorMaxSize 1

variable {ops : List Nat} {name : Nat → List UInt8}

theorem getOperationMap_alone (h : HasOperations answer ops name) :
    Fomac.getOperationMap.alone answer =
      some (.ok (OrderedMap.ofList (ops.map (fun op => (name op, op))))) := by
  unfold Fomac.getOperationMap OrderedMap.ofList
  rw [alone_bind (askList_alone (by decide) h.list h.bound h.length), List.foldl_map]
  refine alone_foldlM (fun op hop m => ?_) OrderedMap.empty
  rw [alone_bind (askString_alone (h.names op hop) (h.nameLength op hop))]
  rfl

/-- In such a list a name is looked up by the operations. -/
theorem lookup_names (name : Nat → List UInt8) (ops : List Nat) (n : List UInt8) :
    (ops.map (fun op => (name op, op))).lookup n = ops.find? (fun op => name op == n) := by
  induction ops with
  | nil => rfl
  | cons op ops ih =>
      rw [List.map_cons, lookup_cons_ite, List.find?_cons, ih]
      by_cases hn : n = name op
      · rw [if_pos hn, beq_iff_eq.mpr hn.symm]
      · rw [if_neg hn, beq_eq_false_iff_ne.mpr (Ne.symm hn)]

/-- Whatever the conversation with a device that has operations with names,
    `get_operation_map` returns the map in which each name leads to the first
    operation of that name. -/
theorem getOperationMap_plays (answer : QueryCall → Option Reply) (ops : List Nat)
    (name : Nat → List UInt8) (h : HasOperations answer ops name) (l : List (QueryCall × Reply))
    (res : Except Thrown (OrderedMap (List UInt8) Nat)) (hplays : Plays Fomac.getOperationMap l res)
    (hl : ∀ z ∈ l, answer z.1 = some z.2) :
    ∃ m, res = .ok m ∧ ∀ n, m.find n = ops.find? (fun op => name op == n) := by
  have halone := plays_alone hplays hl
  rw [getOperationMap_alone h, Option.some.injEq] at halone
  refine ⟨_, halone.symm, fun n => ?_⟩
  rw [find_ofList, lookup_names]

end

/-- A device that lists three operations, of which the first and the last have the
    same name. -/
def namesakes : QueryCall → Option Reply
  | .deviceProperty prop out =>
    (addListProperty DeviceProperty.operations.code [sizeTBytes 8, sizeTBytes 16, sizeTBytes 24]
      prop out (.ok (out.reject .errorNotsupported))).toOption
  | .operationProperty (some op) _ prop out =>
    (addStringProperty OperationProperty.name.code (if op = 16 then literal "y" else literal "x")
      prop out (.ok (out.reject .errorNotsupported))).toOption
  | _ => none

theorem namesakes_hasOperations : HasOperations namesakes [8, 16, 24]
    (fun op => if op = 16 then ascii "y" else ascii "x") where
  list := hasValue_of_answers (addListProperty_answers _ _ _) (fun _ => rfl)
  bound := by decide
  length := by decide
  names := by
    intro op hop
    have hname : ∀ str : CString, (if op = 16 then literal "y" else literal "x") = str →
        HasValue namesakes (operationQuery op OperationProperty.name.code) (str.chars ++ [0]) := by
      intro str hstr
      refine hasValue_of_answers (addStringProperty_answers OperationProperty.name.code str
        (fun out => .ok (out.reject .errorNotsupported))) (fun out => ?_)
      have hpointer : pointerTo op = some op := by
        unfold pointerTo
        rw [if_neg]
        rintro rfl
        exact absurd hop (by decide)
      rw [operationQuery, hpointer, namesakes, hstr]
    by_cases hy : op = 16
    · rw [if_pos hy]
      exact hname (literal "y") (if_pos hy)
    · rw [if_neg hy]
      exact hname (literal "x") (if_neg hy)
  nameLength := by decide

/-- Of two operations of one name the second is not in the map. -/
theorem getOperationMap_namesakes : ∃ l m, Plays Fomac.getOperationMap l (.ok m) ∧
    (∀ z ∈ l, namesakes z.1 = some z.2) ∧ m.find (ascii "x") = some 8 ∧
    m.find (ascii "y") = some 16 := by
  rcases plays_of_alone (getOperationMap_alone namesakes_hasOperations) with ⟨l, hplays, hl⟩
  rcases getOperationMap_plays namesakes [8, 16, 24] _ namesakes_hasOperations l _ hplays hl with
    ⟨m, hm, hfind⟩
  rw [hm] at hplays
  refine ⟨l, m, hplays, hl, ?_, ?_⟩
  · rw [hfind]
    rfl
  · rw [hfind]
    rfl

/-! ## Errors -/

section

variable {message sizeMessage : List UInt8}

/-- With a message every error throws. -/
theorem throwIfError_eq_ok {status : Status} {u : Unit} (hmessage : message ≠ [])
    (h : throwIfError status message = .ok u) : status = .success ∨ status = .warnGeneral := by
  unfold throwIfError at h
  by_cases hsucc : status = .success
  · exact Or.inl hsucc
  · by_cases hwarn : status = .warnGeneral
    · exact Or.inr hwarn
    · rw [if_neg hsucc, if_neg hwarn, if_pos hmessage] at h
      split at h
      · exact absurd h (by simp only [reduceCtorEq, not_false_eq_true])
      · exact absurd h (by simp only [reduceCtorEq, not_false_eq_true])

/-- A call reports its errors. -/
theorem askOrThrow_heeds (q : QueryCall) (hmessage : message ≠ []) :
    Heeds Smooth (askOrThrow q message) := by
  intro l reply h z hz
  cases h with
  | ask hrest =>
      rename_i y l'
      -- Behind the answer there is only the check of its status.
      have hcheck : Plays (Asking.ofExcept (throwIfError y.status message) >>=
          fun _ => (Asking.done y : FomacProgram Reply)) l' (.ok reply) := hrest
      rcases plays_bind hcheck with ⟨e, he, _⟩ | ⟨l₁, l₂, u, hl, hpassed, hreturn⟩
      · exact absurd he (by simp only [reduceCtorEq, not_false_eq_true])
      have hpass : throwIfError y.status message = .ok u ∧ l₁ = [] := by
        rcases hthrow : throwIfError y.status message with e | u'
        · rw [hthrow] at hpassed
          cases hpassed
        · rw [hthrow] at hpassed
          cases hpassed
          exact ⟨rfl, rfl⟩
      have hnone : l₂ = [] := by
        cases hreturn
        rfl
      rw [hl, hpass.2, hnone, List.append_nil, List.mem_singleton] at hz
      rw [hz]
      exact throwIfError_eq_ok hmessage hpass.1

theorem askSize_heeds (query : OutArgs → QueryCall) (hmessage : message ≠ []) :
    Heeds Smooth (askSize query message) :=
  heeds_bind (askOrThrow_heeds _ hmessage) (fun _ => heeds_done _)

theorem askValue_heeds (query : OutArgs → QueryCall) (size : Nat) (init : Buffer)
    (hmessage : message ≠ []) : Heeds Smooth (askValue query size init message) :=
  heeds_bind (askOrThrow_heeds _ hmessage) (fun _ => heeds_done _)

theorem askList_heeds (width : Nat) (query : OutArgs → QueryCall) (hsize : sizeMessage ≠ [])
    (hmessage : message ≠ []) : Heeds Smooth (askList width query sizeMessage message) := by
  refine heeds_bind (askSize_heeds query hsize) (fun size => ?_)
  dsimp only
  split
  · exact heeds_threw _
  · exact heeds_bind (askValue_heeds query _ _ hmessage) (fun _ => heeds_done _)

theorem askString_heeds (query : OutArgs → QueryCall) (hsize : sizeMessage ≠ [])
    (hmessage : message ≠ []) : Heeds Smooth (askString query sizeMessage message) := by
  refine heeds_bind (askSize_heeds query hsize) (fun size => ?_)
  dsimp only
  split
  · exact heeds_threw _
  · exact heeds_bind (askValue_heeds query _ _ hmessage) (fun _ => heeds_done _)

theorem getUsScaleFactor_heeds {K : Type} [Field K] [DoubleValue K] :
    Heeds Smooth (Fomac.getUsScaleFactor : FomacProgram K) := by
  refine heeds_bind (askSize_heeds _ (by decide)) (fun size => ?_)
  dsimp only
  split
  · exact heeds_threw _
  · refine heeds_bind (askValue_heeds _ _ _ (by decide)) (fun unit => ?_)
    refine heeds_bind (askValue_heeds _ _ _ (by decide)) (fun scale => ?_)
    rcases usScaleFactor _ (DoubleValue.ofBytes scale) with e | factor
    · exact heeds_threw e
    · exact heeds_done factor

theorem getSiteTime_heeds {K : Type} [Field K] [DoubleValue K] (prop : Nat)
    (hmessage : message ≠ []) (site : Nat) :
    Heeds Smooth (Fomac.getSiteTime prop message site : FomacProgram K) :=
  heeds_bind (askValue_heeds _ 8 _ hmessage) (fun _ =>
    heeds_bind getUsScaleFactor_heeds (fun _ => heeds_done _))

theorem getQubitsNum_heeds : Heeds Smooth Fomac.getQubitsNum :=
  heeds_bind (askValue_heeds _ 8 _ (by decide)) (fun _ => heeds_done _)

theorem getCouplingMap_heeds : Heeds Smooth Fomac.getCouplingMap := by
  refine heeds_bind (askSize_heeds _ (by decide)) (fun size => ?_)
  dsimp only
  split
  · exact heeds_threw _
  · split
    · exact heeds_threw _
    · exact heeds_bind (askValue_heeds _ _ _ (by decide)) (fun _ => heeds_done _)

theorem getSiteId_heeds (site : Nat) : Heeds Smooth (Fomac.getSiteId site) :=
  heeds_bind (askValue_heeds _ 8 _ (by decide)) (fun _ => heeds_done _)

theorem getOperationMap_heeds : Heeds Smooth Fomac.getOperationMap :=
  heeds_bind (askList_heeds 8 _ (by decide) (by decide)) (fun ops =>
    heeds_foldlM (fun _ _ => heeds_bind (askString_heeds _ (by decide) (by decide))
      (fun _ => heeds_done _)) ops OrderedMap.empty)

theorem compileProgram_heeds (text : List UInt8) : Heeds Smooth (compileProgram text) := by
  unfold compileProgram
  split
  · exact heeds_threw _
  · exact heeds_threw _
  · split
    · exact heeds_threw _
    · refine heeds_bind getQubitsNum_heeds (fun available => ?_)
      split
      · exact heeds_threw _
      · refine heeds_bind getCouplingMap_heeds (fun couplingMap => ?_)
        split
        · exact heeds_done _
        · exact heeds_bind (getSiteId_heeds _) (fun _ => heeds_bind (getSiteId_heeds _) (fun _ =>
            heeds_bind getQubitsNum_heeds (fun _ => heeds_done _)))

end

/-- The functions of the library and the tool, whatever a device answers: none
    returns when a call has reported an error. -/
theorem programs_heed {K : Type} [Field K] [DoubleValue K] :
    (Heeds Smooth Fomac.getQubitsNum ∧ Heeds Smooth Fomac.getOperationMap ∧
      Heeds Smooth Fomac.getCouplingMap ∧ Heeds Smooth Fomac.getSites ∧
      Heeds Smooth Fomac.getSupportedProgramFormats) ∧
    (∀ site, Heeds Smooth (Fomac.getSiteId site) ∧
      Heeds Smooth (Fomac.getSiteT1 site : FomacProgram K) ∧
      Heeds Smooth (Fomac.getSiteT2 site : FomacProgram K)) ∧
    (∀ op, Heeds Smooth (Fomac.getOperandsNum op) ∧ Heeds Smooth (Fomac.getParametersNum op)) ∧
    ∀ text, Heeds Smooth (compileProgram text) := by
  have hnum : ∀ prop message op, message ≠ [] →
      Heeds Smooth (Fomac.getOperationNum prop message op) := fun prop message op hmessage =>
    heeds_bind (askValue_heeds _ 8 _ hmessage) (fun _ => heeds_done _)
  refine ⟨⟨getQubitsNum_heeds, getOperationMap_heeds, getCouplingMap_heeds, ?_, ?_⟩,
    fun site => ⟨getSiteId_heeds site, ?_, ?_⟩, fun op => ⟨?_, ?_⟩, compileProgram_heeds⟩
  · exact askList_heeds 8 _ (by decide) (by decide)
  · exact askList_heeds 4 _ (by decide) (by decide)
  · exact getSiteTime_heeds _ (by decide) site
  · exact getSiteTime_heeds _ (by decide) site
  · exact hnum _ _ op (by decide)
  · exact hnum _ _ op (by decide)

end Qdmi
