import Qdmi.Theory.Programs

/-!
# The Two Models of the Library

The library and the tool are modelled twice. As functions of a `ClientDevice` they
are what a reader computes with, and as programs they are what runs between the
calls of others. Where a device answers alike the two say the same.

`ReturnsAlone` relates a program to a result in the exceptions of C++. It is
carried through the statements of a function one by one: both models bind the
same calls in the same order, so one rule for the bind does most of the work.

## Main definitions

* `clientDevice`: A device that answers alike, behind the client interface.
* `ReturnsAlone`: A program has the result of a function.
* `outcome`: The result of the tool, with what it throws.

## Theorems

* `returnsAlone_bind`: One statement behind another.
* `returnsAlone_askSize`, `returnsAlone_askValue`: Single calls.
* `getQubitsNum_returnsAlone`, `getCouplingMap_returnsAlone`, `getUsScaleFactor_returnsAlone`,
  `getSiteTime_returnsAlone`: The library.
* `compileProgram_returnsAlone`: The tool.
-/

namespace Qdmi

open Driver (QueryCall)

/-- A device that answers alike, behind the client interface. -/
def clientDevice (f : QueryCall → Reply) : ClientDevice where
  queryDeviceProperty prop out := f (.deviceProperty prop out)
  querySiteProperty site prop out := f (.siteProperty (pointerTo site) prop out)

/-- A program has the result of a function. -/
def ReturnsAlone {α : Type} (f : QueryCall → Reply) (p : FomacProgram α) (res : Except Thrown α) :
    Prop :=
  p.alone (fun q => some (f q)) = some res

/-- The result of the tool, with what it throws. -/
def outcome : Except Thrown Compiled → Compiled
  | .ok result => result
  | .error exception => .threw exception

section

variable {f : QueryCall → Reply} {α β : Type}

theorem returnsAlone_done (a : α) : ReturnsAlone f (.done a) (.ok a) := rfl

theorem returnsAlone_threw (e : Thrown) : ReturnsAlone f (.threw e : FomacProgram α) (.error e) :=
  rfl

theorem returnsAlone_ofExcept (res : Except Thrown α) :
    ReturnsAlone f (Asking.ofExcept res) res := by
  rcases res with e | a
  · rfl
  · rfl

/-- One statement behind another. -/
theorem returnsAlone_bind {p : FomacProgram α} {res : Except Thrown α}
    {next : α → FomacProgram β} {rest : α → Except Thrown β} (h : ReturnsAlone f p res)
    (hnext : ∀ a, ReturnsAlone f (next a) (rest a)) :
    ReturnsAlone f (p >>= next) (res >>= rest) := by
  unfold ReturnsAlone at *
  rcases res with e | a
  · exact alone_bind_threw h next
  · rw [alone_bind h]
    exact hnext a

/-! ## Single calls -/

theorem returnsAlone_askOrThrow (q : QueryCall) (message : List UInt8) :
    ReturnsAlone f (askOrThrow q message)
      (throwIfError (f q).status message >>= fun _ => .ok (f q)) := by
  have hask : ReturnsAlone f (Asking.question q) (.ok (f q)) := rfl
  exact returnsAlone_bind hask (fun reply => returnsAlone_bind (returnsAlone_ofExcept _)
    (fun _ => returnsAlone_done reply))

theorem returnsAlone_askSize (prop : Nat) (message : List UInt8) :
    ReturnsAlone f (askSize (.deviceProperty prop) message)
      (queryDeviceSize (clientDevice f) prop message) := by
  have h := returnsAlone_bind (returnsAlone_askOrThrow (f := f)
    (.deviceProperty prop { size := 0, value := none, sizeRet := true }) message)
    (fun reply => returnsAlone_done (reply.sizeRet.getD 0))
  unfold queryDeviceSize
  rw [bind_assoc] at h
  exact h

theorem returnsAlone_askValue (query : OutArgs → QueryCall) (size : Nat) (init : Buffer)
    (message : List UInt8) : ReturnsAlone f (askValue query size init message)
      (let value := if init = [] then none else some init
       let reply := f (query { size := size, value := value, sizeRet := false })
       throwIfError reply.status message >>= fun _ => .ok (reply.value.getD init)) := by
  have h := returnsAlone_bind (returnsAlone_askOrThrow (f := f)
    (query { size := size, value := if init = [] then none else some init, sizeRet := false })
    message) (fun reply => returnsAlone_done (reply.value.getD init))
  rw [bind_assoc] at h
  exact h

/-- A value that is read into a buffer which is not empty. -/
theorem returnsAlone_deviceValue (prop : Nat) {init : Buffer} (hinit : init ≠ [])
    (message : List UInt8) :
    ReturnsAlone f (askValue (.deviceProperty prop) init.length init message)
      (queryDeviceValue (clientDevice f) prop init message) := by
  have h := returnsAlone_askValue (f := f) (.deviceProperty prop) init.length init message
  rw [if_neg hinit] at h
  exact h

theorem returnsAlone_siteValue (site prop : Nat) (message : List UInt8) :
    ReturnsAlone f (askValue (siteQuery site prop) 8 (sizeTBytes 0) message)
      (let reply := (clientDevice f).querySiteProperty site prop
        { size := 8, value := some (sizeTBytes 0), sizeRet := false }
       throwIfError reply.status message >>= fun _ => .ok (reply.value.getD (sizeTBytes 0))) :=
  returnsAlone_askValue (siteQuery site prop) 8 (sizeTBytes 0) message

/-- A buffer with room for a terminator. -/
theorem buffer_ne_nil (length : Nat) : List.replicate (length + 1) (0 : UInt8) ≠ [] :=
  List.cons_ne_nil 0 (List.replicate length 0)

/-! ## The library -/

theorem getQubitsNum_returnsAlone :
    ReturnsAlone f Fomac.getQubitsNum (getQubitsNum (clientDevice f)) :=
  returnsAlone_bind (returnsAlone_deviceValue (f := f) DeviceProperty.qubitsnum.code
    (show sizeTBytes 0 ≠ [] by decide) _) (fun buf => returnsAlone_done (leNat buf))

theorem getSiteId_returnsAlone (site : Nat) :
    ReturnsAlone f (Fomac.getSiteId site) (getSiteId (clientDevice f) site) := by
  have h := returnsAlone_bind (returnsAlone_siteValue (f := f) site SiteProperty.index.code
    (ascii "Failed to query the site ID")) (fun buf => returnsAlone_done (leNat buf))
  unfold getSiteId
  rw [bind_assoc] at h
  exact h

/-- The vector of the pairs. Its data pointer is null where there are none. -/
theorem getCouplingMap_returnsAlone :
    ReturnsAlone f Fomac.getCouplingMap (getCouplingMap (clientDevice f)) := by
  unfold Fomac.getCouplingMap getCouplingMap
  refine returnsAlone_bind (returnsAlone_askSize _ _) (fun size => ?_)
  dsimp only
  split
  · exact returnsAlone_threw _
  · split
    · exact returnsAlone_threw _
    · have hempty : ∀ pairs, (List.replicate (16 * pairs) (0 : UInt8) = []) ↔ pairs = 0 := by
        intro pairs
        rw [List.replicate_eq_nil_iff]
        omega
      have h := returnsAlone_bind (returnsAlone_askValue (f := f)
        (.deviceProperty DeviceProperty.couplingmap.code) size
        (List.replicate (16 * (size / 8 / 2)) 0) (ascii "Failed to query the coupling map."))
        (fun buf => returnsAlone_done ((List.range (size / 8 / 2)).map (sitePair buf)))
      rw [bind_assoc] at h
      simp only [hempty] at h
      exact h

section

variable {K : Type} [Field K] [DoubleValue K]

theorem getUsScaleFactor_returnsAlone :
    ReturnsAlone f (Fomac.getUsScaleFactor : FomacProgram K)
      (getUsScaleFactor (clientDevice f)) := by
  unfold Fomac.getUsScaleFactor getUsScaleFactor
  refine returnsAlone_bind (returnsAlone_askSize _ _) (fun size => ?_)
  dsimp only
  split
  · exact returnsAlone_threw _
  · refine returnsAlone_bind ?_ (fun unit => returnsAlone_bind
      (returnsAlone_deviceValue (f := f) _ (buffer_ne_nil 7) _)
      (fun scale => returnsAlone_ofExcept _))
    have h := returnsAlone_deviceValue (f := f) DeviceProperty.durationunit.code
      (buffer_ne_nil ((size + sizeTMod - 1) % sizeTMod))
      (ascii "Failed to retrieve the device's duration unit.")
    rw [List.length_replicate] at h
    exact h

theorem getSiteTime_returnsAlone (prop : Nat) (message : List UInt8) (site : Nat) :
    ReturnsAlone f (Fomac.getSiteTime prop message site : FomacProgram K)
      (getSiteTime prop message (clientDevice f) site) := by
  have h := returnsAlone_bind (returnsAlone_siteValue (f := f) site prop message)
    (fun buf => returnsAlone_bind (getUsScaleFactor_returnsAlone (K := K))
      (fun factor => returnsAlone_done ((leNat buf : K) * factor)))
  unfold getSiteTime
  rw [bind_assoc] at h
  exact h

end

/-! ## The tool -/

/-- One statement of the tool behind another. -/
theorem outcome_bind {p : FomacProgram α} {res : Except Thrown α}
    {next : α → FomacProgram Compiled} {rest : α → Compiled} (h : ReturnsAlone f p res)
    (hnext : ∀ a, ∃ res', ReturnsAlone f (next a) res' ∧ rest a = outcome res') :
    ∃ res', ReturnsAlone f (p >>= next) res' ∧ orThrow res rest = outcome res' := by
  rcases res with e | a
  · exact ⟨.error e, alone_bind_threw h next, rfl⟩
  · rcases hnext a with ⟨res', hres', heq⟩
    refine ⟨res', ?_, heq⟩
    unfold ReturnsAlone at *
    rw [alone_bind h]
    exact hres'

theorem compileProgram_returnsAlone (text : List UInt8) :
    ∃ res, ReturnsAlone f (compileProgram text) res ∧
      compile (clientDevice f) text = outcome res := by
  unfold compileProgram compile
  rcases registerSizes text with _ | ⟨numQubits, _ | ⟨second, sizes⟩⟩
  · exact ⟨_, returnsAlone_threw _, rfl⟩
  · dsimp only
    by_cases hmany : 2 < numQubits
    · rw [if_pos hmany, if_pos hmany]
      exact ⟨_, returnsAlone_threw _, rfl⟩
    rw [if_neg hmany, if_neg hmany]
    refine outcome_bind getQubitsNum_returnsAlone (fun available => ?_)
    by_cases hfew : available < numQubits
    · rw [if_pos hfew, if_pos hfew]
      exact ⟨_, returnsAlone_threw _, rfl⟩
    rw [if_neg hfew, if_neg hfew]
    refine outcome_bind getCouplingMap_returnsAlone (fun couplingMap => ?_)
    rcases couplingMap with _ | ⟨edge, rest⟩
    · exact ⟨_, returnsAlone_done _, rfl⟩
    · exact outcome_bind (getSiteId_returnsAlone _) (fun id0 =>
        outcome_bind (getSiteId_returnsAlone _) (fun id1 =>
          outcome_bind getQubitsNum_returnsAlone (fun available =>
            ⟨_, returnsAlone_done _, rfl⟩)))
  · exact ⟨_, returnsAlone_threw _, rfl⟩

end

end Qdmi
