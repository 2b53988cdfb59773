import Qdmi.Theory.Levels
import Qdmi.Theory.Stack.Clients
import Qdmi.Theory.Stack.Handles

/-!
# The Library on Top of the Stack

The whole tower: a client uses the library of `example_fomac.cpp`, which calls the
driver, which calls the library of the example device.

The functions of the library are client programs, so by `stackRuns_client` what
they return is decided by the tables of the device, and these have what the
library asks for: the lists of sites, operations and formats, the coupling map,
and the properties of each site and operation. The result is the same through
whichever session a client asks and whatever happens between its calls.

The image has to be one that a linker makes: objects have different addresses,
which are words and not null.

## Main definitions

* `Placed`: The objects of an image have addresses.
* `couplingPairs`: The pairs of sites that are connected.
* `LibraryEnds`: What the functions of the library return.

## Theorems

* `tables_list`, `tables_couplingMap`, `tables_formats`: The lists of the tables.
* `tables_site`, `tables_operation`: The properties of a site and an operation.
* `stackRuns_library`: The library on top of the stack.
-/

namespace Qdmi

namespace Driver

variable {R : Type}

/-- The objects of an image have addresses. -/
structure Placed (img : Image) : Prop where
  addressable : Addressable img
  operations_nonzero : ∀ op, img.operationAddr op ≠ 0
  operations_distinct : ∀ op op', img.operationAddr op = img.operationAddr op' → op = op'
  sites_nonzero : ∀ i ∈ deviceSites, img.siteAddr i ≠ 0
  sites_distinct : ∀ i ∈ deviceSites, ∀ j ∈ deviceSites, img.siteAddr i = img.siteAddr j → i = j

/-- The pairs of sites that are connected, by index. -/
def couplingPairs : List (Nat × Nat) :=
  [(0, 1), (1, 0), (1, 2), (2, 1), (2, 3), (3, 2), (3, 4), (4, 3), (4, 0), (0, 4)]

/-- The pairs of handles of connected sites. -/
def coupledHandles (img : Image) : List (Nat × Nat) :=
  couplingPairs.map (fun p => (img.siteAddr p.1, img.siteAddr p.2))

/-- What the functions of the library return for a device of an image. -/
structure LibraryEnds (R K : Type) [Zero R] [DecidableEq R] [Add R] [Mul R] [Div R] [DoubleRepr R]
    [Field K] [DoubleValue K] (addr : DeviceHandle → Nat) (img : Nat × List UInt8 → Image)
    (t : Stack R) (dev : DeviceHandle) (key : Nat × List UInt8) : Prop where
  qubitsNum : EndsWith addr img t dev Fomac.getQubitsNum (.ok 5)
  operationMap : ∃ m, EndsWith addr img t dev Fomac.getOperationMap (.ok m) ∧
    m.entries = [(ascii "cx", (img key).operationAddr .cx),
      (ascii "rx", (img key).operationAddr .rx), (ascii "ry", (img key).operationAddr .ry),
      (ascii "rz", (img key).operationAddr .rz)]
  couplingMap : EndsWith addr img t dev Fomac.getCouplingMap (.ok (coupledHandles (img key)))
  sites : EndsWith addr img t dev Fomac.getSites (.ok (deviceSites.map (img key).siteAddr))
  siteId : ∀ i ∈ deviceSites,
    EndsWith addr img t dev (Fomac.getSiteId ((img key).siteAddr i)) (.ok i)
  t1 : ∀ i ∈ deviceSites,
    EndsWith addr img t dev (Fomac.getSiteT1 ((img key).siteAddr i) : FomacProgram K)
      (.ok ((1000000 : Nat) * DoubleValue.ofBytes (doubleBytes 1 1000)))
  t2 : ∀ i ∈ deviceSites,
    EndsWith addr img t dev (Fomac.getSiteT2 ((img key).siteAddr i) : FomacProgram K)
      (.ok ((100000000 : Nat) * DoubleValue.ofBytes (doubleBytes 1 1000)))
  operandsNum : ∀ op, EndsWith addr img t dev
    (Fomac.getOperandsNum ((img key).operationAddr op)) (.ok (if op = .cx then 2 else 1))
  parametersNum : ∀ op, EndsWith addr img t dev
    (Fomac.getParametersNum ((img key).operationAddr op)) (.ok (if op = .cx then 0 else 1))
  formats : EndsWith addr img t dev Fomac.getSupportedProgramFormats (.ok supportedProgramFormats)

section

variable {img : Image}

/-! ## What the tables have -/

theorem operationAt_operationAddr (himg : Placed img) (op : Operation) :
    operationAt img (img.operationAddr op) = some op := by
  have hfound : ∃ op', operationAt img (img.operationAddr op) = some op' :=
    operationAt_of_listed (List.mem_map_of_mem (by cases op <;> decide))
  rcases hfound with ⟨op', hop'⟩
  have hfind : deviceOperations.find? (fun o => img.operationAddr o == img.operationAddr op) =
      some op' := hop'
  have hsame := List.find?_some hfind
  rw [beq_iff_eq] at hsame
  rw [hop', himg.operations_distinct op' op hsame]

theorem siteAt_siteAddr (himg : Placed img) {i : Nat} (hi : i ∈ deviceSites) :
    siteAt img (img.siteAddr i) = some i := by
  rcases siteAt_of_listed (Or.inl (List.mem_map_of_mem (f := img.siteAddr) hi)) with ⟨j, hj⟩
  have hfind : deviceSites.find? (fun k => img.siteAddr k == img.siteAddr i) = some j := hj
  have hsame := List.find?_some hfind
  rw [beq_iff_eq] at hsame
  rw [hj, himg.sites_distinct j (List.mem_of_find?_eq_some hfind) i hi hsame]

/-- The tables have a list of handles. -/
theorem tables_list {prop : DeviceProperty} {handles : List Nat}
    (hlist : handleList img prop = some handles) :
    HasValue (tables img) (.deviceProperty prop.code) (handles.flatMap (leBytes 8)) := by
  have hask : ∀ out, (QueryCall.deviceProperty prop.code out).askable = true := by
    intro out
    cases prop with
    | sites | couplingmap | operations => rfl
    | _ => exact absurd hlist (by simp only [handleList, reduceCtorEq, not_false_eq_true])
  have hbody : Answers (fun out => respond out (handles.flatMap (leBytes 8)).length
      (fun cur => cur.puts (handles.flatMap (leBytes 8)))) (handles.flatMap (leBytes 8)) :=
    respond_puts_answers rfl (fun _ _ => rfl)
  refine hasValue_of_answers (guarded_answers hbody rfl) (fun out => ?_)
  unfold tables
  rw [if_pos (hask out), tableAnswer_list hlist out]
  rfl

/-- The tables have the coupling map, as a list of pairs. -/
theorem tables_couplingMap : HasValue (tables img)
    (.deviceProperty DeviceProperty.couplingmap.code)
    ((coupledHandles img).flatMap pairBytes) := by
  have hpairs : (deviceCouplingMap.map img.siteAddr).flatMap (leBytes 8) =
      (coupledHandles img).flatMap pairBytes := by
    simp only [deviceCouplingMap, coupledHandles, couplingPairs, List.map_cons, List.map_nil,
      List.flatMap_cons, List.flatMap_nil, pairBytes, List.append_assoc]
  rw [← hpairs]
  exact tables_list (show handleList img .couplingmap = some _ from rfl)

/-- The tables have a property of the device that is one value. -/
theorem tables_value {prop : Nat} {bytes : List UInt8} (rest : OutArgs → Except Fault Reply)
    (h : ∀ out, tables img (.deviceProperty prop out) =
      (if (out.degenerate || false) = true then .ok (out.reject .errorInvalidargument)
        else addSingleValueProperty prop bytes prop out (rest out)).toOption) :
    HasValue (tables img) (.deviceProperty prop) bytes :=
  hasValue_of_answers (guarded_answers (addSingleValueProperty_answers prop bytes rest) rfl) h

/-- The tables have the formats. -/
theorem tables_formats : HasValue (tables img)
    (.deviceProperty DeviceProperty.supportedprogramformats.code)
    (supportedProgramFormats.flatMap (leBytes 4)) := by
  have hbody := addListProperty_answers DeviceProperty.supportedprogramformats.code
    (supportedProgramFormats.map enumBytes) (fun out => .ok (out.reject .errorNotsupported))
  exact hasValue_of_answers (guarded_answers hbody rfl) (fun _ => rfl)

/-- A query of an operation is answered by its branch of the device. -/
theorem tables_operation (himg : Placed img) (op : Operation) (prop : Nat) (out : OutArgs) :
    tables img (operationQuery (img.operationAddr op) prop out) =
      (deviceSessionQueryOperationProperty img (some 0) (some op)
        { numSites := 0, sites := none, numParams := 0, params := false } prop out).toOption := by
  have hpointer : pointerTo (img.operationAddr op) = some (img.operationAddr op) :=
    if_neg (himg.operations_nonzero op)
  unfold tables
  rw [if_pos (show (operationQuery (img.operationAddr op) prop out).askable = true from rfl),
    operationQuery, hpointer]
  simp only [tableAnswer, operationAt_operationAddr himg op, Option.map_none]

/-- The tables have the name of an operation. -/
theorem tables_name (himg : Placed img) (op : Operation) :
    HasValue (tables img) (operationQuery (img.operationAddr op) OperationProperty.name.code)
      ((operationProperties op).1.chars ++ [0]) :=
  hasValue_of_answers (guarded_answers (addStringProperty_answers OperationProperty.name.code _ _)
    rfl) (tables_operation himg op _)

/-- The tables have a number of an operation. -/
theorem tables_operationNum (himg : Placed img) (op : Operation) {prop n : Nat}
    (h : ∀ out, deviceSessionQueryOperationProperty img (some 0) (some op)
        { numSites := 0, sites := none, numParams := 0, params := false } prop out =
      if (out.degenerate || false) = true then .ok (out.reject .errorInvalidargument)
      else addSingleValueProperty prop (sizeTBytes n) prop out
        (.ok (out.reject .errorNotsupported))) :
    HasValue (tables img) (operationQuery (img.operationAddr op) prop) (sizeTBytes n) := by
  have hbody := addSingleValueProperty_answers prop (sizeTBytes n)
    (fun out => .ok (out.reject .errorNotsupported))
  refine hasValue_of_answers (guarded_answers hbody rfl) (fun out => ?_)
  rw [tables_operation himg op, h]

/-- A query of a site is answered by the site query of the device. -/
theorem tables_site (himg : Placed img) {i : Nat} (hi : i ∈ deviceSites) (prop : Nat)
    (out : OutArgs) : tables img (siteQuery (img.siteAddr i) prop out) =
      (deviceSessionQuerySiteProperty (some 0) (some i) prop out).toOption := by
  have hpointer : pointerTo (img.siteAddr i) = some (img.siteAddr i) :=
    if_neg (himg.sites_nonzero i hi)
  unfold tables
  rw [if_pos (show (siteQuery (img.siteAddr i) prop out).askable = true from rfl), siteQuery,
    hpointer]
  simp only [tableAnswer, siteAt_siteAddr himg hi]

/-- The tables have a number of a site. -/
theorem tables_siteNum (himg : Placed img) {i : Nat} (hi : i ∈ deviceSites) {prop n : Nat}
    (h : ∀ out, deviceSessionQuerySiteProperty (some 0) (some i) prop out =
      if (out.degenerate || false) = true then .ok (out.reject .errorInvalidargument)
      else addSingleValueProperty prop (sizeTBytes n) prop out
        (.ok (out.reject .errorNotsupported))) :
    HasValue (tables img) (siteQuery (img.siteAddr i) prop) (sizeTBytes n) := by
  have hbody := addSingleValueProperty_answers prop (sizeTBytes n)
    (fun out => .ok (out.reject .errorNotsupported))
  refine hasValue_of_answers (guarded_answers hbody rfl) (fun out => ?_)
  rw [tables_site himg hi, h]

/-- The tables have the operations with their names. -/
theorem tables_hasOperations (himg : Placed img) :
    HasOperations (tables img) (deviceOperations.map img.operationAddr)
      (fun a => ((operationAt img a).map (fun op => (operationProperties op).1.chars)).getD [])
      where
  list := tables_list rfl
  bound := by
    intro a ha
    rcases List.mem_map.mp ha with ⟨op, _, rfl⟩
    have hbig : sizeTMod = 256 ^ 8 := by norm_num [sizeTMod]
    rw [← hbig]
    exact himg.addressable.2 op
  length := by
    rw [List.length_map]
    decide
  names := by
    intro a ha
    rcases List.mem_map.mp ha with ⟨op, _, rfl⟩
    rw [operationAt_operationAddr himg]
    exact tables_name himg op
  nameLength := by
    intro a ha
    rcases List.mem_map.mp ha with ⟨op, _, rfl⟩
    rw [operationAt_operationAddr himg]
    cases op with
    | cx | rx | ry | rz => decide

/-! ## The library -/

/-- The end of `get_operation_map` with the tables. The order of the entries is
    that of the names. -/
theorem operationMap_tables (himg : Placed img) : ∃ m, Fomac.getOperationMap.alone (tables img) =
    some (.ok m) ∧ m.entries = [(ascii "cx", img.operationAddr .cx),
      (ascii "rx", img.operationAddr .rx), (ascii "ry", img.operationAddr .ry),
      (ascii "rz", img.operationAddr .rz)] := by
  refine ⟨_, getOperationMap_alone (tables_hasOperations himg), ?_⟩
  simp only [deviceOperations, List.map_cons, List.map_nil, operationAt_operationAddr himg,
    Option.map_some, Option.getD_some]
  rfl

theorem siteId_tables (himg : Placed img) {i : Nat} (hi : i ∈ deviceSites) :
    (Fomac.getSiteId (img.siteAddr i)).alone (tables img) = some (.ok i) := by
  refine getSiteId_alone (tables_siteNum himg hi (fun _ => rfl)) ?_
  have hsmall : ∀ j ∈ deviceSites, j < sizeTMod := by decide
  exact hsmall i hi

theorem qubitsNum_tables : Fomac.getQubitsNum.alone (tables img) = some (.ok 5) :=
  getQubitsNum_alone (tables_value (fun out => .ok (out.reject .errorNotsupported))
    (fun _ => rfl)) (by decide)

theorem couplingMap_tables (himg : Placed img) :
    Fomac.getCouplingMap.alone (tables img) = some (.ok (coupledHandles img)) := by
  refine getCouplingMap_alone tables_couplingMap (fun p hp => ?_) (by
    rw [coupledHandles, List.length_map]
    decide)
  rcases List.mem_map.mp hp with ⟨q, hq, rfl⟩
  have hsites : ∀ q ∈ couplingPairs, q.1 ∈ deviceSites ∧ q.2 ∈ deviceSites := by decide
  exact ⟨himg.addressable.1 _ (hsites q hq).1, himg.addressable.1 _ (hsites q hq).2⟩

theorem usScaleFactor_tables {K : Type} [Field K] [DoubleValue K] :
    (Fomac.getUsScaleFactor : FomacProgram K).alone (tables img) =
      some (.ok (DoubleValue.ofBytes (doubleBytes 1 1000))) := by
  have hunit := addStringProperty_answers DeviceProperty.durationunit.code (literal "us")
    (fun out => .ok (out.reject .errorNotsupported))
  exact getUsScaleFactor_alone (hasValue_of_answers (guarded_answers hunit rfl) (fun _ => rfl))
    (tables_value (fun out => .ok (out.reject .errorNotsupported)) (fun _ => rfl))
    (length_leBytes 8 _)

variable [Zero R] [DecidableEq R] [Add R] [Mul R] [Div R] [DoubleRepr R]
variable {K : Type} [Field K] [DoubleValue K]

/-- Behind every run of clients that free jobs before their session, the functions
    of the library return what the device of the image has, whatever happens
    between their calls. -/
theorem stackRuns_library (addr : DeviceHandle → Nat) (img : Nat × List UInt8 → Image)
    (tr : List (StackEntry R)) (t : Stack R) (hrun : StackRuns addr img tr t)
    (hrule : Respects FreesJobs tr) (dev : DeviceHandle) (sess : Session) (d : Device)
    (hdev : deviceAt t.driver dev = some (sess, d)) (himg : Placed (img d.library.key)) :
    LibraryEnds R K addr img t dev d.library.key := by
  have hends : ∀ {α : Type} (prog : FomacProgram α) (res : Except Thrown α),
      prog.alone (tables (img d.library.key)) = some res → EndsWith addr img t dev prog res :=
    fun _ _ h => (endsWith_iff_alone (stackRuns_inv hrun hrule) hdev).mpr h
  have hbig : sizeTMod = 256 ^ 8 := by norm_num [sizeTMod]
  refine ⟨hends _ _ qubitsNum_tables, ?_, hends _ _ (couplingMap_tables himg), hends _ _ ?_,
    fun i hi => hends _ _ (siteId_tables himg hi), fun i hi => hends _ _ ?_,
    fun i hi => hends _ _ ?_, fun op => hends _ _ ?_, fun op => hends _ _ ?_, hends _ _ ?_⟩
  · rcases operationMap_tables himg with ⟨m, hm, hentries⟩
    exact ⟨m, hends _ _ hm, hentries⟩
  · refine askList_alone (by decide) (tables_list rfl) (fun a ha => ?_) (by
      rw [List.length_map]
      decide)
    rcases List.mem_map.mp ha with ⟨i, hi, rfl⟩
    rw [← hbig]
    exact himg.addressable.1 i hi
  · exact getSiteTime_alone (tables_siteNum himg hi (fun _ => rfl)) (by decide) usScaleFactor_tables
  · exact getSiteTime_alone (tables_siteNum himg hi (fun _ => rfl)) (by decide) usScaleFactor_tables
  · refine getOperationNum_alone (tables_operationNum himg op (fun out => ?_)) ?_
    · cases op with
      | cx | rx | ry | rz => rfl
    · cases op with
      | cx | rx | ry | rz => decide
  · refine getOperationNum_alone (tables_operationNum himg op (fun out => ?_)) ?_
    · cases op with
      | cx | rx | ry | rz => rfl
    · cases op with
      | cx | rx | ry | rz => decide
  · exact askList_alone (by decide) tables_formats (by decide) (by decide)

end

theorem placed_sampleImage : Placed sampleImage where
  addressable := ⟨by decide, fun op => by cases op <;> decide⟩
  operations_nonzero op := by cases op <;> decide
  operations_distinct op op' := by cases op <;> cases op' <;> decide
  sites_nonzero := by decide
  sites_distinct := by decide

/-- A client asks while a job runs. -/
theorem stackRuns_library_sample :
    ∃ tr t, StackRuns (R := ℚ) (fun _ => 0) (fun _ => sampleImage) tr t ∧
      LibraryEnds ℚ ℚ (fun _ => 0) (fun _ => sampleImage) t { session := 0, index := 1 }
        (0, [65]) := by
  rcases stackRuns_evaluated submitOps (fun p =>
    (deviceAt p.2.driver { session := 0, index := 1 }).map (fun x => x.2.library.key)) (0, [65])
    rfl with ⟨tr, t, hrun, hrule, hv⟩
  rcases Option.map_eq_some_iff.mp hv with ⟨⟨sess, d⟩, hdev, hkey⟩
  refine ⟨tr, t, hrun, ?_⟩
  rw [← hkey]
  exact stackRuns_library (fun _ => 0) (fun _ => sampleImage) tr t hrun hrule
    { session := 0, index := 1 } sess d hdev placed_sampleImage

end Driver

end Qdmi
