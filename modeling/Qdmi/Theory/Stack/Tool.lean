import Qdmi.Theory.Stack.Library
import Qdmi.Theory.Tool.Rewrite

/-!
# The Tool on Top of the Stack

What `compile` returns when it runs against the example device through the driver,
while other clients use the driver too.

The tool takes the first edge of the coupling map. In the example device it leads
from site 0 to site 1, so both indices stay what they are: the tool changes the
size of the register, and an index `aux` that the text uses itself becomes a zero
(`rewritten_firstEdge`). For every text the end of the tool is known (`mapped`).

The functions of a `ClientDevice` in the other modules are not a simplification:
for a device that is open in a run, what the programs come to is what these
functions return for its tables (`stackRuns_functions`).

## Main definitions

* `mapped`: What the tool comes to for a text.
* `tableDevice`: The device of the functional model.
* `FunctionsHold`: The functional model of a device in a run.

## Theorems

* `rewritten_firstEdge`: Mapping to the first edge.
* `stackRuns_tool`: The tool on top of the stack.
* `stackRuns_functions`: The functional model of a device in a run.
-/

namespace Qdmi

open Qasm (indexRule)

/-- What the tool comes to for a text, with a device of five sites whose first edge
    leads from site 0 to site 1. -/
def mapped (text : List UInt8) : Except Thrown Compiled :=
  match registerSizes text with
  | [] => .error (.invalidArgument (ascii "The circuit does not declare any qubits."))
  | _ :: _ :: _ =>
    .error (.invalidArgument (ascii "The circuit declares more than one qubit register."))
  | [numQubits] =>
    if 2 < numQubits then
      .error (.invalidArgument (ascii ("The circuit uses more than two qubits but " ++
        "this tool only supports up to two qubits.")))
    else
      .ok (.returned (substitute [(indexedQ (ascii "aux"), indexedQ (ascii "0"))]
        (declared text numQubits 5)))

/-- Behind a `q` the sites 0 and 1 leave an index as it is. -/
theorem edit_firstEdge (y : List UInt8) :
    edit ((sites 0 1).map (fun entry => (bracketed entry.1, bracketed entry.2))) y =
      edit [(bracketed (ascii "aux"), bracketed (ascii "0"))] y := by
  have hzero : decimal 0 = ascii "0" := by decide
  have hone : decimal 1 = ascii "1" := by decide
  have haux : ∀ k s, 93 ∉ k → k ≠ ascii "aux" →
      ¬ bracketed (ascii "aux") <+: bracketed k ++ s :=
    fun k s hk hne h => hne (bracketed_inj (by decide) hk h).symm
  rw [sites, List.map_cons, List.map_cons, List.map_cons, List.map_nil, hzero, hone]
  by_cases h0 : bracketed (ascii "0") <+: y
  · rcases h0 with ⟨s, rfl⟩
    rw [edit_head, edit_tail (haux _ s (by decide) (by decide)), edit_nil]
  · rw [edit_tail h0]
    by_cases h1 : bracketed (ascii "1") <+: y
    · rcases h1 with ⟨s, rfl⟩
      rw [edit_head, edit_tail (haux _ s (by decide) (by decide)), edit_nil]
    · rw [edit_tail h1]

/-- Mapping to the sites 0 and 1 changes the size of the register, and an index
    that the text has set aside itself. -/
theorem rewritten_firstEdge (text : List UInt8) (numQubits available : Nat) :
    rewritten text numQubits available 0 1 =
      substitute [(indexedQ (ascii "aux"), indexedQ (ascii "0"))]
        (declared text numQubits available) := by
  rcases exists_marked (113 : UInt8) (declared text numQubits available) with ⟨x, ys, hd, hx, hall⟩
  have hrules : (sites 0 1).map (indexRule 113) =
      ((sites 0 1).map (fun entry => (bracketed entry.1, bracketed entry.2))).map
        (atMarker 113) := rfl
  rw [rewritten_eq, hd, hrules, substitute_marked not_mem_sites hx hall,
    substitute_indexedQ (by decide) hx hall]
  exact congrArg (marked 113 x) (List.map_congr_left (fun y _ => edit_firstEdge y))

namespace Driver

variable {R : Type}

section

variable {img : Image}

/-- The end of the tool with the tables. -/
theorem compileProgram_tables (himg : Placed img) (text : List UInt8) :
    (compileProgram text).alone (tables img) = some (mapped text) := by
  unfold compileProgram mapped
  rcases registerSizes text with _ | ⟨numQubits, _ | ⟨second, sizes⟩⟩
  · rfl
  · dsimp only
    by_cases hmany : 2 < numQubits
    · rw [if_pos hmany, if_pos hmany]
      rfl
    · -- The device has five qubits, and an edge.
      rw [if_neg hmany, if_neg hmany, alone_bind qubitsNum_tables, if_neg (by omega),
        alone_bind (couplingMap_tables himg)]
      have hedge : coupledHandles img = (img.siteAddr 0, img.siteAddr 1) ::
          couplingPairs.tail.map (fun p => (img.siteAddr p.1, img.siteAddr p.2)) := rfl
      rw [hedge]
      dsimp only
      rw [alone_bind (siteId_tables himg (by decide)), alone_bind (siteId_tables himg (by decide)),
        alone_bind qubitsNum_tables, rewrite_eq, rewritten_firstEdge]
      rfl
  · rfl

end

/-- The device of the functional model. What the tables do not answer is not
    supported. -/
def tableDevice (img : Image) : ClientDevice :=
  clientDevice (fun q => (tables img q).getD { status := .errorNotsupported })

/-- The functional model of a device in a run: what the programs come to is what
    the functions return. -/
structure FunctionsHold (R K : Type) [Zero R] [DecidableEq R] [Add R] [Mul R] [Div R]
    [DoubleRepr R] [Field K] [DoubleValue K] (addr : DeviceHandle → Nat)
    (img : Nat × List UInt8 → Image) (t : Stack R) (dev : DeviceHandle) (device : ClientDevice) :
    Prop where
  qubitsNum : ∀ res, EndsWith addr img t dev Fomac.getQubitsNum res → getQubitsNum device = res
  couplingMap : ∀ res, EndsWith addr img t dev Fomac.getCouplingMap res →
    getCouplingMap device = res
  siteId : ∀ site res, EndsWith addr img t dev (Fomac.getSiteId site) res →
    getSiteId device site = res
  usScaleFactor : ∀ res, EndsWith addr img t dev (Fomac.getUsScaleFactor : FomacProgram K) res →
    getUsScaleFactor device = res
  t1 : ∀ site res, EndsWith addr img t dev (Fomac.getSiteT1 site : FomacProgram K) res →
    getSiteT1 device site = res
  t2 : ∀ site res, EndsWith addr img t dev (Fomac.getSiteT2 site : FomacProgram K) res →
    getSiteT2 device site = res
  compiles : ∀ text res, EndsWith addr img t dev (compileProgram text) res →
    compile device text = outcome res

variable [Zero R] [DecidableEq R] [Add R] [Mul R] [Div R] [DoubleRepr R]
variable {K : Type} [Field K] [DoubleValue K]

/-- A program that ends as a function does with the tables. -/
theorem returnsAlone_of_alone {img : Image} {α : Type} {p : FomacProgram α} {res : Except Thrown α}
    (h : p.alone (tables img) = some res) :
    ReturnsAlone (fun q => (tables img q).getD { status := .errorNotsupported }) p res := by
  refine alone_mono (fun q reply hreply => ?_) h
  dsimp only
  rw [hreply, Option.getD_some]

theorem returnsAlone_unique {f : Driver.QueryCall → Reply} {α : Type} {p : FomacProgram α}
    {res res' : Except Thrown α} (h : ReturnsAlone f p res) (h' : ReturnsAlone f p res') :
    res = res' :=
  Option.some.inj (h.symm.trans h')

/-- Behind every run of clients that free jobs before their session, the tool comes
    to the same end for a text, whatever happens between its calls. -/
theorem stackRuns_tool (addr : DeviceHandle → Nat) (img : Nat × List UInt8 → Image)
    (tr : List (StackEntry R)) (t : Stack R) (hrun : StackRuns addr img tr t)
    (hrule : Respects FreesJobs tr) (dev : DeviceHandle) (sess : Session) (d : Device)
    (hdev : deviceAt t.driver dev = some (sess, d)) (himg : Placed (img d.library.key))
    (text : List UInt8) : EndsWith addr img t dev (compileProgram text) (mapped text) :=
  (endsWith_iff_alone (stackRuns_inv hrun hrule) hdev).mpr (compileProgram_tables himg text)

/-- Behind such a run the functions of the library and the tool, taken for the
    tables of the library, return what the programs come to. -/
theorem stackRuns_functions (addr : DeviceHandle → Nat) (img : Nat × List UInt8 → Image)
    (tr : List (StackEntry R)) (t : Stack R) (hrun : StackRuns addr img tr t)
    (hrule : Respects FreesJobs tr) (dev : DeviceHandle) (sess : Session) (d : Device)
    (hdev : deviceAt t.driver dev = some (sess, d)) :
    FunctionsHold R K addr img t dev (tableDevice (img d.library.key)) := by
  have hsame : ∀ {α : Type} (p : FomacProgram α) (res res' : Except Thrown α),
      EndsWith addr img t dev p res → ReturnsAlone (fun q =>
        (tables (img d.library.key) q).getD { status := .errorNotsupported }) p res' →
      res' = res := fun p res res' hends hres' =>
    returnsAlone_unique hres' (returnsAlone_of_alone
      ((endsWith_iff_alone (stackRuns_inv hrun hrule) hdev).mp hends))
  refine ⟨fun res h => hsame _ _ _ h getQubitsNum_returnsAlone,
    fun res h => hsame _ _ _ h getCouplingMap_returnsAlone,
    fun site res h => hsame _ _ _ h (getSiteId_returnsAlone site),
    fun res h => hsame _ _ _ h getUsScaleFactor_returnsAlone,
    fun site res h => hsame _ _ _ h (getSiteTime_returnsAlone _ _ site),
    fun site res h => hsame _ _ _ h (getSiteTime_returnsAlone _ _ site), fun text res h => ?_⟩
  rcases compileProgram_returnsAlone (f := fun q =>
    (tables (img d.library.key) q).getD { status := .errorNotsupported }) text with
    ⟨res', hres', hcompile⟩
  rw [← hsame _ _ _ h hres']
  exact hcompile

/-- A circuit is mapped while a job runs. -/
theorem stackRuns_tool_sample :
    ∃ tr t, StackRuns (R := ℚ) (fun _ => 0) (fun _ => sampleImage) tr t ∧
      EndsWith (fun _ => 0) (fun _ => sampleImage) t { session := 0, index := 1 }
        (compileProgram (ascii "qreg q[2]; cx q[0], q[1];"))
        (.ok (.returned (ascii "qreg q[5]; cx q[0], q[1];"))) := by
  rcases stackRuns_evaluated submitOps (fun p =>
    (deviceAt p.2.driver { session := 0, index := 1 }).map (fun x => x.2.library.key)) (0, [65])
    rfl with ⟨tr, t, hrun, hrule, hv⟩
  rcases Option.map_eq_some_iff.mp hv with ⟨⟨sess, d⟩, hdev, _⟩
  have hmapped : mapped (ascii "qreg q[2]; cx q[0], q[1];") =
      .ok (.returned (ascii "qreg q[5]; cx q[0], q[1];")) := by decide +kernel
  refine ⟨tr, t, hrun, ?_⟩
  rw [← hmapped]
  exact stackRuns_tool (fun _ => 0) (fun _ => sampleImage) tr t hrun hrule
    { session := 0, index := 1 } sess d hdev placed_sampleImage _

/-- The functions, while a job runs. -/
theorem stackRuns_functions_sample :
    ∃ tr t, StackRuns (R := ℚ) (fun _ => 0) (fun _ => sampleImage) tr t ∧
      FunctionsHold ℚ ℚ (fun _ => 0) (fun _ => sampleImage) t { session := 0, index := 1 }
        (tableDevice sampleImage) := by
  rcases stackRuns_evaluated submitOps (fun p =>
    (deviceAt p.2.driver { session := 0, index := 1 }).map (fun x => x.2.library.key)) (0, [65])
    rfl with ⟨tr, t, hrun, hrule, hv⟩
  rcases Option.map_eq_some_iff.mp hv with ⟨⟨sess, d⟩, hdev, _⟩
  exact ⟨tr, t, hrun, stackRuns_functions (fun _ => 0) (fun _ => sampleImage) tr t hrun hrule
    { session := 0, index := 1 } sess d hdev⟩

end Driver

end Qdmi
