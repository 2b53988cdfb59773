import Qdmi.Theory.Tool.Registers

/-!
# How a Compilation Ends

The tool is to throw one of its errors or to return a text, for every text and
every device.

What it relies on and does not test is spread over three places. The expression
has matched a single digit, so its conversion is in range, `registerSizes_le`.
The loops look for texts that are not empty, so they return, `rewrite_eq`. And
the first edge is taken from a coupling map that the device may have left
empty. A device with one qubit connects nothing and is big enough for a program
with one qubit: then there is no first edge, and that is the only way in which
a compilation goes wrong.

## Main definitions

* `toolErrors`, `CompileError`: The errors `compile` may throw.
* `CompilesSafely`: Every step meets its precondition, and there is an end.
* `MissingEdge`: The first edge is taken and there is none.

## Theorems

* `registerSizes_le`: The captured digits are in range.
* `compile_missingEdge`: What happens without an edge.
* `compile_ends`: The ways in which a compilation ends.
* `compile_safe_iff`: When a compilation is safe.
* `compile_single_qubit`: A device with one qubit.
-/

namespace Qdmi

/-- The errors of the tool itself. -/
def toolErrors : List Thrown :=
  [.invalidArgument (ascii "The circuit does not declare any qubits."),
    .invalidArgument (ascii "The circuit declares more than one qubit register."),
    .invalidArgument (ascii ("The circuit uses more than two qubits but " ++
      "this tool only supports up to two qubits.")),
    .invalidArgument (ascii "The device does not provide enough qubits for the circuit.")]

/-- The errors `compile` may throw: its own, and those of its questions to the
    device. -/
inductive CompileError (device : ClientDevice) : Thrown → Prop
  | own {exception : Thrown} (h : exception ∈ toolErrors) : CompileError device exception
  | qubits {exception : Thrown} (h : getQubitsNum device = .error exception) :
      CompileError device exception
  | map {exception : Thrown} (h : getCouplingMap device = .error exception) :
      CompileError device exception
  | site {exception : Thrown} {handle : Nat} (h : getSiteId device handle = .error exception) :
      CompileError device exception

/-- Every step of `compile` meets its precondition, and there is an end. -/
structure CompilesSafely (device : ClientDevice) (text : List UInt8) : Prop where
  /-- One of the errors is thrown, or a text is returned. -/
  ends : (∃ exception, compile device text = .threw exception ∧ CompileError device exception) ∨
    ∃ out, compile device text = .returned out
  /-- The conversion of a captured digit is in range. -/
  digit : ∀ size ∈ registerSizes text, size ≤ 9
  /-- The device has reported both endpoints of an edge that is taken. -/
  endpoints : ∀ edge rest, getCouplingMap device = .ok (edge :: rest) →
    ∃ size, queryDeviceSize device DeviceProperty.couplingmap.code
      (ascii "Failed to query the coupling map size.") = .ok size ∧ 16 ≤ size

/-- The first edge is taken and there is none. -/
structure MissingEdge (device : ClientDevice) (text : List UInt8) : Prop where
  qubits : ∃ numQubits available, registerSizes text = [numQubits] ∧ numQubits ≤ 2 ∧
    getQubitsNum device = .ok available ∧ numQubits ≤ available
  edge : getCouplingMap device = .ok []

/-! ## Digits and endpoints -/

theorem registerMatch_le {str : List UInt8} {size length : Nat}
    (h : registerMatch str = some (size, length)) : size ≤ 9 := by
  rcases registerMatch_eq_some h with ⟨_, d, _, _, _, hd, hsize, _⟩
  rw [isDigit, Bool.and_eq_true] at hd
  have hdigit := UInt8.le_iff_toNat_le.mp (of_decide_eq_true hd.2)
  have hlast : (57 : UInt8).toNat = 57 := rfl
  omega

/-- The captured digits are in range. The induction is on the text, of which
    every match is found. -/
theorem registerSizes_le (text : List UInt8) : ∀ size ∈ registerSizes text, size ≤ 9 := by
  induction text with
  | nil => exact fun size h => absurd h List.not_mem_nil
  | cons c text ih =>
      intro size h
      rw [registerSizes_cons, List.mem_append, Option.mem_toList] at h
      rcases h with hmatch | hrest
      · rcases Option.map_eq_some_iff.mp hmatch with ⟨⟨size', length⟩, hfound, rfl⟩
        exact registerMatch_le hfound
      · exact ih size hrest

/-- A coupling map with an edge has been reported with its bytes. -/
theorem getCouplingMap_cons {device : ClientDevice} {edge : Nat × Nat} {rest : List (Nat × Nat)}
    (h : getCouplingMap device = .ok (edge :: rest)) :
    ∃ size, queryDeviceSize device DeviceProperty.couplingmap.code
      (ascii "Failed to query the coupling map size.") = .ok size ∧ 16 ≤ size := by
  rw [getCouplingMap] at h
  rcases bind_eq_ok h with ⟨size, hsize, h⟩
  refine ⟨size, hsize, ?_⟩
  dsimp only at h
  split at h
  · exact absurd h (by simp only [reduceCtorEq, not_false_eq_true])
  split at h
  · exact absurd h (by simp only [reduceCtorEq, not_false_eq_true])
  rcases bind_eq_ok h with ⟨_, _, h⟩
  have hlength := congrArg List.length (Except.ok.inj h)
  rw [List.length_map, List.length_range, List.length_cons] at hlength
  omega

/-! ## The ends of a compilation -/

/-- Without an edge the first one is read past the end of the vector. -/
theorem compile_missingEdge {device : ClientDevice} {text : List UInt8}
    (h : MissingEdge device text) : compile device text = .undefined .readPastEnd := by
  rcases h.qubits with ⟨numQubits, available, hsizes, hn, hqubits, henough⟩
  rw [compile, hsizes]
  dsimp only
  rw [if_neg (Nat.not_lt.mpr hn), hqubits, orThrow, if_neg (Nat.not_lt.mpr henough), h.edge,
    orThrow]

theorem not_safe_of_undefined {device : ClientDevice} {text : List UInt8} {fault : Fault}
    (hundefined : compile device text = .undefined fault) : ¬ CompilesSafely device text := by
  intro h
  rcases h.ends with ⟨exception, hthrew, _⟩ | ⟨out, hreturned⟩
  · rw [hundefined] at hthrew
    exact absurd hthrew (by simp only [reduceCtorEq, not_false_eq_true])
  · rw [hundefined] at hreturned
    exact absurd hreturned (by simp only [reduceCtorEq, not_false_eq_true])

/-- The ways in which a compilation ends, step by step. -/
theorem compile_ends (device : ClientDevice) (text : List UInt8) :
    (∃ exception, compile device text = .threw exception ∧ CompileError device exception) ∨
      (∃ out, compile device text = .returned out) ∨ MissingEdge device text := by
  rw [compile]
  split
  · exact Or.inl ⟨_, rfl, .own List.mem_cons_self⟩
  · exact Or.inl ⟨_, rfl, .own (List.mem_cons_of_mem _ List.mem_cons_self)⟩
  rename_i numQubits hsizes
  by_cases hmany : 2 < numQubits
  · rw [if_pos hmany]
    refine Or.inl ⟨_, rfl, .own ?_⟩
    exact List.mem_cons_of_mem _ (List.mem_cons_of_mem _ List.mem_cons_self)
  rw [if_neg hmany]
  rcases hqubits : getQubitsNum device with exception | available
  · exact Or.inl ⟨exception, rfl, .qubits hqubits⟩
  rw [orThrow]
  by_cases hfew : available < numQubits
  · rw [if_pos hfew]
    refine Or.inl ⟨_, rfl, .own ?_⟩
    exact List.mem_cons_of_mem _ (List.mem_cons_of_mem _
      (List.mem_cons_of_mem _ List.mem_cons_self))
  rw [if_neg hfew]
  rcases hmap : getCouplingMap device with exception | couplingMap
  · exact Or.inl ⟨exception, rfl, .map hmap⟩
  rw [orThrow]
  rcases couplingMap with _ | ⟨edge, rest⟩
  · -- The coupling map is not tested before its first edge is taken.
    exact Or.inr (Or.inr ⟨⟨numQubits, available, hsizes, Nat.le_of_not_lt hmany, hqubits,
      Nat.le_of_not_lt hfew⟩, hmap⟩)
  dsimp only
  rcases hfirst : getSiteId device edge.1 with exception | id0
  · exact Or.inl ⟨exception, rfl, .site hfirst⟩
  rw [orThrow]
  rcases hsecond : getSiteId device edge.2 with exception | id1
  · exact Or.inl ⟨exception, rfl, .site hsecond⟩
  rw [orThrow, orThrow, rewrite_eq]
  exact Or.inr (Or.inl ⟨_, rfl⟩)

/-- A compilation is safe exactly if it does not take a missing edge. -/
theorem compile_safe_iff (device : ClientDevice) (text : List UInt8) :
    CompilesSafely device text ↔ ¬ MissingEdge device text := by
  constructor
  · exact fun h hmissing => not_safe_of_undefined (compile_missingEdge hmissing) h
  · intro h
    refine ⟨?_, registerSizes_le text, fun edge rest => getCouplingMap_cons⟩
    rcases compile_ends device text with hthrew | hreturned | hmissing
    · exact Or.inl hthrew
    · exact Or.inr hreturned
    · exact absurd hmissing h

/-- A device of one qubit, which connects nothing. -/
def singleDevice : ClientDevice where
  queryDeviceProperty prop out :=
    if prop = DeviceProperty.qubitsnum.code then replyWith (sizeTBytes 1) out
    else if prop = DeviceProperty.couplingmap.code then replyWith [] out
    else out.reject .errorNotsupported
  querySiteProperty _ prop out :=
    if prop = SiteProperty.index.code then replyWith (sizeTBytes 0) out
    else out.reject .errorNotsupported

/-- A program with one qubit on a device that has it. -/
theorem compile_single_qubit :
    getQubitsNum singleDevice = .ok 1 ∧ getCouplingMap singleDevice = .ok [] ∧
      compile singleDevice (ascii "qreg q[1]; h q[0];") = .undefined .readPastEnd ∧
      ¬ CompilesSafely singleDevice (ascii "qreg q[1]; h q[0];") := by
  have hundefined : compile singleDevice (ascii "qreg q[1]; h q[0];") =
      .undefined .readPastEnd := by decide +kernel
  exact ⟨by decide +kernel, by decide +kernel, hundefined, not_safe_of_undefined hundefined⟩

end Qdmi
