import Qdmi.Theory.Device.Lifecycle
import Qdmi.Theory.SizeProtocol

/-!
# Operation Queries

What the operation query answers for which sites and parameters.

The interface separates properties of an operation from properties of its
application to sites. `OperationContract` puts it together for one query: a
property of the operation is reported alike with and without valid sites and
parameters, duration and fidelity are reported for the tuples the operation
lists and, whatever the parameters, for no others, and a duration is the number in
the table.

The query has two branches, and each gets one lemma that says what it answers
to the arguments it accepts and one that says what it refuses. Compared with
the contract they leave four kinds of queries, which `Astray` lists. The
two-qubit branch looks at its sites too early for one property and too late
for another, and the single-qubit branch never looks at them; its duration is
written as a `double` although the table has a number. `operationContract_iff`
says that all other queries keep the contract.

## Main definitions

* `Operation.arity`, `Operation.paramsNum`, `operationSites`: What an operation
  reports of itself.
* `siteTuple`, `listedTuples`: The sites of a query, and the tuples an operation
  lists.
* `GivesTuple`, `ValidSites`, `AcceptedParams`: The arguments of a query.
* `operationBytes`, `operationAnswer`: What the query has to answer.
* `OperationContract`: What a query promises.
* `Astray`: The queries that break their promise.

## Theorems

* `operationReports`: An operation reports its arity, its parameters and its
  sites.
* `rotationQuery_answer`, `rotationQuery_refuses`: The single-qubit branch.
* `cxQuery_answer`, `cxQuery_qubitsnum`, `cxQuery_refuses`, `cxQuery_fidelity`,
  `cxQuery_fidelity_unlisted`: The two-qubit branch.
* `fidelities_listed`: The table of fidelities is that of the coupling map.
* `operationContract_iff`: The contract is kept except by these queries.
-/

namespace Qdmi

/-! ## Operations and their sites -/

/-- The number of qubits of an operation. -/
def Operation.arity : Operation → Nat
  | .cx => 2
  | .rx | .ry | .rz => 1

/-- The number of parameters of an operation. -/
def Operation.paramsNum : Operation → Nat
  | .cx => 0
  | .rx | .ry | .rz => 1

/-- The sites an operation reports, one tuple behind the other. -/
def operationSites : Operation → List Nat
  | .cx => deviceCouplingMap
  | .rx | .ry | .rz => deviceSites

/-- The tuples an operation lists. -/
def listedTuples (op : Operation) : List (List Nat) :=
  (List.range ((operationSites op).length / op.arity)).map
    (fun k => ((operationSites op).drop (k * op.arity)).take op.arity)

example : listedTuples .rx = [[0], [1], [2], [3], [4]] := by decide

/-- The first sites of a list, as many as an operation takes. -/
def siteTuple (op : Operation) (sites : Nat → Nat) : List Nat := (List.range op.arity).map sites

/-- Some sites are passed, as many as the operation takes. -/
def GivesTuple (op : Operation) (args : OperationArgs) (sites : Nat → Nat) : Prop :=
  args.sites = some sites ∧ args.numSites = op.arity

/-- No sites are passed, or a tuple the operation lists. -/
def ValidSites (op : Operation) (args : OperationArgs) : Prop :=
  ∀ sites, args.sites = some sites → args.numSites = op.arity ∧ siteTuple op sites ∈ listedTuples op

/-- No parameters are passed, or as many as the operation takes. An operation that
    takes none passes over them, but an empty list is always refused. -/
def AcceptedParams (op : Operation) (args : OperationArgs) : Prop :=
  args.params = true → args.numParams ≠ 0 ∧ (op.paramsNum ≠ 0 → args.numParams = op.paramsNum)

/-- The arguments of a query for the operation as such. -/
def noArgs : OperationArgs := { numSites := 0, sites := none, numParams := 0, params := false }

/-! ## What is answered -/

/-- The value of a property in the code, where it does not depend on the sites. -/
def operationBytes (img : Image) (op : Operation) : OperationProperty → List UInt8
  | .name => (operationProperties op).1.chars ++ [0]
  | .qubitsnum => sizeTBytes op.arity
  | .parametersnum => sizeTBytes op.paramsNum
  | .duration =>
    match op with
    | .cx => sizeTBytes (operationProperties .cx).2
    | .rx | .ry | .rz => doubleBytes 1 100
  | .fidelity => doubleBytes 999 1000
  | .iszoned => [0]
  | .sites => (siteHandles img (operationSites op)).flatten

/-- A query that is answered, with everything the call does. -/
def operationAnswer (img : Image) (op : Operation) (p : OperationProperty) (out : OutArgs) :
    Except Fault Reply :=
  if (out.degenerate || false) = true then .ok (out.reject .errorInvalidargument)
  else
    match p with
    | .name =>
      addStringProperty p.code (operationProperties op).1 p.code out
        (.ok (out.reject .errorNotsupported))
    | .sites =>
      addListProperty p.code (siteHandles img (operationSites op)) p.code out
        (.ok (out.reject .errorNotsupported))
    | .qubitsnum | .parametersnum | .duration | .fidelity | .iszoned =>
      addSingleValueProperty p.code (operationBytes img op p) p.code out
        (.ok (out.reject .errorNotsupported))

theorem operationAnswer_answers (img : Image) (op : Operation) (p : OperationProperty) :
    Answers (operationAnswer img op p) (operationBytes img op p) := by
  unfold operationAnswer
  refine guarded_answers ?_ rfl
  cases p with
  | name => exact addStringProperty_answers _ _ _
  | sites => exact addListProperty_answers _ _ _
  | qubitsnum | parametersnum | duration | fidelity | iszoned =>
      exact addSingleValueProperty_answers _ _ _

/-- The number of sites or parameters is not one the branch takes. -/
def Mismatch (numSites : Nat) (args : OperationArgs) : Bool :=
  args.sites.isSome && args.numSites != numSites

theorem mismatch_eq_false_iff {n : Nat} {args : OperationArgs} :
    Mismatch n args = false ↔ ∀ sites, args.sites = some sites → args.numSites = n := by
  rcases args with ⟨numSites, _ | sites, numParams, params⟩
  · simp [Mismatch]
  · simp [Mismatch]

section

variable {img : Image} {h : Nat} {op : Operation} {args : OperationArgs} {p : OperationProperty}

/-- The arguments a branch accepts pass the checks for empty lists. -/
theorem nonempty_of_accepted {n : Nat} (hn : n ≠ 0) (hsites : Mismatch n args = false) :
    (args.sites.isSome && args.numSites == 0) = false := by
  rcases args with ⟨numSites, _ | sites, numParams, params⟩
  · rfl
  · rw [mismatch_eq_false_iff] at hsites
    have hnum : numSites = n := hsites sites rfl
    simp [hnum, hn]

theorem nonempty_params (hparams : args.params = true → args.numParams ≠ 0) :
    (args.params && args.numParams == 0) = false := by
  rcases hp : args.params with _ | _
  · rfl
  · simp [hparams hp]

/-- The single-qubit branch answers every property when there is one site and
    one parameter, or none. -/
theorem rotationQuery_answer (hop : op ≠ .cx) (hsites : Mismatch 1 args = false)
    (hparams : args.params = true → args.numParams = 1) (p : OperationProperty) :
    deviceSessionQueryOperationProperty img (some h) (some op) args p.code =
      operationAnswer img op p := by
  have hempty := nonempty_of_accepted (by decide) hsites
  have hnone : (args.params && args.numParams == 0) = false := by
    refine nonempty_params (fun hp => ?_)
    rw [hparams hp]
    exact Nat.one_ne_zero
  -- The check for one parameter passes, since there is one or none is given.
  have hone : (args.params && args.numParams != 1) = false := by
    rcases hp : args.params with _ | _
    · rfl
    · rw [hparams hp]
      rfl
  rw [Mismatch] at hsites
  funext out
  cases op with
  | cx => exact absurd rfl hop
  | rx | ry | rz =>
      cases p
      all_goals
        simp [deviceSessionQueryOperationProperty, queryRotationProperty, operationAnswer,
          operationBytes, operationSites, Operation.arity, Operation.paramsNum, hempty, hnone,
          hone, hsites, isInvalidEnumValue, OperationProperty.code, OperationProperty.max,
          addStringProperty, addSingleValueProperty, addListProperty]

/-- With other numbers the single-qubit branch refuses all that is not the same
    for every operation. -/
theorem rotationQuery_refuses (hop : op ≠ .cx)
    (hbad : Mismatch 1 args = true ∨ (args.params = true ∧ args.numParams ≠ 1))
    (hp : p ≠ .name) (hz : p ≠ .iszoned) (out : OutArgs) :
    deviceSessionQueryOperationProperty img (some h) (some op) args p.code out =
      .ok (out.reject .errorInvalidargument) := by
  have hrefuse : (args.sites.isSome && args.numSites != 1 ||
      args.params && args.numParams != 1) = true := by
    rcases hbad with hbad | ⟨hparams, hnum⟩
    · rw [Mismatch] at hbad
      rw [hbad, Bool.true_or]
    · simp [hparams, hnum]
  unfold deviceSessionQueryOperationProperty
  dsimp only
  split
  · rfl
  -- The name and the zones are answered before the arguments are counted.
  cases op with
  | cx => exact absurd rfl hop
  | rx | ry | rz =>
      cases p with
      | name => exact absurd rfl hp
      | iszoned => exact absurd rfl hz
      | qubitsnum | parametersnum | duration | fidelity | sites =>
          simp [queryRotationProperty, hrefuse, OperationProperty.code, addStringProperty,
            addSingleValueProperty]

/-- The two-qubit branch answers most properties when there are two sites or
    none, whatever they are. -/
theorem cxQuery_answer (hsites : Mismatch 2 args = false)
    (hparams : args.params = true → args.numParams ≠ 0) (hq : p ≠ .qubitsnum)
    (hf : p ≠ .fidelity) :
    deviceSessionQueryOperationProperty img (some h) (some .cx) args p.code =
      operationAnswer img .cx p := by
  have hempty := nonempty_of_accepted (by decide) hsites
  have hnone := nonempty_params hparams
  rw [Mismatch] at hsites
  funext out
  cases p with
  | qubitsnum => exact absurd rfl hq
  | fidelity => exact absurd rfl hf
  | name | parametersnum | duration | iszoned | sites =>
      simp [deviceSessionQueryOperationProperty, queryCxProperty, operationAnswer, operationBytes,
        operationSites, Operation.paramsNum, hempty, hnone, hsites, isInvalidEnumValue,
        OperationProperty.code, OperationProperty.max, addStringProperty, addSingleValueProperty,
        addListProperty]

/-- The number of qubits is answered only without sites. -/
theorem cxQuery_qubitsnum (hsites : args.sites = none)
    (hparams : args.params = true → args.numParams ≠ 0) :
    deviceSessionQueryOperationProperty img (some h) (some .cx) args
      OperationProperty.qubitsnum.code = operationAnswer img .cx .qubitsnum := by
  have hnone := nonempty_params hparams
  funext out
  simp [deviceSessionQueryOperationProperty, queryCxProperty, operationAnswer, operationBytes,
    Operation.arity, hsites, hnone, isInvalidEnumValue, OperationProperty.code,
    OperationProperty.max, addStringProperty, addSingleValueProperty, addListProperty]

/-- The number of qubits is not answered with sites. -/
theorem cxQuery_qubitsnum_sites {sites : Nat → Nat} (hsites : args.sites = some sites)
    {out : OutArgs} {reply : Reply}
    (hreply : deviceSessionQueryOperationProperty img (some h) (some .cx) args
      OperationProperty.qubitsnum.code out = .ok reply) : reply.status ≠ .success := by
  have hreject : ∀ {status : Status}, status ≠ .success →
      (.ok (out.reject status) : Except Fault Reply) = .ok reply → reply.status ≠ .success := by
    intro status hne heq
    rw [← Except.ok.inj heq]
    exact hne
  unfold deviceSessionQueryOperationProperty at hreply
  dsimp only at hreply
  split at hreply
  · exact hreject (by decide) hreply
  -- The column of macros is passed down to the look at the sites.
  simp only [queryCxProperty, hsites, OperationProperty.code, addStringProperty,
    addSingleValueProperty, addListProperty, if_false, OfNat.one_ne_ofNat, one_ne_zero] at hreply
  split at hreply
  · exact hreject (by decide) hreply
  split at hreply
  · exact hreject (by decide) hreply
  split at hreply
  · exact hreject (by decide) hreply
  split at hreply
  · exact hreject (by decide) hreply
  · exact hreject (by decide) hreply

/-- The two-qubit branch refuses other numbers of sites, and empty lists. -/
theorem cxQuery_refuses
    (hbad : Mismatch 2 args = true ∨ (args.params = true ∧ args.numParams = 0))
    (hp : p ≠ .name) (hz : p ≠ .iszoned) (out : OutArgs) :
    deviceSessionQueryOperationProperty img (some h) (some .cx) args p.code out =
      .ok (out.reject .errorInvalidargument) := by
  unfold deviceSessionQueryOperationProperty
  dsimp only
  split
  · rfl
  rename_i hguard
  -- An empty list has been refused already.
  have hrefuse : (args.sites.isSome && args.numSites != 2) = true := by
    rcases hbad with hbad | ⟨hparams, hnum⟩
    · exact hbad
    · exact absurd (by simp [hparams, hnum]) hguard
  cases p with
  | name => exact absurd rfl hp
  | iszoned => exact absurd rfl hz
  | qubitsnum | parametersnum | duration | fidelity | sites =>
      simp [queryCxProperty, hrefuse, OperationProperty.code, addStringProperty,
        addSingleValueProperty]

/-- The pairs that have a fidelity are the pairs of the coupling map. -/
theorem fidelities_listed {table : List ((Nat × Nat) × Nat)}
    (htable : operationFidelities .cx = some table) (a b : Nat) :
    [a, b] ∈ listedTuples .cx ↔ ∃ fidelity, table.lookup (a, b) = some fidelity := by
  have htuples : ∀ table, operationFidelities .cx = some table →
      listedTuples .cx = table.map (fun e => [e.1.1, e.1.2]) := by
    intro table htable
    rw [operationFidelities, Option.some.injEq] at htable
    rw [← htable]
    decide
  rw [htuples table htable, ← Option.isSome_iff_exists, List.lookup_isSome_iff, List.mem_map]
  constructor
  · rintro ⟨e, he, heq⟩
    rw [List.cons.injEq, List.cons.injEq] at heq
    exact ⟨e, he, beq_iff_eq.mpr (Prod.ext heq.1.symm heq.2.1.symm)⟩
  · rintro ⟨e, he, heq⟩
    rw [beq_iff_eq] at heq
    exact ⟨e, he, by rw [← heq]⟩

/-- The fidelity of a listed pair is answered from the table. -/
theorem cxQuery_fidelity {sites : Nat → Nat} (hsites : args.sites = some sites)
    (hnum : args.numSites = 2) (hparams : args.params = true → args.numParams ≠ 0)
    (hlisted : [sites 0, sites 1] ∈ listedTuples .cx) :
    ∃ bytes, Answers (deviceSessionQueryOperationProperty img (some h) (some .cx) args
      OperationProperty.fidelity.code) bytes := by
  have htable : ∃ table, operationFidelities .cx = some table := ⟨_, rfl⟩
  rcases htable with ⟨table, htable⟩
  rcases (fidelities_listed htable (sites 0) (sites 1)).mp hlisted with ⟨fidelity, hlookup⟩
  have hdiff : sites 0 ≠ sites 1 := by
    intro heq
    rw [heq] at hlisted
    have hnodup : ∀ tuple ∈ listedTuples .cx, tuple.Nodup := by decide
    exact (List.nodup_cons.mp (hnodup _ hlisted)).1 (List.mem_singleton.mpr rfl)
  have hnone := nonempty_params hparams
  -- Down to the look at the sites no macro answers.
  have hquery : ∀ out, deviceSessionQueryOperationProperty img (some h) (some .cx) args
      OperationProperty.fidelity.code out =
      if (out.degenerate || false) = true then .ok (out.reject .errorInvalidargument)
      else addSingleValueProperty OperationProperty.fidelity.code (doubleBytes fidelity 100)
        OperationProperty.fidelity.code out (.ok (out.reject .errorNotsupported)) := by
    intro out
    simp [deviceSessionQueryOperationProperty, queryCxProperty, hsites, hnum, hnone, htable,
      isInvalidEnumValue, OperationProperty.code, OperationProperty.max, addStringProperty,
      addSingleValueProperty, addListProperty, hlookup, hdiff]
  refine ⟨doubleBytes fidelity 100, ?_⟩
  rw [funext hquery]
  exact guarded_answers (addSingleValueProperty_answers _ _ _) rfl

/-- The fidelity of any other pair is refused, whatever the parameters. -/
theorem cxQuery_fidelity_unlisted {sites : Nat → Nat} (hsites : args.sites = some sites)
    (hnum : args.numSites = 2) (hunlisted : [sites 0, sites 1] ∉ listedTuples .cx)
    (out : OutArgs) :
    deviceSessionQueryOperationProperty img (some h) (some .cx) args
      OperationProperty.fidelity.code out = .ok (out.reject .errorInvalidargument) := by
  have htable : ∃ table, operationFidelities .cx = some table := ⟨_, rfl⟩
  rcases htable with ⟨table, htable⟩
  have hlookup : table.lookup (sites 0, sites 1) = none := by
    rw [← Option.not_isSome_iff_eq_none, Option.isSome_iff_exists,
      ← fidelities_listed htable (sites 0) (sites 1)]
    exact hunlisted
  -- The arguments are refused, or the sites, or the table has no entry.
  simp [deviceSessionQueryOperationProperty, queryCxProperty, hsites, hnum, htable,
    isInvalidEnumValue, OperationProperty.code, OperationProperty.max, addStringProperty,
    addSingleValueProperty, addListProperty, hlookup]

/-! ## The contract -/

/-- The properties of an operation as such. -/
def siteIndependent : List OperationProperty :=
  [.name, .qubitsnum, .parametersnum, .iszoned, .sites]

/-- What a query promises. A property of the operation as such is reported alike
    with valid sites and parameters; duration and fidelity are reported for the
    tuples of sites that the operation lists, and for no others, whatever the
    parameters; and a duration is an integer of eight bytes, the one in the table. -/
structure OperationContract (img : Image) (h : Nat) (op : Operation) (args : OperationArgs)
    (p : OperationProperty) : Prop where
  same : p ∈ siteIndependent → ValidSites op args → AcceptedParams op args → ∀ out,
    deviceSessionQueryOperationProperty img (some h) (some op) args p.code out =
      deviceSessionQueryOperationProperty img (some h) (some op) noArgs p.code out
  listed : p = .duration ∨ p = .fidelity → ∀ sites, GivesTuple op args sites →
    AcceptedParams op args → siteTuple op sites ∈ listedTuples op → ∃ bytes, Answers
      (deviceSessionQueryOperationProperty img (some h) (some op) args p.code) bytes
  unlisted : p = .duration ∨ p = .fidelity → ∀ sites, GivesTuple op args sites →
    siteTuple op sites ∉ listedTuples op → ∀ out reply,
      deviceSessionQueryOperationProperty img (some h) (some op) args p.code out = .ok reply →
        reply.status ≠ .success
  raw : p = .duration → ∀ (buf : Buffer) ret reply,
    deviceSessionQueryOperationProperty img (some h) (some op) args p.code
      ⟨buf.length, some buf, ret⟩ = .ok reply → reply.status = .success →
    ∃ value, reply.value = some value ∧ leNat (value.take 8) = (operationProperties op).2

/-- The queries that break their promise: for the number of qubits of `cx` with
    a listed pair, for its duration with another pair, for the fidelity of a
    rotation at a site it does not list, and for the duration of a rotation, each
    with any other arguments that are accepted. -/
inductive Astray (args : OperationArgs) : Operation → OperationProperty → Prop where
  | qubitsnum (sites : Nat → Nat) (hsites : args.sites = some sites)
      (hvalid : ValidSites .cx args) (hparams : AcceptedParams .cx args) :
      Astray args .cx .qubitsnum
  | cxDuration (sites : Nat → Nat) (htuple : GivesTuple .cx args sites)
      (hparams : AcceptedParams .cx args) (hunlisted : siteTuple .cx sites ∉ listedTuples .cx) :
      Astray args .cx .duration
  | fidelity (op : Operation) (hop : op ≠ .cx) (sites : Nat → Nat)
      (htuple : GivesTuple op args sites) (hparams : AcceptedParams op args)
      (hunlisted : siteTuple op sites ∉ listedTuples op) : Astray args op .fidelity
  | duration (op : Operation) (hop : op ≠ .cx) (hsites : Mismatch 1 args = false)
      (hparams : AcceptedParams op args) : Astray args op .duration

theorem arity_rotation (hop : op ≠ .cx) : op.arity = 1 ∧ op.paramsNum = 1 := by
  cases op with
  | cx => exact absurd rfl hop
  | rx | ry | rz => exact ⟨rfl, rfl⟩

theorem nonempty_of_acceptedParams (hparams : AcceptedParams op args) :
    args.params = true → args.numParams ≠ 0 := fun hp => (hparams hp).1

/-- `cx` takes no parameters, so it accepts all but an empty list. -/
theorem not_acceptedParams_cx (hparams : ¬ AcceptedParams .cx args) :
    args.params = true ∧ args.numParams = 0 := by
  by_contra hno
  rw [not_and] at hno
  exact hparams (fun hp => ⟨hno hp, fun hc => absurd rfl hc⟩)

/-- A rotation takes one parameter. -/
theorem acceptedParams_rotation (hop : op ≠ .cx) :
    AcceptedParams op args ↔ (args.params = true → args.numParams = 1) := by
  rw [AcceptedParams, (arity_rotation hop).2]
  refine forall_congr' (fun _ => ⟨fun hone => hone.2 Nat.one_ne_zero, fun hone => ?_⟩)
  rw [hone]
  exact ⟨Nat.one_ne_zero, fun _ => rfl⟩

/-- Valid sites are as many as the operation takes. -/
theorem mismatch_of_validSites {n : Nat} (hn : op.arity = n) (hvalid : ValidSites op args) :
    Mismatch n args = false :=
  mismatch_eq_false_iff.mpr (fun sites hsites => hn ▸ (hvalid sites hsites).1)

theorem mismatch_of_givesTuple {n : Nat} (hn : op.arity = n) {sites : Nat → Nat}
    (htuple : GivesTuple op args sites) : Mismatch n args = false :=
  mismatch_eq_false_iff.mpr (fun _ _ => hn ▸ htuple.2)

/-- Without sites and parameters an operation reports its arity, its number of
    parameters and its sites, among others. -/
theorem operationReports (img : Image) (h : Nat) (op : Operation) (hp : p ∈ siteIndependent) :
    deviceSessionQueryOperationProperty img (some h) (some op) noArgs p.code =
      operationAnswer img op p := by
  by_cases hop : op = .cx
  · rw [hop]
    by_cases hq : p = .qubitsnum
    · rw [hq]
      exact cxQuery_qubitsnum rfl (fun hc => absurd hc Bool.false_ne_true)
    · refine cxQuery_answer rfl (fun hc => absurd hc Bool.false_ne_true) hq (fun hf => ?_)
      rw [hf] at hp
      exact absurd hp (by decide)
  · exact rotationQuery_answer hop rfl (fun hc => absurd hc Bool.false_ne_true) p

/-- A query that is answered succeeds on a null pointer. -/
theorem not_fails_of_answer {q : OutArgs → Except Fault Reply} (hq : q = operationAnswer img op p)
    (hfails : ∀ out reply, q out = .ok reply → reply.status ≠ .success) : False := by
  have hans := (operationAnswer_answers img op p).probe 0 false
  rw [← hq] at hans
  exact hfails _ _ hans rfl

/-- A query that goes astray breaks its promise. -/
theorem astray_breaks (hastray : Astray args op p) : ¬ OperationContract img h op args p := by
  intro hc
  cases hastray with
  | qubitsnum sites hsites hvalid hparams =>
      -- The same query without the sites succeeds.
      have hsame := hc.same (by decide) hvalid hparams
      rw [operationReports img h .cx (by decide)] at hsame
      refine not_fails_of_answer (q := operationAnswer img .cx .qubitsnum) rfl
        (fun out reply hreply => ?_)
      rw [← hsame] at hreply
      exact cxQuery_qubitsnum_sites hsites hreply
  | cxDuration sites htuple hparams hunlisted =>
      exact not_fails_of_answer (cxQuery_answer (mismatch_of_givesTuple rfl htuple)
        (nonempty_of_acceptedParams hparams) (by decide) (by decide))
        (hc.unlisted (Or.inl rfl) sites htuple hunlisted)
  | fidelity _ hop sites htuple hparams hunlisted =>
      exact not_fails_of_answer (rotationQuery_answer hop
        (mismatch_of_givesTuple (arity_rotation hop).1 htuple)
        ((acceptedParams_rotation hop).mp hparams) .fidelity)
        (hc.unlisted (Or.inr rfl) sites htuple hunlisted)
  | duration _ hop hsites hparams =>
      have hone := (acceptedParams_rotation hop).mp hparams
      have hanswers := operationAnswer_answers img op .duration
      rw [← rotationQuery_answer (h := h) hop hsites hone .duration] at hanswers
      have hbytes : operationBytes img op .duration = doubleBytes 1 100 := by
        cases op with
        | cx => exact absurd rfl hop
        | rx | ry | rz => rfl
      have hraw : (operationProperties op).2 = 10 := by
        cases op with
        | cx => exact absurd rfl hop
        | rx | ry | rz => rfl
      rw [hbytes] at hanswers
      rcases hanswers.fits (List.replicate 8 0) false (by decide) (by decide) with ⟨rest, _, hok⟩
      rcases hc.raw rfl _ _ _ hok rfl with ⟨value, hvalue, hread⟩
      rw [Option.some.injEq] at hvalue
      have htake : (doubleBytes 1 100 ++ rest).take 8 = doubleBytes 1 100 :=
        List.take_left' (by decide)
      -- The bits of a `double` are no duration.
      rw [← hvalue, htake, hraw] at hread
      exact absurd hread (by decide)

/-- What belongs to the operation as such is answered alike. -/
theorem same_of_not_astray (img : Image) (h : Nat) (hno : ¬ Astray args op p)
    (hp : p ∈ siteIndependent) (hvalid : ValidSites op args) (hparams : AcceptedParams op args)
    (out : OutArgs) :
    deviceSessionQueryOperationProperty img (some h) (some op) args p.code out =
      deviceSessionQueryOperationProperty img (some h) (some op) noArgs p.code out := by
  rw [operationReports img h op hp]
  by_cases hop : op = .cx
  · subst hop
    have hnone := nonempty_of_acceptedParams hparams
    by_cases hq : p = .qubitsnum
    · subst hq
      rcases hsites : args.sites with _ | sites
      · rw [cxQuery_qubitsnum hsites hnone]
      · exact absurd (Astray.qubitsnum sites hsites hvalid hparams) hno
    · rw [cxQuery_answer (mismatch_of_validSites rfl hvalid) hnone hq ?_]
      intro hf
      rw [hf] at hp
      exact absurd hp (by decide)
  · rw [rotationQuery_answer hop (mismatch_of_validSites (arity_rotation hop).1 hvalid)
      ((acceptedParams_rotation hop).mp hparams)]

/-- Duration and fidelity are answered for the listed tuples. -/
theorem listed_of_query (img : Image) (h : Nat) (hp : p = .duration ∨ p = .fidelity)
    {sites : Nat → Nat} (htuple : GivesTuple op args sites) (hparams : AcceptedParams op args)
    (hlisted : siteTuple op sites ∈ listedTuples op) : ∃ bytes, Answers
      (deviceSessionQueryOperationProperty img (some h) (some op) args p.code) bytes := by
  by_cases hop : op = .cx
  · subst hop
    have hnone := nonempty_of_acceptedParams hparams
    rcases hp with rfl | rfl
    · rw [cxQuery_answer (mismatch_of_givesTuple rfl htuple) hnone (by decide) (by decide)]
      exact ⟨_, operationAnswer_answers img .cx .duration⟩
    · exact cxQuery_fidelity htuple.1 htuple.2 hnone hlisted
  · rw [rotationQuery_answer hop (mismatch_of_givesTuple (arity_rotation hop).1 htuple)
      ((acceptedParams_rotation hop).mp hparams)]
    exact ⟨_, operationAnswer_answers img op p⟩

/-- They are not answered for others: what would be astray is refused over its
    parameters. -/
theorem unlisted_of_not_astray (img : Image) (h : Nat) (hno : ¬ Astray args op p)
    (hp : p = .duration ∨ p = .fidelity) {sites : Nat → Nat} (htuple : GivesTuple op args sites)
    (hunlisted : siteTuple op sites ∉ listedTuples op) {out : OutArgs} {reply : Reply}
    (hreply : deviceSessionQueryOperationProperty img (some h) (some op) args p.code out =
      .ok reply) : reply.status ≠ .success := by
  intro hsucc
  have hrefused : reply ≠ out.reject .errorInvalidargument := by
    intro heq
    rw [heq] at hsucc
    exact absurd hsucc (by simp only [OutArgs.reject, reduceCtorEq, not_false_eq_true])
  by_cases hop : op = .cx
  · subst hop
    rcases hp with rfl | rfl
    · have hparams : ¬ AcceptedParams .cx args := fun hc =>
        hno (Astray.cxDuration sites htuple hc hunlisted)
      rw [cxQuery_refuses (Or.inr (not_acceptedParams_cx hparams)) (by decide) (by decide),
        Except.ok.injEq] at hreply
      exact hrefused hreply.symm
    · rw [cxQuery_fidelity_unlisted htuple.1 htuple.2 hunlisted, Except.ok.injEq] at hreply
      exact hrefused hreply.symm
  · have hparams : ¬ AcceptedParams op args := by
      intro hc
      rcases hp with rfl | rfl
      · have hsites := mismatch_of_givesTuple (arity_rotation hop).1 htuple
        exact hno (Astray.duration op hop hsites hc)
      · exact hno (Astray.fidelity op hop sites htuple hc hunlisted)
    rw [acceptedParams_rotation hop, Classical.not_imp] at hparams
    have hname : p ≠ .name ∧ p ≠ .iszoned := by
      rcases hp with rfl | rfl
      · exact ⟨by decide, by decide⟩
      · exact ⟨by decide, by decide⟩
    rw [rotationQuery_refuses hop (Or.inr hparams) hname.1 hname.2, Except.ok.injEq] at hreply
    exact hrefused hreply.symm

/-- A duration that is answered is the integer in the table. -/
theorem raw_of_not_astray (img : Image) (h : Nat) (hno : ¬ Astray args op p) (hp : p = .duration)
    {buf : Buffer} {ret : Bool} {reply : Reply}
    (hreply : deviceSessionQueryOperationProperty img (some h) (some op) args p.code
      ⟨buf.length, some buf, ret⟩ = .ok reply) (hsucc : reply.status = .success) :
    ∃ value, reply.value = some value ∧ leNat (value.take 8) = (operationProperties op).2 := by
  subst hp
  by_cases hop : op = .cx
  · subst hop
    by_cases hbad : Mismatch 2 args = true ∨ (args.params = true ∧ args.numParams = 0)
    · rw [cxQuery_refuses hbad (by decide) (by decide), Except.ok.injEq] at hreply
      rw [← hreply] at hsucc
      exact absurd hsucc (by simp only [OutArgs.reject, reduceCtorEq, not_false_eq_true])
    · rw [not_or, Bool.not_eq_true, not_and] at hbad
      rw [cxQuery_answer hbad.1 hbad.2 (by decide) (by decide)] at hreply
      rcases answers_success (operationAnswer_answers img .cx .duration)
        (List.cons_ne_nil _ _) hreply hsucc with ⟨rest, hvalue⟩
      refine ⟨_, hvalue, ?_⟩
      have htake : (operationBytes img .cx .duration ++ rest).take 8 =
          operationBytes img .cx .duration := List.take_left' rfl
      have hread : leNat (sizeTBytes 100) = 100 := by decide
      rw [htake]
      exact hread
  · -- A rotation that answers goes astray, so this one refuses.
    have hbad : Mismatch 1 args = true ∨ (args.params = true ∧ args.numParams ≠ 1) := by
      by_contra hgood
      rw [not_or, Bool.not_eq_true, not_and, not_not] at hgood
      exact hno (Astray.duration op hop hgood.1 ((acceptedParams_rotation hop).mpr hgood.2))
    rw [rotationQuery_refuses hop hbad (by decide) (by decide), Except.ok.injEq] at hreply
    rw [← hreply] at hsucc
    exact absurd hsucc (by simp only [OutArgs.reject, reduceCtorEq, not_false_eq_true])

/-- A query keeps its promise if and only if it does not go astray. -/
theorem operationContract_iff (img : Image) (h : Nat) (op : Operation) (args : OperationArgs)
    (p : OperationProperty) : OperationContract img h op args p ↔ ¬ Astray args op p := by
  refine ⟨fun hc hastray => astray_breaks hastray hc, fun hno => ⟨?_, ?_, ?_, ?_⟩⟩
  · intro hp hvalid hparams out
    exact same_of_not_astray img h hno hp hvalid hparams out
  · intro hp sites htuple hparams hlisted
    exact listed_of_query img h hp htuple hparams hlisted
  · intro hp sites htuple hunlisted out reply hreply
    exact unlisted_of_not_astray img h hno hp htuple hunlisted hreply
  · intro hp buf ret reply hreply hsucc
    exact raw_of_not_astray img h hno hp hreply hsucc

end

/-- The duration of a rotation is the `double` 0.01, read as a number. -/
theorem rotation_duration_is_double :
    ∃ value, deviceSessionQueryOperationProperty sampleImage (some 0) (some .rx) noArgs
        OperationProperty.duration.code
        { size := 8, value := some (List.replicate 8 0), sizeRet := false } =
      .ok { status := .success, value := some value } ∧
      leNat (value.take 8) = 4576918229304087675 ∧ (operationProperties .rx).2 = 10 ∧
      ¬ OperationContract sampleImage 0 .rx noArgs .duration := by
  refine ⟨doubleBytes 1 100, rfl, by decide, rfl, ?_⟩
  exact astray_breaks (Astray.duration .rx (by decide) rfl (fun hc => absurd hc (by decide)))

end Qdmi
