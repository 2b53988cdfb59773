import Qdmi.Theory.Tool.Registers

/-!
# The Program Rule

A device runs a program that has exactly one quantum register, named `q`, with
as many qubits as the device has sites. The tool is to turn a program of up to
two qubits into such a one, with every operand on one of two sites.

Whether it does is decided by how the program is written. The tool accepts a
register of any name and rewrites none but `q`, and of `q` only what is written
letter by letter as the tool writes it: one blank in the declaration, none in
an operand. Everything else it hands out as it came. The references of the
text that is handed out are those of the text that came in with their indices
replaced, so what has to hold of a program can be said exactly.

## Main definitions

* `declarations`, `operands`: The registers and the operands of a text.
* `MeetsProgramRule`: What a compiled program has to be.
* `DeclaredLiterally`, `CalledLiterally`: The two ways in which the text of a
  declaration can stand in a program.
* `Conforming`: The programs that are compiled as they should be.

## Theorems

* `references_literal`: The references around a literal declaration.
* `references_rewritten`: The references of a rewritten text.
* `compile_conforms_iff`: Which programs are compiled as they should be.
* `compile_keeps_name`: A register of another name is handed out as it is.
-/

namespace Qdmi

open Qasm (Reference Mode readAll references referencesOf items itemsFrom)

/-! ## Registers and operands -/

/-- The declarations of quantum registers. -/
def declarationsOf (all : List Reference) : List Reference :=
  all.filter (fun r => r.before == ascii "qreg")

/-- The operands from the register `q`. -/
def operandsOf (all : List Reference) : List Reference :=
  all.filter (fun r => r.before != ascii "qreg" && r.before != ascii "creg" && r.name == ascii "q")

/-- The quantum registers a text declares. -/
def declarations (text : List UInt8) : List Reference := declarationsOf (references text)

/-- The operands of a text from the register `q`. -/
def operands (text : List UInt8) : List Reference := operandsOf (references text)

/-- What a compiled program and the program it was compiled from have to be. -/
structure MeetsProgramRule (text out : List UInt8) (available id0 id1 : Nat) : Prop where
  /-- One register with at most two qubits was declared. -/
  declared : ∃ r size, declarations text = [r] ∧ r.index = decimal size ∧ size ≤ 2
  /-- The register is `q` and has the qubits of the device. -/
  register : (declarations out).map (fun r => (r.name, r.index)) =
    [(ascii "q", decimal available)]
  /-- The operands are the two sites. -/
  operands : ∀ r ∈ operands out, r.index = decimal id0 ∨ r.index = decimal id1

/-- What reading has in hand behind a text. -/
def modeBehind (front : List UInt8) : Mode := (readAll (.code []) front).2

/-- The text of the declaration is one: it stands outside of comments and
    strings and does not go on with a word. -/
def DeclaredLiterally (text : List UInt8) (numQubits : Nat) : Prop :=
  ∃ front back, text = front ++ (declaration numQubits ++ back) ∧
    (modeBehind front).skips = false ∧ (modeBehind front).word = []

/-- The text of the declaration is the end of a call: the name of the gate goes
    on with it. -/
def CalledLiterally (text : List UInt8) (numQubits : Nat) (gate : List UInt8) : Prop :=
  ∃ front back, text = front ++ (declaration numQubits ++ back) ∧
    (modeBehind front).skips = false ∧ (modeBehind front).word = gate ∧ gate ≠ []

/-- The index a reference to `q` is left with, where it is no part of a literal
    declaration. -/
def landing (id0 id1 : Nat) (r : Reference) : List UInt8 :=
  if r.glued = true then ((sites id0 id1).lookup r.index).getD r.index else r.index

/-- An operand that is left at a site: its index is replaced, or is a site as it
    stands. -/
def Sited (id0 id1 : Nat) (r : Reference) : Prop :=
  (r.glued = true ∧ r.index ∈ [ascii "0", ascii "1", ascii "aux"]) ∨
    r.index = decimal id0 ∨ r.index = decimal id1

/-- The operand of a call that ends like a declaration. -/
def calledOperand (gate : List UInt8) (numQubits : Nat) : Reference :=
  ⟨gate ++ ascii "qreg", ascii "q", decimal numQubits, true⟩

/-- The programs that are compiled as they should be. -/
structure Conforming (text : List UInt8) (numQubits available id0 id1 : Nat) : Prop where
  /-- One register is declared, with at most two qubits and under the name `q`.
      It is declared literally, or its size is left at that of the device. -/
  declared : ∃ r size, declarations text = [r] ∧ r.index = decimal size ∧ size ≤ 2 ∧
    r.name = ascii "q" ∧ (DeclaredLiterally text numQubits ∨ landing id0 id1 r = decimal available)
  /-- Every operand is left at a site. -/
  uncalled : (∀ gate, ¬ CalledLiterally text numQubits gate) → ∀ r ∈ operands text, Sited id0 id1 r
  /-- The operand of a call that ends like a declaration is left at the size of
      the device. -/
  called : ∀ gate, CalledLiterally text numQubits gate →
    (decimal available = decimal id0 ∨ decimal available = decimal id1) ∧
    ∀ r ∈ (operands text).erase (calledOperand gate numQubits), Sited id0 id1 r

/-! ## References of a rewritten text -/

theorem declaration_parts (numQubits : Nat) :
    declaration numQubits = (ascii "qreg" ++ [32]) ++
      ((ascii "q" ++ 91 :: (decimal numQubits ++ [93])) ++ [59]) := by
  simp only [declaration, List.append_assoc, List.cons_append]
  rfl

/-- Reading a literal declaration. -/
theorem readAll_declaration {mode : Mode} (hmode : mode.skips = false) (numQubits : Nat) :
    readAll mode (declaration numQubits) =
      (mode.stale ++ [.word (mode.word ++ ascii "qreg"), .blank 32,
        .indexed (ascii "q") (decimal numQubits), .sym 59], .code []) := by
  have hkeyword : Qasm.IsWord (ascii "qreg") := Qasm.isWord_of_all (by decide) (by decide)
  have hname : Qasm.IsWord (ascii "q") := Qasm.isWord_of_all (by decide) (by decide)
  have hcode : (Mode.code []).skips = false := rfl
  rw [declaration_parts, Qasm.readAll_append,
    Qasm.readAll_word_end hmode hkeyword (by decide) (by decide) (by decide), Qasm.readAll_append]
  have hblank : (Qasm.punctuate 32).2 = .code [] := rfl
  rw [hblank, Qasm.readAll_indexed hcode hname (isWord_decimal numQubits)]
  simp only [List.append_assoc]
  rfl

/-- The references around a literal declaration, whatever its size. -/
theorem references_literal {front : List UInt8} (hmode : (modeBehind front).skips = false)
    (back : List UInt8) :
    ∃ found rest, ∀ numQubits, references (front ++ (declaration numQubits ++ back)) =
      found ++ calledOperand (modeBehind front).word numQubits :: rest := by
  generalize hbehind : (itemsFrom (.code []) back).filter (fun item => !item.isGap) = behind
  rcases Qasm.referencesFrom_split
    (((readAll (.code []) front).1 ++ (modeBehind front).stale).filter (fun item => !item.isGap))
    (.sym 59 :: behind) ((modeBehind front).word ++ ascii "qreg") (ascii "q") []
    with ⟨found, hfound⟩
  refine ⟨found, Qasm.referencesFrom [] (.sym 59 :: behind), fun numQubits => ?_⟩
  rw [calledOperand, ← hfound, references, referencesOf, items, Qasm.itemsFrom_append,
    Qasm.itemsFrom_append, ← modeBehind, readAll_declaration hmode]
  refine congrArg _ ?_
  rw [← hbehind, List.filter_append, List.filter_append, List.filter_append, List.filter_append,
    List.append_assoc, List.append_assoc]
  rfl

/-- No line ends in a declaration, and no comment or string begins there. -/
theorem not_mem_declaration {c : UInt8} (hc : c = 10 ∨ c = 34 ∨ c = 47) (numQubits : Nat) :
    c ∉ declaration numQubits := by
  rw [declaration, List.mem_append, List.mem_append, not_or, not_or]
  rcases hc with rfl | rfl | rfl
  · exact ⟨⟨by decide, not_mem_decimal (by decide)⟩, by decide⟩
  · exact ⟨⟨by decide, not_mem_decimal (by decide)⟩, by decide⟩
  · exact ⟨⟨by decide, not_mem_decimal (by decide)⟩, by decide⟩

theorem readAll_declaration_skips {mode : Mode} (hmode : mode.skips = true) (numQubits : Nat) :
    readAll mode (declaration numQubits) = ([], mode) :=
  Qasm.readAll_skips hmode (not_mem_declaration (Or.inl rfl) numQubits)
    (not_mem_declaration (Or.inr (Or.inl rfl)) numQubits)

/-- In a comment or a string the declaration has no reference. -/
theorem references_skipped {front : List UInt8} (hmode : (modeBehind front).skips = true)
    (back : List UInt8) (numQubits available : Nat) :
    references (front ++ (declaration numQubits ++ back)) =
      references (front ++ (declaration available ++ back)) := by
  rw [references, references, items, items, Qasm.itemsFrom_append, Qasm.itemsFrom_append,
    Qasm.itemsFrom_append, Qasm.itemsFrom_append, ← modeBehind, readAll_declaration_skips hmode,
    readAll_declaration_skips hmode]

theorem isWord_sites {id0 id1 : Nat} :
    ∀ entry ∈ sites id0 id1, Qasm.IsWord entry.1 ∧ Qasm.IsWord entry.2 := by
  have hzero : Qasm.IsWord (ascii "0") := Qasm.isWord_of_all (by decide) (by decide)
  have hone : Qasm.IsWord (ascii "1") := Qasm.isWord_of_all (by decide) (by decide)
  have haux : Qasm.IsWord (ascii "aux") := Qasm.isWord_of_all (by decide) (by decide)
  intro entry hentry
  rw [sites, List.mem_cons, List.mem_cons, List.mem_singleton] at hentry
  rcases hentry with rfl | rfl | rfl
  · exact ⟨hzero, isWord_decimal id0⟩
  · exact ⟨hone, isWord_decimal id1⟩
  · exact ⟨haux, isWord_decimal id0⟩

/-- The references of a rewritten text. -/
theorem references_rewritten (text : List UInt8) (numQubits available id0 id1 : Nat) :
    references (rewritten text numQubits available id0 id1) =
      (references (declared text numQubits available)).map
        (Reference.retarget 113 (sites id0 id1)) := by
  rw [references, rewritten_eq, Qasm.items_substitute (by decide) isWord_sites,
    Qasm.references_retarget, ← references]

/-! ## Registers and operands of the references -/

section

variable {c : UInt8} {table : List (List UInt8 × List UInt8)} {id0 id1 available : Nat}

theorem retarget_before (r : Reference) : (r.retarget c table).before = r.before := by
  rw [Reference.retarget]
  split <;> rfl

theorem retarget_name (r : Reference) : (r.retarget c table).name = r.name := by
  rw [Reference.retarget]
  split <;> rfl

/-- A reference to `q` is left with its landing. -/
theorem retarget_index {r : Reference} (hname : r.name = ascii "q") :
    (r.retarget 113 (sites id0 id1)).index = landing id0 id1 r := by
  have hlast : (ascii "q").getLast? = some 113 := by decide
  rw [Reference.retarget, landing, hname]
  by_cases hglued : r.glued = true
  · rw [if_pos ⟨hglued, hlast⟩, if_pos hglued]
  · rw [if_neg (fun h => hglued h.1), if_neg hglued]

theorem declarationsOf_retarget (all : List Reference) :
    declarationsOf (all.map (Reference.retarget c table)) =
      (declarationsOf all).map (Reference.retarget c table) := by
  rw [declarationsOf, List.filter_map, declarationsOf]
  refine congrArg _ (List.filter_congr (fun r _ => ?_))
  rw [Function.comp_apply, retarget_before]

theorem operandsOf_retarget (all : List Reference) :
    operandsOf (all.map (Reference.retarget c table)) =
      (operandsOf all).map (Reference.retarget c table) := by
  rw [operandsOf, List.filter_map, operandsOf]
  refine congrArg _ (List.filter_congr (fun r _ => ?_))
  rw [Function.comp_apply, retarget_before, retarget_name]

theorem operand_name {all : List Reference} {r : Reference} (hr : r ∈ operandsOf all) :
    r.name = ascii "q" := by
  have hcond := (List.mem_filter.mp hr).2
  rw [Bool.and_eq_true, beq_iff_eq] at hcond
  exact hcond.2

/-- Which registers are left as the register of the device. -/
theorem register_iff (id0 id1 available : Nat) (all : List Reference) :
    (declarationsOf (all.map (Reference.retarget 113 (sites id0 id1)))).map
        (fun r => (r.name, r.index)) = [(ascii "q", decimal available)] ↔
      ∃ r, declarationsOf all = [r] ∧ r.name = ascii "q" ∧
        landing id0 id1 r = decimal available := by
  rw [declarationsOf_retarget, List.map_map]
  constructor
  · intro h
    rcases List.map_eq_singleton_iff.mp h with ⟨r, hr, heq⟩
    rw [Function.comp_apply, Prod.mk.injEq, retarget_name] at heq
    rw [retarget_index heq.1] at heq
    exact ⟨r, hr, heq⟩
  · rintro ⟨r, hr, hname, hlanding⟩
    rw [hr, List.map_singleton, Function.comp_apply, retarget_name, retarget_index hname, hname,
      hlanding]

/-- Which operands are left at a site. -/
theorem sited_iff (r : Reference) :
    (landing id0 id1 r = decimal id0 ∨ landing id0 id1 r = decimal id1) ↔ Sited id0 id1 r := by
  have hzero : (sites id0 id1).lookup (ascii "0") = some (decimal id0) := rfl
  have hone : (sites id0 id1).lookup (ascii "1") = some (decimal id1) := rfl
  have haux : (sites id0 id1).lookup (ascii "aux") = some (decimal id0) := rfl
  rw [landing, Sited]
  by_cases hglued : r.glued = true
  · rw [if_pos hglued]
    by_cases hkey : r.index ∈ [ascii "0", ascii "1", ascii "aux"]
    · refine iff_of_true ?_ (Or.inl ⟨hglued, hkey⟩)
      rw [List.mem_cons, List.mem_cons, List.mem_singleton] at hkey
      rcases hkey with hkey | hkey | hkey
      · rw [hkey, hzero]
        exact Or.inl rfl
      · rw [hkey, hone]
        exact Or.inr rfl
      · rw [hkey, haux]
        exact Or.inl rfl
    · -- An index that is not looked for stays as it is.
      have hnone : (sites id0 id1).lookup r.index = none := by
        refine List.lookup_eq_none_iff.mpr (fun entry hentry => ?_)
        rw [bne_iff_ne]
        intro heq
        refine hkey ?_
        rw [heq]
        rw [sites, List.mem_cons, List.mem_cons, List.mem_singleton] at hentry
        rcases hentry with rfl | rfl | rfl
        · exact List.mem_cons_self
        · exact List.mem_cons_of_mem _ List.mem_cons_self
        · exact List.mem_cons_of_mem _ (List.mem_cons_of_mem _ List.mem_cons_self)
      rw [hnone, Option.getD_none]
      exact ⟨Or.inr, fun h => h.resolve_left (fun h => hkey h.2)⟩
  · rw [if_neg hglued]
    exact ⟨Or.inr, fun h => h.resolve_left (fun h => hglued h.1)⟩

theorem operands_iff (id0 id1 : Nat) (all : List Reference) :
    (∀ r ∈ operandsOf (all.map (Reference.retarget 113 (sites id0 id1))),
        r.index = decimal id0 ∨ r.index = decimal id1) ↔
      ∀ r ∈ operandsOf all, Sited id0 id1 r := by
  rw [operandsOf_retarget, List.forall_mem_map]
  refine forall₂_congr (fun r hr => ?_)
  rw [retarget_index (operand_name hr), sited_iff]

/-- The size of the device is no index that is replaced. -/
theorem landing_called {gate : List UInt8} (hN : 2 ≤ available) :
    landing id0 id1 (calledOperand gate available) = decimal available := by
  have hzero : decimal available ≠ ascii "0" := by
    intro h
    have hsame := decimal_injective (k := 0) h
    omega
  have hone : decimal available ≠ ascii "1" := by
    intro h
    have hsame := decimal_injective (k := 1) h
    omega
  have haux : decimal available ≠ ascii "aux" := by
    intro h
    have hmem : (97 : UInt8) ∈ decimal available := by
      rw [h]
      decide
    exact not_mem_decimal (by decide) hmem
  -- The table has entries for `0`, `1` and `aux` only.
  have hnone : (sites id0 id1).lookup (decimal available) = none := by
    refine List.lookup_eq_none_iff.mpr (fun entry hentry => ?_)
    rw [sites, List.mem_cons, List.mem_cons, List.mem_singleton] at hentry
    rw [bne_iff_ne]
    rcases hentry with rfl | rfl | rfl
    · exact hzero
    · exact hone
    · exact haux
  rw [landing, calledOperand, if_pos rfl, hnone, Option.getD_none]

end

/-! ## The claim about whole texts -/

section

variable {text out : List UInt8} {numQubits available id0 id1 : Nat}

/-- The rule on the references of the text whose declaration is rewritten. -/
theorem meetsProgramRule_iff :
    MeetsProgramRule text (rewritten text numQubits available id0 id1) available id0 id1 ↔
      (∃ r size, declarations text = [r] ∧ r.index = decimal size ∧ size ≤ 2) ∧
      (∃ r, declarations (declared text numQubits available) = [r] ∧ r.name = ascii "q" ∧
        landing id0 id1 r = decimal available) ∧
      ∀ r ∈ operands (declared text numQubits available), Sited id0 id1 r := by
  have hreferences := references_rewritten text numQubits available id0 id1
  have hregister := register_iff id0 id1 available (references (declared text numQubits available))
  have hoperands := operands_iff id0 id1 (references (declared text numQubits available))
  rw [← hreferences] at hregister hoperands
  exact ⟨fun h => ⟨h.declared, hregister.mp h.register, hoperands.mp h.operands⟩,
    fun h => ⟨h.1, hregister.mpr h.2.1, hoperands.mpr h.2.2⟩⟩

/-- Where no declaration is rewritten outside of comments and strings. -/
theorem conforming_of_same
    (hsame : references (declared text numQubits available) = references text)
    (hdeclared : ¬ DeclaredLiterally text numQubits)
    (hcalled : ∀ gate, ¬ CalledLiterally text numQubits gate) :
    MeetsProgramRule text (rewritten text numQubits available id0 id1) available id0 id1 ↔
      Conforming text numQubits available id0 id1 := by
  rw [meetsProgramRule_iff, declarations, declarations, operands, hsame]
  constructor
  · rintro ⟨⟨r, size, hr, hindex, hsize⟩, ⟨r', hr', hname, hlanding⟩, hoperands⟩
    rw [hr, List.singleton_inj] at hr'
    rw [← hr'] at hname hlanding
    exact ⟨⟨r, size, hr, hindex, hsize, hname, Or.inr hlanding⟩, fun _ => hoperands,
      fun gate h => absurd h (hcalled gate)⟩
  · rintro ⟨⟨r, size, hr, hindex, hsize, hname, hliteral⟩, huncalled, _⟩
    exact ⟨⟨r, size, hr, hindex, hsize⟩,
      ⟨r, hr, hname, hliteral.resolve_left hdeclared⟩, huncalled hcalled⟩

theorem declarationsOf_append (front back : List Reference) :
    declarationsOf (front ++ back) = declarationsOf front ++ declarationsOf back :=
  List.filter_append front back

theorem operandsOf_append (front back : List Reference) :
    operandsOf (front ++ back) = operandsOf front ++ operandsOf back :=
  List.filter_append front back

/-- Where the register is declared literally. -/
theorem conforming_of_declared {found rest : List Reference} (hN : 2 ≤ available)
    (hbefore : references text = found ++ calledOperand [] numQubits :: rest)
    (hafter : references (declared text numQubits available) =
      found ++ calledOperand [] available :: rest)
    (hdeclared : DeclaredLiterally text numQubits)
    (hcalled : ∀ gate, ¬ CalledLiterally text numQubits gate) :
    MeetsProgramRule text (rewritten text numQubits available id0 id1) available id0 id1 ↔
      Conforming text numQubits available id0 id1 := by
  have hregisters : ∀ k, declarationsOf (found ++ calledOperand [] k :: rest) =
      declarationsOf found ++ calledOperand [] k :: declarationsOf rest :=
    fun k => declarationsOf_append _ _
  have hoperands : ∀ k, operandsOf (found ++ calledOperand [] k :: rest) =
      operandsOf found ++ operandsOf rest := fun k => operandsOf_append _ _
  rw [meetsProgramRule_iff]
  constructor
  · rintro ⟨⟨r, size, hr, hindex, hsize⟩, _, hall⟩
    -- The only declaration is the literal one, so it is one of `q`.
    have hr' := hr
    rw [declarations, hbefore, hregisters, List.append_eq_singleton_iff] at hr'
    have hsame : r = calledOperand [] numQubits := by
      rcases hr' with ⟨_, h⟩ | ⟨_, h⟩
      · exact ((List.cons.inj h).1).symm
      · exact absurd h (List.cons_ne_nil _ _)
    rw [operands, hafter, hoperands, ← hoperands numQubits, ← hbefore, ← operands] at hall
    exact ⟨⟨r, size, hr, hindex, hsize, by rw [hsame]; rfl, Or.inl hdeclared⟩, fun _ => hall,
      fun gate h => absurd h (hcalled gate)⟩
  · rintro ⟨⟨r, size, hr, hindex, hsize, _, _⟩, huncalled, _⟩
    have hall := huncalled hcalled
    rw [operands, hbefore, hoperands, ← hoperands available, ← hafter, ← operands] at hall
    refine ⟨⟨r, size, hr, hindex, hsize⟩, ⟨calledOperand [] available, ?_, rfl, landing_called hN⟩,
      hall⟩
    have hlength := congrArg List.length hr
    rw [declarations, hbefore, hregisters] at hlength
    simp only [List.length_append, List.length_cons, List.length_nil] at hlength
    have hfound : declarationsOf found = [] := List.length_eq_zero_iff.mp (by omega)
    have hrest : declarationsOf rest = [] := List.length_eq_zero_iff.mp (by omega)
    rw [declarations, hafter, hregisters, hfound, hrest, List.nil_append]

/-- Where a call ends like a declaration. -/
theorem conforming_of_called {found rest : List Reference} {gate : List UInt8} (hN : 2 ≤ available)
    (hgate : gate ≠ [])
    (hbefore : references text = found ++ calledOperand gate numQubits :: rest)
    (hafter : references (declared text numQubits available) =
      found ++ calledOperand gate available :: rest)
    (hdeclared : ¬ DeclaredLiterally text numQubits)
    (hcalled : ∀ other, CalledLiterally text numQubits other ↔ other = gate) :
    MeetsProgramRule text (rewritten text numQubits available id0 id1) available id0 id1 ↔
      Conforming text numQubits available id0 id1 := by
  -- The name of the gate is neither of the keywords.
  have hlength : ∀ keyword : List UInt8, keyword.length = 4 → gate ++ ascii "qreg" ≠ keyword := by
    intro keyword hkeyword h
    have hsum := congrArg List.length h
    have hpos := List.length_pos_iff.mpr hgate
    have hfour : (ascii "qreg").length = 4 := rfl
    rw [List.length_append, hkeyword, hfour] at hsum
    omega
  have hquantum := hlength (ascii "qreg") rfl
  have hclassical := hlength (ascii "creg") rfl
  have hregisters : ∀ k, declarationsOf (found ++ calledOperand gate k :: rest) =
      declarationsOf found ++ declarationsOf rest := by
    intro k
    rw [declarationsOf_append, declarationsOf, declarationsOf,
      List.filter_cons_of_neg (by rw [beq_iff_eq]; exact hquantum), declarationsOf]
  have hoperands : ∀ k, operandsOf (found ++ calledOperand gate k :: rest) =
      operandsOf found ++ calledOperand gate k :: operandsOf rest := by
    intro k
    rw [operandsOf_append, operandsOf, operandsOf, List.filter_cons_of_pos, operandsOf]
    rw [Bool.and_eq_true, Bool.and_eq_true, bne_iff_ne, bne_iff_ne, beq_iff_eq]
    exact ⟨⟨hquantum, hclassical⟩, rfl⟩
  have hsite : (decimal available = decimal id0 ∨ decimal available = decimal id1) ↔
      Sited id0 id1 (calledOperand gate available) := by
    rw [← sited_iff, landing_called hN]
  have herase : ∀ r, r ∈ (operands text).erase (calledOperand gate numQubits) ↔
      r ∈ operandsOf found ++ operandsOf rest := by
    intro r
    rw [operands, hbefore, hoperands]
    have hmiddle : (operandsOf found ++ calledOperand gate numQubits :: operandsOf rest).Perm
        (calledOperand gate numQubits :: (operandsOf found ++ operandsOf rest)) := List.perm_middle
    have herased := hmiddle.erase (calledOperand gate numQubits)
    rw [List.erase_cons_head] at herased
    exact herased.mem_iff
  have hsame : declarations (declared text numQubits available) = declarations text := by
    rw [declarations, declarations, hbefore, hafter, hregisters, hregisters]
  have hsplit : (∀ r ∈ operands (declared text numQubits available), Sited id0 id1 r) ↔
      Sited id0 id1 (calledOperand gate available) ∧
        ∀ r ∈ (operands text).erase (calledOperand gate numQubits), Sited id0 id1 r := by
    rw [operands, hafter, hoperands, List.forall_mem_append, List.forall_mem_cons]
    constructor
    · rintro ⟨hfound, hcall, hrest⟩
      exact ⟨hcall, fun r hr =>
        List.forall_mem_append.mpr ⟨hfound, hrest⟩ r ((herase r).mp hr)⟩
    · rintro ⟨hcall, hall⟩
      have hboth := List.forall_mem_append.mp (fun r hr => hall r ((herase r).mpr hr))
      exact ⟨hboth.1, hcall, hboth.2⟩
  rw [meetsProgramRule_iff, hsame, hsplit, ← hsite]
  constructor
  · rintro ⟨⟨r, size, hr, hindex, hsize⟩, ⟨r', hr', hname, hlanding⟩, hoperand⟩
    rw [hr, List.singleton_inj] at hr'
    rw [← hr'] at hname hlanding
    refine ⟨⟨r, size, hr, hindex, hsize, hname, Or.inr hlanding⟩,
      fun h => absurd ((hcalled gate).mpr rfl) (h gate), fun other hother => ?_⟩
    rw [(hcalled other).mp hother]
    exact hoperand
  · rintro ⟨⟨r, size, hr, hindex, hsize, hname, hliteral⟩, _, hall⟩
    exact ⟨⟨r, size, hr, hindex, hsize⟩,
      ⟨r, hr, hname, hliteral.resolve_left hdeclared⟩, hall gate ((hcalled gate).mpr rfl)⟩

/-- Which programs are compiled as they should be. The cases are where the
    declaration that is rewritten stands. -/
theorem conforming_iff (hn : numQubits ≤ 2) (hsizes : registerSizes text = [numQubits])
    (hN : 2 ≤ available) :
    MeetsProgramRule text (rewritten text numQubits available id0 id1) available id0 id1 ↔
      Conforming text numQubits available id0 id1 := by
  by_cases hoccurs : declaration numQubits <:+: text
  · rcases hoccurs with ⟨front, back, htext⟩
    rw [List.append_assoc] at htext
    have hdeclared := declared_of_occurs hn hsizes htext.symm available
    have hunique : ∀ front' back', text = front' ++ (declaration numQubits ++ back') →
        front' = front := fun front' back' h => declaration_unique hn hsizes htext.symm h
    by_cases hskips : (modeBehind front).skips = true
    · -- In a comment or a string nothing that matters is rewritten.
      refine conforming_of_same ?_ ?_ ?_
      · rw [hdeclared, ← htext, references_skipped hskips]
      · rintro ⟨front', back', htext', hmode, _⟩
        rw [hunique front' back' htext', hskips] at hmode
        exact Bool.false_ne_true hmode.symm
      · rintro gate ⟨front', back', htext', hmode, _⟩
        rw [hunique front' back' htext', hskips] at hmode
        exact Bool.false_ne_true hmode.symm
    · rw [Bool.not_eq_true] at hskips
      -- The tool reads the rest in the same way, whatever number the declaration has.
      rcases references_literal hskips back with ⟨found, rest, hreferences⟩
      have hbefore := hreferences numQubits
      have hafter := hreferences available
      rw [htext] at hbefore
      rw [← hdeclared] at hafter
      by_cases hword : (modeBehind front).word = []
      · rw [hword] at hbefore hafter
        refine conforming_of_declared hN hbefore hafter ⟨front, back, htext.symm, hskips, hword⟩ ?_
        rintro gate ⟨front', back', htext', _, hgate, hne⟩
        rw [hunique front' back' htext', hword] at hgate
        exact hne hgate.symm
      · -- Behind a word the declaration reads as the operand of a gate.
        refine conforming_of_called hN hword hbefore hafter ?_ (fun other => ⟨?_, ?_⟩)
        · rintro ⟨front', back', htext', _, hnone⟩
          rw [hunique front' back' htext'] at hnone
          exact hword hnone
        · rintro ⟨front', back', htext', _, hgate, _⟩
          rw [hunique front' back' htext'] at hgate
          exact hgate.symm
        · rintro rfl
          exact ⟨front, back, htext.symm, hskips, rfl, hword⟩
  · refine conforming_of_same ?_ ?_ ?_
    · rw [declared_of_absent hoccurs]
    · rintro ⟨front, back, htext, _⟩
      exact hoccurs ⟨front, back, by rw [List.append_assoc, htext]⟩
    · rintro gate ⟨front, back, htext, _⟩
      exact hoccurs ⟨front, back, by rw [List.append_assoc, htext]⟩

end

/-- A program that is accepted is compiled as it should be exactly when it is
    written as the tool writes programs. -/
theorem compile_conforms_iff (device : ClientDevice) (text out : List UInt8)
    (h : compile device text = .returned out) :
    ∃ numQubits available id0 id1, Accepted device text numQubits available id0 id1 ∧
      (2 ≤ available → (MeetsProgramRule text out available id0 id1 ↔
        Conforming text numQubits available id0 id1)) := by
  rcases compile_returned.mp h with ⟨numQubits, available, id0, id1, haccepted, rfl⟩
  exact ⟨numQubits, available, id0, id1, haccepted,
    conforming_iff haccepted.atMost haccepted.sizes⟩

theorem compile_conforms_iff_sample :
    ∃ numQubits available id0 id1,
      Accepted crossedDevice (ascii "qreg q[2]; cx q[0],q[1];") numQubits available id0 id1 ∧
      (2 ≤ available →
        (MeetsProgramRule (ascii "qreg q[2]; cx q[0],q[1];") (ascii "qreg q[5]; cx q[1],q[0];")
          available id0 id1 ↔
        Conforming (ascii "qreg q[2]; cx q[0],q[1];") numQubits available id0 id1)) :=
  compile_conforms_iff crossedDevice (ascii "qreg q[2]; cx q[0],q[1];")
    (ascii "qreg q[5]; cx q[1],q[0];") (by decide +kernel)

/-- A program whose register is not `q`. -/
def otherRegister : List UInt8 :=
  ascii "OPENQASM 2.0;\ninclude \"qelib1.inc\";\nqreg r[2];\nh r[0];\ncx r[0],r[1];\n"

/-- A register of another name is handed out as it is. -/
theorem compile_keeps_name :
    compile crossedDevice otherRegister = .returned otherRegister ∧
      getQubitsNum crossedDevice = .ok 5 ∧ getCouplingMap crossedDevice = .ok [(2, 1)] ∧
      ∀ id0 id1, ¬ MeetsProgramRule otherRegister otherRegister 5 id0 id1 := by
  refine ⟨by decide +kernel, by decide +kernel, by decide +kernel, fun id0 id1 h => ?_⟩
  exact absurd h.register (by decide +kernel)

end Qdmi
