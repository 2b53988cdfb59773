import Qdmi.Core.Tool
import Qdmi.Lib.Qasm

/-!
# What the Tool Writes

The loop that replaces substrings searches a text that it changes. It is a
substitution all the same: a replacement is put behind the place where the
search goes on, so what has been put in is done with, and the part of the text
still to be searched is always an end of the text it was given,
`replaceLoop_eq`. So it joins the stretches between the leftmost occurrences in
the text it was given.

Mapping the indices takes three such loops. Every text they look for begins
with the letter `q` and has no other, and no text they put in has another one
either. So the loops edit the stretch behind each `q` by itself, and what they
do to a stretch is to replace one index by another. The last loop cannot tell
an index that the first one has set aside from one that was written that way,
so an `aux` in the text is taken for a zero. Up to that the loops are a single
simultaneous substitution.

## Main definitions

* `Accepted`: What `compile` finds out about a text and a device.
* `rewritten`: The text the loops return.
* `sites`: The indices and what they are replaced by.

## Theorems

* `replaceLoop_eq`: The loop is a substitution.
* `replaceAllOccurrences_cut`: The loop ends and replaces the leftmost
  occurrences.
* `compile_returned`: What `compile` returns.
* `rewritten_eq`: The loops are one substitution.
* `compile_simultaneous`: Indices are replaced simultaneously.
-/

namespace Qdmi

open Qasm (indexRule IsWord)

/-! ## The loop -/

theorem find_eq_none {str pattern : List UInt8} {start : Nat} (hstart : start ≤ str.length)
    (h : find str pattern start = none) {i : Nat} (hi : start ≤ i) (hle : i ≤ str.length) :
    ¬ pattern <+: str.drop i := by
  rw [find, List.find?_range'_eq_none] at h
  have hno := h i hi (by omega)
  rwa [Bool.not_eq_true', ← Bool.not_eq_true, List.isPrefixOf_iff_prefix] at hno

theorem find_eq_some {str pattern : List UInt8} {start pos : Nat}
    (h : find str pattern start = some pos) :
    start ≤ pos ∧ pos ≤ str.length ∧ pattern <+: str.drop pos ∧
      ∀ i, start ≤ i → i < pos → ¬ pattern <+: str.drop i := by
  rw [find, List.find?_range'_eq_some] at h
  rcases h with ⟨hpre, hmem, hbefore⟩
  rw [List.mem_range'_1] at hmem
  refine ⟨hmem.1, by omega, List.isPrefixOf_iff_prefix.mp hpre, fun i hi hlt => ?_⟩
  have hno := hbefore i hi hlt
  rwa [Bool.not_eq_true', ← Bool.not_eq_true, List.isPrefixOf_iff_prefix] at hno

/-- Where the pattern is not found nothing is replaced. -/
theorem substitute_before {source target front rest : List UInt8} (done : List UInt8)
    (h : ∀ i, done.length ≤ i → i < done.length + front.length →
      ¬ source <+: (done ++ (front ++ rest)).drop i) :
    substitute [(source, target)] (front ++ rest) =
      front ++ substitute [(source, target)] rest := by
  refine substitute_append (fun rule hrule c ys hys hpre => ?_)
  rw [List.mem_singleton] at hrule
  rcases hys with ⟨before, hbefore⟩
  have hlength : before.length + (ys.length + 1) = front.length := by
    rw [← hbefore, List.length_append, List.length_cons]
  refine h (done.length + before.length) (by omega) (by omega) ?_
  rw [← hbefore, ← List.drop_drop, List.drop_left, List.append_assoc, List.drop_left]
  rw [hrule] at hpre
  exact hpre

/-- The loop is a substitution on the part of the text that is still to be
    searched. The induction is on the fuel, which that part is shorter than. -/
theorem replaceLoop_eq {source target : List UInt8} (hne : source ≠ []) (fuel : Nat)
    (done rest : List UInt8) (hfuel : rest.length < fuel) :
    replaceLoop source target fuel (done ++ rest) done.length =
      some (done ++ substitute [(source, target)] rest) := by
  induction fuel generalizing done rest with
  | zero => exact absurd hfuel (Nat.not_lt_zero _)
  | succ fuel ih =>
      rw [replaceLoop]
      rcases hfind : find (done ++ rest) source done.length with _ | pos
      · have hkeep : substitute [(source, target)] (rest ++ []) =
            rest ++ substitute [(source, target)] [] := by
          refine substitute_before done (fun i hi hlt => ?_)
          rw [List.append_nil]
          refine find_eq_none ?_ hfind hi ?_
          · rw [List.length_append]
            omega
          · rw [List.length_append]
            omega
        rw [List.append_nil, substitute_nil, List.append_nil] at hkeep
        rw [hkeep]
      · rcases find_eq_some hfind with ⟨hle, hend, hpre, hbefore⟩
        rw [List.length_append] at hend
        -- The text up to the place that was found, and the text behind it.
        rcases hpre with ⟨behind, hbehind⟩
        have hpos : pos = done.length + (pos - done.length) := by omega
        have hdrop : (done ++ rest).drop pos = rest.drop (pos - done.length) := by
          rw [hpos, ← List.drop_drop, List.drop_left, ← hpos]
        generalize hfront : rest.take (pos - done.length) = front
        have hlength : front.length = pos - done.length := by
          rw [← hfront, List.length_take]
          omega
        have hrest : rest = front ++ (source ++ behind) := by
          rw [hbehind, hdrop, ← hfront, List.take_append_drop]
        have hnext : (done ++ rest).take pos ++ target ++
            (done ++ rest).drop (pos + source.length) = (done ++ front ++ target) ++ behind := by
          have hat : pos = (done ++ front).length := by
            rw [List.length_append]
            omega
          rw [← List.drop_drop, ← hbehind, List.drop_left, hrest, ← List.append_assoc, hat,
            List.take_left]
        have hstart : pos + target.length = (done ++ front ++ target).length := by
          rw [List.length_append, List.length_append]
          omega
        have hpositive := List.length_pos_iff.mpr hne
        dsimp only
        rw [hnext, hstart, ih (done ++ front ++ target) behind (by
          rw [hrest, List.length_append, List.length_append] at hfuel
          omega)]
        have hsplit : substitute [(source, target)] rest =
            front ++ (target ++ substitute [(source, target)] behind) := by
          rw [hrest, substitute_before done (fun i hi hlt => by
            rw [← hrest]
            exact hbefore i hi (by omega)), substitute_head hne]
        rw [hsplit]
        simp only [List.append_assoc]

/-- `Tool::replace_all_occurrences` returns for every text it looks for. -/
theorem replaceAllOccurrences_eq {source : List UInt8} (hne : source ≠ [])
    (str target : List UInt8) :
    replaceAllOccurrences str source target = some (substitute [(source, target)] str) :=
  replaceLoop_eq hne (str.length + 1) [] str (Nat.lt_succ_self _)

/-- `Tool::replace_all_occurrences` returns, after no more searches than the
    text has characters and one, and it replaces the leftmost occurrences in
    the text it was given. What it puts in is not searched. -/
theorem replaceAllOccurrences_cut (str source target : List UInt8) (hne : source ≠ []) :
    (∃! stretches, LeftmostCut source str stretches) ∧
      ∀ stretches, LeftmostCut source str stretches →
        source.intercalate stretches = str ∧
        replaceAllOccurrences str source target = some (target.intercalate stretches) ∧
        ∀ fuel, str.length < fuel →
          replaceLoop source target fuel str 0 = some (target.intercalate stretches) := by
  refine ⟨existsUnique_leftmostCut hne str, fun stretches hcut => ?_⟩
  have hloop : ∀ fuel, str.length < fuel →
      replaceLoop source target fuel str 0 = some (target.intercalate stretches) := by
    intro fuel hfuel
    rw [← substitute_leftmostCut hne hcut target]
    exact replaceLoop_eq hne fuel [] str hfuel
  exact ⟨leftmostCut_text hcut, hloop _ (Nat.lt_succ_self _), hloop⟩

/-- Of two occurrences that overlap the first is replaced, and the one that
    comes about behind it stays. -/
theorem replaceAllOccurrences_overlap :
    ascii "aa" ≠ [] ∧ LeftmostCut (ascii "aa") (ascii "aaa") [[], ascii "a"] ∧
      replaceAllOccurrences (ascii "aaa") (ascii "aa") (ascii "ba") = some (ascii "baa") := by
  have hne : ascii "aa" ≠ [] := by
    decide
  have hlast : ¬ ascii "aa" <:+: ascii "a" := by
    decide
  have hcut : LeftmostCut (ascii "aa") (ascii "aaa") [[], ascii "a"] := by
    refine LeftmostCut.cut (x := []) (fun front back heq => ?_) (LeftmostCut.last hlast)
    have hlength := congrArg List.length heq
    simp only [List.nil_append, List.length_append] at hlength
    exact List.length_eq_zero_iff.mp (by omega)
  have hall := (replaceAllOccurrences_cut (ascii "aaa") (ascii "aa") (ascii "ba") hne).2
  exact ⟨hne, hcut, (hall _ hcut).2.1⟩

/-! ## Texts of the tool -/

theorem decimal_ne_nil (n : Nat) : decimal n ≠ [] := by
  rw [decimal, ne_eq, List.map_eq_nil_iff]
  exact Nat.toDigits_ne_nil

theorem digit_of_mem {n : Nat} {d : Char} (hd : d ∈ Nat.toDigits 10 n) :
    48 ≤ d.toNat ∧ d.toNat ≤ 57 := by
  have hdigit := Nat.isDigit_of_mem_toDigits (by decide) (Nat.le_refl 10) hd
  rw [Char.isDigit, Bool.and_eq_true, decide_eq_true_eq, decide_eq_true_eq] at hdigit
  exact hdigit

theorem mem_decimal {n : Nat} {c : UInt8} (h : c ∈ decimal n) : 48 ≤ c ∧ c ≤ 57 := by
  rcases List.mem_map.mp h with ⟨d, hd, rfl⟩
  rcases digit_of_mem hd with ⟨hlow, hhigh⟩
  have hbyte : (UInt8.ofNat d.toNat).toNat = d.toNat := by
    rw [UInt8.toNat_ofNat']
    omega
  rw [UInt8.le_iff_toNat_le, UInt8.le_iff_toNat_le, hbyte]
  exact ⟨hlow, hhigh⟩

theorem isWord_decimal (n : Nat) : IsWord (decimal n) := by
  refine ⟨decimal_ne_nil n, fun c hc => ?_⟩
  rcases mem_decimal hc with ⟨hlow, hhigh⟩
  rw [Qasm.wordByte, decide_eq_true hlow, decide_eq_true hhigh]
  rfl

/-- A printed number has nothing but digits. -/
theorem not_mem_decimal {n : Nat} {c : UInt8} (hc : c < 48 ∨ 57 < c) : c ∉ decimal n := by
  intro h
  rcases mem_decimal h with ⟨hlow, hhigh⟩
  rcases hc with hc | hc
  · exact absurd hlow (UInt8.not_le.mpr hc)
  · exact absurd hhigh (UInt8.not_le.mpr hc)

theorem decimal_injective {n k : Nat} (h : decimal n = decimal k) : n = k := by
  -- The characters can be read back from the bytes, and the number from them.
  have hback : ∀ n, (decimal n).map (fun c => Char.ofNat c.toNat) = Nat.toDigits 10 n := by
    intro n
    have hchar : ∀ d ∈ Nat.toDigits 10 n, Char.ofNat (UInt8.ofNat d.toNat).toNat = d := by
      intro d hd
      have hdigit := digit_of_mem hd
      rw [UInt8.toNat_ofNat', Nat.mod_eq_of_lt (by omega), Char.ofNat_toNat]
    rw [decimal, List.map_map]
    exact (List.map_congr_left hchar).trans (List.map_id' _)
  have hdigits := congrArg (List.map (fun c => Char.ofNat c.toNat)) h
  rw [hback, hback] at hdigits
  rw [← Nat.ofDigitChars_ten_toDigits (n := n), hdigits, Nat.ofDigitChars_ten_toDigits]

/-! ## The three loops -/

/-- The text behind a `q` that is looked for or put in. -/
def bracketed (index : List UInt8) : List UInt8 := 91 :: (index ++ [93])

/-- The indices and what they are replaced by. The last entry is there for an
    index that the text has set aside itself. -/
def sites (id0 id1 : Nat) : List (List UInt8 × List UInt8) :=
  [(ascii "0", decimal id0), (ascii "1", decimal id1), (ascii "aux", decimal id0)]

/-- The text after the declaration has been replaced. -/
def declared (text : List UInt8) (numQubits available : Nat) : List UInt8 :=
  substitute [(declaration numQubits, declaration available)] text

/-- The text the loops return. -/
def rewritten (text : List UInt8) (numQubits available id0 id1 : Nat) : List UInt8 :=
  substitute [(indexedQ (ascii "aux"), indexedQ (decimal id0))]
    (substitute [(indexedQ (ascii "1"), indexedQ (decimal id1))]
      (substitute [(indexedQ (ascii "0"), indexedQ (ascii "aux"))]
        (declared text numQubits available)))

theorem rewrite_eq (text : List UInt8) (numQubits available id0 id1 : Nat) :
    rewrite text numQubits available id0 id1 =
      .returned (rewritten text numQubits available id0 id1) := by
  have hdeclaration : declaration numQubits ≠ [] := List.cons_ne_nil _ _
  have hindexed : ∀ index, indexedQ index ≠ [] := fun index => List.cons_ne_nil _ _
  rw [rewrite, replaceAllOccurrences_eq hdeclaration, orDiverge,
    replaceAllOccurrences_eq (hindexed _), orDiverge, replaceAllOccurrences_eq (hindexed _),
    orDiverge, replaceAllOccurrences_eq (hindexed _), orDiverge]
  rfl

theorem bracketed_inj {k k' s : List UInt8} (hk : 93 ∉ k) (hk' : 93 ∉ k')
    (h : bracketed k <+: bracketed k' ++ s) : k = k' := by
  rw [bracketed, bracketed, List.cons_append, List.cons_prefix_cons, List.append_assoc] at h
  exact terminated_inj hk hk' h.2

theorem not_mem_bracketed {k : List UInt8} (hk : 113 ∉ k) : 113 ∉ bracketed k := by
  rw [bracketed, List.mem_cons, List.mem_append, List.mem_singleton]
  rintro (h | h | h)
  · exact absurd h (by decide)
  · exact hk h
  · exact absurd h (by decide)

/-- The three loops on the stretch behind a `q`. -/
theorem edit_sites (id0 id1 : Nat) (y : List UInt8) :
    edit [(bracketed (ascii "aux"), bracketed (decimal id0))]
      (edit [(bracketed (ascii "1"), bracketed (decimal id1))]
        (edit [(bracketed (ascii "0"), bracketed (ascii "aux"))] y)) =
    edit ((sites id0 id1).map (fun entry => (bracketed entry.1, bracketed entry.2))) y := by
  have hclose : (93 : UInt8) ∉ decimal id1 := not_mem_decimal (by decide)
  rw [sites, List.map_cons, List.map_cons, List.map_cons, List.map_nil]
  by_cases h0 : bracketed (ascii "0") <+: y
  · rcases h0 with ⟨s, rfl⟩
    have h1 : ¬ bracketed (ascii "1") <+: bracketed (ascii "aux") ++ s :=
      fun h => absurd (bracketed_inj (by decide) (by decide) h) (by decide)
    rw [edit_head, edit_tail h1, edit_nil, edit_head, edit_head]
  · by_cases h1 : bracketed (ascii "1") <+: y
    · rcases h1 with ⟨s, rfl⟩
      -- The site of the second qubit is a number and not the name set aside.
      have haux : ¬ bracketed (ascii "aux") <+: bracketed (decimal id1) ++ s := by
        intro h
        have hmem : (97 : UInt8) ∈ decimal id1 := by
          rw [← bracketed_inj (by decide) hclose h]
          decide
        exact not_mem_decimal (by decide) hmem
      rw [edit_tail h0, edit_nil, edit_head, edit_tail haux, edit_nil, edit_tail h0, edit_head]
    · rw [edit_tail h0, edit_nil, edit_tail h1, edit_nil, edit_tail h0, edit_tail h1]

/-- One loop on a text that is cut at every `q`. -/
theorem substitute_indexedQ {k k' x : List UInt8} {ys : List (List UInt8)} (hk : 113 ∉ k)
    (hx : 113 ∉ x) (hys : ∀ y ∈ ys, 113 ∉ y) :
    substitute [(indexedQ k, indexedQ k')] (marked 113 x ys) =
      marked 113 x (ys.map (edit [(bracketed k, bracketed k')])) := by
  have hrules : ∀ rule ∈ [(bracketed k, bracketed k')], (113 : UInt8) ∉ rule.1 :=
    List.forall_mem_singleton.mpr (not_mem_bracketed hk)
  exact substitute_marked hrules hx hys

/-- A loop puts in no further `q`. -/
theorem not_mem_edited {k k' : List UInt8} {ys : List (List UInt8)} (hk' : 113 ∉ k')
    (hys : ∀ y ∈ ys, 113 ∉ y) :
    ∀ y ∈ ys.map (edit [(bracketed k, bracketed k')]), (113 : UInt8) ∉ y := by
  intro z hz
  rcases List.mem_map.mp hz with ⟨y, hy, rfl⟩
  refine not_mem_edit (hys y hy) (fun rule hrule => ?_)
  rw [List.mem_singleton.mp hrule]
  exact not_mem_bracketed hk'

theorem not_mem_sites {id0 id1 : Nat} :
    ∀ rule ∈ (sites id0 id1).map (fun entry => (bracketed entry.1, bracketed entry.2)),
      (113 : UInt8) ∉ rule.1 := by
  intro rule hrule
  rcases List.mem_map.mp hrule with ⟨entry, hentry, rfl⟩
  rw [sites, List.mem_cons, List.mem_cons, List.mem_singleton] at hentry
  have hzero : (113 : UInt8) ∉ ascii "0" := by decide
  have hone : (113 : UInt8) ∉ ascii "1" := by decide
  have haux : (113 : UInt8) ∉ ascii "aux" := by decide
  rcases hentry with rfl | rfl | rfl
  · exact not_mem_bracketed hzero
  · exact not_mem_bracketed hone
  · exact not_mem_bracketed haux

/-- The loops are one substitution. -/
theorem rewritten_eq (text : List UInt8) (numQubits available id0 id1 : Nat) :
    rewritten text numQubits available id0 id1 =
      substitute ((sites id0 id1).map (indexRule 113)) (declared text numQubits available) := by
  rcases exists_marked (113 : UInt8) (declared text numQubits available) with ⟨x, ys, hd, hx, hall⟩
  have haux : (113 : UInt8) ∉ ascii "aux" := by decide
  have hfirst := not_mem_edited (k := ascii "0") haux hall
  have hsecond := not_mem_edited (k := ascii "1") (not_mem_decimal (n := id1) (by decide)) hfirst
  have hrules : (sites id0 id1).map (indexRule 113) =
      ((sites id0 id1).map (fun entry => (bracketed entry.1, bracketed entry.2))).map
        (atMarker 113) := rfl
  rw [rewritten, hd, substitute_indexedQ (by decide) hx hall,
    substitute_indexedQ (by decide) hx hfirst, substitute_indexedQ haux hx hsecond,
    List.map_map, List.map_map, hrules, substitute_marked not_mem_sites hx hall]
  exact congrArg (marked 113 x) (List.map_congr_left (fun y _ => edit_sites id0 id1 y))

/-! ## What is returned -/

/-- What `compile` finds out about a text and a device before it rewrites the
    text: the declared size, the qubits of the device and the two sites. -/
structure Accepted (device : ClientDevice) (text : List UInt8)
    (numQubits available id0 id1 : Nat) : Prop where
  sizes : registerSizes text = [numQubits]
  atMost : numQubits ≤ 2
  qubits : getQubitsNum device = .ok available
  enough : numQubits ≤ available
  edge : ∃ edge rest, getCouplingMap device = .ok (edge :: rest) ∧
    getSiteId device edge.1 = .ok id0 ∧ getSiteId device edge.2 = .ok id1

theorem orThrow_eq_returned {α : Type} {result : Except Thrown α} {rest : α → Compiled}
    {text : List UInt8} :
    orThrow result rest = .returned text ↔
      ∃ value, result = .ok value ∧ rest value = .returned text := by
  constructor
  · intro h
    rcases result with exception | value
    · exact absurd h (by simp only [orThrow, reduceCtorEq, not_false_eq_true])
    · exact ⟨value, rfl, h⟩
  · rintro ⟨value, rfl, h⟩
    exact h

/-- What `compile` returns. -/
theorem compile_returned {device : ClientDevice} {text out : List UInt8} :
    compile device text = .returned out ↔ ∃ numQubits available id0 id1,
      Accepted device text numQubits available id0 id1 ∧
      out = rewritten text numQubits available id0 id1 := by
  constructor
  · intro h
    rw [compile] at h
    split at h
    · exact absurd h (by simp only [reduceCtorEq, not_false_eq_true])
    · exact absurd h (by simp only [reduceCtorEq, not_false_eq_true])
    · rename_i numQubits hsizes
      by_cases hmany : 2 < numQubits
      · rw [if_pos hmany] at h
        exact absurd h (by simp only [reduceCtorEq, not_false_eq_true])
      rw [if_neg hmany] at h
      rcases orThrow_eq_returned.mp h with ⟨available, hqubits, h⟩
      by_cases hfew : available < numQubits
      · rw [if_pos hfew] at h
        exact absurd h (by simp only [reduceCtorEq, not_false_eq_true])
      rw [if_neg hfew] at h
      rcases orThrow_eq_returned.mp h with ⟨couplingMap, hmap, h⟩
      rcases couplingMap with _ | ⟨edge, rest⟩
      · exact absurd h (by simp only [reduceCtorEq, not_false_eq_true])
      dsimp only at h
      rcases orThrow_eq_returned.mp h with ⟨id0, hfirst, h⟩
      rcases orThrow_eq_returned.mp h with ⟨id1, hsecond, h⟩
      -- The qubits are asked for again, with the same answer.
      rcases orThrow_eq_returned.mp h with ⟨total, htotal, h⟩
      rw [htotal, Except.ok.injEq] at hqubits
      rw [hqubits] at htotal h
      rw [rewrite_eq, Compiled.returned.injEq] at h
      exact ⟨numQubits, available, id0, id1,
        ⟨hsizes, Nat.le_of_not_lt hmany, htotal, Nat.le_of_not_lt hfew,
          edge, rest, hmap, hfirst, hsecond⟩, h.symm⟩
  · rintro ⟨numQubits, available, id0, id1, haccepted, rfl⟩
    rcases haccepted.edge with ⟨edge, rest, hmap, hfirst, hsecond⟩
    rw [compile, haccepted.sizes]
    dsimp only
    rw [if_neg (Nat.not_lt.mpr haccepted.atMost), haccepted.qubits, orThrow,
      if_neg (Nat.not_lt.mpr haccepted.enough), hmap, orThrow]
    dsimp only
    rw [hfirst, orThrow, hsecond, orThrow, orThrow, rewrite_eq]

/-! ## Simultaneous replacement -/

/-- The two indices that are replaced. -/
def simultaneous (id0 id1 : Nat) : List (List UInt8 × List UInt8) :=
  [(indexedQ (ascii "0"), indexedQ (decimal id0)), (indexedQ (ascii "1"), indexedQ (decimal id1))]

theorem simultaneous_eq (id0 id1 : Nat) :
    simultaneous id0 id1 = [(bracketed (ascii "0"), bracketed (decimal id0)),
      (bracketed (ascii "1"), bracketed (decimal id1))].map (atMarker 113) := rfl

/-- Where nothing is set aside the substitution has two rules. -/
theorem rewritten_eq_simultaneous {text : List UInt8} {numQubits available id0 id1 : Nat}
    (haux : ¬ indexedQ (ascii "aux") <:+: declared text numQubits available) :
    rewritten text numQubits available id0 id1 =
      substitute (simultaneous id0 id1) (declared text numQubits available) := by
  have hrules : (sites id0 id1).map (indexRule 113) =
      simultaneous id0 id1 ++ [(indexedQ (ascii "aux"), indexedQ (decimal id0))] := rfl
  rw [rewritten_eq, hrules]
  refine substitute_unused (fun rule hrule => ?_)
  rw [List.mem_singleton.mp hrule]
  exact haux

theorem not_mem_simultaneous {id0 id1 : Nat} :
    ∀ rule ∈ [(bracketed (ascii "0"), bracketed (decimal id0)),
      (bracketed (ascii "1"), bracketed (decimal id1))], (113 : UInt8) ∉ rule.1 := by
  have hzero : (113 : UInt8) ∉ ascii "0" := by decide
  have hone : (113 : UInt8) ∉ ascii "1" := by decide
  intro rule hrule
  rw [List.mem_cons, List.mem_singleton] at hrule
  rcases hrule with rfl | rfl
  · exact not_mem_bracketed hzero
  · exact not_mem_bracketed hone

/-- Neither index is the number of qubits of the device. -/
theorem simultaneous_skips (id0 id1 : Nat) {available : Nat} (hN : 2 ≤ available)
    (s : List UInt8) :
    ∀ rule ∈ simultaneous id0 id1, ¬ rule.1 <+: indexedQ (decimal available) ++ s := by
  have hindex : ∀ k : Nat, k < 2 →
      ¬ indexedQ (decimal k) <+: indexedQ (decimal available) ++ s := by
    intro k hk hpre
    have hbehind : bracketed (decimal k) <+: bracketed (decimal available) ++ s :=
      (List.cons_prefix_cons.mp hpre).2
    -- Two numbers written alike are equal.
    have hsame := decimal_injective (bracketed_inj (not_mem_decimal (by decide))
      (not_mem_decimal (by decide)) hbehind)
    omega
  intro rule hrule
  rw [simultaneous, List.mem_cons, List.mem_singleton] at hrule
  rcases hrule with rfl | rfl
  · exact hindex 0 (by decide)
  · exact hindex 1 (by decide)

/-- The declaration with the size of the device is left as it is. -/
theorem declaration_unaffected {id0 id1 available : Nat} (hN : 2 ≤ available)
    (front back : List UInt8) :
    substitute (simultaneous id0 id1) (front ++ (declaration available ++ back)) =
      substitute (simultaneous id0 id1) front ++
        (declaration available ++ substitute (simultaneous id0 id1) back) := by
  -- The declaration has two letters `q`, and nothing is replaced at either.
  have hparts : ∀ s, declaration available ++ s =
      113 :: (ascii "reg " ++ (indexedQ (decimal available) ++ (ascii ";" ++ s))) := by
    intro s
    simp only [declaration, indexedQ, List.append_assoc]
    rfl
  have hfirst : ∀ s, ∀ rule ∈ simultaneous id0 id1, ¬ rule.1 <+: 113 :: (ascii "reg " ++ s) := by
    intro s rule hrule hpre
    rw [simultaneous, List.mem_cons, List.mem_singleton] at hrule
    rcases hrule with rfl | rfl
    · exact absurd (List.cons_prefix_cons.mp (List.cons_prefix_cons.mp hpre).2).1 (by decide)
    · exact absurd (List.cons_prefix_cons.mp (List.cons_prefix_cons.mp hpre).2).1 (by decide)
  have hbracket : (113 : UInt8) ∉ bracketed (decimal available) ++ ascii ";" := by
    rw [List.mem_append, not_or]
    exact ⟨not_mem_bracketed (not_mem_decimal (by decide)), by decide⟩
  have hsecond : substitute (simultaneous id0 id1)
        (indexedQ (decimal available) ++ (ascii ";" ++ back)) =
      indexedQ (decimal available) ++ (ascii ";" ++ substitute (simultaneous id0 id1) back) := by
    have hcons : ∀ s, indexedQ (decimal available) ++ (ascii ";" ++ s) =
        113 :: ((bracketed (decimal available) ++ ascii ";") ++ s) := by
      intro s
      rw [List.append_assoc]
      rfl
    have hskip := simultaneous_skips id0 id1 hN (ascii ";" ++ back)
    rw [hcons] at hskip ⊢
    rw [substitute_cons hskip, simultaneous_eq, substitute_unmarked hbracket, ← simultaneous_eq,
      ← hcons]
  have hletters : (113 : UInt8) ∉ ascii "reg " := by decide
  have hdeclaration : substitute (simultaneous id0 id1) (declaration available ++ back) =
      declaration available ++ substitute (simultaneous id0 id1) back := by
    rw [hparts, hparts, substitute_cons (hfirst _), simultaneous_eq, substitute_unmarked hletters,
      ← simultaneous_eq, hsecond]
  rw [← hdeclaration, hparts, simultaneous_eq, substitute_append_marker not_mem_simultaneous]

/-- For every text that is accepted and every edge the indices are replaced
    simultaneously, unless the text has set an index aside itself, and the
    rewritten declaration is left as it is. -/
theorem compile_simultaneous (device : ClientDevice) (text out : List UInt8)
    (h : compile device text = .returned out) :
    ∃ numQubits available id0 id1, Accepted device text numQubits available id0 id1 ∧
      (¬ indexedQ (ascii "aux") <:+: declared text numQubits available →
        out = substitute (simultaneous id0 id1) (declared text numQubits available)) ∧
      (2 ≤ available → ∀ front back,
        substitute (simultaneous id0 id1) (front ++ (declaration available ++ back)) =
          substitute (simultaneous id0 id1) front ++
            (declaration available ++ substitute (simultaneous id0 id1) back)) := by
  rcases compile_returned.mp h with ⟨numQubits, available, id0, id1, haccepted, rfl⟩
  exact ⟨numQubits, available, id0, id1, haccepted, rewritten_eq_simultaneous,
    fun hN front back => declaration_unaffected hN front back⟩

/-- Write bytes into the buffer of a query. -/
def replyWith (bytes : List UInt8) (out : OutArgs) : Reply :=
  { status := .success, value := out.value.map (fun _ => bytes),
    sizeRet := out.reported bytes.length }

/-- A device of five qubits whose only edge goes from its second to its first
    site. -/
def crossedDevice : ClientDevice where
  queryDeviceProperty prop out :=
    if prop = DeviceProperty.qubitsnum.code then replyWith (sizeTBytes 5) out
    else if prop = DeviceProperty.couplingmap.code then replyWith (sizeTBytes 2 ++ sizeTBytes 1) out
    else out.reject .errorNotsupported
  querySiteProperty site prop out :=
    if prop = SiteProperty.index.code then replyWith (sizeTBytes (site - 1)) out
    else out.reject .errorNotsupported

theorem compile_simultaneous_sample :
    ∃ numQubits available id0 id1,
      Accepted crossedDevice (ascii "qreg q[2]; cx q[0],q[1];") numQubits available id0 id1 ∧
      (¬ indexedQ (ascii "aux") <:+:
          declared (ascii "qreg q[2]; cx q[0],q[1];") numQubits available →
        ascii "qreg q[5]; cx q[1],q[0];" = substitute (simultaneous id0 id1)
          (declared (ascii "qreg q[2]; cx q[0],q[1];") numQubits available)) ∧
      (2 ≤ available → ∀ front back,
        substitute (simultaneous id0 id1) (front ++ (declaration available ++ back)) =
          substitute (simultaneous id0 id1) front ++
            (declaration available ++ substitute (simultaneous id0 id1) back)) :=
  compile_simultaneous crossedDevice (ascii "qreg q[2]; cx q[0],q[1];")
    (ascii "qreg q[5]; cx q[1],q[0];") (by decide +kernel)

end Qdmi
