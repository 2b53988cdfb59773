import Mathlib.Data.List.TakeWhile
import Qdmi.Theory.Tool.Rewrite

/-!
# The Declaration the Tool Finds

The tool looks for a register declaration twice: with a regular expression that
takes any name, and as the literal text of a declaration of `q` that it
rewrites. What the expression counts bounds what is rewritten.

No match of the expression begins inside another one: a match has one blank, and
it stands in its fifth place. Going over the matches one behind the other
therefore finds every place at which the expression matches,
`registerSizes_cons`. A literal declaration is such a place. So in a text that
is accepted it occurs at most once, and rewriting it changes the size in this
one place and nothing else.

## Theorems

* `registerMatch_eq_some`: What the expression matches.
* `registerSizes_cons`: Every place at which it matches is found.
* `declaration_unique`: A literal declaration occurs once.
* `declared_of_occurs`, `declared_of_absent`: What rewriting the declaration does.
-/

namespace Qdmi

/-- What the expression matches. -/
theorem registerMatch_eq_some {str : List UInt8} {size length : Nat}
    (h : registerMatch str = some (size, length)) :
    ∃ name d rest, str = ascii "qreg " ++ (name ++ 91 :: d :: 93 :: 59 :: rest) ∧
      (∀ c ∈ name, isWord c = true) ∧ isDigit d = true ∧ size = d.toNat - 48 ∧
      length = 5 + name.length + 4 := by
  rw [registerMatch] at h
  split at h
  · rename_i hpre
    rcases List.isPrefixOf_iff_prefix.mp hpre with ⟨behind, hbehind⟩
    have hdrop : str.drop 5 = behind := by
      rw [← hbehind]
      rfl
    rw [hdrop] at h
    dsimp only at h
    split at h
    -- Behind the name come the bracket, a digit and the end of the declaration.
    · rename_i d rest hrest
      split at h
      · rename_i hcond
        rw [Bool.and_eq_true] at hcond
        rw [Option.some.injEq, Prod.mk.injEq] at h
        refine ⟨behind.takeWhile isWord, d, rest, ?_, fun c hc => ?_, hcond.2, h.1.symm, h.2.symm⟩
        · rw [← hrest, List.takeWhile_append_dropWhile, hbehind]
        · exact List.mem_takeWhile_imp hc
      · exact absurd h (by simp only [reduceCtorEq, not_false_eq_true])
    · exact absurd h (by simp only [reduceCtorEq, not_false_eq_true])
  · exact absurd h (by simp only [reduceCtorEq, not_false_eq_true])

/-- A keyword with its blank does not begin inside a name with its bracket. -/
theorem keyword_not_in_name {keyword name rest : List UInt8} (hkeyword : 91 ∉ keyword)
    (hname : 32 ∉ name) : ¬ keyword ++ [32] <+: name ++ 91 :: rest := by
  intro h
  induction keyword generalizing name with
  | nil =>
      rcases name with _ | ⟨b, name⟩
      · exact absurd (List.cons_prefix_cons.mp h).1 (by decide)
      · exact hname ((List.cons_prefix_cons.mp h).1 ▸ List.mem_cons_self)
  | cons a keyword ih =>
      rcases name with _ | ⟨b, name⟩
      · exact hkeyword ((List.cons_prefix_cons.mp h).1 ▸ List.mem_cons_self)
      · exact ih (fun hm => hkeyword (List.mem_cons_of_mem _ hm))
          (fun hm => hname (List.mem_cons_of_mem _ hm)) (List.cons_prefix_cons.mp h).2

theorem registerMatch_eq_none {str : List UInt8} (h : ¬ ascii "qreg " <+: str) :
    registerMatch str = none := by
  rw [registerMatch, if_neg (fun hpre => h (List.isPrefixOf_iff_prefix.mp hpre))]

/-- No match begins inside another one. -/
theorem no_match_inside {str : List UInt8} {size length i : Nat}
    (h : registerMatch str = some (size, length)) (hpos : 0 < i) (hlt : i < length) :
    registerMatch (str.drop i) = none := by
  rcases registerMatch_eq_some h with ⟨name, d, rest, rfl, hname, hd, _, rfl⟩
  refine registerMatch_eq_none (fun hpre => ?_)
  -- The keyword ends with a blank and a name has none.
  have hblank : (32 : UInt8) ∉ name := fun hm => absurd (hname 32 hm) (by decide)
  by_cases hi : i < 5
  · -- Inside the keyword no other one begins.
    have hcases : i = 1 ∨ i = 2 ∨ i = 3 ∨ i = 4 := by omega
    rcases hcases with rfl | rfl | rfl | rfl <;>
      exact absurd (List.cons_prefix_cons.mp hpre).1 (by decide)
  · have hbehind : (ascii "qreg " ++ (name ++ 91 :: d :: 93 :: 59 :: rest)).drop i =
        (name ++ 91 :: d :: 93 :: 59 :: rest).drop (i - 5) := by
      rw [List.drop_append, List.drop_eq_nil_of_le (by exact Nat.le_of_not_lt hi), List.nil_append]
      rfl
    rw [hbehind] at hpre
    -- Behind the keyword come the name and four more characters.
    by_cases hinside : i - 5 < name.length
    · rw [List.drop_append, Nat.sub_eq_zero_of_le (Nat.le_of_lt hinside), List.drop_zero] at hpre
      have hkeyword : (91 : UInt8) ∉ ascii "qreg" := by decide
      exact keyword_not_in_name hkeyword (fun hm => hblank (List.mem_of_mem_drop hm)) hpre
    · rw [List.drop_append, List.drop_eq_nil_of_le (Nat.le_of_not_lt hinside),
        List.nil_append] at hpre
      have hcases : i - 5 - name.length = 0 ∨ i - 5 - name.length = 1 ∨
          i - 5 - name.length = 2 ∨ i - 5 - name.length = 3 := by omega
      rcases hcases with hat | hat | hat | hat
      · rw [hat] at hpre
        exact absurd (List.cons_prefix_cons.mp hpre).1 (by decide)
      · rw [hat] at hpre
        rw [← (List.cons_prefix_cons.mp hpre).1] at hd
        exact absurd hd (by decide)
      · rw [hat] at hpre
        exact absurd (List.cons_prefix_cons.mp hpre).1 (by decide)
      · rw [hat] at hpre
        exact absurd (List.cons_prefix_cons.mp hpre).1 (by decide)

theorem registerSizesFrom_skip {skip : Nat} {str : List UInt8}
    (h : ∀ i, i < skip → registerMatch (str.drop i) = none) :
    registerSizesFrom skip str = registerSizes str := by
  induction str generalizing skip with
  | nil => cases skip <;> rfl
  | cons c str ih =>
      cases skip with
      | zero => rfl
      | succ skip =>
          have hnone : registerMatch (c :: str) = none := h 0 (Nat.succ_pos skip)
          rw [registerSizesFrom, ih (fun i hi => h (i + 1) (Nat.succ_lt_succ hi)), registerSizes,
            registerSizes, registerSizesFrom, hnone]

/-- Every place at which the expression matches is found. -/
theorem registerSizes_cons (c : UInt8) (str : List UInt8) :
    registerSizes (c :: str) = ((registerMatch (c :: str)).map Prod.fst).toList ++
      registerSizes str := by
  rw [registerSizes, registerSizesFrom]
  rcases hmatch : registerMatch (c :: str) with _ | ⟨size, length⟩
  · rfl
  · dsimp only
    rw [registerSizesFrom_skip (fun i hi =>
      no_match_inside (i := i + 1) hmatch (Nat.succ_pos i) (by omega))]
    rfl

theorem exists_registerSizes_append (front str : List UInt8) :
    ∃ found, registerSizes (front ++ str) = found ++ registerSizes str := by
  induction front with
  | nil => exact ⟨[], rfl⟩
  | cons c front ih =>
      rcases ih with ⟨found, hfound⟩
      refine ⟨((registerMatch (c :: (front ++ str))).map Prod.fst).toList ++ found, ?_⟩
      rw [List.cons_append, registerSizes_cons, hfound, List.append_assoc]

/-! ## Literal declarations -/

theorem registerMatch_declaration {numQubits : Nat} (hn : numQubits ≤ 2) (back : List UInt8) :
    registerMatch (declaration numQubits ++ back) = some (numQubits, 10) := by
  have hcases : numQubits = 0 ∨ numQubits = 1 ∨ numQubits = 2 := by omega
  rcases hcases with rfl | rfl | rfl <;> rfl

theorem registerSizes_declaration {numQubits : Nat} (hn : numQubits ≤ 2) (back : List UInt8) :
    ∃ found, registerSizes (declaration numQubits ++ back) =
      numQubits :: (found ++ registerSizes back) := by
  have hcons : declaration numQubits = 113 :: (declaration numQubits).tail := rfl
  rcases exists_registerSizes_append (declaration numQubits).tail back with ⟨found, hfound⟩
  have hmatch := registerMatch_declaration hn back
  refine ⟨found, ?_⟩
  rw [hcons, List.cons_append] at hmatch ⊢
  rw [registerSizes_cons, hmatch, hfound]
  rfl

section

variable {text front back : List UInt8} {numQubits : Nat}

/-- In a text with one match no literal declaration begins before another. -/
theorem no_declaration_before (hn : numQubits ≤ 2) (hsizes : registerSizes text = [numQubits])
    (htext : text = front ++ (declaration numQubits ++ back)) {c : UInt8} {ys : List UInt8}
    (hys : c :: ys <:+ front) :
    ¬ declaration numQubits <+: c :: (ys ++ (declaration numQubits ++ back)) := by
  rintro ⟨rest, hrest⟩
  rcases hys with ⟨before, hbefore⟩
  -- The sizes of the one that begins here and of the one behind it.
  rcases exists_registerSizes_append before (c :: (ys ++ (declaration numQubits ++ back)))
    with ⟨first, hfirst⟩
  rcases exists_registerSizes_append ys (declaration numQubits ++ back) with ⟨second, hsecond⟩
  rcases registerSizes_declaration hn back with ⟨third, hthird⟩
  have hmatch := registerMatch_declaration hn rest
  rw [hrest] at hmatch
  have hall : registerSizes text =
      first ++ numQubits :: (second ++ numQubits :: (third ++ registerSizes back)) := by
    rw [htext, ← hbefore, List.append_assoc, List.cons_append, hfirst, registerSizes_cons, hmatch,
      hsecond, hthird]
    rfl
  rw [hall] at hsizes
  have hlength := congrArg List.length hsizes
  simp only [List.length_append, List.length_cons, List.length_nil] at hlength
  omega

theorem no_declaration_behind (hn : numQubits ≤ 2) (hsizes : registerSizes text = [numQubits])
    (htext : text = front ++ (declaration numQubits ++ back)) :
    ¬ declaration numQubits <:+: back := by
  rintro ⟨before, after, hback⟩
  rcases exists_registerSizes_append front (declaration numQubits ++ back) with ⟨first, hfirst⟩
  rcases registerSizes_declaration hn back with ⟨second, hsecond⟩
  rcases exists_registerSizes_append before (declaration numQubits ++ after) with ⟨third, hthird⟩
  rcases registerSizes_declaration hn after with ⟨fourth, hfourth⟩
  rw [htext, hfirst, hsecond, ← hback, List.append_assoc, hthird, hfourth] at hsizes
  have hlength := congrArg List.length hsizes
  simp only [List.length_append, List.length_cons, List.length_nil] at hlength
  omega

/-- A literal declaration occurs once. -/
theorem declaration_unique (hn : numQubits ≤ 2) (hsizes : registerSizes text = [numQubits])
    (htext : text = front ++ (declaration numQubits ++ back)) {front' back' : List UInt8}
    (htext' : text = front' ++ (declaration numQubits ++ back')) : front' = front := by
  have hboth := htext.symm.trans htext'
  -- Of two different places one would be behind the other.
  rcases List.append_eq_append_iff.mp hboth with ⟨gap, hfront, hgap⟩ | ⟨gap, hfront, hgap⟩
  · rcases gap with _ | ⟨c, gap⟩
    · rw [hfront, List.append_nil]
    · refine absurd ?_ (no_declaration_before hn hsizes htext'
        ⟨front, hfront.symm⟩)
      rw [← List.cons_append, ← hgap]
      exact List.prefix_append _ _
  · rcases gap with _ | ⟨c, gap⟩
    · rw [hfront, List.append_nil]
    · refine absurd ?_ (no_declaration_before hn hsizes htext
        ⟨front', hfront.symm⟩)
      rw [← List.cons_append, ← hgap]
      exact List.prefix_append _ _

/-- Rewriting the declaration changes the size in the one place where it is
    written literally. -/
theorem declared_of_occurs (hn : numQubits ≤ 2) (hsizes : registerSizes text = [numQubits])
    (htext : text = front ++ (declaration numQubits ++ back)) (available : Nat) :
    declared text numQubits available = front ++ (declaration available ++ back) := by
  have hne : declaration numQubits ≠ [] := List.cons_ne_nil _ _
  have hbehind : substitute [(declaration numQubits, declaration available)] back = back := by
    refine substitute_absent (fun rule hrule => ?_)
    rw [List.mem_singleton.mp hrule]
    exact no_declaration_behind hn hsizes htext
  rw [declared, htext, substitute_append (fun rule hrule c ys hys => ?_), substitute_head hne,
    hbehind]
  rw [List.mem_singleton.mp hrule]
  exact no_declaration_before hn hsizes htext hys

/-- Without a literal declaration nothing is changed. -/
theorem declared_of_absent (habsent : ¬ declaration numQubits <:+: text) (available : Nat) :
    declared text numQubits available = text := by
  refine substitute_absent (fun rule hrule => ?_)
  rw [List.mem_singleton.mp hrule]
  exact habsent

end

end Qdmi
