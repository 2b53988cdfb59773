import Mathlib.Data.List.Infix
import Qdmi.Lib.Substitute

/-!
# Texts That Cannot Overlap

Two texts are apart if no end of one is the beginning of the other and neither
is in the other. Wherever they occur in a text, they then occupy different
places.

So a text survives every substitution whose patterns are apart from it, and none
of its ends comes about by one whose replacements are. If what one substitution
puts in is apart from the patterns of the next, the two are one simultaneous
substitution.

## Main definitions

* `Apart`: Two texts cannot overlap.

## Theorems

* `infix_substitute`: A text that is apart from the patterns survives.
* `prefix_of_substitute`: The end of a text that is apart from the replacements
  does not come about.
* `substitute_substitute`, `foldl_substitute`: Substitutions in a row as a
  simultaneous one.
-/

namespace Qdmi

section

variable {α : Type}

/-- Two texts that cannot overlap: where an end of one and the other begin
    together, they differ before one of them ends. -/
def Apart (a b : List α) : Prop :=
  (∀ x ∈ a.tails, x ≠ [] → ¬ x <+: b ∧ ¬ b <+: x) ∧
    ∀ y ∈ b.tails, y ≠ [] → ¬ y <+: a ∧ ¬ a <+: y

instance [DecidableEq α] (a b : List α) : Decidable (Apart a b) :=
  inferInstanceAs (Decidable (_ ∧ _))

theorem apart_symm {a b : List α} (h : Apart a b) : Apart b a := ⟨h.2, h.1⟩

/-- A text does not begin inside of one that it is apart from, whatever stands
    behind. -/
theorem not_prefix_of_apart {a b x : List α} (h : Apart a b) (hx : x <:+ a) (hne : x ≠ [])
    (z : List α) : ¬ b <+: x ++ z := by
  intro hb
  have hboth := h.1 x ((List.mem_tails x a).mpr hx) hne
  rcases List.prefix_or_prefix_of_prefix hb (List.prefix_append x z) with hbx | hxb
  · exact hboth.2 hbx
  · exact hboth.1 hxb

/-- An occurrence behind a text that it is apart from. -/
theorem infix_append_of_apart {a b z : List α} (h : Apart a b) (hin : b <:+: a ++ z) :
    b <:+: z := by
  rcases hin with ⟨front, back, heq⟩
  rw [List.append_assoc] at heq
  rcases List.append_eq_append_iff.mp heq with ⟨x, ha, hz⟩ | ⟨y, hfront, hz⟩
  · -- The text begins inside of the first one.
    rcases x with _ | ⟨c, x⟩
    · exact ⟨[], back, by rw [List.nil_append, hz, List.nil_append]⟩
    · refine absurd ?_ (not_prefix_of_apart h (x := c :: x) ⟨front, ha.symm⟩
        (List.cons_ne_nil _ _) z)
      rw [← hz]
      exact List.prefix_append _ _
  · exact ⟨y, back, by rw [List.append_assoc, hz]⟩

variable [DecidableEq α] {rules : List (List α × List α)}

/-- A text that is apart from all patterns is not touched. -/
theorem substitute_append_of_apart {w : List α} (hw : ∀ rule ∈ rules, Apart rule.1 w)
    (s : List α) : substitute rules (w ++ s) = w ++ substitute rules s := by
  refine substitute_append (fun rule hrule c ys hys hpre => ?_)
  exact not_prefix_of_apart (apart_symm (hw rule hrule)) hys (List.cons_ne_nil c ys) s hpre

/-- A text that is apart from the patterns survives a substitution. -/
theorem infix_substitute (hne : ∀ rule ∈ rules, rule.1 ≠ []) {w : List α}
    (hw : ∀ rule ∈ rules, Apart rule.1 w) {s : List α} (h : w <:+: s) :
    w <:+: substitute rules s := by
  refine substitute_induction rules (P := fun s => w <:+: s → w <:+: substitute rules s) hne
    (fun h => ?_) (fun rule hrule s hfind ih h => ?_) (fun c s hno ih h => ?_) s h
  · exact h
  · rw [substitute_match (hne rule hrule) hfind]
    exact (ih (infix_append_of_apart (hw rule hrule) h)).trans (List.suffix_append _ _).isInfix
  · rcases List.infix_cons_iff.mp h with ⟨t, ht⟩ | hin
    · rw [← ht, substitute_append_of_apart hw]
      exact (List.prefix_append _ _).isInfix
    · rw [substitute_cons hno]
      exact (ih hin).trans (List.suffix_cons _ _).isInfix

theorem infix_foldl_substitute {w : List α} (hne : ∀ rule ∈ rules, rule.1 ≠ [])
    (hw : ∀ rule ∈ rules, Apart rule.1 w) {s : List α} (h : w <:+: s) :
    w <:+: rules.foldl (fun s rule => substitute [rule] s) s := by
  induction rules generalizing s with
  | nil => exact h
  | cons rule rules ih =>
      rw [List.forall_mem_cons] at hne hw
      rw [List.foldl_cons]
      refine ih hne.2 hw.2 (infix_substitute (fun r hr => ?_) (fun r hr => ?_) h)
      · exact List.mem_singleton.mp hr ▸ hne.1
      · exact List.mem_singleton.mp hr ▸ hw.1

/-- An end of a text that is apart from the replacements begins the result of a
    substitution only if it begins the text. -/
theorem prefix_of_substitute (hne : ∀ rule ∈ rules, rule.1 ≠ []) {w : List α}
    (hw : ∀ rule ∈ rules, Apart rule.2 w) {s y : List α} (hy : y <:+ w)
    (h : y <+: substitute rules s) : y <+: s := by
  refine substitute_induction rules
    (P := fun s => ∀ y, y <:+ w → y <+: substitute rules s → y <+: s) hne
    (fun y _ h => h) (fun rule hrule s hfind _ y hy h => ?_) (fun c s hno ih y hy h => ?_) s y hy h
  · rcases y with _ | ⟨d, y⟩
    · exact List.nil_prefix
    · -- The end would overlap the replacement.
      rw [substitute_match (hne rule hrule) hfind] at h
      have hboth := (hw rule hrule).2 _ ((List.mem_tails _ _).mpr hy) (List.cons_ne_nil d y)
      rcases List.prefix_or_prefix_of_prefix h (List.prefix_append _ _) with hpre | hpre
      · exact absurd hpre hboth.1
      · exact absurd hpre hboth.2
  · rcases y with _ | ⟨d, y⟩
    · exact List.nil_prefix
    · rw [substitute_cons hno, List.cons_prefix_cons] at h
      rw [List.cons_prefix_cons]
      exact ⟨h.1, ih y ((List.suffix_cons d y).trans hy) h.2⟩

/-- A substitution behind another one sees the text as it was, if its patterns
    are apart from what the other one takes and puts. The induction is along the
    simultaneous substitution. -/
theorem substitute_substitute {a b : List α} (ha : a ≠ []) (hne : ∀ rule ∈ rules, rule.1 ≠ [])
    (htake : ∀ rule ∈ rules, Apart a rule.1) (hput : ∀ rule ∈ rules, Apart b rule.1)
    (s : List α) :
    substitute rules (substitute [(a, b)] s) = substitute ((a, b) :: rules) s := by
  have hfirst : ∀ rule ∈ [(a, b)], rule.1 ≠ [] :=
    fun rule hrule => List.mem_singleton.mp hrule ▸ ha
  have hall : ∀ rule ∈ (a, b) :: rules, rule.1 ≠ [] := List.forall_mem_cons.mpr ⟨ha, hne⟩
  -- A pattern begins the text if it begins what the first substitution returns.
  have hback : ∀ rule ∈ rules, ∀ s, rule.1 <+: substitute [(a, b)] s → rule.1 <+: s :=
    fun rule hrule s h => prefix_of_substitute hfirst
      (fun q hq => List.mem_singleton.mp hq ▸ hput rule hrule) List.suffix_rfl h
  refine substitute_induction ((a, b) :: rules)
    (P := fun s => substitute rules (substitute [(a, b)] s) = substitute ((a, b) :: rules) s)
    hall rfl (fun rule hrule s hfind ih => ?_) (fun c s hno ih => ?_) s
  · rw [substitute_match (hall rule hrule) hfind, ← ih]
    by_cases hsame : rule = (a, b)
    · rw [hsame, substitute_head ha]
      refine substitute_append (fun r hr c ys hys => ?_)
      exact not_prefix_of_apart (hput r hr) hys (List.cons_ne_nil c ys) _
    · have hmem := (List.mem_cons.mp hrule).resolve_left hsame
      have hkeep : substitute [(a, b)] (rule.1 ++ s) = rule.1 ++ substitute [(a, b)] s :=
        substitute_append_of_apart (fun q hq => List.mem_singleton.mp hq ▸ htake rule hmem) s
      -- The first rule that applies is the same as before.
      rw [hkeep]
      refine substitute_match (hne rule hmem) ?_
      rw [List.find?_eq_some_iff_append] at hfind ⊢
      rcases hfind with ⟨hpre, as, bs, hsplit, hbefore⟩
      rcases as with _ | ⟨q, as⟩
      · rw [List.nil_append, List.cons.injEq] at hsplit
        exact absurd hsplit.1.symm hsame
      · rw [List.cons_append, List.cons.injEq] at hsplit
        refine ⟨List.isPrefixOf_iff_prefix.mpr (List.prefix_append _ _), as, bs, hsplit.2, ?_⟩
        intro r hr
        have hno := hbefore r (List.mem_cons_of_mem _ hr)
        rw [Bool.not_eq_true', ← Bool.not_eq_true, List.isPrefixOf_iff_prefix] at hno ⊢
        intro h
        rw [← hkeep] at h
        exact hno (hback r (hsplit.2 ▸ List.mem_append_left _ hr) _ h)
  · have hone : ∀ rule ∈ [(a, b)], ¬ rule.1 <+: c :: s :=
      fun rule hrule => List.mem_singleton.mp hrule ▸ hno (a, b) List.mem_cons_self
    rw [substitute_cons hno, ← ih, substitute_cons hone]
    refine substitute_cons (fun rule hrule h => hno rule (List.mem_cons_of_mem _ hrule) ?_)
    rw [← substitute_cons hone] at h
    exact hback rule hrule _ h

/-- Substitutions in a row see the text as it was, if each is apart from what
    the ones before it take and put. -/
theorem foldl_substitute (hne : ∀ rule ∈ rules, rule.1 ≠ [])
    (hapart : rules.Pairwise (fun a b => Apart a.1 b.1 ∧ Apart a.2 b.1)) (s : List α) :
    rules.foldl (fun s rule => substitute [rule] s) s = substitute rules s := by
  induction rules generalizing s with
  | nil => exact (substitute_absent (fun _ hrule => absurd hrule List.not_mem_nil)).symm
  | cons rule rules ih =>
      rw [List.forall_mem_cons] at hne
      rw [List.pairwise_cons] at hapart
      rw [List.foldl_cons, ih hne.2 hapart.2]
      exact substitute_substitute hne.1 hne.2 (fun r hr => (hapart.1 r hr).1)
        (fun r hr => (hapart.1 r hr).2) s

end

end Qdmi
