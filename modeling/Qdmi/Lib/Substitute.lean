import Mathlib.Data.List.Find
import Mathlib.Data.List.Infix

/-!
# Replacing Text by Rules

Replacing the occurrences of some patterns in a list, from left to right and
each element once: where a pattern begins its replacement is put, and reading
goes on behind the pattern. What is put in is never looked at again.

Doing one replacement after the other is a different thing, since the later
ones see what the earlier have put in. The two agree on marked text. A pattern
that begins with a marker and has no other one can only begin where the text
has a marker, and ends before the next. Such a rule therefore edits the stretch
behind each marker by itself, `substitute_marked`, and a sequence of rules
edits it in sequence.

What one rule does can also be said without a reading order. Every text has
exactly one cut at the leftmost occurrences of a pattern that do not overlap,
and the rule joins the stretches of this cut by its replacement.

## Main definitions

* `substitute`: Replacing by rules, simultaneously.
* `LeftmostCut`: A text cut at the leftmost occurrences of a pattern.
* `marked`: A list cut at its markers.
* `atMarker`: A rule whose pattern begins with the marker.
* `edit`: What such rules do behind a marker.

## Theorems

* `substitute_match`, `substitute_cons`: One step of a substitution.
* `substitute_induction`: Induction along a substitution.
* `existsUnique_leftmostCut`, `substitute_leftmostCut`: One rule joins the
  stretches of the only leftmost cut.
* `substitute_self`, `substitute_eq_self_iff`: When one rule does nothing.
* `exists_marked`: Every list can be cut at its markers.
* `substitute_unused`: Rules whose patterns do not occur do nothing.
* `substitute_marked`: Rules at a marker edit each stretch by itself.
* `substitute_append_marker`: What stands before a marker is replaced by itself.
* `substitute_fixed_iff`: When a text stays as it is.
-/

namespace Qdmi

section

variable {α : Type} [DecidableEq α]

/-- Replacing by rules, when the next `skip` elements belong to a pattern that
    has been replaced. -/
def substituteFrom (rules : List (List α × List α)) : Nat → List α → List α
  | _, [] => []
  | skip + 1, _ :: cs => substituteFrom rules skip cs
  | 0, c :: cs =>
    match rules.find? (fun rule => rule.1.isPrefixOf (c :: cs)) with
    | some rule => rule.2 ++ substituteFrom rules (rule.1.length - 1) cs
    | none => c :: substituteFrom rules 0 cs

/-- Replacing by rules. The first rule whose pattern begins at a place wins. -/
def substitute (rules : List (List α × List α)) (s : List α) : List α := substituteFrom rules 0 s

example : substitute [([1], [2]), ([2], [1, 1])] [1, 2, 3] = [2, 1, 1, 3] := by decide

variable {rules : List (List α × List α)}

@[simp]
theorem substitute_nil : substitute rules [] = [] := rfl

theorem substituteFrom_skip (xs s : List α) :
    substituteFrom rules xs.length (xs ++ s) = substitute rules s := by
  induction xs with
  | nil => rfl
  | cons x xs ih => rw [List.length_cons, List.cons_append, substituteFrom, ih]

/-- At a pattern its replacement is put. -/
theorem substitute_match {pattern replacement s : List α} (hne : pattern ≠ [])
    (hfind : rules.find? (fun rule => rule.1.isPrefixOf (pattern ++ s)) =
      some (pattern, replacement)) :
    substitute rules (pattern ++ s) = replacement ++ substitute rules s := by
  rcases pattern with _ | ⟨c, cs⟩
  · exact absurd rfl hne
  · rw [List.cons_append] at hfind
    rw [substitute, List.cons_append, substituteFrom, hfind]
    exact congrArg (replacement ++ ·) (substituteFrom_skip cs s)

/-- At the pattern of the first rule no other rule is looked at. -/
theorem substitute_head {pattern replacement s : List α} (hne : pattern ≠ []) :
    substitute ((pattern, replacement) :: rules) (pattern ++ s) =
      replacement ++ substitute ((pattern, replacement) :: rules) s := by
  have hpre : pattern.isPrefixOf (pattern ++ s) = true :=
    List.isPrefixOf_iff_prefix.mpr (List.prefix_append _ _)
  refine substitute_match hne ?_
  simp only [List.find?_cons, hpre]

/-- Where no pattern begins the element is kept. -/
theorem substitute_cons {c : α} {s : List α} (h : ∀ rule ∈ rules, ¬ rule.1 <+: c :: s) :
    substitute rules (c :: s) = c :: substitute rules s := by
  have hfind : rules.find? (fun rule => rule.1.isPrefixOf (c :: s)) = none := by
    refine List.find?_eq_none.mpr (fun rule hrule hmatch => h rule hrule ?_)
    exact List.isPrefixOf_iff_prefix.mp hmatch
  rw [substitute, substituteFrom, hfind, substitute]

/-- Induction along a substitution: either the first rule that applies takes its
    pattern, or none does and one element is kept. -/
theorem substitute_induction (rules : List (List α × List α)) {P : List α → Prop}
    (hne : ∀ rule ∈ rules, rule.1 ≠ []) (hnil : P [])
    (hmatch : ∀ rule ∈ rules, ∀ s,
      rules.find? (fun r => r.1.isPrefixOf (rule.1 ++ s)) = some rule → P s → P (rule.1 ++ s))
    (hcons : ∀ c s, (∀ rule ∈ rules, ¬ rule.1 <+: c :: s) → P s → P (c :: s)) (s : List α) :
    P s := by
  induction hn : s.length using Nat.strong_induction_on generalizing s with
  | _ n ih =>
      rcases s with _ | ⟨c, s⟩
      · exact hnil
      rcases hfind : rules.find? (fun r => r.1.isPrefixOf (c :: s)) with _ | rule
      · refine hcons c s (fun rule hrule hpre => ?_) (ih s.length ?_ s rfl)
        · exact List.find?_eq_none.mp hfind rule hrule (List.isPrefixOf_iff_prefix.mpr hpre)
        · rw [← hn, List.length_cons]
          omega
      · have hpre := List.find?_some hfind
        rcases List.isPrefixOf_iff_prefix.mp hpre with ⟨rest, hrest⟩
        have hrule := List.mem_of_find?_eq_some hfind
        -- The pattern takes at least one element.
        have hpos := List.length_pos_iff.mpr (hne rule hrule)
        rw [← hrest] at hfind ⊢
        refine hmatch rule hrule rest hfind (ih rest.length ?_ rest rfl)
        rw [← hn, ← hrest, List.length_append]
        omega

/-- A rule that nowhere applies. -/
theorem substitute_append {xs s : List α}
    (h : ∀ rule ∈ rules, ∀ c ys, (c :: ys) <:+ xs → ¬ rule.1 <+: c :: (ys ++ s)) :
    substitute rules (xs ++ s) = xs ++ substitute rules s := by
  induction xs with
  | nil => rfl
  | cons x xs ih =>
      rw [List.cons_append, substitute_cons (fun rule hrule => h rule hrule x xs List.suffix_rfl),
        ih (fun rule hrule c ys hys => h rule hrule c ys (hys.trans (List.suffix_cons x xs)))]
      rfl

/-- A text in which no pattern occurs. -/
theorem substitute_absent {s : List α} (h : ∀ rule ∈ rules, ¬ rule.1 <:+: s) :
    substitute rules s = s := by
  have hkeep : substitute rules (s ++ []) = s ++ substitute rules [] := by
    refine substitute_append (fun rule hrule c ys hys hpre => h rule hrule ?_)
    rw [List.append_nil] at hpre
    exact hpre.isInfix.trans hys.isInfix
  rwa [List.append_nil, substitute_nil, List.append_nil] at hkeep

/-- An element of the result is one of the text or of a replacement. -/
theorem mem_substitute (hne : ∀ rule ∈ rules, rule.1 ≠ []) {c : α} {s : List α}
    (h : c ∈ substitute rules s) : c ∈ s ∨ ∃ rule ∈ rules, c ∈ rule.2 := by
  refine substitute_induction rules
    (P := fun s => c ∈ substitute rules s → c ∈ s ∨ ∃ rule ∈ rules, c ∈ rule.2) hne
    (fun h => Or.inl h) (fun rule hrule s hfind ih h => ?_) (fun d s hno ih h => ?_) s h
  · rw [substitute_match (hne rule hrule) hfind] at h
    rcases List.mem_append.mp h with h | h
    · exact Or.inr ⟨rule, hrule, h⟩
    · exact (ih h).imp_left (fun hmem => List.mem_append_right _ hmem)
  · rw [substitute_cons hno] at h
    rcases List.mem_cons.mp h with rfl | h
    · exact Or.inl List.mem_cons_self
    · exact (ih h).imp_left (fun hmem => List.mem_cons_of_mem _ hmem)

theorem substituteFrom_unused {extra : List (List α × List α)} (skip : Nat) {s : List α}
    (h : ∀ rule ∈ extra, ¬ rule.1 <:+: s) :
    substituteFrom (rules ++ extra) skip s = substituteFrom rules skip s := by
  induction s generalizing skip with
  | nil => cases skip <;> rfl
  | cons c s ih =>
      have hrest : ∀ rule ∈ extra, ¬ rule.1 <:+: s :=
        fun rule hrule hin => h rule hrule (hin.trans (List.suffix_cons c s).isInfix)
      cases skip with
      | succ skip => exact ih skip hrest
      | zero =>
          -- A rule that occurs nowhere is not found here either.
          have hnone : extra.find? (fun rule => rule.1.isPrefixOf (c :: s)) = none := by
            refine List.find?_eq_none.mpr (fun rule hrule hmatch => h rule hrule ?_)
            exact (List.isPrefixOf_iff_prefix.mp hmatch).isInfix
          rw [substituteFrom, substituteFrom, List.find?_append, hnone, Option.or_none]
          split
          · rw [ih _ hrest]
          · rw [ih 0 hrest]

/-- Rules whose patterns do not occur do nothing. -/
theorem substitute_unused {extra : List (List α × List α)} {s : List α}
    (h : ∀ rule ∈ extra, ¬ rule.1 <:+: s) :
    substitute (rules ++ extra) s = substitute rules s :=
  substituteFrom_unused 0 h

end

/-! ## Cutting at the leftmost occurrences -/

section

variable {α : Type} {pattern : List α}

/-- A text cut at the leftmost occurrences of a pattern that do not overlap.
    The pattern stands behind every stretch but the last, it does not begin
    before the end of the stretch, and it is not in the last one. -/
inductive LeftmostCut (pattern : List α) : List α → List (List α) → Prop
  | last {x : List α} (habsent : ¬ pattern <:+: x) : LeftmostCut pattern x [x]
  | cut {x s : List α} {stretches : List (List α)}
      (hfirst : ∀ front back, x ++ pattern = front ++ pattern ++ back → front = x)
      (hrest : LeftmostCut pattern s stretches) :
      LeftmostCut pattern (x ++ (pattern ++ s)) (x :: stretches)

theorem intercalate_leftmostCut {s : List α} {stretches : List (List α)}
    (h : LeftmostCut pattern s stretches) (separator x : List α) :
    separator.intercalate (x :: stretches) =
      x ++ (separator ++ separator.intercalate stretches) := by
  cases h with
  | last _ => rw [List.intercalate_cons_cons, List.append_assoc]
  | cut _ _ => rw [List.intercalate_cons_cons, List.append_assoc]

/-- The stretches with the pattern between them are the text. -/
theorem leftmostCut_text {s : List α} {stretches : List (List α)}
    (h : LeftmostCut pattern s stretches) : pattern.intercalate stretches = s := by
  induction h with
  | last _ => exact List.intercalate_singleton
  | cut _ hrest ih => rw [intercalate_leftmostCut hrest, ih]

/-- A cut of a text is a cut of the text with one more element if the pattern
    does not begin with this element. -/
theorem exists_leftmostCut_cons {c : α} {s : List α} {stretches : List (List α)}
    (hno : ¬ pattern <+: c :: s) (h : LeftmostCut pattern s stretches) :
    ∃ stretches, LeftmostCut pattern (c :: s) stretches := by
  cases h with
  | last habsent =>
      refine ⟨_, LeftmostCut.last (fun hin => ?_)⟩
      rcases List.infix_cons_iff.mp hin with hpre | hin
      · exact hno hpre
      · exact habsent hin
  | @cut x s stretches hfirst hrest =>
      refine ⟨(c :: x) :: stretches, LeftmostCut.cut (x := c :: x) (fun front back heq => ?_) hrest⟩
      rcases front with _ | ⟨d, front⟩
      · -- The pattern would begin with the element.
        refine absurd ?_ hno
        rw [List.nil_append] at heq
        refine (List.prefix_append pattern back).trans ?_
        rw [← heq, ← List.append_assoc, ← List.cons_append]
        exact List.prefix_append _ _
      · rw [List.cons_append, List.cons_append, List.cons_append, List.cons.injEq] at heq
        rw [heq.1, hfirst front back heq.2]

/-- A text has at most one cut at the leftmost occurrences. The induction is on
    the first cut. -/
theorem leftmostCut_unique {s : List α} {stretches stretches' : List (List α)}
    (h : LeftmostCut pattern s stretches) (h' : LeftmostCut pattern s stretches') :
    stretches = stretches' := by
  induction h generalizing stretches' with
  | last habsent =>
      cases h' with
      | last _ => rfl
      | cut _ _ => exact absurd (List.infix_append' _ _ _) habsent
  | @cut x s stretches hfirst hrest ih =>
      generalize htext : x ++ (pattern ++ s) = text at h'
      cases h' with
      | last habsent =>
          rw [← htext] at habsent
          exact absurd (List.infix_append' _ _ _) habsent
      | @cut x' s' stretches' hfirst' hrest' =>
          -- The shorter stretch ends where the pattern begins in the other one.
          have hpre : x ++ pattern <+: x ++ (pattern ++ s) := by
            rw [← List.append_assoc]
            exact List.prefix_append _ _
          have hpre' : x' ++ pattern <+: x ++ (pattern ++ s) := by
            rw [htext, ← List.append_assoc]
            exact List.prefix_append _ _
          have hsame : x = x' := by
            rcases Nat.le_total (x ++ pattern).length (x' ++ pattern).length with hle | hle
            · rcases List.prefix_of_prefix_length_le hpre hpre' hle with ⟨back, hback⟩
              exact hfirst' x back hback.symm
            · rcases List.prefix_of_prefix_length_le hpre' hpre hle with ⟨back, hback⟩
              exact (hfirst x' back hback.symm).symm
          rw [← hsame] at htext ⊢
          have hs : s = s' := List.append_cancel_left (List.append_cancel_left htext)
          rw [← hs] at hrest'
          rw [ih hrest']

variable [DecidableEq α]

/-- A text has exactly one cut at the leftmost occurrences of a pattern. -/
theorem existsUnique_leftmostCut (hne : pattern ≠ []) (s : List α) :
    ∃! stretches, LeftmostCut pattern s stretches := by
  have hexists : ∃ stretches, LeftmostCut pattern s stretches := by
    refine substitute_induction [(pattern, [])] (P := fun s => ∃ ys, LeftmostCut pattern s ys)
      (fun rule hrule => ?_) ?_ (fun rule hrule s _ hs => ?_) (fun c s hno hs => ?_) s
    · rw [List.mem_singleton.mp hrule]
      exact hne
    · exact ⟨_, LeftmostCut.last (fun hin => hne (List.eq_nil_of_infix_nil hin))⟩
    · rcases hs with ⟨ys, hys⟩
      rw [List.mem_singleton.mp hrule]
      refine ⟨[] :: ys, LeftmostCut.cut (x := []) (fun front back heq => ?_) hys⟩
      have hlength := congrArg List.length heq
      simp only [List.nil_append, List.length_append] at hlength
      exact List.length_eq_zero_iff.mp (by omega)
    · rcases hs with ⟨ys, hys⟩
      exact exists_leftmostCut_cons (hno (pattern, []) List.mem_cons_self) hys
  rcases hexists with ⟨stretches, h⟩
  exact ⟨stretches, h, fun other hother => leftmostCut_unique hother h⟩

/-- A rule joins the stretches of the cut at its pattern by its replacement. -/
theorem substitute_leftmostCut (hne : pattern ≠ []) {s : List α} {stretches : List (List α)}
    (h : LeftmostCut pattern s stretches) (replacement : List α) :
    substitute [(pattern, replacement)] s = replacement.intercalate stretches := by
  induction h with
  | last habsent =>
      rw [List.intercalate_singleton]
      exact substitute_absent (fun rule hrule => List.mem_singleton.mp hrule ▸ habsent)
  | @cut x s stretches hfirst hrest ih =>
      rw [intercalate_leftmostCut hrest, ← ih, ← substitute_head hne]
      refine substitute_append (fun rule hrule c ys hys hpre => ?_)
      rw [List.mem_singleton.mp hrule] at hpre
      rcases hys with ⟨front, rfl⟩
      -- A place inside of the stretch would be the end of the stretch.
      have hlong : (pattern : List α).length ≤ (c :: (ys ++ pattern)).length := by
        rw [List.length_cons, List.length_append]
        omega
      have hwhole : c :: (ys ++ pattern) <+: c :: (ys ++ (pattern ++ s)) := by
        rw [← List.append_assoc, ← List.cons_append, ← List.cons_append]
        exact List.prefix_append _ _
      rcases List.prefix_of_prefix_length_le hpre hwhole hlong with ⟨back, hback⟩
      have hend := hfirst front back (by
        rw [List.append_assoc, List.append_assoc, hback, List.cons_append])
      have hlength := congrArg List.length hend
      rw [List.length_append, List.length_cons] at hlength
      omega

/-- A rule that puts its pattern back does nothing. -/
theorem substitute_self (hne : pattern ≠ []) (s : List α) :
    substitute [(pattern, pattern)] s = s := by
  rcases existsUnique_leftmostCut hne s with ⟨stretches, hcut, -⟩
  rw [substitute_leftmostCut hne hcut, leftmostCut_text hcut]

/-- A rule that puts another text of the same length leaves a text as it is
    exactly if its pattern is not in the text. -/
theorem substitute_eq_self_iff {replacement : List α} (hne : pattern ≠ [])
    (hdiffer : replacement ≠ pattern) (hlength : replacement.length = pattern.length)
    (s : List α) : substitute [(pattern, replacement)] s = s ↔ ¬ pattern <:+: s := by
  rcases existsUnique_leftmostCut hne s with ⟨stretches, hcut, -⟩
  rw [substitute_leftmostCut hne hcut]
  cases hcut with
  | last habsent => exact ⟨fun _ => habsent, fun _ => List.intercalate_singleton⟩
  | cut hfirst hrest =>
      refine ⟨fun h => absurd ?_ hdiffer, fun h => absurd (List.infix_append' _ _ _) h⟩
      rw [intercalate_leftmostCut hrest] at h
      exact (List.append_inj (List.append_cancel_left h) hlength).1

end

/-! ## Markers -/

section

variable {α : Type} {m : α}

/-- A list that is cut at its markers, into the stretch before the first and
    the stretch behind each. -/
def marked (m : α) (x : List α) (stretches : List (List α)) : List α :=
  x ++ stretches.flatMap (fun y => m :: y)

theorem marked_cons (x y : List α) (stretches : List (List α)) :
    marked m x (y :: stretches) = x ++ m :: marked m y stretches := by
  rw [marked, List.flatMap_cons, List.cons_append, marked]

theorem marked_append (x z : List α) (ys zs : List (List α)) :
    marked m x ys ++ m :: marked m z zs = marked m x (ys ++ z :: zs) := by
  simp only [marked, List.flatMap_append, List.flatMap_cons, List.append_assoc, List.cons_append]

/-- A pattern without markers that begins in a stretch lies in it. -/
theorem prefix_marked_iff {p y : List α} (hp : m ∉ p) (stretches : List (List α)) :
    p <+: marked m y stretches ↔ p <+: y := by
  constructor
  · intro h
    induction p generalizing y with
    | nil => exact List.nil_prefix
    | cons a p ih =>
        rcases y with _ | ⟨b, y⟩
        · -- Behind the stretch comes a marker or nothing.
          rcases stretches with _ | ⟨z, stretches⟩
          · exact h
          · rw [marked_cons, List.nil_append, List.cons_prefix_cons] at h
            exact absurd (h.1 ▸ List.mem_cons_self) hp
        · rw [marked, List.cons_append, List.cons_prefix_cons] at h
          rw [List.cons_prefix_cons]
          exact ⟨h.1, ih (fun hm => hp (List.mem_cons_of_mem _ hm)) h.2⟩
  · exact fun h => h.trans (List.prefix_append _ _)

variable [DecidableEq α]

/-- Every list can be cut at its markers. -/
theorem exists_marked (m : α) (s : List α) :
    ∃ x stretches, s = marked m x stretches ∧ m ∉ x ∧ ∀ y ∈ stretches, m ∉ y := by
  induction s with
  | nil => exact ⟨[], [], rfl, List.not_mem_nil, fun y hy => absurd hy List.not_mem_nil⟩
  | cons c s ih =>
      rcases ih with ⟨x, stretches, hs, hx, hall⟩
      by_cases hc : c = m
      · refine ⟨[], x :: stretches, ?_, List.not_mem_nil, List.forall_mem_cons.mpr ⟨hx, hall⟩⟩
        rw [marked_cons, hs, hc, List.nil_append]
      · refine ⟨c :: x, stretches, by rw [marked, List.cons_append, hs, marked], ?_, hall⟩
        rw [List.mem_cons, not_or]
        exact ⟨fun h => hc h.symm, hx⟩

/-- A rule whose pattern begins with the marker. -/
def atMarker (m : α) (rule : List α × List α) : List α × List α := (m :: rule.1, m :: rule.2)

/-- What rules do behind a marker. -/
def edit (rules : List (List α × List α)) (y : List α) : List α :=
  match rules.find? (fun rule => rule.1.isPrefixOf y) with
  | some rule => rule.2 ++ y.drop rule.1.length
  | none => y

omit [DecidableEq α] in
/-- Texts that end at their only terminator begin alike only when they are
    alike. -/
theorem terminated_inj {k k' s : List α} (hk : m ∉ k) (hk' : m ∉ k')
    (h : k ++ [m] <+: k' ++ m :: s) : k = k' := by
  induction k generalizing k' with
  | nil =>
      rcases k' with _ | ⟨b, k'⟩
      · rfl
      · rw [List.nil_append, List.cons_append, List.cons_prefix_cons] at h
        exact absurd (h.1 ▸ List.mem_cons_self) hk'
  | cons a k ih =>
      rcases k' with _ | ⟨b, k'⟩
      · rw [List.nil_append, List.cons_append, List.cons_prefix_cons] at h
        exact absurd (h.1 ▸ List.mem_cons_self) hk
      · rw [List.cons_append, List.cons_append, List.cons_prefix_cons] at h
        rw [h.1, ih (fun hm => hk (List.mem_cons_of_mem _ hm))
          (fun hm => hk' (List.mem_cons_of_mem _ hm)) h.2]

@[simp]
theorem edit_nil (y : List α) : edit [] y = y := rfl

theorem edit_head {rules : List (List α × List α)} {p t s : List α} :
    edit ((p, t) :: rules) (p ++ s) = t ++ s := by
  have hpre : p.isPrefixOf (p ++ s) = true :=
    List.isPrefixOf_iff_prefix.mpr (List.prefix_append _ _)
  simp only [edit, List.find?_cons, hpre, List.drop_left]

theorem edit_tail {rules : List (List α × List α)} {p t y : List α} (h : ¬ p <+: y) :
    edit ((p, t) :: rules) y = edit rules y := by
  have hpre : p.isPrefixOf y = false := by
    rwa [← Bool.not_eq_true, List.isPrefixOf_iff_prefix]
  simp only [edit, List.find?_cons, hpre]

/-- An edit puts in no marker that its replacements do not have. -/
theorem not_mem_edit {rules : List (List α × List α)} {y : List α} (hy : m ∉ y)
    (hrules : ∀ rule ∈ rules, m ∉ rule.2) : m ∉ edit rules y := by
  rcases hfind : rules.find? (fun rule => rule.1.isPrefixOf y) with _ | rule
  · rwa [edit, hfind]
  · rw [edit, hfind, List.mem_append, not_or]
    exact ⟨hrules rule (List.mem_of_find?_eq_some hfind),
      fun hm => hy (List.mem_of_mem_drop hm)⟩

/-- Without markers nothing is replaced. -/
theorem substitute_unmarked {rules : List (List α × List α)} {x : List α} (hx : m ∉ x)
    (s : List α) : substitute (rules.map (atMarker m)) (x ++ s) =
      x ++ substitute (rules.map (atMarker m)) s := by
  refine substitute_append (fun rule hrule c ys hys hpre => hx ?_)
  rcases List.mem_map.mp hrule with ⟨r, _, hr⟩
  rw [← hr, atMarker, List.cons_prefix_cons] at hpre
  rw [hpre.1]
  exact hys.subset List.mem_cons_self

/-- Which rule applies at a marker is decided by the stretch behind it. -/
theorem find_marked {rules : List (List α × List α)} (hrules : ∀ rule ∈ rules, m ∉ rule.1)
    (y : List α) (stretches : List (List α)) :
    rules.find? (fun rule => rule.1.isPrefixOf (marked m y stretches)) =
      rules.find? (fun rule => rule.1.isPrefixOf y) := by
  refine List.find?_congr (fun rule hrule => ?_)
  rw [Bool.eq_iff_iff, List.isPrefixOf_iff_prefix, List.isPrefixOf_iff_prefix,
    prefix_marked_iff (hrules rule hrule)]

/-- Rules at a marker edit each stretch by itself. The induction is on the
    stretches. -/
theorem substitute_marked {rules : List (List α × List α)} (hrules : ∀ rule ∈ rules, m ∉ rule.1)
    {x : List α} {stretches : List (List α)} (hx : m ∉ x) (hall : ∀ y ∈ stretches, m ∉ y) :
    substitute (rules.map (atMarker m)) (marked m x stretches) =
      marked m x (stretches.map (edit rules)) := by
  induction stretches generalizing x with
  | nil =>
      rw [List.map_nil, marked, List.flatMap_nil, substitute_unmarked hx, substitute_nil]
  | cons y stretches ih =>
      rcases List.forall_mem_cons.mp hall with ⟨hy, hrest⟩
      rw [List.map_cons, marked_cons, marked_cons, substitute_unmarked hx]
      congr 1
      -- A rule at the marker applies if the rule behind it does.
      have hfind : (rules.map (atMarker m)).find?
          (fun rule => rule.1.isPrefixOf (m :: marked m y stretches)) =
          (rules.find? (fun rule => rule.1.isPrefixOf y)).map (atMarker m) := by
        rw [List.find?_map, ← find_marked hrules y stretches]
        refine congrArg _ (List.find?_congr (fun rule _ => ?_))
        rw [Function.comp_apply, atMarker, List.isPrefixOf_cons_cons_self]
      rcases hrule : rules.find? (fun rule => rule.1.isPrefixOf y) with _ | ⟨p, t⟩
      · rw [hrule, Option.map_none] at hfind
        have hnone : ∀ rule ∈ rules.map (atMarker m), ¬ rule.1 <+: m :: marked m y stretches :=
          fun rule hr hpre => List.find?_eq_none.mp hfind rule hr
            (List.isPrefixOf_iff_prefix.mpr hpre)
        rw [substitute_cons hnone, ih hy hrest, edit, hrule]
      · rw [hrule, Option.map_some] at hfind
        have hpre := List.find?_some hrule
        dsimp only at hpre
        rcases List.isPrefixOf_iff_prefix.mp hpre with ⟨rest, hpy⟩
        have hmem : m ∉ rest := fun hm => hy (hpy ▸ List.mem_append_right _ hm)
        have hsplit : m :: marked m y stretches = (m :: p) ++ marked m rest stretches := by
          rw [← hpy, marked, marked, List.append_assoc, List.cons_append]
        rw [hsplit] at hfind ⊢
        rw [substitute_match (List.cons_ne_nil _ _) hfind, ih hmem hrest, edit, hrule, ← hpy]
        simp only [marked, List.drop_left, List.cons_append, List.append_assoc]

/-- What stands before a marker is replaced by itself. -/
theorem substitute_append_marker {rules : List (List α × List α)}
    (hrules : ∀ rule ∈ rules, m ∉ rule.1) (xs s : List α) :
    substitute (rules.map (atMarker m)) (xs ++ m :: s) =
      substitute (rules.map (atMarker m)) xs ++ substitute (rules.map (atMarker m)) (m :: s) := by
  rcases exists_marked m xs with ⟨x, ys, rfl, hx, hys⟩
  rcases exists_marked m s with ⟨z, zs, rfl, hz, hzs⟩
  have hright : ∀ y ∈ z :: zs, m ∉ y := List.forall_mem_cons.mpr ⟨hz, hzs⟩
  have hboth : ∀ y ∈ ys ++ z :: zs, m ∉ y := List.forall_mem_append.mpr ⟨hys, hright⟩
  have hfront : m :: marked m z zs = marked m [] (z :: zs) := rfl
  rw [marked_append, hfront, substitute_marked hrules hx hboth, substitute_marked hrules hx hys,
    substitute_marked hrules List.not_mem_nil hright, List.map_append, List.map_cons,
    ← marked_append]
  rfl

/-! ## Texts that stay as they are -/

omit [DecidableEq α] in
theorem marked_eq_intercalate (x : List α) (stretches : List (List α)) :
    marked m x stretches = [m].intercalate (x :: stretches) := by
  induction stretches generalizing x with
  | nil => rw [marked, List.flatMap_nil, List.append_nil, List.intercalate_singleton]
  | cons y stretches ih =>
      rw [marked_cons, ih, List.intercalate_cons_cons, List.append_assoc, List.singleton_append]

/-- A list can be cut at its markers in one way. -/
theorem marked_inj {x x' : List α} {ys ys' : List (List α)} (hx : m ∉ x) (hx' : m ∉ x')
    (hys : ∀ y ∈ ys, m ∉ y) (hys' : ∀ y ∈ ys', m ∉ y) (h : marked m x ys = marked m x' ys') :
    x = x' ∧ ys = ys' := by
  have hsplit : ∀ (x : List α) ys, m ∉ x → (∀ y ∈ ys, m ∉ y) →
      (marked m x ys).splitOn m = x :: ys := by
    intro x ys hx hys
    rw [marked_eq_intercalate]
    exact List.splitOn_intercalate m (List.forall_mem_cons.mpr ⟨hx, hys⟩) (List.cons_ne_nil _ _)
  have hboth := hsplit x ys hx hys
  rw [h, hsplit x' ys' hx' hys'] at hboth
  exact List.cons.inj hboth.symm

/-- An edit does nothing behind the next marker. -/
theorem edit_marked {rules : List (List α × List α)} (hrules : ∀ rule ∈ rules, m ∉ rule.1)
    (y : List α) (ys : List (List α)) :
    edit rules (marked m y ys) = marked m (edit rules y) ys := by
  have hfind := find_marked hrules y ys
  rcases hrule : rules.find? (fun rule => rule.1.isPrefixOf y) with _ | rule
  · rw [edit, hfind, edit, hrule]
  · have hpre := List.find?_some hrule
    rcases List.isPrefixOf_iff_prefix.mp hpre with ⟨rest, hrest⟩
    rw [edit, hfind, edit, hrule, ← hrest, marked, marked]
    simp only [List.append_assoc, List.drop_left]

/-- A text stays as it is exactly if nothing is edited behind any of its
    markers. -/
theorem substitute_fixed_iff {rules : List (List α × List α)}
    (hrules : ∀ rule ∈ rules, m ∉ rule.1) (hputs : ∀ rule ∈ rules, m ∉ rule.2) (s : List α) :
    substitute (rules.map (atMarker m)) s = s ↔
      ∀ front back, s = front ++ m :: back → edit rules back = back := by
  constructor
  · rintro h front back rfl
    rcases exists_marked m front with ⟨x, ys, rfl, hx, hys⟩
    rcases exists_marked m back with ⟨z, zs, rfl, hz, hzs⟩
    have hall : ∀ y ∈ ys ++ z :: zs, m ∉ y :=
      List.forall_mem_append.mpr ⟨hys, List.forall_mem_cons.mpr ⟨hz, hzs⟩⟩
    -- Edited stretches have no marker, so the cuts of both sides can be compared.
    have hedited : ∀ y ∈ (ys ++ z :: zs).map (edit rules), m ∉ y := by
      intro e he
      rcases List.mem_map.mp he with ⟨y, hy, rfl⟩
      exact not_mem_edit (hall y hy) hputs
    rw [marked_append, substitute_marked hrules hx hall] at h
    have hsame := (marked_inj hx hx hedited hall h).2
    rw [← List.map_id (ys ++ z :: zs), List.map_map, List.map_inj_left] at hsame
    have hedit : edit rules z = z := hsame z (List.mem_append_right _ List.mem_cons_self)
    rw [edit_marked hrules, hedit]
  · intro h
    rcases exists_marked m s with ⟨x, ys, rfl, hx, hys⟩
    have hid : ys.map (edit rules) = ys.map id := by
      refine List.map_congr_left (fun y hy => ?_)
      rcases List.mem_iff_append.mp hy with ⟨before, after, rfl⟩
      have hedit := h _ _ (marked_append x y before after).symm
      rw [edit_marked hrules] at hedit
      exact List.append_cancel_right hedit
    rw [substitute_marked hrules hx hys, hid, List.map_id]

omit [DecidableEq α] in
/-- Two cuts of a text at a marker are the same, or one is behind the other. -/
theorem append_marker_cases {xs xs' s s' : List α} (h : xs ++ m :: s = xs' ++ m :: s') :
    (xs = xs' ∧ s = s') ∨ (∃ gap, xs' = xs ++ m :: gap ∧ s = gap ++ m :: s') ∨
      ∃ gap, xs = xs' ++ m :: gap ∧ s' = gap ++ m :: s := by
  rcases List.append_eq_append_iff.mp h with ⟨gap, hxs, hs⟩ | ⟨gap, hxs, hs⟩
  · rcases gap with _ | ⟨c, gap⟩
    · rw [List.append_nil] at hxs
      rw [List.nil_append, List.cons.injEq] at hs
      exact Or.inl ⟨hxs.symm, hs.2⟩
    · rw [List.cons_append, List.cons.injEq] at hs
      exact Or.inr (Or.inl ⟨gap, hs.1 ▸ hxs, hs.2⟩)
  · rcases gap with _ | ⟨c, gap⟩
    · rw [List.append_nil] at hxs
      rw [List.nil_append, List.cons.injEq] at hs
      exact Or.inl ⟨hxs, hs.2.symm⟩
    · rw [List.cons_append, List.cons.injEq] at hs
      exact Or.inr (Or.inr ⟨gap, hs.1 ▸ hxs, hs.2⟩)

omit [DecidableEq α] in
/-- A text without the marker that ends a text ends what is behind a marker. -/
theorem suffix_behind_marker {w x y : List α} (hw : m ∉ w) (h : w <:+ x ++ m :: y) : w <:+ y := by
  rcases List.suffix_or_suffix_of_suffix h (List.suffix_append x (m :: y)) with hin | hout
  · rcases List.suffix_cons_iff.mp hin with rfl | hin
    · exact absurd List.mem_cons_self hw
    · exact hin
  · exact absurd (hout.subset List.mem_cons_self) hw

omit [DecidableEq α] in
/-- A marker stands behind a text that has none. -/
theorem exists_gap {p s front back : List α} (hp : m ∉ p) (h : p ++ s = front ++ m :: back) :
    ∃ gap, front = p ++ gap ∧ s = gap ++ m :: back := by
  rcases List.append_eq_append_iff.mp h with ⟨gap, hfront, hs⟩ | ⟨gap, hfront, hs⟩
  · exact ⟨gap, hfront, hs⟩
  · rcases gap with _ | ⟨c, gap⟩
    · exact ⟨[], by rw [hfront, List.append_nil, List.append_nil], hs.symm⟩
    · rw [List.cons_append, List.cons.injEq] at hs
      refine absurd ?_ hp
      rw [hfront, hs.1]
      exact List.mem_append_right _ List.mem_cons_self

/-- A pattern that ends like the text behind its last marker begins only where
    it ends with the text. It is replaced there if the text has it. -/
theorem substitute_at_end {a w s : List α} (hs : m ∉ s)
    (hbefore : ∀ u v, a = u ++ m :: v → ¬ w <:+ u) (replacement : List α) :
    (¬ w <:+ a → substitute [(w ++ m :: s, replacement)] (a ++ m :: s) = a ++ m :: s) ∧
      ∀ b, a = b ++ w →
        substitute [(w ++ m :: s, replacement)] (a ++ m :: s) = b ++ replacement := by
  have honly : ∀ front back, front ++ (w ++ m :: s) ++ back = a ++ m :: s → front ++ w = a := by
    intro front back heq
    have hcut : (front ++ w) ++ m :: (s ++ back) = a ++ m :: s := by
      rw [← heq]
      simp only [List.append_assoc, List.cons_append]
    rcases append_marker_cases hcut with ⟨hsame, -⟩ | ⟨gap, ha, -⟩ | ⟨gap, -, hgap⟩
    · exact hsame
    · exact absurd (List.suffix_append front w) (hbefore _ gap ha)
    · exact absurd (hgap ▸ List.mem_append_right _ List.mem_cons_self) hs
  refine ⟨fun hno => substitute_absent (fun rule hrule hin => hno ?_), fun b hb => ?_⟩
  · rw [List.mem_singleton.mp hrule] at hin
    rcases hin with ⟨front, back, heq⟩
    exact ⟨front, honly front back heq⟩
  · have hkeep : substitute [(w ++ m :: s, replacement)] (b ++ (w ++ m :: s)) =
        b ++ substitute [(w ++ m :: s, replacement)] (w ++ m :: s) := by
      refine substitute_append (fun rule hrule c ys hys hpre => ?_)
      rw [List.mem_singleton.mp hrule] at hpre
      rcases hys with ⟨front, hfront⟩
      rcases hpre with ⟨back, hback⟩
      -- A pattern that begins in front of the last one would end with the text too.
      have hsame := honly front back (by
        rw [List.append_assoc, hback, hb, ← hfront]
        simp only [List.append_assoc, List.cons_append])
      rw [hb] at hsame
      rw [List.append_cancel_right hsame] at hfront
      exact absurd (List.append_right_eq_self.mp hfront) (List.cons_ne_nil _ _)
    have hend : substitute [(w ++ m :: s, replacement)] ((w ++ m :: s) ++ []) =
        replacement ++ substitute [(w ++ m :: s, replacement)] [] :=
      substitute_head (List.append_ne_nil_of_right_ne_nil _ (List.cons_ne_nil _ _))
    rw [List.append_nil, substitute_nil, List.append_nil] at hend
    rw [hb, List.append_assoc, hkeep, hend]

/-- Two texts that are cut at the marker with the same number. -/
theorem append_marker_inj {xs xs' s s' : List α} (hcount : xs.count m = xs'.count m)
    (h : xs ++ m :: s = xs' ++ m :: s') : xs = xs' ∧ s = s' := by
  -- A gap between the two places would have its marker counted.
  rcases append_marker_cases h with hsame | ⟨gap, hxs, _⟩ | ⟨gap, hxs, _⟩
  · exact hsame
  · rw [hxs, List.count_append, List.count_cons_self] at hcount
    omega
  · rw [hxs, List.count_append, List.count_cons_self] at hcount
    omega

/-- Rules that put in no marker keep the number of markers. -/
theorem count_substitute {rules : List (List α × List α)} (hrules : ∀ rule ∈ rules, m ∉ rule.1)
    (hputs : ∀ rule ∈ rules, m ∉ rule.2) (s : List α) :
    (substitute (rules.map (atMarker m)) s).count m = s.count m := by
  have hcount : ∀ (x : List α) ys, m ∉ x → (∀ y ∈ ys, m ∉ y) →
      (marked m x ys).count m = ys.length := by
    intro x ys hx hys
    induction ys generalizing x with
    | nil => rw [marked, List.flatMap_nil, List.append_nil, List.count_eq_zero.mpr hx]; rfl
    | cons y ys ih =>
        rw [List.forall_mem_cons] at hys
        rw [marked_cons, List.count_append, List.count_eq_zero.mpr hx, List.count_cons_self,
          ih y hys.1 hys.2, List.length_cons, Nat.zero_add]
  rcases exists_marked m s with ⟨x, ys, rfl, hx, hys⟩
  have hedited : ∀ y ∈ ys.map (edit rules), m ∉ y := by
    intro e he
    rcases List.mem_map.mp he with ⟨y, hy, rfl⟩
    exact not_mem_edit (hys y hy) hputs
  rw [substitute_marked hrules hx hys, hcount _ _ hx hedited, hcount _ _ hx hys, List.length_map]

end

end Qdmi
