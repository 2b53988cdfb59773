import Mathlib.Data.List.Pairwise
import Qdmi.Lib.Apart
import Qdmi.Lib.Placeholders

/-!
# Placeholders as Patterns

A placeholder with the texts around it is a pattern, and replacing the pattern
is to put these texts back. A substitution takes them together with the
placeholder, so it can miss a placeholder next to one it has replaced. It fills
all of them if no two of the patterns overlap in the text.

What is put for some placeholders can be changed without changing where they
stand. So two ways to fill a text agree up to keys if what they put does, and
they differ if they put different texts of the same length for a placeholder of
the text.

## Main definitions

* `Placeholder.pattern`, `Placeholder.rule`: A placeholder as a rule.
* `Spread`: No two patterns overlap in a text.
* `Borderless`: A pattern does not overlap with itself.
* `Placeholder.put`: A placeholder for which something else is put.

## Theorems

* `substitute_eq_fill`: A substitution fills the placeholders.
* `foldl_substitute_borderless`: Substitutions of one pattern each are passes.
* `fill_put`: Putting other texts with the same keys.
* `put_of_fill_eq`: Texts filled alike got the same put.
* `fill_append_same`, `passes_same`: Placeholders that are replaced by
  themselves.
* `exists_of_infix_fill`: Elements that are not put for a placeholder.
-/

namespace Qdmi

section

variable {α : Type}

/-- The text of a placeholder with what stands around it. -/
def Placeholder.pattern (r : Placeholder α) : List α := r.left ++ r.first :: r.second :: r.right

/-- A placeholder as a rule for its pattern. -/
def Placeholder.rule (r : Placeholder α) : List α × List α :=
  (r.pattern, r.left ++ r.new ++ r.right)

/-- Patterns that begin in a text at different places or are different do not
    overlap there. -/
def Spread (rules : List (Placeholder α)) (text : List α) : Prop :=
  ∀ r ∈ rules, ∀ r' ∈ rules, ∀ u u', u ++ r.pattern <+: text → u' ++ r'.pattern <+: text →
    u.length ≤ u'.length → u = u' ∧ r = r' ∨ u.length + r.pattern.length ≤ u'.length

theorem length_pattern (r : Placeholder α) :
    r.pattern.length = r.left.length + 2 + r.right.length := by
  rw [Placeholder.pattern, List.length_append, List.length_cons, List.length_cons]
  omega

theorem pattern_ne_nil (r : Placeholder α) : r.pattern ≠ [] :=
  List.append_ne_nil_of_right_ne_nil _ (List.cons_ne_nil _ _)

theorem rule_ne_nil {rules : List (Placeholder α)} :
    ∀ rule ∈ rules.map Placeholder.rule, rule.1 ≠ [] := by
  intro rule hrule
  rcases List.mem_map.mp hrule with ⟨r, -, rfl⟩
  exact pattern_ne_nil r

/-- Where a placeholder stands there is its pattern. -/
theorem exists_pattern {r : Placeholder α} {before rest : List α} (h : r.Stands before rest) :
    ∃ u, before = u ++ r.left ∧ u ++ r.pattern <+: before ++ rest := by
  rcases h with ⟨⟨u, rfl⟩, ⟨v, rfl⟩⟩
  refine ⟨u, rfl, v, ?_⟩
  simp only [Placeholder.pattern, List.append_assoc, List.cons_append]

/-- Where a pattern is there stands its placeholder. -/
theorem stands_of_pattern {r : Placeholder α} {u text : List α} (h : u ++ r.pattern <+: text) :
    ∃ v, text = (u ++ r.left) ++ v ∧ r.Stands (u ++ r.left) v := by
  rcases h with ⟨v, rfl⟩
  refine ⟨r.first :: r.second :: r.right ++ v, ?_, List.suffix_append _ _, List.prefix_append _ _⟩
  simp only [Placeholder.pattern, List.append_assoc]

theorem eq_of_prefix_of_length {u u' x x' text : List α} (hu : u ++ x <+: text)
    (hu' : u' ++ x' <+: text) (h : u.length = u'.length) : u = u' := by
  have hpre := (List.prefix_append u x).trans hu
  have hpre' := (List.prefix_append u' x').trans hu'
  exact (List.prefix_of_prefix_length_le hpre hpre' (Nat.le_of_eq h)).eq_of_length h

/-- Patterns are spread in a text if no two of them that agree where they
    overlap are joined in it. -/
theorem spread_of_not_joined {rules : List (Placeholder α)} {text : List α}
    (h : ∀ r ∈ rules, ∀ r' ∈ rules, ∀ a x, r.pattern = a ++ x → x ≠ [] → (a = [] → r ≠ r') →
      (x <+: r'.pattern ∨ r'.pattern <+: x) → ¬ a ++ r'.pattern <:+: text) :
    Spread rules text := by
  intro r hr r' hr' u u' hu hu' hle
  by_cases hfar : u.length + r.pattern.length ≤ u'.length
  · exact Or.inr hfar
  refine Or.inl ?_
  -- The second pattern begins behind a part of the first.
  have hpre : u <+: u' := List.prefix_of_prefix_length_le
    ((List.prefix_append _ _).trans hu) ((List.prefix_append _ _).trans hu') hle
  rcases hpre with ⟨a, rfl⟩
  rcases hu with ⟨v, rfl⟩
  rw [List.append_assoc, List.append_assoc, List.prefix_append_right_inj] at hu'
  rw [List.length_append] at hfar
  have ha : a <+: r.pattern := List.prefix_of_prefix_length_le
    ((List.prefix_append _ _).trans hu') (List.prefix_append _ _) (by omega)
  rcases ha with ⟨x, hx⟩
  have hjoined : a ++ r'.pattern <:+: u ++ r.pattern ++ v := by
    rw [List.append_assoc]
    exact hu'.isInfix.trans (List.suffix_append _ _).isInfix
  have hne : x ≠ [] := by
    rintro rfl
    rw [← hx, List.append_nil] at hfar
    omega
  rw [← hx, List.append_assoc, List.prefix_append_right_inj] at hu'
  have hagree := List.prefix_or_prefix_of_prefix (List.prefix_append x v) hu'
  by_cases hsame : a = [] ∧ r = r'
  · rw [hsame.1, List.append_nil]
    exact ⟨rfl, hsame.2⟩
  · exact absurd hjoined (h r hr r' hr' a x hx.symm hne (fun hnil heq => hsame ⟨hnil, heq⟩) hagree)

/-- No end of a text begins it, but for the text itself. -/
def Borderless (w : List α) : Prop := ∀ x ∈ w.tails, x ≠ [] → x ≠ w → ¬ x <+: w

instance [DecidableEq α] (w : List α) : Decidable (Borderless w) :=
  inferInstanceAs (Decidable (∀ x ∈ w.tails, x ≠ [] → x ≠ w → ¬ x <+: w))

/-- Patterns that are apart from each other and from themselves are spread in
    every text. -/
theorem spread_of_apart {rules : List (Placeholder α)}
    (hborder : ∀ r ∈ rules, Borderless r.pattern)
    (hapart : rules.Pairwise (fun r r' => Apart r.pattern r'.pattern)) (text : List α) :
    Spread rules text := by
  refine spread_of_not_joined (fun r hr r' hr' a x hx hne hdiffer hagree => ?_)
  have hmem : x ∈ r.pattern.tails := (List.mem_tails _ _).mpr ⟨a, hx.symm⟩
  by_cases hsame : r = r'
  · rcases hsame with rfl
    have hproper : x ≠ r.pattern := by
      rintro rfl
      exact hdiffer (List.append_left_eq_self.mp hx.symm) rfl
    rcases hagree with hpre | hpre
    · exact absurd hpre (hborder r hr x hmem hne hproper)
    · exact absurd (List.IsSuffix.eq_of_length_le ⟨a, hx.symm⟩ hpre.length_le) hproper
  · have hsymm : Std.Symm (fun r r' : Placeholder α => Apart r.pattern r'.pattern) :=
      ⟨fun _ _ => apart_symm⟩
    have hboth := (hapart.forall hr hr' hsame).1 x hmem hne
    rcases hagree with hpre | hpre
    · exact absurd hpre hboth.1
    · exact absurd hpre hboth.2

variable [DecidableEq α] {rules : List (Placeholder α)}

/-! ## Substitutions that fill -/

/-- Elements are kept where no placeholder stands. -/
theorem cutFrom_kept_append {x : List α} (before z : List α)
    (h : ∀ a c b, x = a ++ c :: b → ∀ r ∈ rules, ¬ r.Stands (before ++ a) (c :: (b ++ z))) :
    cutFrom rules before (x ++ z) = x.map Piece.kept ++ cutFrom rules (before ++ x) z := by
  induction x generalizing before with
  | nil => rw [List.append_nil]; rfl
  | cons c x ih =>
      have hfirst := h [] c x rfl
      rw [List.append_nil] at hfirst
      have hrest := ih (before ++ [c]) (fun a d b hx r hr => by
        have hno := h (c :: a) d b (by rw [hx, List.cons_append]) r hr
        rwa [List.append_assoc])
      rw [List.append_assoc] at hrest
      rw [List.cons_append, cutFrom_kept hfirst, hrest]
      rfl

omit [DecidableEq α] in
/-- A placeholder that stands inside of a pattern is the one of the pattern. -/
theorem eq_of_stands_inside {text done : List α} (hspread : Spread rules text)
    (hfresh : ∀ r ∈ rules, ∀ u, u ++ r.pattern <+: text → u.length < done.length →
      u.length + r.pattern.length ≤ done.length)
    {r r' : Placeholder α} (hr : r ∈ rules) (hr' : r' ∈ rules) (hocc : done ++ r.pattern <+: text)
    {a rest : List α} (htext : text = (done ++ a) ++ rest) (hinside : a.length < r.pattern.length)
    (hstands : r'.Stands (done ++ a) rest) : r = r' ∧ a = r'.left := by
  rcases exists_pattern hstands with ⟨u, hu, hocc'⟩
  rw [← htext] at hocc'
  have hlength := congrArg List.length hu
  rw [List.length_append, List.length_append] at hlength
  have hlong := length_pattern r'
  by_cases hle : done.length ≤ u.length
  · rcases hspread r hr r' hr' done u hocc hocc' hle with ⟨rfl, rfl⟩ | hfar
    · exact ⟨rfl, List.append_cancel_left hu⟩
    · omega
  · have hnear := hfresh r' hr' u hocc' (by omega)
    omega

/-- A substitution on the rest of a text fills it, if no pattern reaches from
    before into the rest. -/
theorem substitute_eq_filledText {text : List α} (hspread : Spread rules text) (s : List α) :
    ∀ done, text = done ++ s →
      (∀ r ∈ rules, ∀ u, u ++ r.pattern <+: text → u.length < done.length →
        u.length + r.pattern.length ≤ done.length) →
      substitute (rules.map Placeholder.rule) s = filledText (cutFrom rules done s) := by
  refine substitute_induction (rules.map Placeholder.rule) (P := fun s => ∀ done,
      text = done ++ s → (∀ r ∈ rules, ∀ u, u ++ r.pattern <+: text → u.length < done.length →
        u.length + r.pattern.length ≤ done.length) →
      substitute (rules.map Placeholder.rule) s = filledText (cutFrom rules done s)) rule_ne_nil
    (fun done _ _ => ?_) (fun rule hrule s hfind ih done htext hfresh => ?_)
    (fun c s hno ih done htext hfresh => ?_) s
  · rw [cutFrom]
    rfl
  · rcases List.mem_map.mp hrule with ⟨r, hr, rfl⟩
    rw [substitute_match (rule_ne_nil _ hrule) hfind]
    have hocc : done ++ r.pattern <+: text := by
      rw [htext, ← List.append_assoc]
      exact List.prefix_append _ _
    have hinside := fun a rest (h : text = (done ++ a) ++ rest) (hlt : a.length < r.pattern.length)
      r' (hr' : r' ∈ rules) hstands =>
        eq_of_stands_inside hspread hfresh hr hr' hocc h hlt hstands
    have hlong := length_pattern r
    have hrest := ih (done ++ r.pattern) (by rw [htext, List.append_assoc]; rfl) (by
      intro r' hr' u hu hlt
      rw [List.length_append] at hlt ⊢
      by_cases hle : done.length ≤ u.length
      · rcases hspread r hr r' hr' done u hocc hu hle with ⟨rfl, rfl⟩ | hfar
        · exact Nat.le_refl _
        · omega
      · have hnear := hfresh r' hr' u hu (by omega)
        omega)
    have hpattern : r.rule.1 ++ s = r.left ++ (r.first :: r.second :: (r.right ++ s)) := by
      simp only [Placeholder.rule, Placeholder.pattern, List.append_assoc, List.cons_append]
    rw [hpattern] at htext ⊢
    -- Before the two elements nothing stands.
    have hleft : cutFrom rules done (r.left ++ (r.first :: r.second :: (r.right ++ s))) =
        r.left.map Piece.kept ++
          cutFrom rules (done ++ r.left) (r.first :: r.second :: (r.right ++ s)) := by
      refine cutFrom_kept_append _ _ (fun a c b hx r' hr' hstands => ?_)
      have hlength := congrArg List.length hx
      rw [List.length_append, List.length_cons] at hlength
      have hsame := hinside a _ (by
        rw [htext, hx]; simp only [List.append_assoc, List.cons_append]) (by omega) r' hr' hstands
      rw [← hsame.1] at hsame
      rw [hsame.2] at hlength
      omega
    -- At the two elements there is a hole, of no other placeholder.
    have hhole : cutFrom rules (done ++ r.left) (r.first :: r.second :: (r.right ++ s)) =
        .hole r.first r.second r.new ::
          cutFrom rules (done ++ r.left ++ [r.first, r.second]) (r.right ++ s) := by
      have hstands : r.Stands (done ++ r.left) (r.first :: r.second :: (r.right ++ s)) :=
        ⟨List.suffix_append _ _, List.prefix_append (r.first :: r.second :: r.right) s⟩
      rcases cutFrom_stands hr hstands with ⟨r', hr', hstands', hcut⟩
      have hsame := hinside r.left _ (by rw [htext, List.append_assoc]) (by omega) r' hr' hstands'
      rw [hcut, hsame.1]
    -- Behind them nothing stands.
    have hright : cutFrom rules (done ++ r.left ++ [r.first, r.second]) (r.right ++ s) =
        r.right.map Piece.kept ++
          cutFrom rules (done ++ r.left ++ [r.first, r.second] ++ r.right) s := by
      refine cutFrom_kept_append _ _ (fun a c b hx r' hr' hstands => ?_)
      have hlength := congrArg List.length hx
      rw [List.length_append, List.length_cons] at hlength
      have hgap : done ++ r.left ++ [r.first, r.second] ++ a =
          done ++ (r.left ++ r.first :: r.second :: a) := by
        simp only [List.append_assoc, List.cons_append, List.nil_append]
      rw [hgap] at hstands
      have hsame := hinside (r.left ++ r.first :: r.second :: a) _ (by
        rw [htext, hx]; simp only [List.append_assoc, List.cons_append])
        (by rw [List.length_append, List.length_cons, List.length_cons]; omega) r' hr' hstands
      rw [← hsame.1] at hsame
      have hwrong := congrArg List.length hsame.2
      rw [List.length_append, List.length_cons, List.length_cons] at hwrong
      omega
    have hdone : done ++ r.left ++ [r.first, r.second] ++ r.right = done ++ r.pattern := by
      simp only [Placeholder.pattern, List.append_assoc, List.cons_append, List.nil_append]
    rw [hleft, hhole, hright, hdone, filledText_kept, filledText, filledText_kept,
      ← hrest]
    simp only [List.append_assoc]
  · -- A placeholder that stands here has its pattern here or from before.
    have hkept : ∀ r ∈ rules, ¬ r.Stands done (c :: s) := by
      intro r hr hstands
      rcases exists_pattern hstands with ⟨u, hu, hocc⟩
      rw [← htext] at hocc
      have hlength := congrArg List.length hu
      rw [List.length_append] at hlength
      have hlong := length_pattern r
      by_cases hlt : u.length < done.length
      · have hnear := hfresh r hr u hocc hlt
        omega
      · have hnil : r.left = [] := List.length_eq_zero_iff.mp (by omega)
        rw [hnil, List.append_nil] at hu
        rw [htext, ← hu, List.prefix_append_right_inj] at hocc
        exact hno r.rule (List.mem_map_of_mem hr) hocc
    have hrest := ih (done ++ [c]) (by rw [htext, List.append_assoc]; rfl) (by
      intro r hr u hu hlt
      rw [List.length_append, List.length_singleton] at hlt ⊢
      by_cases hbefore : u.length < done.length
      · have hnear := hfresh r hr u hu hbefore
        omega
      · have hdone : done ++ (c :: s) <+: text := htext ▸ List.prefix_rfl
        have hu' := eq_of_prefix_of_length hu hdone (by omega)
        rw [htext, hu', List.prefix_append_right_inj] at hu
        exact absurd hu (hno r.rule (List.mem_map_of_mem hr)))
    rw [substitute_cons hno, cutFrom_kept hkept, filledText, hrest]

/-- A substitution fills the placeholders of a text in which no two patterns
    overlap. -/
theorem substitute_eq_fill {text : List α} (hspread : Spread rules text) :
    substitute (rules.map Placeholder.rule) text = fill rules text :=
  substitute_eq_filledText hspread text [] rfl
    (fun _ _ _ _ hlt => absurd hlt (Nat.not_lt_zero _))

/-- A pass for a pattern that does not overlap with itself. -/
theorem substitute_borderless {r : Placeholder α} (h : Borderless r.pattern)
    (text : List α) : substitute [r.rule] text = fill [r] text := by
  have hspread : Spread [r] text := by
    refine spread_of_apart (fun q hq => ?_) (List.pairwise_singleton _ _) text
    exact List.mem_singleton.mp hq ▸ h
  exact substitute_eq_fill hspread

/-- Passes for patterns that do not overlap with themselves. -/
theorem foldl_substitute_borderless {places : List (Placeholder α)}
    (h : ∀ r ∈ places, Borderless r.pattern) (text : List α) :
    (places.map Placeholder.rule).foldl (fun text rule => substitute [rule] text) text =
      passes places text := by
  induction places generalizing text with
  | nil => rfl
  | cons r places ih =>
      rw [List.forall_mem_cons] at h
      rw [List.map_cons, List.foldl_cons, substitute_borderless h.1, ih h.2]
      rfl

/-! ## Putting something else -/

/-- A placeholder for which something else is put. -/
def Placeholder.put (g : Placeholder α → List α) (r : Placeholder α) : Placeholder α :=
  { r with new := g r }

/-- Another text for a placeholder does not change which one stands in a
    place. -/
theorem find_put (rules : List (Placeholder α)) (g : Placeholder α → List α)
    (before text : List α) :
    (rules.map (Placeholder.put g)).find? (fun r => decide (r.Stands before text)) =
      (rules.find? (fun r => decide (r.Stands before text))).map (Placeholder.put g) :=
  List.find?_map

/-- If what is put has the same keys, for all placeholders whose pattern is in
    the text, the filled texts have. -/
theorem fill_put {β : Type} {key : α → β} {g : Placeholder α → List α} (text : List α)
    (h : ∀ r ∈ rules, (g r).map key = r.new.map key ∨ ¬ r.pattern <:+: text) :
    (fill (rules.map (Placeholder.put g)) text).map key = (fill rules text).map key := by
  refine cut_induction rules (P := fun before rest => before ++ rest = text →
      (filledText (cutFrom (rules.map (Placeholder.put g)) before rest)).map key =
        (filledText (cutFrom rules before rest)).map key)
    (fun before _ => ?_) (fun r hr before rest hstands hfind ih htext => ?_)
    (fun before c rest hno ih htext => ?_) [] text rfl
  · rw [cutFrom, cutFrom]
  · have hother := find_put rules g before (r.first :: r.second :: rest)
    rw [hfind, Option.map_some] at hother
    have hrest := ih (by rw [← htext, List.append_assoc]; rfl)
    have hcut := cutFrom_hole (r := r.put g) hother
    -- A placeholder that stands here has its pattern in the text.
    have hkeys : (g r).map key = r.new.map key := by
      rcases exists_pattern hstands with ⟨u, -, hocc⟩
      rw [htext] at hocc
      refine (h r hr).resolve_right (fun hnot => hnot ?_)
      exact (List.suffix_append u _).isInfix.trans hocc.isInfix
    rw [cutFrom_hole hfind, filledText, List.map_append, ← hrest, ← hkeys, ← List.map_append]
    exact congrArg (fun ps => (filledText ps).map key) hcut
  · have hother : ∀ r ∈ rules.map (Placeholder.put g), ¬ r.Stands before (c :: rest) := by
      intro r hr
      rcases List.mem_map.mp hr with ⟨r', hr', rfl⟩
      exact hno r' hr'
    have hrest := ih (by rw [← htext, List.append_assoc]; rfl)
    rw [cutFrom_kept hother, cutFrom_kept hno]
    exact congrArg (key c :: ·) hrest

/-- If texts of the same lengths are put and the filled texts are the same, the
    same is put for every placeholder whose pattern is in the text. -/
theorem put_of_fill_eq {g : Placeholder α → List α} (hsep : Separate rules)
    (hsep' : Separate (rules.map (Placeholder.put g)))
    (hlength : ∀ r ∈ rules, (g r).length = r.new.length) {text : List α}
    (heq : fill (rules.map (Placeholder.put g)) text = fill rules text) {r : Placeholder α}
    (hr : r ∈ rules) (hin : r.pattern <:+: text) : g r = r.new := by
  have hplace : ∀ before text u v, text = u ++ v → r.Stands (before ++ u) v →
      filledText (cutFrom (rules.map (Placeholder.put g)) before text) =
        filledText (cutFrom rules before text) → g r = r.new := by
    intro before text
    refine cut_induction rules (P := fun before text => ∀ u v, text = u ++ v →
        r.Stands (before ++ u) v →
        filledText (cutFrom (rules.map (Placeholder.put g)) before text) =
          filledText (cutFrom rules before text) → g r = r.new)
      (fun before u v htext hstands _ => ?_)
      (fun r' hr' before rest hstands' hfind ih u v htext hstands heq => ?_)
      (fun before c rest hno ih u v htext hstands heq => ?_) before text
    · have hv : v = [] := (List.append_eq_nil_iff.mp htext.symm).2
      exact absurd (hv ▸ hstands) (not_stands_nil r _)
    · have hother := find_put rules g before (r'.first :: r'.second :: rest)
      rw [hfind, Option.map_some] at hother
      have hcut : cutFrom (rules.map (Placeholder.put g)) before (r'.first :: r'.second :: rest) =
          .hole r'.first r'.second (g r') ::
            cutFrom (rules.map (Placeholder.put g)) (before ++ [r'.first, r'.second]) rest :=
        cutFrom_hole (r := r'.put g) hother
      rw [cutFrom_hole hfind, hcut, filledText, filledText] at heq
      have hparts := List.append_inj heq (hlength r' hr')
      rcases u with _ | ⟨c, _ | ⟨d, u⟩⟩
      · -- The placeholder stands here, so it puts what the hole gets.
        rw [List.append_nil] at hstands
        rw [List.nil_append] at htext
        rw [← htext] at hstands
        have hputs : g r = g r' := hsep'.agree _ (List.mem_map_of_mem hr) _
          (List.mem_map_of_mem hr') before _ hstands hstands'
        rw [hputs, hparts.1, hsep.agree r hr r' hr' _ _ hstands hstands']
      · -- It does not stand at the second element of another one.
        rw [List.cons_append, List.nil_append, List.cons.injEq] at htext
        rw [← htext.2] at hstands
        exact absurd hstands (not_stands_second hsep hr' hr _ _)
      · rw [List.cons_append, List.cons_append, List.cons.injEq, List.cons.injEq] at htext
        refine ih u v htext.2.2 ?_ hparts.2
        rw [List.append_assoc, htext.1, htext.2.1]
        exact hstands
    · have hother : ∀ q ∈ rules.map (Placeholder.put g), ¬ q.Stands before (c :: rest) := by
        intro q hq
        rcases List.mem_map.mp hq with ⟨r', hr', rfl⟩
        exact hno r' hr'
      rw [cutFrom_kept hno, cutFrom_kept hother, filledText, filledText, List.cons.injEq] at heq
      rcases u with _ | ⟨d, u⟩
      · rw [List.append_nil] at hstands
        rw [List.nil_append] at htext
        exact absurd (htext ▸ hstands) (hno r hr)
      · rw [List.cons_append, List.cons.injEq] at htext
        refine ih u v htext.2 ?_ heq.2
        rw [List.append_assoc, htext.1]
        exact hstands
  rcases hin with ⟨u, v, huv⟩
  have hocc : u ++ r.pattern <+: text := ⟨v, huv⟩
  rcases stands_of_pattern hocc with ⟨w, htext, hstands⟩
  exact hplace [] text (u ++ r.left) w htext hstands heq

/-- Placeholders that are replaced by themselves need not be replaced. -/
theorem fill_append_same {same : List (Placeholder α)} (hsep : Separate (rules ++ same))
    (hsame : ∀ r ∈ same, r.new = [r.first, r.second]) (text : List α) :
    fill (rules ++ same) text = fill rules text := by
  refine cut_induction (rules ++ same) (P := fun before text =>
      filledText (cutFrom (rules ++ same) before text) = filledText (cutFrom rules before text))
    (fun before => ?_) (fun r hr before rest hstands hfind ih => ?_)
    (fun before c rest hno ih => ?_) [] text
  · rw [cutFrom, cutFrom]
  · rw [cutFrom_hole hfind, filledText, ih]
    rw [List.find?_append] at hfind
    rcases hcase : rules.find? (fun q => decide (q.Stands before (r.first :: r.second :: rest)))
      with _ | q
    · -- One of the others stands here, and no placeholder at its second element.
      rw [hcase, Option.none_or] at hfind
      have hfirst : ∀ q ∈ rules, ¬ q.Stands before (r.first :: r.second :: rest) :=
        fun q hq h => List.find?_eq_none.mp hcase q hq (decide_eq_true h)
      have hsecond : ∀ q ∈ rules, ¬ q.Stands (before ++ [r.first]) (r.second :: rest) :=
        fun q hq => not_stands_second hsep hr (List.mem_append_left _ hq) _ _
      rw [hsame r (List.mem_of_find?_eq_some hfind), cutFrom_kept hfirst, cutFrom_kept hsecond,
        List.append_assoc]
      rfl
    · rw [hcase, Option.some_or, Option.some.injEq] at hfind
      rw [hfind] at hcase
      rw [cutFrom_hole hcase, filledText]
  · have hfew : ∀ r ∈ rules, ¬ r.Stands before (c :: rest) :=
      fun r hr => hno r (List.mem_append_left _ hr)
    rw [cutFrom_kept hno, cutFrom_kept hfew, filledText, filledText, ih]

theorem fill_same (hsep : Separate rules) (hsame : ∀ r ∈ rules, r.new = [r.first, r.second])
    (text : List α) : fill rules text = text := by
  have hsep' : Separate ([] ++ rules) := hsep
  have hnone := fill_append_same hsep' hsame text
  rwa [List.nil_append, fill_nil] at hnone

theorem passes_same (hsep : Separate rules) (hsame : ∀ r ∈ rules, r.new = [r.first, r.second])
    (text : List α) : passes rules text = text := by
  induction rules with
  | nil => rfl
  | cons r rules ih =>
      rw [List.forall_mem_cons] at hsame
      have hfirst : Separate [r] :=
        separate_of_subset hsep (fun q hq => List.mem_singleton.mp hq ▸ List.mem_cons_self)
      rw [passes_cons, fill_same hfirst (fun q hq => List.mem_singleton.mp hq ▸ hsame.1),
        ih (separate_tail hsep) hsame.2]

/-- An element that is not put for any placeholder is one of the text, and it
    is kept. -/
theorem exists_of_infix_fill {m : α} {w : List α} (hnew : ∀ r ∈ rules, m ∉ r.new)
    (before text : List α) (h : m :: w <:+: filledText (cutFrom rules before text)) :
    ∃ u rest, text = u ++ m :: rest ∧
      w <+: filledText (cutFrom rules (before ++ u ++ [m]) rest) := by
  refine cut_induction rules (P := fun before text =>
      m :: w <:+: filledText (cutFrom rules before text) → ∃ u rest, text = u ++ m :: rest ∧
        w <+: filledText (cutFrom rules (before ++ u ++ [m]) rest))
    (fun before h => ?_) (fun r hr before rest _ hfind ih h => ?_)
    (fun before c rest hno ih h => ?_) before text h
  · rw [cutFrom] at h
    exact absurd (List.infix_nil.mp h) (List.cons_ne_nil _ _)
  · rw [cutFrom_hole hfind, filledText] at h
    rcases h with ⟨front, back, heq⟩
    rw [List.append_assoc, List.cons_append] at heq
    -- The element is not in what is put here, so it comes behind that.
    rcases exists_gap (hnew r hr) heq.symm with ⟨gap, -, hrest⟩
    rcases ih ⟨gap, back, by rw [hrest, List.append_assoc, List.cons_append]⟩
      with ⟨u, rest', rfl, hw⟩
    refine ⟨r.first :: r.second :: u, rest', rfl, ?_⟩
    simp only [List.append_assoc, List.cons_append, List.nil_append] at hw ⊢
    exact hw
  · rw [cutFrom_kept hno, filledText] at h
    rcases List.infix_cons_iff.mp h with hpre | hin
    · rw [List.cons_prefix_cons] at hpre
      refine ⟨[], rest, by rw [hpre.1, List.nil_append], ?_⟩
      rw [List.append_nil, hpre.1]
      exact hpre.2
    · rcases ih hin with ⟨u, rest', rfl, hw⟩
      refine ⟨c :: u, rest', rfl, ?_⟩
      simp only [List.append_assoc, List.cons_append, List.nil_append] at hw ⊢
      exact hw

end

end Qdmi
