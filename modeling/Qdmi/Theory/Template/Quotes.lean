import Qdmi.Theory.Template.Places

/-!
# Quotes in a Generated File

The placeholder in quotes, before and after the passes.

No pass puts a quote, and what a pass puts for the letters of a placeholder has
one behind it only where the placeholder had. So a quoted `my` in a text with
filled placeholders was there before, unless `my` itself is put for the
placeholders. When all placeholders are replaced at once none is left. The pass
for the placeholder in quotes leaves one if two of them share a quote, and no
other pass takes it away.

## Main definitions

* `Proper`: A text that is put and is neither empty nor `my` nor quoted.

## Theorems

* `proper_prefix`: A prefix is such a text unless it is `my` in some case.
* `between_quotes`: What becomes a quoted `my` was one.
* `quoted_not_infix_fill`: None is left when all placeholders are replaced.
* `shared_of_passes`: Two that share a quote do not come about.
* `quoted_infix_substitute`: One of two that share a quote is left.
-/

namespace Qdmi

/-- A text that can be put for a placeholder: it is not empty and not `my`, and
    it has no quote. -/
def Proper (new : List UInt8) : Prop := new ≠ [] ∧ new ≠ ascii "my" ∧ 34 ∉ new

/-! ## Prefixes -/

theorem letters_checked : ∀ n : Fin 256,
    toLower (toLower (UInt8.ofNat n)) = toLower (UInt8.ofNat n) ∧
      (isWord (UInt8.ofNat n) = true → isWord (toLower (UInt8.ofNat n)) = true) ∧
      (toLower (UInt8.ofNat n) = 109 → UInt8.ofNat n = 77 ∨ UInt8.ofNat n = 109) ∧
      (toLower (UInt8.ofNat n) = 121 → UInt8.ofNat n = 89 ∨ UInt8.ofNat n = 121) := by
  decide +kernel

/-- Lower case changes letters, so it keeps the characters of words, and `m` and
    `y` come from the letter in one of the two cases. -/
theorem toLower_cases (c : UInt8) : toLower (toLower c) = toLower c ∧
    (isWord c = true → isWord (toLower c) = true) ∧
    (toLower c = 109 → c = 77 ∨ c = 109) ∧ (toLower c = 121 → c = 89 ∨ c = 121) := by
  have hchecked := letters_checked ⟨c.toNat, c.toNat_lt⟩
  rwa [UInt8.ofNat_toNat] at hchecked

theorem lower_word (templatePrefix : Identifier) : ∀ c ∈ templatePrefix.lower, isWord c = true := by
  intro c hc
  rcases List.mem_map.mp hc with ⟨d, hd, rfl⟩
  exact (toLower_cases d).2.1 (templatePrefix.word d hd)

theorem chars_ne_nil (templatePrefix : Identifier) : templatePrefix.chars ≠ [] := by
  rcases templatePrefix.start with ⟨c, hc, -⟩
  intro hnil
  rw [hnil] at hc
  exact absurd hc (by simp only [List.head?_nil, Option.mem_def, reduceCtorEq, not_false_eq_true])

/-- A prefix that is not `my` in lower case can be put for a placeholder, as it
    is or in lower case. -/
theorem proper_prefix {templatePrefix : Identifier} (hmy : templatePrefix.lower ≠ ascii "my") :
    Proper templatePrefix.chars ∧ Proper templatePrefix.lower := by
  have hne := chars_ne_nil templatePrefix
  refine ⟨⟨hne, fun h => hmy ?_, fun hmem => ?_⟩, ⟨fun h => hne ?_, hmy, fun hmem => ?_⟩⟩
  · rw [Identifier.lower, h]
    rfl
  · exact absurd (templatePrefix.word 34 hmem) (by decide)
  · exact List.map_eq_nil_iff.mp h
  · exact absurd (lower_word templatePrefix 34 hmem) (by decide)

theorem proper_new {upper lower quoted : List UInt8} (hupper : Proper upper) (hlower : Proper lower)
    (hquoted : Proper quoted) : ∀ r ∈ placeholders upper lower quoted, Proper r.new := by
  intro r hr
  rcases place_new hr with h | h | h
  · exact h ▸ hupper
  · exact h ▸ hlower
  · exact h ▸ hquoted

/-! ## Between quotes -/

/-- What stands around a placeholder: a placeholder without a text on its left
    has one on its right that begins with no letter and no quote, and one with
    a quote on its left has a quote on its right. -/
theorem frames_checked : (placeholders [] [] []).all (fun r =>
    (r.first = 77 || r.first = 109) &&
    (r.left = [] && r.right.head? ∈ [some 95, some 32, some 45, some 47, some 46] ||
      r.left.getLast? = some 34 && r.right.head? = some 34 ||
      r.left.getLast? ∈ [some 47, some 32])) = true := by
  decide +kernel

section

variable {upper lower quoted : List UInt8} {rules : List (Placeholder UInt8)}

theorem place_first {r : Placeholder UInt8} (hr : r ∈ placeholders upper lower quoted) :
    r.first = 77 ∨ r.first = 109 := by
  rcases exists_place hr with ⟨p, hp, rfl⟩
  have hchecked := List.all_eq_true.mp frames_checked p hp
  simp only [Bool.and_eq_true, Bool.or_eq_true, decide_eq_true_eq] at hchecked
  exact hchecked.1

/-- A placeholder that stands behind a quote or behind a letter has a text on
    its right that begins with no letter, and with no quote if it stands behind
    a letter. -/
theorem place_right {r : Placeholder UInt8} (hr : r ∈ placeholders upper lower quoted)
    {b rest : List UInt8} {c : UInt8} (hc : c = 34 ∨ c = 109) (hstands : r.Stands (b ++ [c]) rest) :
    ∃ e right, r.right = e :: right ∧ e ≠ 77 ∧ e ≠ 109 ∧ e ≠ 121 ∧ (c = 109 → e ≠ 34) := by
  rcases exists_place hr with ⟨p, hp, rfl⟩
  have hchecked := List.all_eq_true.mp frames_checked p hp
  simp only [Bool.and_eq_true, Bool.or_eq_true, decide_eq_true_eq] at hchecked
  have hfront : p.left <:+ b ++ [c] := hstands.1
  -- The text on the left is empty or ends with the character.
  have hlast : p.left = [] ∨ p.left.getLast? = some c := by
    rcases List.suffix_concat_iff.mp hfront with hnil | ⟨t, ht, -⟩
    · exact Or.inl hnil
    · exact Or.inr (by rw [ht, List.getLast?_concat])
  rcases hchecked.2 with (⟨-, hhead⟩ | ⟨hquote, hhead⟩) | hend
  · have hchars : ∀ o ∈ [some 95, some 32, some 45, some 47, some (46 : UInt8)],
        ∃ e, o = some e ∧ e ≠ 77 ∧ e ≠ 109 ∧ e ≠ 121 ∧ e ≠ 34 := by
      intro o ho
      simp only [List.mem_cons, List.not_mem_nil, or_false] at ho
      rcases ho with rfl | rfl | rfl | rfl | rfl <;>
        exact ⟨_, rfl, by decide, by decide, by decide, by decide⟩
    rcases hchars _ hhead with ⟨e, he, hM, hm, hy, hq⟩
    rcases List.head?_eq_some_iff.mp he with ⟨right, hright⟩
    exact ⟨e, right, hright, hM, hm, hy, fun _ => hq⟩
  · rcases List.head?_eq_some_iff.mp hhead with ⟨right, hright⟩
    refine ⟨34, right, hright, by decide, by decide, by decide, fun hm => ?_⟩
    rcases hlast with hnil | hlast
    · rw [hnil] at hquote
      exact absurd hquote (by simp only [List.getLast?_nil, reduceCtorEq, not_false_eq_true])
    · rw [hlast, hm] at hquote
      exact absurd hquote (by decide)
  · refine absurd hend ?_
    rcases hlast with hnil | hlast
    · rw [hnil]
      decide
    · rw [hlast]
      rcases hc with rfl | rfl <;> decide

/-- A text in which placeholders are filled, at a placeholder: what is put, and
    behind it the text on the right of the placeholder as it was. -/
theorem filledText_place (hsub : ∀ r ∈ rules, r ∈ placeholders upper lower quoted)
    {b rest : List UInt8} {c : UInt8} (hc : c = 34 ∨ c = 109) {r : Placeholder UInt8}
    (hr : r ∈ rules) (hstands : r.Stands (b ++ [c]) rest) :
    ∃ r' ∈ rules, ∃ e z, filledText (cutFrom rules (b ++ [c]) rest) = r'.new ++ e :: z ∧
      e ≠ 109 ∧ e ≠ 121 ∧ (c = 109 → e ≠ 34) := by
  rcases exists_find hr hstands with ⟨r', hr', behind, rfl, hstands', hfind⟩
  rcases place_right (hsub r' hr') hc hstands' with ⟨e, right, hright, hM, hm, hy, hq⟩
  have hpre := hstands'.2
  rw [hright, List.cons_prefix_cons, List.cons_prefix_cons] at hpre
  rcases hpre.2.2 with ⟨z, hz⟩
  rw [List.cons_append] at hz
  -- Nothing stands at the character behind the placeholder.
  have hno : ∀ q ∈ rules, ¬ q.Stands (b ++ [c] ++ [r'.first, r'.second]) (e :: (right ++ z)) := by
    intro q hq h
    have hfirst : q.first = e := first_of_stands h
    rcases place_first (hsub q hq) with hcase | hcase
    · exact hM (hfirst.symm.trans hcase)
    · exact hm (hfirst.symm.trans hcase)
  have hfilled : filledText (cutFrom rules (b ++ [c]) (r'.first :: r'.second :: behind)) =
      r'.new ++ e :: filledText
        (cutFrom rules (b ++ [c] ++ [r'.first, r'.second] ++ [e]) (right ++ z)) := by
    rw [cutFrom_hole hfind, filledText, ← hz, cutFrom_kept hno, filledText]
  exact ⟨r', hr', e, _, hfilled, hm, hy, hq⟩

theorem proper_not_quoted {new w z : List UInt8} {e : UInt8} (hnew : Proper new) (hm : e ≠ 109)
    (hy : e ≠ 121) : ¬ 109 :: 121 :: 34 :: w <+: new ++ e :: z := by
  intro h
  rcases hnew with ⟨-, hmy, hquote⟩
  rcases new with _ | ⟨a, _ | ⟨d, _ | ⟨f, new⟩⟩⟩
  · rw [List.nil_append, List.cons_prefix_cons] at h
    exact hm h.1.symm
  · simp only [List.cons_append, List.nil_append, List.cons_prefix_cons] at h
    exact hy h.2.1.symm
  · simp only [List.cons_append, List.nil_append, List.cons_prefix_cons] at h
    rw [← h.1, ← h.2.1] at hmy
    exact hmy rfl
  · simp only [List.cons_append, List.cons_prefix_cons] at h
    rw [← h.2.2.1] at hquote
    exact hquote (List.mem_cons_of_mem _ (List.mem_cons_of_mem _ List.mem_cons_self))

theorem proper_not_closed {new w z : List UInt8} {e : UInt8} (hnew : Proper new) (hy : e ≠ 121)
    (hq : e ≠ 34) : ¬ 121 :: 34 :: w <+: new ++ e :: z := by
  intro h
  rcases new with _ | ⟨a, _ | ⟨d, new⟩⟩
  · rw [List.nil_append, List.cons_prefix_cons] at h
    exact hy h.1.symm
  · simp only [List.cons_append, List.nil_append, List.cons_prefix_cons] at h
    exact hq h.2.1.symm
  · simp only [List.cons_append, List.cons_prefix_cons] at h
    exact hnew.2.2 (h.2.1 ▸ List.mem_cons_of_mem _ List.mem_cons_self)

theorem proper_not_quote {new w z : List UInt8} (hnew : Proper new) : ¬ 34 :: w <+: new ++ z := by
  intro h
  rcases new with _ | ⟨a, new⟩
  · exact hnew.1 rfl
  · rw [List.cons_append, List.cons_prefix_cons] at h
    exact hnew.2.2 (h.1 ▸ List.mem_cons_self)

/-- What becomes a quoted `my` behind a quote was one, and it is kept. -/
theorem between_quotes (hsub : ∀ r ∈ rules, r ∈ placeholders upper lower quoted)
    (hnew : ∀ r ∈ rules, Proper r.new) {b rest w : List UInt8}
    (h : 109 :: 121 :: 34 :: w <+: filledText (cutFrom rules (b ++ [34]) rest)) :
    ∃ behind, rest = 109 :: 121 :: 34 :: behind ∧
      (∀ r ∈ rules, ¬ r.Stands (b ++ [34]) rest) ∧
      w <+: filledText (cutFrom rules (b ++ [34, 109, 121] ++ [34]) behind) := by
  -- No placeholder stands at the first letter: what is put there would be `my`.
  have hfirst : ∀ r ∈ rules, ¬ r.Stands (b ++ [34]) rest := by
    intro r hr hstands
    rcases filledText_place hsub (Or.inl rfl) hr hstands with ⟨r', hr', e, z, hz, hm, hy, -⟩
    rw [hz] at h
    exact proper_not_quoted (hnew r' hr') hm hy h
  rcases rest with _ | ⟨c, rest⟩
  · rw [cutFrom] at h
    exact absurd (List.prefix_nil.mp h) (List.cons_ne_nil _ _)
  rw [cutFrom_kept hfirst, filledText, List.cons_prefix_cons] at h
  rcases h with ⟨rfl, h⟩
  -- None stands at the second one: what is put there would end with a quote.
  have hsecond : ∀ r ∈ rules, ¬ r.Stands (b ++ [34] ++ [109]) rest := by
    intro r hr hstands
    rcases filledText_place hsub (Or.inr rfl) hr hstands with ⟨r', hr', e, z, hz, -, hy, hq⟩
    rw [hz] at h
    exact proper_not_closed (hnew r' hr') hy (hq rfl) h
  rcases rest with _ | ⟨c, rest⟩
  · rw [cutFrom] at h
    exact absurd (List.prefix_nil.mp h) (List.cons_ne_nil _ _)
  rw [cutFrom_kept hsecond, filledText, List.cons_prefix_cons] at h
  rcases h with ⟨rfl, h⟩
  -- None stands at the quote: what is put there would be one.
  have hthird : ∀ r ∈ rules, ¬ r.Stands (b ++ [34] ++ [109] ++ [121]) rest := by
    intro r hr hstands
    rcases exists_find hr hstands with ⟨r', hr', behind, rfl, -, hfind⟩
    rw [cutFrom_hole hfind, filledText] at h
    exact proper_not_quote (hnew r' hr') h
  rcases rest with _ | ⟨c, rest⟩
  · rw [cutFrom] at h
    exact absurd (List.prefix_nil.mp h) (List.cons_ne_nil _ _)
  rw [cutFrom_kept hthird, filledText, List.cons_prefix_cons] at h
  rcases h with ⟨rfl, h⟩
  refine ⟨rest, rfl, hfirst, ?_⟩
  simp only [List.append_assoc, List.cons_append, List.nil_append] at h ⊢
  exact h

/-- No quoted `my` is left when all placeholders are replaced at once. -/
theorem quoted_not_infix_fill {upper lower quoted : List UInt8}
    (hnew : ∀ r ∈ placeholders upper lower quoted, Proper r.new) (text : List UInt8) :
    ¬ ascii "\"my\"" <:+: fill (placeholders upper lower quoted) text := by
  intro h
  rcases exists_of_infix_fill (m := 34) (w := [109, 121, 34]) (fun r hr => (hnew r hr).2.2) []
    text h with ⟨u, rest, -, hw⟩
  rcases between_quotes (fun r hr => hr) hnew hw with ⟨behind, rfl, hno, -⟩
  refine hno (quotedPlace quoted) ?_ ⟨List.suffix_append _ _, List.prefix_append _ _⟩
  rw [placeholders_split]
  exact List.mem_append_right _ List.mem_cons_self

/-- A quoted `my` does not come about. -/
theorem quoted_of_fill (hsub : ∀ r ∈ rules, r ∈ placeholders upper lower quoted)
    (hnew : ∀ r ∈ rules, Proper r.new) {text : List UInt8}
    (h : ascii "\"my\"" <:+: fill rules text) : ascii "\"my\"" <:+: text := by
  rcases exists_of_infix_fill (m := 34) (w := [109, 121, 34]) (fun r hr => (hnew r hr).2.2) []
    text h with ⟨u, rest, htext, hw⟩
  rcases between_quotes hsub hnew hw with ⟨behind, rfl, -, -⟩
  exact ⟨u, behind, by rw [htext, List.append_assoc]; rfl⟩

/-- Two of them that share a quote do not come about. -/
theorem shared_of_fill (hsub : ∀ r ∈ rules, r ∈ placeholders upper lower quoted)
    (hnew : ∀ r ∈ rules, Proper r.new) {text : List UInt8}
    (h : ascii "\"my\"my\"" <:+: fill rules text) : ascii "\"my\"my\"" <:+: text := by
  rcases exists_of_infix_fill (m := 34) (w := [109, 121, 34, 109, 121, 34])
    (fun r hr => (hnew r hr).2.2) [] text h with ⟨u, rest, htext, hw⟩
  rcases between_quotes hsub hnew hw with ⟨behind, rfl, -, hbehind⟩
  rcases between_quotes hsub hnew hbehind with ⟨behind, rfl, -, -⟩
  exact ⟨u, behind, by rw [htext, List.append_assoc]; rfl⟩

theorem shared_of_passes (hsub : ∀ r ∈ rules, r ∈ placeholders upper lower quoted)
    (hnew : ∀ r ∈ rules, Proper r.new) {text : List UInt8}
    (h : ascii "\"my\"my\"" <:+: passes rules text) : ascii "\"my\"my\"" <:+: text := by
  induction rules generalizing text with
  | nil => exact h
  | cons r rules ih =>
      rw [List.forall_mem_cons] at hsub hnew
      have hfirst : ∀ q ∈ [r], q ∈ placeholders upper lower quoted :=
        fun q hq => List.mem_singleton.mp hq ▸ hsub.1
      have hput : ∀ q ∈ [r], Proper q.new := fun q hq => List.mem_singleton.mp hq ▸ hnew.1
      rw [passes_cons] at h
      exact shared_of_fill hfirst hput (ih hsub.2 hnew.2 h)

end

/-! ## What the passes leave -/

theorem plain_apart_checked : (plainPlaces [] []).all
    (fun r => Apart r.pattern (ascii "\"my\"my\"")) = true := by
  decide +kernel

/-- Two that share a quote survive the passes before theirs. -/
theorem shared_survives (upper lower : List UInt8) {text : List UInt8}
    (h : ascii "\"my\"my\"" <:+: text) :
    ascii "\"my\"my\"" <:+: ((plainPlaces upper lower).map Placeholder.rule).foldl
      (fun text rule => substitute [rule] text) text := by
  have hput : plainPlaces upper lower =
      (plainPlaces [] []).map (Placeholder.put (chosen upper lower lower)) := rfl
  rw [hput]
  refine infix_foldl_substitute rule_ne_nil (fun rule hrule => ?_) h
  rcases List.mem_map.mp hrule with ⟨r, hr, rfl⟩
  rcases List.mem_map.mp hr with ⟨p, hp, rfl⟩
  exact of_decide_eq_true (List.all_eq_true.mp plain_apart_checked p hp)

/-- A quoted `my` survives the pass behind its own. -/
theorem quoted_survives_last (lower : List UInt8) {text : List UInt8}
    (h : ascii "\"my\"" <:+: text) :
    ascii "\"my\"" <:+: substitute [(lastPlace lower).rule] text := by
  have hapart : Apart (lastPlace lower).pattern (ascii "\"my\"") := by
    have hchecked : Apart (lastPlace []).pattern (ascii "\"my\"") := by
      decide +kernel
    exact hchecked
  refine infix_substitute (fun rule hrule => ?_) (fun rule hrule => ?_) h
  · exact List.mem_singleton.mp hrule ▸ pattern_ne_nil (lastPlace lower)
  · exact List.mem_singleton.mp hrule ▸ hapart

theorem quotedPlace_rule (quoted : List UInt8) :
    (quotedPlace quoted).rule = ([34, 109, 121, 34], 34 :: (quoted ++ [34])) := rfl

/-- Behind a quote the pass for the placeholder in quotes leaves what is up to
    the next quote. -/
theorem substitute_unopened (quoted z : List UInt8) :
    ∃ t, substitute [(quotedPlace quoted).rule] (109 :: 121 :: 34 :: z) =
      109 :: 121 :: 34 :: t := by
  rw [quotedPlace_rule]
  have hno : ∀ (c : UInt8) s, c ≠ 34 →
      ∀ rule ∈ [([34, 109, 121, 34], 34 :: (quoted ++ [34]))], ¬ rule.1 <+: c :: s := by
    intro c s hc rule hrule hpre
    rw [List.mem_singleton.mp hrule, List.cons_prefix_cons] at hpre
    exact hc hpre.1.symm
  rw [substitute_cons (hno 109 _ (by decide)), substitute_cons (hno 121 _ (by decide))]
  by_cases hpre : [34, 109, 121, 34] <+: 34 :: z
  · rcases hpre with ⟨s, hs⟩
    rw [← hs, substitute_head (List.cons_ne_nil _ _)]
    exact ⟨_, rfl⟩
  · refine ⟨_, congrArg (fun t => 109 :: 121 :: t) (substitute_cons (fun rule hrule => ?_))⟩
    exact List.mem_singleton.mp hrule ▸ hpre

/-- Of two that share a quote the pass for the placeholder in quotes leaves one.
    The induction is along the pass. -/
theorem quoted_infix_substitute (quoted : List UInt8) {text : List UInt8}
    (h : ascii "\"my\"my\"" <:+: text) :
    ascii "\"my\"" <:+: substitute [(quotedPlace quoted).rule] text := by
  -- What is left stands behind a quote, of the text or of a replacement.
  have hleft : ∀ front z, ascii "\"my\"" <:+:
      front ++ 34 :: substitute [(quotedPlace quoted).rule] (109 :: 121 :: 34 :: z) := by
    intro front z
    rcases substitute_unopened quoted z with ⟨t, ht⟩
    exact ⟨front, t, by rw [ht, List.append_assoc]; rfl⟩
  refine substitute_induction [(quotedPlace quoted).rule]
    (P := fun text => ascii "\"my\"my\"" <:+: text →
      ascii "\"my\"" <:+: substitute [(quotedPlace quoted).rule] text)
    (fun rule hrule => ?_) (fun h => ?_) (fun rule hrule s _ ih h => ?_) (fun c s hno ih h => ?_)
    text h
  · rw [List.mem_singleton.mp hrule]
    exact List.cons_ne_nil _ _
  · exact absurd (List.infix_nil.mp h) (List.cons_ne_nil _ _)
  · rw [List.mem_singleton.mp hrule, quotedPlace_rule] at h ⊢
    rw [substitute_head (List.cons_ne_nil _ _), ← quotedPlace_rule]
    have hword : ascii "\"my\"my\"" = 34 :: 109 :: 121 :: 34 :: [109, 121, 34] := rfl
    -- The two begin with the pattern, or with its last quote, or behind it.
    have hcases : [109, 121, 34] <+: s ∨ ascii "\"my\"my\"" <:+: s := by
      rcases List.infix_cons_iff.mp h with hpre | hfirst
      · have hboth : [34, 109, 121, 34] ++ [109, 121, 34] <+: [34, 109, 121, 34] ++ s := hpre
        exact Or.inl ((List.prefix_append_right_inj _).mp hboth)
      rcases List.infix_cons_iff.mp hfirst with hpre | hsecond
      · exact absurd (List.cons_prefix_cons.mp hpre).1 (by decide)
      rcases List.infix_cons_iff.mp hsecond with hpre | hthird
      · exact absurd (List.cons_prefix_cons.mp hpre).1 (by decide)
      rcases List.infix_cons_iff.mp hthird with hpre | hin
      · rw [hword, List.cons_prefix_cons] at hpre
        exact Or.inl ((List.prefix_append [109, 121, 34] _).trans hpre.2)
      · exact Or.inr hin
    rcases hcases with ⟨z, rfl⟩ | hin
    · have hquote := hleft (34 :: quoted) z
      rw [List.cons_append] at hquote ⊢
      rw [List.append_assoc]
      exact hquote
    · exact (ih hin).trans (List.suffix_append _ _).isInfix
  · rcases List.infix_cons_iff.mp h with ⟨z, hz⟩ | hin
    · refine absurd ?_ (hno _ List.mem_cons_self)
      rw [← hz]
      exact List.prefix_append [34, 109, 121, 34] _
    · rw [substitute_cons hno]
      exact (ih hin).trans (List.suffix_cons _ _).isInfix

end Qdmi
