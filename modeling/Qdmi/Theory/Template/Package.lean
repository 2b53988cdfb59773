import Qdmi.Theory.Template.Passes

/-!
# The Package of a Generated Project

Two names of the template with more than one pattern: the name of the package
and its path.

The first pass that finds its pattern in one of them is right. A later one finds
a pattern again if the prefix ends with `my` in lower case, since what follows
the prefix is what follows the letters in the pattern. It puts the prefix for
these two letters.

## Theorems

* `generate_package`, `generate_path`: The two names as the result of one pass.
* `name_right_iff`: When this pass is right.
* `generate_law`: When the passes over a file are right.
* `joins_package`: The name of the package with a prefix that ends with `my`.
-/

namespace Qdmi

theorem pass_absent {pattern replacement text : List UInt8} {c : UInt8} (hc : c ∈ pattern)
    (htext : c ∉ text) : substitute [(pattern, replacement)] text = text := by
  refine substitute_absent (fun rule hrule hin => htext (hin.subset ?_))
  rw [List.mem_singleton.mp hrule]
  exact hc

theorem not_mem_lower (templatePrefix : Identifier) {c : UInt8} (hc : isWord c = false) :
    c ∉ templatePrefix.lower := by
  intro hmem
  rw [lower_word templatePrefix c hmem] at hc
  exact absurd hc (by simp only [reduceCtorEq, not_false_eq_true])

theorem not_mem_pass {pattern replacement text : List UInt8} {c : UInt8} (hne : pattern ≠ [])
    (htext : c ∉ text) (hput : c ∉ replacement) :
    c ∉ substitute [(pattern, replacement)] text := by
  intro hmem
  rcases mem_substitute (fun rule hrule => List.mem_singleton.mp hrule ▸ hne) hmem
    with hmem | ⟨rule, hrule, hmem⟩
  · exact htext hmem
  · rw [List.mem_singleton.mp hrule] at hmem
    exact hput hmem

theorem not_mem_lower_append {templatePrefix : Identifier} {c : UInt8} {x : List UInt8}
    (hc : isWord c = false) (hx : c ∉ x) : c ∉ templatePrefix.lower ++ x := by
  rw [List.mem_append, not_or]
  exact ⟨not_mem_lower templatePrefix hc, hx⟩

/-- The name of the package. The pass for `my-` puts the prefix, and the pass for
    `my-qdmi` finds its pattern again if the prefix ends with `my`. -/
theorem generate_package (templatePrefix : Identifier) :
    generate templatePrefix (ascii "my-qdmi") =
      substitute [(ascii "my-qdmi", templatePrefix.lower ++ ascii "-qdmi")]
        (templatePrefix.lower ++ ascii "-qdmi") := by
  have hput : substitute [(ascii "my-", templatePrefix.lower ++ ascii "-")] (ascii "my-qdmi") =
      templatePrefix.lower ++ ascii "-qdmi" := by
    have hsplit : ascii "my-qdmi" = ascii "my-" ++ ascii "qdmi" := rfl
    have hne : ascii "my-" ≠ [] := by
      decide
    rw [hsplit, substitute_head hne, pass_absent (c := 45), List.append_assoc]
    · rfl
    · decide
    · decide
  have hleft : ∀ c, isWord c = false → c ∉ ascii "-qdmi" →
      c ∉ templatePrefix.lower ++ ascii "-qdmi" := fun c hc hx => not_mem_lower_append hc hx
  have hlast : ∀ c, isWord c = false → c ∉ ascii "-qdmi" →
      c ∉ substitute [(ascii "my-qdmi", templatePrefix.lower ++ ascii "-qdmi")]
        (templatePrefix.lower ++ ascii "-qdmi") :=
    fun c hc hx => not_mem_pass (by decide) (hleft c hc hx) (hleft c hc hx)
  -- Every other pattern has a character that the name has not.
  rw [generate, substitutions, List.foldl_cons, pass_absent (c := 40), List.foldl_cons,
    pass_absent (c := 95), List.foldl_cons, pass_absent (c := 32), List.foldl_cons,
    pass_absent (c := 95), List.foldl_cons, hput, List.foldl_cons, pass_absent (c := 47),
    List.foldl_cons, pass_absent (c := 47), List.foldl_cons, List.foldl_cons,
    pass_absent (c := 46), List.foldl_cons, pass_absent (c := 46), List.foldl_cons,
    pass_absent (c := 34), List.foldl_cons, pass_absent (c := 32), List.foldl_nil]
  any_goals decide
  any_goals exact hlast _ (by decide) (by decide)
  any_goals exact hleft _ (by decide) (by decide)

/-- The path of the package. The pass for `python/my` puts the prefix, and the
    pass for `my/qdmi` finds its pattern again if the prefix ends with `my`. -/
theorem generate_path (templatePrefix : Identifier) :
    generate templatePrefix (ascii "python/my/qdmi") =
      substitute [(ascii "my/qdmi", templatePrefix.lower ++ ascii "/qdmi")]
        (ascii "python/" ++ templatePrefix.lower ++ ascii "/qdmi") := by
  have hput : substitute [(ascii "python/my", ascii "python/" ++ templatePrefix.lower)]
      (ascii "python/my/qdmi") = ascii "python/" ++ templatePrefix.lower ++ ascii "/qdmi" := by
    have hsplit : ascii "python/my/qdmi" = ascii "python/my" ++ ascii "/qdmi" := rfl
    have hne : ascii "python/my" ≠ [] := by
      decide
    rw [hsplit, substitute_head hne, pass_absent (c := 112)]
    · decide
    · decide
  have hlast : ∀ c, isWord c = false → c ∉ ascii "python/" ++ ascii "/qdmi" →
      c ∉ substitute [(ascii "my/qdmi", templatePrefix.lower ++ ascii "/qdmi")]
        (ascii "python/" ++ templatePrefix.lower ++ ascii "/qdmi") := by
    intro c hc hx
    rw [List.mem_append, not_or] at hx
    have hright : c ∉ templatePrefix.lower ++ ascii "/qdmi" := not_mem_lower_append hc hx.2
    refine not_mem_pass (by decide) ?_ hright
    rw [List.append_assoc, List.mem_append, not_or]
    exact ⟨hx.1, hright⟩
  -- Every other pattern has a character that the path has not.
  rw [generate, substitutions, List.foldl_cons, pass_absent (c := 40), List.foldl_cons,
    pass_absent (c := 95), List.foldl_cons, pass_absent (c := 32), List.foldl_cons,
    pass_absent (c := 95), List.foldl_cons, pass_absent (c := 45), List.foldl_cons, hput,
    List.foldl_cons, List.foldl_cons, pass_absent (c := 45), List.foldl_cons,
    pass_absent (c := 46), List.foldl_cons, pass_absent (c := 46), List.foldl_cons,
    pass_absent (c := 34), List.foldl_cons, pass_absent (c := 32), List.foldl_nil]
  any_goals decide
  any_goals exact hlast _ (by decide) (by decide)

/-- A pass that finds its pattern at the end of a name puts the prefix for a part
    of the prefix. The name is right exactly if that is all of it. -/
theorem name_right_iff {lower x s : List UInt8} {m : UInt8} (hs : m ∉ s)
    (hbefore : ∀ u v, x ++ lower = u ++ m :: v → ¬ ascii "my" <:+ u)
    (hx : ascii "my" <:+ x ++ lower → ascii "my" <:+ lower) :
    substitute [(ascii "my" ++ m :: s, lower ++ m :: s)] (x ++ lower ++ m :: s) =
        x ++ lower ++ m :: s ↔
      (ascii "my" <:+ lower → lower = ascii "my") := by
  rcases substitute_at_end hs hbefore (lower ++ m :: s) with ⟨hno, hend⟩
  by_cases hmy : ascii "my" <:+ x ++ lower
  · -- The pass puts the prefix for its last two letters.
    rcases hx hmy with ⟨b, hb⟩
    have hsplit : x ++ lower = (x ++ b) ++ ascii "my" := by
      rw [← hb, List.append_assoc]
    rw [hend _ hsplit, List.append_assoc, List.append_assoc, List.append_cancel_left_eq,
      ← List.append_assoc, List.append_cancel_right_eq]
    constructor
    · intro h _
      have hnil : b = [] := List.append_left_eq_self.mp h
      rw [← hb, hnil, List.nil_append]
    · intro h
      have hword := h ⟨b, hb⟩
      have hnil : b = [] := List.append_left_eq_self.mp (hb.trans hword)
      rw [hnil, List.nil_append]
  · exact ⟨fun _ h => absurd (h.trans (List.suffix_append _ _)) hmy, fun _ => hno hmy⟩

theorem package_right_iff (templatePrefix : Identifier) :
    generate templatePrefix (ascii "my-qdmi") = templatePrefix.lower ++ ascii "-qdmi" ↔
      (ascii "my" <:+ templatePrefix.lower → templatePrefix.lower = ascii "my") := by
  rw [generate_package]
  have hbefore : ∀ u v, [] ++ templatePrefix.lower = u ++ 45 :: v → ¬ ascii "my" <:+ u := by
    intro u v heq
    refine absurd ?_ (not_mem_lower templatePrefix (c := 45) (by decide))
    rw [← List.nil_append templatePrefix.lower, heq]
    exact List.mem_append_right _ List.mem_cons_self
  exact name_right_iff (m := 45) (s := ascii "qdmi") (by decide) hbefore (fun h => h)

theorem path_right_iff (templatePrefix : Identifier) :
    generate templatePrefix (ascii "python/my/qdmi") =
        ascii "python/" ++ templatePrefix.lower ++ ascii "/qdmi" ↔
      (ascii "my" <:+ templatePrefix.lower → templatePrefix.lower = ascii "my") := by
  rw [generate_path]
  -- The only slash before the end is the one behind `python`.
  have hbefore : ∀ u v, ascii "python/" ++ templatePrefix.lower = u ++ 47 :: v →
      ¬ ascii "my" <:+ u := by
    intro u v heq
    have hcut : ascii "python" ++ 47 :: templatePrefix.lower = u ++ 47 :: v := heq
    rcases append_marker_cases hcut with ⟨rfl, -⟩ | ⟨gap, -, hgap⟩ | ⟨gap, hgap, -⟩
    · decide
    · refine absurd ?_ (not_mem_lower templatePrefix (c := 47) (by decide))
      rw [hgap]
      exact List.mem_append_right _ List.mem_cons_self
    · have hno : 47 ∉ ascii "python" := by
        decide
      exact absurd (hgap ▸ List.mem_append_right _ List.mem_cons_self) hno
  have hno : 47 ∉ ascii "my" := by
    decide
  have hends : ascii "my" <:+ ascii "python" ++ 47 :: templatePrefix.lower →
      ascii "my" <:+ templatePrefix.lower := suffix_behind_marker hno
  exact name_right_iff (m := 47) (s := ascii "qdmi") (by decide) hbefore hends

/-- The passes over a file of the template replace all of its placeholders at
    once exactly if the file is faithful to the prefix. In particular they are
    right about the name and the path of the package exactly if the prefix does
    not end with `my` in lower case or is nothing else. -/
theorem generate_law (templatePrefix : Identifier) (content : List UInt8) :
    (generate templatePrefix content = instantiated templatePrefix content ↔
      Faithful templatePrefix content) ∧
    (generate templatePrefix (ascii "my-qdmi") = templatePrefix.lower ++ ascii "-qdmi" ↔
      (ascii "my" <:+ templatePrefix.lower → templatePrefix.lower = ascii "my")) ∧
    (generate templatePrefix (ascii "python/my/qdmi") =
        ascii "python/" ++ templatePrefix.lower ++ ascii "/qdmi" ↔
      (ascii "my" <:+ templatePrefix.lower → templatePrefix.lower = ascii "my")) :=
  ⟨generate_eq_iff templatePrefix content, package_right_iff templatePrefix,
    path_right_iff templatePrefix⟩

theorem package_unmarked : ∀ c ∈ splits (ascii "-qdmi"), c.2 ≠ [] →
    ∀ r ∈ placeholders [] [] [], ¬ r.Stands (ascii "my" ++ c.1) (c.2 ++ []) := by
  decide +kernel

/-- If the prefix ends with `my`, the name of the package puts together the pattern
    `my-qdmi`: its beginning is put for `my-`, and its end stands behind. -/
theorem joins_package {templatePrefix : Identifier} (h : ascii "my" <:+ templatePrefix.lower) :
    Joins (loopPlaces templatePrefix) (ascii "my-qdmi") := by
  have hback : Unmarked (loopPlaces templatePrefix) (ascii "my") (ascii "-qdmi") [] := by
    intro u v hsplit hne r hr
    have hmem := mem_splits u v
    rw [← hsplit] at hmem
    exact package_unmarked _ hmem hne r.bare (bare_mem hr)
  have hright : ascii "-" <+: ascii "-qdmi" ++ [] := by
    decide
  have hplace : (lowerPlace "" "-" templatePrefix.lower).Between [] (ascii "-qdmi" ++ []) :=
    ⟨List.nil_suffix, hright⟩
  exact .behind ((loopPlaces templatePrefix).take 7) ((loopPlaces templatePrefix).drop 8)
    (lowerPlace "" "-qdmi" templatePrefix.lower) (lowerPlace "" "-" templatePrefix.lower) []
    (ascii "my") (ascii "-qdmi") [] rfl (List.mem_iff_getElem?.mpr ⟨4, rfl⟩) rfl hplace hback rfl h

/-- The prefix `TOMMY`. -/
def tommyIdentifier : Identifier where
  chars := ascii "TOMMY"
  word := by
    have hall : (ascii "TOMMY").all isWord = true := by
      decide
    exact List.all_eq_true.mp hall
  start := ⟨84, rfl, rfl⟩

/-- The pass for `my-qdmi` rewrites the end of the prefix that the pass for `my-`
    has put, so the name is not faithful to the prefix. -/
theorem package_rewritten_twice :
    generate tommyIdentifier (ascii "my-qdmi") = ascii "tomtommy-qdmi" ∧
      instantiated tommyIdentifier (ascii "my-qdmi") = ascii "tommy-qdmi" ∧
      generate tommyIdentifier (ascii "my-qdmi") ≠
        instantiated tommyIdentifier (ascii "my-qdmi") ∧
      ¬ Faithful tommyIdentifier (ascii "my-qdmi") := by
  have hrun : generate tommyIdentifier (ascii "my-qdmi") = ascii "tomtommy-qdmi" ∧
      instantiated tommyIdentifier (ascii "my-qdmi") = ascii "tommy-qdmi" ∧
      ascii "tomtommy-qdmi" ≠ ascii "tommy-qdmi" := by
    decide +kernel
  have hjoins : Joins (loopPlaces tommyIdentifier) (ascii "my-qdmi") := joins_package (by decide)
  have hfaithful : ¬ Faithful tommyIdentifier (ascii "my-qdmi") :=
    fun h => h.joined (by decide) hjoins
  exact ⟨hrun.1, hrun.2.1, fun h => hrun.2.2 (hrun.1.symm.trans (h.trans hrun.2.1)), hfaithful⟩

end Qdmi
