import Qdmi.Theory.Template.Seams

/-!
# The Passes over a Template File

When the passes over a file replace all of its placeholders and nothing else.

Up to case every placeholder is replaced by the same text. If that is not the
text of the placeholders themselves, a placeholder that comes about by a pass
makes the result differ even up to case, so `passes_exact` decides whether the
passes are right, and by `clean_iff_not_joins` the prefix and the content decide
it. Only the placeholder in quotes needs more: what is put for it
is in upper case where it should be in lower case, and a pass misses one that
shares a quote with another.

If the prefix is `my` in some case, the passes for the placeholders in lower
case do nothing but for the quoted one. The prefix cannot complete a pattern in
upper case, so those passes are one substitution.

## Main definitions

* `due`: What should be put for the placeholders.
* `Faithful`: A file for which the passes are right.

## Theorems

* `generate_eq_passes`: The loop fills one kind of placeholder after the other.
* `fill_eq_instantiated_iff`: The quoted placeholder.
* `generate_eq_iff_joined`: Prefixes other than `my`, without shared quotes.
* `generate_ne_of_shared`: The same with shared quotes.
* `generate_eq_iff_of_my`: The prefix `my`.
* `generate_eq_iff`: When the passes are right.
-/

namespace Qdmi

/-! ## The passes -/

theorem generate_split (templatePrefix : Identifier) (content : List UInt8) :
    generate templatePrefix content =
      substitute [(lastPlace templatePrefix.lower).rule]
        (substitute [(quotedPlace templatePrefix.chars).rule]
          (passes (plainPlaces templatePrefix.chars templatePrefix.lower) content)) := by
  rw [generate, substitutions_eq, placeholders_split, List.map_append, List.foldl_append,
    foldl_substitute_borderless (fun r hr => borderless_plain hr), List.map_cons, List.map_cons,
    List.map_nil, List.foldl_cons, List.foldl_cons, List.foldl_nil]

/-- The passes fill placeholders, one kind after the other, if no two of them
    share a quote when the turn of the quoted one comes. -/
theorem generate_eq_passes {templatePrefix : Identifier} {content : List UInt8}
    (h : ¬ ascii "\"my\"my\"" <:+:
      passes (plainPlaces templatePrefix.chars templatePrefix.lower) content) :
    generate templatePrefix content =
      passes (placeholders templatePrefix.chars templatePrefix.lower templatePrefix.chars)
        content := by
  rw [generate_split, substitute_quoted _ h, substitute_borderless (borderless_last _),
    placeholders_split, passes_append, passes_cons, passes_cons, passes_nil]

/-- The content of a file has no placeholder in quotes, unless the prefix is in
    lower case; and unless the prefix is `my` in some case, no two placeholders
    share a quote, and no pattern is put together from the prefix, in place of
    placeholders of patterns before, and the content next to them. -/
structure Faithful (templatePrefix : Identifier) (content : List UInt8) : Prop where
  quoted : ascii "\"my\"" <:+: content → templatePrefix.chars = templatePrefix.lower
  shared : templatePrefix.lower ≠ ascii "my" → ¬ ascii "\"my\"my\"" <:+: content
  joined : templatePrefix.lower ≠ ascii "my" → ¬ Joins (loopPlaces templatePrefix) content

instance (templatePrefix : Identifier) (content : List UInt8) :
    Decidable (Faithful templatePrefix content) :=
  decidable_of_iff
    ((ascii "\"my\"" <:+: content → templatePrefix.chars = templatePrefix.lower) ∧
      (templatePrefix.lower ≠ ascii "my" → ¬ ascii "\"my\"my\"" <:+: content) ∧
      (templatePrefix.lower ≠ ascii "my" → ¬ Joins (loopPlaces templatePrefix) content))
    ⟨fun h => ⟨h.1, h.2.1, h.2.2⟩, fun h => ⟨h.quoted, h.shared, h.joined⟩⟩

/-- What should be put for a placeholder. -/
def due (templatePrefix : Identifier) : Placeholder UInt8 → List UInt8 :=
  chosen templatePrefix.chars templatePrefix.lower templatePrefix.lower

theorem loopPlaces_due (templatePrefix : Identifier) :
    (loopPlaces templatePrefix).map (Placeholder.put (due templatePrefix)) =
      placeholders templatePrefix.chars templatePrefix.lower templatePrefix.lower := rfl

theorem due_cases (templatePrefix : Identifier) (r : Placeholder UInt8) :
    due templatePrefix r = templatePrefix.chars ∨ due templatePrefix r = templatePrefix.lower := by
  rw [due, chosen]
  split
  · exact Or.inl rfl
  · exact Or.inr (by rw [ite_self])

theorem quoted_checked : (placeholders [] [] []).all (fun r =>
    r.left ≠ ascii "\"" || r.pattern = ascii "\"my\"") = true := by
  decide +kernel

/-- What the loop puts for a placeholder is what should be put, or it is the
    placeholder in quotes. -/
theorem due_eq {templatePrefix : Identifier} {r : Placeholder UInt8}
    (hr : r ∈ loopPlaces templatePrefix) :
    due templatePrefix r = r.new ∨ r.pattern = ascii "\"my\"" := by
  rcases exists_place hr with ⟨p, hp, rfl⟩
  have hchecked := List.all_eq_true.mp quoted_checked p hp
  rw [Bool.or_eq_true, decide_eq_true_eq, decide_eq_true_eq] at hchecked
  rcases hchecked with hleft | hpattern
  · have hsame : chosen templatePrefix.chars templatePrefix.lower templatePrefix.lower p =
        chosen templatePrefix.chars templatePrefix.lower templatePrefix.chars p := by
      simp only [chosen, if_neg hleft]
    exact Or.inl hsame
  · exact Or.inr hpattern

/-! ## Other prefixes than `my` -/

/-- Characters that differ only in case have the same key. -/
def letterKey (c : UInt8) : Nat := (toLower c).toNat

theorem lower_keys (templatePrefix : Identifier) :
    templatePrefix.lower.map letterKey = templatePrefix.chars.map letterKey := by
  rw [Identifier.lower, List.map_map]
  exact List.map_congr_left (fun c _ => congrArg UInt8.toNat (toLower_cases c).1)

theorem loopPlaces_keys {templatePrefix : Identifier} {r : Placeholder UInt8}
    (hr : r ∈ loopPlaces templatePrefix) :
    [r.first, r.second].map letterKey = (ascii "my").map letterKey ∧
      r.new.map letterKey = templatePrefix.lower.map letterKey := by
  have hletters : (placeholders [] [] []).all (fun r =>
      [r.first, r.second].map letterKey = (ascii "my").map letterKey) = true := by
    decide +kernel
  constructor
  · rcases exists_place hr with ⟨p, hp, rfl⟩
    exact of_decide_eq_true (List.all_eq_true.mp hletters p hp)
  · rcases loopPlaces_new hr with h | h
    · rw [h, lower_keys]
    · rw [h]

theorem due_keys (templatePrefix : Identifier) (r : Placeholder UInt8) :
    (due templatePrefix r).map letterKey = templatePrefix.lower.map letterKey := by
  rcases due_cases templatePrefix r with h | h
  · rw [h, lower_keys]
  · rw [h]

theorem lower_keys_ne {templatePrefix : Identifier} (hmy : templatePrefix.lower ≠ ascii "my") :
    (ascii "my").map letterKey ≠ templatePrefix.lower.map letterKey := by
  intro h
  have hkeys : templatePrefix.chars.map letterKey = templatePrefix.lower.map UInt8.toNat := by
    rw [Identifier.lower, List.map_map]
    rfl
  have hword : (ascii "my").map letterKey = (ascii "my").map UInt8.toNat := by
    decide
  rw [lower_keys, hkeys, hword] at h
  exact hmy (List.map_injective_iff.mpr (fun a b hab => UInt8.toNat_inj.mp hab) h).symm

/-- What the loop would put for all placeholders at once is right exactly if it
    is right for the quoted one. -/
theorem fill_eq_instantiated_iff (templatePrefix : Identifier) (content : List UInt8) :
    fill (loopPlaces templatePrefix) content = instantiated templatePrefix content ↔
      (ascii "\"my\"" <:+: content → templatePrefix.chars = templatePrefix.lower) := by
  rw [instantiated, ← loopPlaces_due]
  constructor
  · intro h hin
    have hsep : Separate ((loopPlaces templatePrefix).map (Placeholder.put (due templatePrefix))) :=
      separate_placeholders _ _ _
    have hlower : templatePrefix.lower.length = templatePrefix.chars.length := List.length_map _
    have hlength : ∀ r ∈ loopPlaces templatePrefix,
        (due templatePrefix r).length = r.new.length := by
      intro r hr
      rcases due_cases templatePrefix r with h | h <;>
        rcases loopPlaces_new hr with h' | h' <;> rw [h, h'] <;> omega
    have hmem : quotedPlace templatePrefix.chars ∈ loopPlaces templatePrefix := by
      rw [loopPlaces, placeholders_split]
      exact List.mem_append_right _ List.mem_cons_self
    -- The quoted placeholder should get what the loop puts for it.
    have hput : due templatePrefix (quotedPlace templatePrefix.chars) = templatePrefix.chars :=
      put_of_fill_eq (separate_placeholders _ _ _) hsep hlength h.symm hmem hin
    exact hput.symm
  · intro hquoted
    have hsame : (fill ((loopPlaces templatePrefix).map (Placeholder.put (due templatePrefix)))
        content).map id = (fill (loopPlaces templatePrefix) content).map id := by
      refine fill_put content (fun r hr => ?_)
      rcases due_eq hr with h | h
      · exact Or.inl (by rw [h])
      · by_cases hin : ascii "\"my\"" <:+: content
        · refine Or.inl ?_
          rcases due_cases templatePrefix r with h | h <;>
            rcases loopPlaces_new hr with h' | h' <;> rw [h, h'] <;> simp only [hquoted hin]
        · exact Or.inr (h ▸ hin)
    rw [List.map_id, List.map_id] at hsame
    exact hsame.symm

/-- Without two placeholders that share a quote the passes are right exactly if
    the quoted one is rightly filled and no pattern is put together. -/
theorem generate_eq_iff_joined {templatePrefix : Identifier} {content : List UInt8}
    (hmy : templatePrefix.lower ≠ ascii "my") (hshared : ¬ ascii "\"my\"my\"" <:+: content) :
    generate templatePrefix content = instantiated templatePrefix content ↔
      (ascii "\"my\"" <:+: content → templatePrefix.chars = templatePrefix.lower) ∧
        ¬ Joins (loopPlaces templatePrefix) content := by
  rw [← clean_iff_not_joins]
  rcases proper_prefix hmy with ⟨hchars, hlower⟩
  have hmem : ∀ r ∈ plainPlaces templatePrefix.chars templatePrefix.lower,
      r ∈ loopPlaces templatePrefix := fun r hr => mem_placeholders_of_plain _ hr
  have hnew : ∀ r ∈ loopPlaces templatePrefix, Proper r.new := proper_new hchars hlower hchars
  have hpasses := generate_eq_passes (fun h => hshared
    (shared_of_passes hmem (fun r hr => hnew r (hmem r hr)) h))
  rcases passes_exact (separate_placeholders _ _ _) (fun r hr => loopPlaces_keys hr)
    (lower_keys_ne hmy) content with ⟨hclean, hnot⟩
  rw [hpasses, ← fill_eq_instantiated_iff]
  constructor
  · intro h
    -- Up to case it does not matter what is put for the quoted placeholder.
    have hkeys : (instantiated templatePrefix content).map letterKey =
        (fill (loopPlaces templatePrefix) content).map letterKey := by
      rw [instantiated, ← loopPlaces_due]
      exact fill_put content
        (fun r hr => Or.inl ((due_keys templatePrefix r).trans (loopPlaces_keys hr).2.symm))
    have hcreated :
        Clean (loopPlaces templatePrefix) (cut (loopPlaces templatePrefix) content) := by
      by_contra hcreated
      exact hnot hcreated (by rw [h, hkeys])
    exact ⟨(hclean hcreated).symm.trans h, hcreated⟩
  · rintro ⟨hfill, hcreated⟩
    exact (hclean hcreated).trans hfill

/-- Two placeholders that share a quote: one of them is left by the passes and
    none would be left if all placeholders were replaced. -/
theorem generate_ne_of_shared {templatePrefix : Identifier} {content : List UInt8}
    (hmy : templatePrefix.lower ≠ ascii "my") (hshared : ascii "\"my\"my\"" <:+: content) :
    generate templatePrefix content ≠ instantiated templatePrefix content := by
  rcases proper_prefix hmy with ⟨hchars, hlower⟩
  have hplain := shared_survives templatePrefix.chars templatePrefix.lower hshared
  rw [foldl_substitute_borderless (fun r hr => borderless_plain hr)] at hplain
  have hleft := quoted_survives_last templatePrefix.lower
    (quoted_infix_substitute templatePrefix.chars hplain)
  rw [← generate_split] at hleft
  intro h
  rw [h] at hleft
  exact quoted_not_infix_fill (proper_new hchars hlower hlower) content hleft

/-! ## The prefix `my` -/

/-- The prefixes that are `my` in lower case. -/
theorem chars_cases {templatePrefix : Identifier} (hmy : templatePrefix.lower = ascii "my") :
    templatePrefix.chars ∈ [ascii "MY", ascii "My", ascii "mY", ascii "my"] := by
  have hword : templatePrefix.chars.map toLower = [109, 121] := hmy
  have hlength : templatePrefix.chars.length = 2 := by
    rw [← List.length_map toLower, hword]
    rfl
  rcases List.length_eq_two.mp hlength with ⟨c, d, hchars⟩
  rw [hchars, List.map_cons, List.map_cons, List.map_nil, List.cons.injEq, List.cons.injEq] at hword
  rw [hchars]
  rcases (toLower_cases c).2.2.1 hword.1 with rfl | rfl <;>
    rcases (toLower_cases d).2.2.2 hword.2.1 with rfl | rfl <;> decide

/-- The placeholders in upper case. -/
def upperPlaces (upper : List UInt8) : List (Placeholder UInt8) := (placeholders upper [] []).take 3

/-- The placeholders in lower case before the one in quotes. -/
def lowerPlaces (lower : List UInt8) : List (Placeholder UInt8) :=
  (plainPlaces [] lower).drop 3

theorem plainPlaces_split (upper lower : List UInt8) :
    plainPlaces upper lower = upperPlaces upper ++ lowerPlaces lower := rfl

theorem same_checked : (lowerPlaces (ascii "my") ++ [quotedPlace (ascii "my"),
    lastPlace (ascii "my")]).all (fun r => r.new = [r.first, r.second]) = true := by
  decide +kernel

theorem same_of_my {r : Placeholder UInt8} (hr : r ∈ lowerPlaces (ascii "my") ++
    [quotedPlace (ascii "my"), lastPlace (ascii "my")]) : r.new = [r.first, r.second] :=
  of_decide_eq_true (List.all_eq_true.mp same_checked r hr)

/-- What is put for the placeholders in upper case is apart from the other
    patterns for them. -/
theorem upper_checked : [ascii "MY", ascii "My", ascii "mY", ascii "my"].all (fun upper =>
    (upperPlaces upper).Pairwise (fun r r' =>
      Apart r.pattern r'.pattern ∧ Apart r.rule.2 r'.pattern)) = true := by
  decide +kernel

theorem upper_quoted_checked : (upperPlaces []).all (fun r =>
    Apart r.pattern (ascii "\"my\"")) = true := by
  decide +kernel

/-- For these prefixes the passes for the placeholders in upper case are one
    substitution and fill them. -/
theorem passes_upper {upper : List UInt8}
    (hupper : upper ∈ [ascii "MY", ascii "My", ascii "mY", ascii "my"]) (content : List UInt8) :
    passes (upperPlaces upper) content = fill (upperPlaces upper) content ∧
      substitute ((upperPlaces upper).map Placeholder.rule) content =
        fill (upperPlaces upper) content := by
  have hapart := of_decide_eq_true (List.all_eq_true.mp upper_checked upper hupper)
  have hborder : ∀ r ∈ upperPlaces upper, Borderless r.pattern := by
    intro r hr
    have hplain : r ∈ plainPlaces upper [] := by
      rw [plainPlaces_split]
      exact List.mem_append_left _ hr
    exact borderless_plain hplain
  have hfill := substitute_eq_fill
    (spread_of_apart hborder (hapart.imp (fun h => h.1)) content)
  refine ⟨?_, hfill⟩
  rw [← foldl_substitute_borderless hborder, ← hfill]
  exact foldl_substitute rule_ne_nil (List.pairwise_map.mpr hapart) content

theorem length_upper {upper : List UInt8}
    (hupper : upper ∈ [ascii "MY", ascii "My", ascii "mY", ascii "my"]) :
    upper.length = 2 ∧ upper ≠ [] ∧ 34 ∉ upper := by
  have hall : [ascii "MY", ascii "My", ascii "mY", ascii "my"].all
      (fun upper => upper.length = 2 ∧ upper ≠ [] ∧ 34 ∉ upper) = true := by
    decide
  exact of_decide_eq_true (List.all_eq_true.mp hall upper hupper)

/-- The passes for the placeholders in upper case neither take nor put a quoted
    `my`, unless they put `my`. -/
theorem quoted_fill_upper_iff {upper : List UInt8}
    (hupper : upper ∈ [ascii "MY", ascii "My", ascii "mY", ascii "my"])
    (hmy : upper ≠ ascii "my") (content : List UInt8) :
    ascii "\"my\"" <:+: fill (upperPlaces upper) content ↔ ascii "\"my\"" <:+: content := by
  rcases length_upper hupper with ⟨-, hne, hquote⟩
  have hput : upperPlaces upper = (upperPlaces []).map (Placeholder.put (fun _ => upper)) := rfl
  constructor
  · have hsub : ∀ r ∈ upperPlaces upper, r ∈ placeholders upper [] [] :=
      fun r hr => List.take_subset 3 (placeholders upper [] []) hr
    refine quoted_of_fill hsub (fun r hr => ?_)
    rw [hput] at hr
    rcases List.mem_map.mp hr with ⟨p, -, rfl⟩
    exact ⟨hne, hmy, hquote⟩
  · intro h
    rw [← (passes_upper hupper content).2]
    refine infix_substitute rule_ne_nil (fun rule hrule => ?_) h
    rcases List.mem_map.mp hrule with ⟨r, hr, rfl⟩
    rw [hput] at hr
    rcases List.mem_map.mp hr with ⟨p, hp, rfl⟩
    exact of_decide_eq_true (List.all_eq_true.mp upper_quoted_checked p hp)

/-- For the prefix `my` in some case the passes are right exactly if the quoted
    placeholder is rightly filled. -/
theorem generate_eq_iff_of_my {templatePrefix : Identifier} (content : List UInt8)
    (hmy : templatePrefix.lower = ascii "my") :
    generate templatePrefix content = instantiated templatePrefix content ↔
      (ascii "\"my\"" <:+: content → templatePrefix.chars = templatePrefix.lower) := by
  have hupper := chars_cases hmy
  rw [generate_split, instantiated, hmy]
  generalize templatePrefix.chars = upper at hupper
  have hlower : Separate (lowerPlaces (ascii "my")) :=
    separate_of_subset (separate_placeholders [] (ascii "my") (ascii "my"))
      (fun r hr => mem_placeholders_of_plain _ (List.drop_subset 3 _ hr))
  have hlast : Separate [lastPlace (ascii "my")] :=
    separate_of_subset (separate_placeholders [] (ascii "my") (ascii "my")) (fun r hr => by
      rw [placeholders_split]
      exact List.mem_append_right _ (List.mem_cons_of_mem _ hr))
  -- All passes but the one for the quoted placeholder fill what is in upper case.
  have hplain : passes (plainPlaces upper (ascii "my")) content =
      fill (upperPlaces upper) content := by
    rw [plainPlaces_split, passes_append, passes_same hlower
      (fun r hr => same_of_my (List.mem_append_left _ hr)), (passes_upper hupper content).1]
  have hall : fill (placeholders upper (ascii "my") (ascii "my")) content =
      fill (upperPlaces upper) content := by
    have hsep := separate_placeholders upper (ascii "my") (ascii "my")
    rw [placeholders_split, plainPlaces_split, List.append_assoc] at hsep ⊢
    exact fill_append_same hsep (fun r hr => same_of_my hr) content
  rw [substitute_borderless (borderless_last _), fill_same hlast (fun r hr => same_of_my
    (List.mem_append_right _ (List.mem_cons_of_mem _ hr))), hplain, hall]
  by_cases hsame : upper = ascii "my"
  · rw [hsame]
    exact ⟨fun _ _ => rfl, fun _ => substitute_self (List.cons_ne_nil _ _) _⟩
  · rw [← quoted_fill_upper_iff hupper hsame content]
    have hdiffer : 34 :: (upper ++ [34]) ≠ [34, 109, 121, 34] := by
      intro h
      rw [List.cons.injEq] at h
      have hends : upper ++ [34] = [109, 121] ++ [34] := h.2
      exact hsame (List.append_cancel_right hends)
    have hlength : (34 :: (upper ++ [34])).length = [34, 109, 121, (34 : UInt8)].length := by
      rw [List.length_cons, List.length_append, (length_upper hupper).1]
      rfl
    have hself := substitute_eq_self_iff (List.cons_ne_nil _ _) hdiffer hlength
      (fill (upperPlaces upper) content)
    exact hself.trans ⟨fun h hin => absurd hin h, fun h hin => hsame (h hin)⟩

/-- The passes over a file of the template replace all of its placeholders and
    nothing else exactly if the file and the prefix are faithful. -/
theorem generate_eq_iff (templatePrefix : Identifier) (content : List UInt8) :
    generate templatePrefix content = instantiated templatePrefix content ↔
      Faithful templatePrefix content := by
  by_cases hmy : templatePrefix.lower = ascii "my"
  · rw [generate_eq_iff_of_my content hmy]
    exact ⟨fun h => ⟨h, fun hne => absurd hmy hne, fun hne => absurd hmy hne⟩, fun h => h.quoted⟩
  · by_cases hshared : ascii "\"my\"my\"" <:+: content
    · exact ⟨fun h => absurd h (generate_ne_of_shared hmy hshared),
        fun h => absurd hshared (h.shared hmy)⟩
    · rw [generate_eq_iff_joined hmy hshared]
      exact ⟨fun h => ⟨h.1, fun _ => hshared, fun _ => h.2⟩, fun h => ⟨h.quoted, h.joined hmy⟩⟩

end Qdmi
