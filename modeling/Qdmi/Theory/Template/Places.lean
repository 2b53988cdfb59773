import Qdmi.Core.Template
import Qdmi.Lib.Patterns

/-!
# The Placeholders of the Template

What the patterns of the loop have in common and where they differ.

No placeholder reaches into the letters of another one, and where two of them
stand the same is put, since a placeholder in quotes is no other one. So they
are `Separate`, whatever is put for them. A pattern does not overlap with
itself, but for the one in quotes: in `"my"my"` two of them share a quote. A
pass fills all placeholders of its kind unless that happens.

## Main definitions

* `chosen`: What is put for a placeholder.
* `Clash`: Texts around placeholders that exclude each other.
* `quotedPlace`, `plainPlaces`, `lastPlace`: The placeholder in quotes, those
  before it and the one behind it.

## Theorems

* `separate_placeholders`: The placeholders are separate.
* `substitutions_eq`: The patterns are those of the placeholders.
* `borderless_plain`, `borderless_last`: Patterns that do not overlap with
  themselves.
* `substitute_quoted`: The pass for the placeholder in quotes.
-/

namespace Qdmi

/-- What is put for a placeholder: one text for those in upper case, one for
    those in lower case and one for that in quotes. -/
def chosen (upper lower quoted : List UInt8) (r : Placeholder UInt8) : List UInt8 :=
  if r.first = 77 then upper else if r.left = ascii "\"" then quoted else lower

theorem placeholders_put (upper lower quoted upper' lower' quoted' : List UInt8) :
    (placeholders upper lower quoted).map (Placeholder.put (chosen upper' lower' quoted')) =
      placeholders upper' lower' quoted' := rfl

theorem exists_place {upper lower quoted : List UInt8} {r : Placeholder UInt8}
    (hr : r ∈ placeholders upper lower quoted) :
    ∃ p ∈ placeholders [] [] [], r = p.put (chosen upper lower quoted) := by
  rw [← placeholders_put [] [] []] at hr
  rcases List.mem_map.mp hr with ⟨p, hp, rfl⟩
  exact ⟨p, hp, rfl⟩

theorem place_new {upper lower quoted : List UInt8} {r : Placeholder UInt8}
    (hr : r ∈ placeholders upper lower quoted) :
    r.new = upper ∨ r.new = lower ∨ r.new = quoted := by
  rcases exists_place hr with ⟨p, -, rfl⟩
  have hchosen : (p.put (chosen upper lower quoted)).new = chosen upper lower quoted p := rfl
  rw [hchosen, chosen]
  split
  · exact Or.inl rfl
  · split
    · exact Or.inr (Or.inr rfl)
    · exact Or.inr (Or.inl rfl)

/-! ## Places -/

/-- The texts around two placeholders exclude each other: they begin or end
    next to the placeholder in different ways. -/
def Clash (r r' : Placeholder UInt8) : Prop :=
  (r.right ≠ [] ∧ r'.right ≠ [] ∧ r.right.head? ≠ r'.right.head?) ∨
    (r.left ≠ [] ∧ r'.left ≠ [] ∧ r.left.getLast? ≠ r'.left.getLast?)

instance (r r' : Placeholder UInt8) : Decidable (Clash r r') :=
  inferInstanceAs (Decidable (_ ∨ _))

/-- Texts on the right of placeholders that stand in one place begin alike. -/
theorem right_head_eq {r r' : Placeholder UInt8} {before rest : List UInt8}
    (h : r.Stands before rest) (h' : r'.Stands before rest) (hne : r.right ≠ [])
    (hne' : r'.right ≠ []) : r.right.head? = r'.right.head? := by
  rcases hright : r.right with _ | ⟨c, right⟩
  · exact absurd hright hne
  rcases hright' : r'.right with _ | ⟨c', right'⟩
  · exact absurd hright' hne'
  rcases h.2 with ⟨z, rfl⟩
  have hsame := h'.2
  rw [hright, hright'] at hsame
  simp only [List.cons_append, List.cons_prefix_cons] at hsame
  rw [hsame.2.2.1, List.head?_cons, List.head?_cons]

/-- Texts on the left of placeholders that stand in one place end alike. -/
theorem left_last_eq {r r' : Placeholder UInt8} {before rest : List UInt8}
    (h : r.Stands before rest) (h' : r'.Stands before rest) (hne : r.left ≠ [])
    (hne' : r'.left ≠ []) : r.left.getLast? = r'.left.getLast? := by
  rcases List.eq_nil_or_concat' r.left with hnil | ⟨left, c, hleft⟩
  · exact absurd hnil hne
  rcases List.eq_nil_or_concat' r'.left with hnil | ⟨left', c', hleft'⟩
  · exact absurd hnil hne'
  rcases h.1 with ⟨z, hz⟩
  rcases h'.1 with ⟨z', hz'⟩
  have hsame := hz.trans hz'.symm
  rw [hleft, hleft', ← List.append_assoc, ← List.append_assoc] at hsame
  have hlast := (List.append_inj' hsame rfl).2
  rw [hleft, hleft', hlast, List.getLast?_concat, List.getLast?_concat]

theorem not_stands_of_clash {r r' : Placeholder UInt8} (h : Clash r r') {before rest : List UInt8}
    (hr : r.Stands before rest) : ¬ r'.Stands before rest := by
  intro hr'
  rcases h with ⟨hne, hne', hdiffer⟩ | ⟨hne, hne', hdiffer⟩
  · exact hdiffer (right_head_eq hr hr' hne hne')
  · exact hdiffer (left_last_eq hr hr' hne hne')

/-- No placeholder reaches into the letters of another one, and placeholders
    that are filled differently exclude each other. -/
theorem places_checked :
    (placeholders [] [] []).all (fun r => (placeholders [] [] []).all (fun r' =>
      r.second ≠ r'.first && r'.second ∉ r.left.head? && ¬ [r'.first, r'.second] <:+: r.left &&
      r'.first ∉ r.right.getLast? && ¬ [r'.first, r'.second] <:+: r.right &&
      (r.first ≠ r'.first || (r.left = ascii "\"" ↔ r'.left = ascii "\"") || Clash r r'))) =
      true := by
  decide +kernel

theorem places_apart {upper lower quoted : List UInt8} {r r' : Placeholder UInt8}
    (hr : r ∈ placeholders upper lower quoted) (hr' : r' ∈ placeholders upper lower quoted) :
    r.second ≠ r'.first ∧ r'.second ∉ r.left.head? ∧ ¬ [r'.first, r'.second] <:+: r.left ∧
      r'.first ∉ r.right.getLast? ∧ ¬ [r'.first, r'.second] <:+: r.right ∧
      (r.first = r'.first → r.new = r'.new ∨ Clash r r') := by
  rcases exists_place hr with ⟨p, hp, rfl⟩
  rcases exists_place hr' with ⟨p', hp', rfl⟩
  have hchecked := List.all_eq_true.mp (List.all_eq_true.mp places_checked p hp) p' hp'
  simp only [Bool.and_eq_true, Bool.or_eq_true, decide_eq_true_eq] at hchecked
  rcases hchecked with ⟨⟨⟨⟨⟨hcore, hhead⟩, hleft⟩, hlast⟩, hright⟩, hput⟩
  refine ⟨hcore, hhead, hleft, hlast, hright, fun hfirst => ?_⟩
  rcases hput with (hne | hquoted) | hclash
  · exact absurd hfirst hne
  · -- What is put depends on the first letter and on the quote.
    have hchosen : chosen upper lower quoted p = chosen upper lower quoted p' := by
      have hsame : p.first = p'.first := hfirst
      simp only [chosen, hsame, hquoted]
    exact Or.inl hchosen
  · exact Or.inr hclash

theorem separate_placeholders (upper lower quoted : List UInt8) :
    Separate (placeholders upper lower quoted) where
  cores _ hr _ hr' := (places_apart hr hr').1
  left_head _ hr _ hr' := (places_apart hr hr').2.1
  left_core _ hr _ hr' := (places_apart hr hr').2.2.1
  right_last _ hr _ hr' := (places_apart hr hr').2.2.2.1
  right_core _ hr _ hr' := (places_apart hr hr').2.2.2.2.1
  agree r hr r' hr' before rest hstands hstands' := by
    have hfirst : r.first = r'.first := by
      rcases hstands.2 with ⟨z, rfl⟩
      exact (first_of_stands hstands').symm
    rcases (places_apart hr hr').2.2.2.2.2 hfirst with hsame | hclash
    · exact hsame
    · exact absurd hstands' (not_stands_of_clash hclash hstands)

/-! ## Passes -/

/-- The placeholder in quotes. -/
def quotedPlace (quoted : List UInt8) : Placeholder UInt8 := lowerPlace "\"" "\"" quoted

/-- The placeholders before the one in quotes. -/
def plainPlaces (upper lower : List UInt8) : List (Placeholder UInt8) :=
  (placeholders upper lower lower).take 10

/-- The placeholder behind the one in quotes. -/
def lastPlace (lower : List UInt8) : Placeholder UInt8 := lowerPlace "--namespace-pkg " "" lower

theorem placeholders_split (upper lower quoted : List UInt8) :
    placeholders upper lower quoted =
      plainPlaces upper lower ++ [quotedPlace quoted, lastPlace lower] := rfl

theorem mem_placeholders_of_plain {upper lower : List UInt8} (quoted : List UInt8)
    {r : Placeholder UInt8} (hr : r ∈ plainPlaces upper lower) :
    r ∈ placeholders upper lower quoted := by
  rw [placeholders_split]
  exact List.mem_append_left _ hr

/-- The patterns of the loop are those of the placeholders. -/
theorem substitutions_eq (templatePrefix : Identifier) :
    substitutions templatePrefix =
      (placeholders templatePrefix.chars templatePrefix.lower templatePrefix.chars).map
        Placeholder.rule := by
  have hnothing : ∀ x y : List UInt8, x ++ y ++ ascii "" = x ++ y := fun x y => List.append_nil _
  simp only [placeholders, List.map_cons, List.map_nil, Placeholder.rule, upperPlace, lowerPlace,
    hnothing]
  rfl

theorem patterns_checked :
    (plainPlaces [] [] ++ [lastPlace []]).all (fun r => Borderless r.pattern) = true := by
  decide +kernel

theorem borderless_plain {upper lower : List UInt8} {r : Placeholder UInt8}
    (hr : r ∈ plainPlaces upper lower) : Borderless r.pattern := by
  have hput : plainPlaces upper lower =
      (plainPlaces [] []).map (Placeholder.put (chosen upper lower lower)) := rfl
  rw [hput] at hr
  rcases List.mem_map.mp hr with ⟨p, hp, rfl⟩
  exact of_decide_eq_true (List.all_eq_true.mp patterns_checked p (List.mem_append_left _ hp))

theorem borderless_last (lower : List UInt8) : Borderless (lastPlace lower).pattern :=
  of_decide_eq_true (List.all_eq_true.mp patterns_checked (lastPlace [])
    (List.mem_append_right _ List.mem_cons_self))

/-- Where two patterns in quotes overlap they share a quote. -/
theorem quoted_overlap : ∀ a ∈ (ascii "\"my\"").inits, ∀ x ∈ (ascii "\"my\"").tails,
    ascii "\"my\"" = a ++ x → x ≠ [] → a ≠ [] →
      (x <+: ascii "\"my\"" ∨ ascii "\"my\"" <+: x) →
        a ++ ascii "\"my\"" = ascii "\"my\"my\"" := by
  decide +kernel

/-- The pass for the placeholder in quotes, where no two of them share a
    quote. -/
theorem substitute_quoted (quoted : List UInt8) {text : List UInt8}
    (h : ¬ ascii "\"my\"my\"" <:+: text) :
    substitute [(quotedPlace quoted).rule] text = fill [quotedPlace quoted] text := by
  have hspread : Spread [quotedPlace quoted] text := by
    refine spread_of_not_joined (fun r hr r' hr' a x hx hne hdiffer hagree hin => h ?_)
    rw [List.mem_singleton] at hr hr'
    rw [hr] at hx
    rw [hr'] at hagree hin
    have hinits : a ∈ (ascii "\"my\"").inits := (List.mem_inits _ _).mpr ⟨x, hx.symm⟩
    have htails : x ∈ (ascii "\"my\"").tails := (List.mem_tails _ _).mpr ⟨a, hx.symm⟩
    have hjoined := quoted_overlap a hinits x htails hx hne
      (fun hnil => hdiffer hnil (hr.trans hr'.symm)) hagree
    rw [← hjoined]
    exact hin
  exact substitute_eq_fill hspread

end Qdmi
