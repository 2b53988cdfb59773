import Qdmi.Core.Prefixing

/-!
# Prefixing a Header

Which occurrences of the names in `prefix_defs.txt` get the prefix.

A name that stands between two characters outside of identifiers should get it,
and nothing else should change. The replacement of one name takes the character
behind a match with it. If the same name begins right after this character, no
character is left before it and it keeps its place without the prefix. This is
the only case: another name has a replacement of its own, which finds the
character again, and none of the names can come about by prefixing one of them.

## Main definitions

* `PrefixesAll`: The loop prefixes the names of a header and nothing else,
  whatever their order, and once.

## Theorems

* `replacements_checked`, `prefixed_not_mem`: The names differ, they are words,
  and no prefix turns one into another.
* `replaceDefinitions_eq`: The loop as one pass over the words of a header.
* `prefixesAll_iff`: The loop does what it should unless a name stands twice in
  a row.
-/

namespace Qdmi

/-! ## The names -/

/-- The names differ, they are words, and each begins with its only `Q`. -/
theorem replacements_checked : replacements.Nodup ∧
    replacements.all (fun n => n.all isWord && (n.head? == some 81 && n.count 81 == 1)) = true := by
  decide +kernel

theorem replacements_word {n : List UInt8} (hn : n ∈ replacements) : ∀ c ∈ n, isWord c = true := by
  have hchecked := List.all_eq_true.mp replacements_checked.2 n hn
  rw [Bool.and_eq_true] at hchecked
  exact List.all_eq_true.mp hchecked.1

theorem replacements_letter {n : List UInt8} (hn : n ∈ replacements) :
    n.head? = some 81 ∧ n.count 81 = 1 := by
  have hchecked := List.all_eq_true.mp replacements_checked.2 n hn
  rw [Bool.and_eq_true, Bool.and_eq_true, beq_iff_eq, beq_iff_eq] at hchecked
  exact hchecked.2

theorem prefixed_word (devicePrefix : Identifier) {n : List UInt8} (hn : n ∈ replacements) :
    ∀ c ∈ prefixed devicePrefix n, isWord c = true := by
  intro c hc
  rw [prefixed] at hc
  rcases List.mem_append.mp hc with hc | hc
  · rcases List.mem_append.mp hc with hc | hc
    · exact devicePrefix.word c hc
    · have hscore : (ascii "_").all isWord = true := by
        decide
      exact List.all_eq_true.mp hscore c hc
  · exact replacements_word hn c hc

/-- A name with a prefix is no name: it has a second `Q` or begins with another
    character. -/
theorem prefixed_not_mem (devicePrefix : Identifier) {n : List UInt8} (hn : n ∈ replacements) :
    prefixed devicePrefix n ∉ replacements := by
  intro hmem
  have hcount := (replacements_letter hmem).2
  rw [prefixed, List.count_append, List.count_append, (replacements_letter hn).2] at hcount
  rcases devicePrefix.start with ⟨c, hc, -⟩
  rcases hchars : devicePrefix.chars with _ | ⟨d, ds⟩
  · rw [hchars] at hc
    exact absurd hc (by simp only [List.head?_nil, Option.mem_def, reduceCtorEq,
      not_false_eq_true])
  · have hhead := (replacements_letter hmem).1
    rw [prefixed, hchars, List.cons_append, List.cons_append, List.head?_cons,
      Option.some.injEq] at hhead
    rw [hchars, hhead, List.count_cons_self] at hcount
    omega

/-! ## The loop -/

/-- The loop is one pass over the words of the header, for every order of the
    names. -/
theorem replaceDefinitions_eq (devicePrefix : Identifier) {list : List (List UInt8)}
    (hlist : list.Perm replacements) {head : List UInt8} {tokens : List (UInt8 × List UInt8)}
    (h : WellCut isWord head tokens) :
    replaceDefinitions devicePrefix list (joinWords head tokens) =
        joinWords head (replaceWords replacements (prefixed devicePrefix) none tokens) ∧
      WellCut isWord head (replaceWords replacements (prefixed devicePrefix) none tokens) := by
  have hmem : ∀ w, w ∈ list ↔ w ∈ replacements := fun w => hlist.mem_iff
  rw [← replaceWords_congr hmem tokens none]
  refine foldl_replaceDelimited h (hlist.nodup_iff.mpr replacements_checked.1) (fun n hn hc => ?_)
    (fun n hn => ⟨replacements_word ((hmem n).mp hn), prefixed_word devicePrefix ((hmem n).mp hn)⟩)
  exact prefixed_not_mem devicePrefix ((hmem n).mp hn) ((hmem _).mp hc)

/-- The loop prefixes every name that stands between two characters outside of
    identifiers and leaves the rest of the header as it is. The order of the
    names does not matter and the names are prefixed once. -/
structure PrefixesAll (devicePrefix : Identifier) (headerContent : List UInt8) : Prop where
  marked : replaceDefinitions devicePrefix replacements headerContent =
    joinWords (cutWords isWord headerContent).1
      (markWords replacements (prefixed devicePrefix) (cutWords isWord headerContent).2)
  order : ∀ list : List (List UInt8), list.Perm replacements →
    replaceDefinitions devicePrefix list headerContent =
      replaceDefinitions devicePrefix replacements headerContent
  again : replaceDefinitions devicePrefix replacements
      (replaceDefinitions devicePrefix replacements headerContent) =
    replaceDefinitions devicePrefix replacements headerContent

/-- The loop does what it should for every header in which no name stands twice
    in a row with a single character between the two. -/
theorem prefixesAll_iff (devicePrefix : Identifier) (headerContent : List UInt8) :
    PrefixesAll devicePrefix headerContent ↔
      ¬RepeatsBetween isWord replacements headerContent := by
  have hnot : ∀ n ∈ replacements, prefixed devicePrefix n ∉ replacements :=
    fun n hn => prefixed_not_mem devicePrefix hn
  have hnone : ∀ w, none = some w → w ∈ replacements :=
    fun w h => absurd h (by simp only [reduceCtorEq, not_false_eq_true])
  rcases joinWords_cutWords (p := isWord) headerContent with ⟨htext, hcut⟩
  generalize hhead : (cutWords isWord headerContent).1 = head at htext hcut
  generalize htokens : (cutWords isWord headerContent).2 = tokens at htext hcut
  rcases replaceDefinitions_eq devicePrefix (List.Perm.refl _) hcut with ⟨hloop, hwell⟩
  rw [htext] at hloop
  -- The loop is right about the text if it is right about its words.
  have hmarked : replaceDefinitions devicePrefix replacements headerContent =
        joinWords head (markWords replacements (prefixed devicePrefix) tokens) ↔
      ¬Repeats replacements tokens := by
    have hpass := replaceWords_eq_markWords_iff hnot tokens none hnone
    rw [and_iff_left (fun w h => absurd h (by simp only [reduceCtorEq, not_false_eq_true]))]
      at hpass
    rw [hloop, ← hpass]
    refine ⟨fun h => ?_, fun h => by rw [h]⟩
    exact (joinWords_inj hwell
      (wellCut_markWords (fun n hn => prefixed_word devicePrefix hn) hcut) h).2
  rw [repeatsBetween_iff (fun n hn => replacements_word hn), htokens, ← hmarked]
  constructor
  · intro h
    have hexact := h.marked
    rw [hhead, htokens] at hexact
    exact hexact
  · intro hexact
    refine ⟨?_, fun list hlist => ?_, ?_⟩
    · rw [hhead, htokens, hexact]
    · rw [hloop, ← htext]
      exact (replaceDefinitions_eq devicePrefix hlist hcut).1
    · have hwords := wellCut_markWords (fun n hn => prefixed_word devicePrefix hn) hcut
      rw [hexact, (replaceDefinitions_eq devicePrefix (List.Perm.refl _) hwords).1,
        replaceWords_markWords hnot]

/-- The prefix `MY`. -/
def myIdentifier : Identifier where
  chars := ascii "MY"
  word := by
    have hall : (ascii "MY").all isWord = true := by
      decide
    exact List.all_eq_true.mp hall
  start := ⟨77, rfl, rfl⟩

/-- The second of two names with a comma between them stays without the
    prefix. -/
theorem adjacent_name_kept :
    replaceDefinitions myIdentifier replacements (ascii "(QDMI_Site,QDMI_Site)") =
        ascii "(MY_QDMI_Site,QDMI_Site)" ∧
      ¬PrefixesAll myIdentifier (ascii "(QDMI_Site,QDMI_Site)") := by
  have hrun : replaceDefinitions myIdentifier replacements (ascii "(QDMI_Site,QDMI_Site)") =
        ascii "(MY_QDMI_Site,QDMI_Site)" ∧
      joinWords (cutWords isWord (ascii "(QDMI_Site,QDMI_Site)")).1
        (markWords replacements (prefixed myIdentifier)
          (cutWords isWord (ascii "(QDMI_Site,QDMI_Site)")).2) ≠
        ascii "(MY_QDMI_Site,QDMI_Site)" := by
    decide +kernel
  exact ⟨hrun.1, fun h => hrun.2 (h.marked.symm.trans hrun.1)⟩

end Qdmi
