import Qdmi.Lib.Joins
import Qdmi.Theory.Template.Quotes

/-!
# Patterns Put Together by the Loop

For the patterns of the template the passes are clean exactly if no pattern is
put together, `clean_iff_not_joins`.

A pattern that a pass finds where the content has none has a part of what was
put at a place. It remains to see that one of the kinds before stands at that
place in the content, and that the pattern has parts of no more than two places
and then has them at its ends. Neither is true of all placeholders. It is a
matter of these twelve, of which words stand between which other characters, and
so it is checked for all ways to cut a pattern at a word.

One kind of place is filled although no kind before stands there: `python/my` and
`--namespace-pkg my` end with the letters, so what is put behind such a place may
complete `my_` or `my/qdmi` there. What was put then does not begin with `my`, and
it would have to if a part of it were in a pattern.

## Main definitions

* `wordsIn`: The words in a text.
* `TwoAtEnds`, `CompletedInside`, `LeftKept`, `RightCompleted`: What is checked.
* `Completed`: A place that is completed by what is put behind it.

## Theorems

* `left_of_pass`, `right_of_pass`: What stands around a kind when it is filled.
* `explained`: Every filled place is one at which a kind before stands, or it is
  completed.
* `clean_iff_not_joins`: When the passes are clean.
-/

namespace Qdmi

/-! ## Words in patterns -/

/-- A text in two parts, in all ways. -/
def splits (w : List UInt8) : List (List UInt8 × List UInt8) :=
  (List.range (w.length + 1)).map (fun n => (w.take n, w.drop n))

theorem mem_splits (a b : List UInt8) : (a, b) ∈ splits (a ++ b) := by
  refine List.mem_map.mpr ⟨a.length, List.mem_range.mpr ?_, ?_⟩
  · rw [List.length_append]
    omega
  · rw [List.take_left, List.drop_left]

/-- A word in a text: what stands before it, the word and what stands behind. -/
structure WordIn where
  front : List UInt8
  word : List UInt8
  back : List UInt8

/-- The words in a text, with the words in words. -/
def wordsIn (w : List UInt8) : List WordIn :=
  (splits w).flatMap (fun c => ((splits c.2).filter (fun c' =>
    c'.1 ≠ [] && c'.1.all isWord)).map (fun c' => ⟨c.1, c'.1, c'.2⟩))

theorem mem_wordsIn {x y z : List UInt8} (hne : y ≠ []) (hword : ∀ c ∈ y, isWord c = true) :
    ⟨x, y, z⟩ ∈ wordsIn (x ++ (y ++ z)) := by
  refine List.mem_flatMap.mpr ⟨_, mem_splits x (y ++ z), List.mem_map.mpr ⟨(y, z), ?_, rfl⟩⟩
  refine List.mem_filter.mpr ⟨mem_splits y z, ?_⟩
  rw [Bool.and_eq_true, decide_eq_true_eq, List.all_eq_true]
  exact ⟨hne, hword⟩

/-- Texts that begin alike, up to the end of one of them. -/
def BeginAlike (a b : List UInt8) : Prop := a <+: b ∨ b <+: a

/-- Texts that end alike, up to the beginning of one of them. -/
def EndAlike (a b : List UInt8) : Prop := a <:+ b ∨ b <:+ a

instance (a b : List UInt8) : Decidable (BeginAlike a b) := inferInstanceAs (Decidable (_ ∨ _))

instance (a b : List UInt8) : Decidable (EndAlike a b) := inferInstanceAs (Decidable (_ ∨ _))

theorem beginAlike_of_kept {a b : List UInt8} {ps : List (Piece UInt8)}
    (ha : a.map Piece.kept <+: ps) (hb : b.map Piece.kept <+: ps) : BeginAlike a b := by
  rcases List.prefix_or_prefix_of_prefix ha hb with h | h
  · exact Or.inl ((List.prefix_map_iff_of_injective kept_injective).mp h)
  · exact Or.inr ((List.prefix_map_iff_of_injective kept_injective).mp h)

theorem endAlike_of_kept {a b : List UInt8} {f : List (Spot UInt8)}
    (h : a.map Spot.kept <:+ f ++ b.map Spot.kept) : EndAlike a b := by
  rcases List.suffix_or_suffix_of_suffix h (List.suffix_append f _) with h | h
  · exact Or.inl ((List.suffix_map_iff_of_injective spot_injective).mp h)
  · exact Or.inr ((List.suffix_map_iff_of_injective spot_injective).mp h)

/-! ## Turns of the loop -/

/-- A pattern with words at two places that the kinds before can fill with the
    same text up to case has the words at its ends. -/
def TwoAtEnds (early : List (Placeholder UInt8)) (q : Placeholder UInt8) : Prop :=
  -- That `r.right` begins `p.back` follows, and it spares most of the second words.
  ∀ p ∈ wordsIn q.pattern, ∀ r ∈ early, EndAlike r.left p.front → r.right <+: p.back →
    ∀ p' ∈ wordsIn p.back, r.right <+: p'.front →
      ∀ r' ∈ early, r'.left <:+ p'.front → BeginAlike r'.right p'.back →
        (p.front ≠ [] → p'.word.map toLower <+: p.word.map toLower) →
        (p'.back ≠ [] → p.word.map toLower <:+ p'.word.map toLower) → p.front = [] ∧ p'.back = []

set_option synthInstance.maxSize 1000 in
instance (early : List (Placeholder UInt8)) (q : Placeholder UInt8) :
    Decidable (TwoAtEnds early q) :=
  inferInstanceAs (Decidable (∀ p ∈ wordsIn q.pattern, _))

/-- A pattern with a word at a place that is completed begins before the place, and
    the word begins with `my`. -/
def CompletedInside (early : List (Placeholder UInt8)) (q : Placeholder UInt8) : Prop :=
  ∀ p ∈ wordsIn q.pattern, ∀ r ∈ early, r.first = 109 → r.left = [] → r.right ≠ ascii "-" →
    BeginAlike r.right p.back → ∀ r' ∈ placeholders [] [] [], r'.right = [] →
      EndAlike r'.left p.front → p.front ≠ [] ∧ ascii "my" <+: p.word.map toLower

set_option synthInstance.maxSize 1000 in
instance (early : List (Placeholder UInt8)) (q : Placeholder UInt8) :
    Decidable (CompletedInside early q) :=
  inferInstanceAs (Decidable (∀ p ∈ wordsIn q.pattern, _))

/-- No kind but the last has, on its left, a word at a place of a kind before. -/
def LeftKept (early : List (Placeholder UInt8)) (q : Placeholder UInt8)
    (later : List (Placeholder UInt8)) : Prop :=
  later ≠ [] → ∀ p ∈ wordsIn q.left, ∀ r ∈ early, ¬ BeginAlike r.right p.back

instance (early : List (Placeholder UInt8)) (q : Placeholder UInt8)
    (later : List (Placeholder UInt8)) : Decidable (LeftKept early q later) :=
  inferInstanceAs (Decidable (later ≠ [] → _))

/-- Where a kind behind stands too, what is put at a place of a kind before can
    complete the text on the right of a kind only at its end, only for a few kinds,
    and only if it does not begin with `my`. -/
def RightCompleted (early : List (Placeholder UInt8)) (q : Placeholder UInt8)
    (later : List (Placeholder UInt8)) : Prop :=
  ∀ r' ∈ later, r'.first = q.first → r'.right <+: q.right → r'.right = [] ∧
    ∀ p ∈ wordsIn q.right, ∀ r ∈ early, BeginAlike r.right p.back → r.left <:+ p.front →
      q.first = 109 ∧ q.left = [] ∧ q.right ≠ ascii "-" ∧ p.back = [] ∧
        ¬ BeginAlike (ascii "my") (p.word.map toLower)

set_option synthInstance.maxSize 1000 in
instance (early : List (Placeholder UInt8)) (q : Placeholder UInt8)
    (later : List (Placeholder UInt8)) : Decidable (RightCompleted early q later) :=
  inferInstanceAs (Decidable (∀ r' ∈ later, _))

/-- Every turn of the loop: the kinds before a kind, the kind and those behind. -/
def everyTurn (P : List (Placeholder UInt8) → Placeholder UInt8 → List (Placeholder UInt8) → Prop)
    [∀ early q later, Decidable (P early q later)] : Bool :=
  (List.range 12).all (fun n => ((placeholders [] [] [])[n]?).all (fun q =>
    P ((placeholders [] [] []).take n) q ((placeholders [] [] []).drop (n + 1))))

theorem of_everyTurn {P : List (Placeholder UInt8) → Placeholder UInt8 →
      List (Placeholder UInt8) → Prop} [∀ early q later, Decidable (P early q later)]
    (h : everyTurn P = true) {early later : List (Placeholder UInt8)} {q : Placeholder UInt8}
    (turn : placeholders [] [] [] = early ++ q :: later) : P early q later := by
  have hlength : early.length < 12 := by
    have hall : (placeholders [] [] []).length = 12 := rfl
    rw [turn, List.length_append, List.length_cons] at hall
    omega
  have hturn := List.all_eq_true.mp h early.length (List.mem_range.mpr hlength)
  have hget : (placeholders [] [] [])[early.length]? = some q := by
    rw [turn, List.getElem?_append_right (Nat.le_refl _), Nat.sub_self]
    rfl
  have htake : (placeholders [] [] []).take early.length = early := by
    rw [turn, List.take_left]
  have hdrop : (placeholders [] [] []).drop (early.length + 1) = later := by
    rw [turn, List.drop_append, List.drop_of_length_le (Nat.le_succ _)]
    simp only [Nat.add_sub_cancel_left, List.drop_succ_cons, List.drop_zero, List.nil_append]
  rw [hget, Option.all_some, decide_eq_true_eq, htake, hdrop] at hturn
  exact hturn

theorem twoAtEnds_checked : everyTurn (fun early q _ => TwoAtEnds early q) = true := by
  decide +kernel

theorem completedInside_checked : everyTurn (fun early q _ => CompletedInside early q) = true := by
  decide +kernel

theorem leftKept_checked : everyTurn LeftKept = true := by
  decide +kernel

theorem rightCompleted_checked : everyTurn RightCompleted = true := by
  decide +kernel

/-! ## What the loop puts -/

/-- The placeholders as the loop fills them. -/
abbrev loopPlaces (templatePrefix : Identifier) : List (Placeholder UInt8) :=
  placeholders templatePrefix.chars templatePrefix.lower templatePrefix.chars

theorem loopPlaces_new {templatePrefix : Identifier} {r : Placeholder UInt8}
    (hr : r ∈ loopPlaces templatePrefix) :
    r.new = templatePrefix.chars ∨ r.new = templatePrefix.lower := by
  rcases place_new hr with h | h | h
  · exact Or.inl h
  · exact Or.inr h
  · exact Or.inl h

/-- A placeholder without what is put for it. -/
def Placeholder.bare (r : Placeholder UInt8) : Placeholder UInt8 := r.put (fun _ => [])

theorem bare_turn {templatePrefix : Identifier} {early later : List (Placeholder UInt8)}
    {q : Placeholder UInt8} (turn : loopPlaces templatePrefix = early ++ q :: later) :
    placeholders [] [] [] = early.map .bare ++ q.bare :: later.map .bare := by
  have hbare : (loopPlaces templatePrefix).map .bare = placeholders [] [] [] := rfl
  rw [← hbare, turn, List.map_append, List.map_cons]

theorem bare_mem {templatePrefix : Identifier} {r : Placeholder UInt8}
    (hr : r ∈ loopPlaces templatePrefix) : r.bare ∈ placeholders [] [] [] := by
  have hbare : (loopPlaces templatePrefix).map .bare = placeholders [] [] [] := rfl
  rw [← hbare]
  exact List.mem_map_of_mem hr

section

variable {templatePrefix : Identifier} {content : List UInt8} {f g : List (Spot UInt8)}

theorem new_word {r : Placeholder UInt8} (hr : r ∈ loopPlaces templatePrefix) :
    r.new ≠ [] ∧ (∀ c ∈ r.new, isWord c = true) ∧
      r.new.map toLower = templatePrefix.lower := by
  have hne := chars_ne_nil templatePrefix
  rcases loopPlaces_new hr with h | h
  · rw [h]
    exact ⟨hne, templatePrefix.word, rfl⟩
  · rw [h]
    refine ⟨fun hnil => hne (List.map_eq_nil_iff.mp hnil), lower_word templatePrefix, ?_⟩
    rw [Identifier.lower, List.map_map]
    exact List.map_congr_left (fun c _ => (toLower_cases c).1)

theorem new_of_place {early : List (Placeholder UInt8)} {c d : UInt8} {new : List UInt8}
    {filled : Bool} (h : stage (loopPlaces templatePrefix) content early =
      f ++ .place c d new filled :: g) : ∃ r ∈ loopPlaces templatePrefix, r.new = new := by
  have hmarks := marks_stage (loopPlaces templatePrefix) content early
  rw [h] at hmarks
  rcases exists_of_place (separate_placeholders _ _ _) hmarks with ⟨r, hr, -, -, hnew, -⟩
  exact ⟨r, hr, hnew⟩

theorem new_ne_nil {early : List (Placeholder UInt8)} (c d : UInt8) (new : List UInt8)
    (h : Spot.place c d new true ∈ stage (loopPlaces templatePrefix) content early) :
    new ≠ [] := by
  rcases List.mem_iff_append.mp h with ⟨f, g, hsplit⟩
  rcases new_of_place hsplit with ⟨r, hr, rfl⟩
  exact (new_word hr).1

theorem new_ne_nil_front {early : List (Placeholder UInt8)}
    (h : stage (loopPlaces templatePrefix) content early = f ++ g) (c d : UInt8) (new : List UInt8)
    (hmem : Spot.place c d new true ∈ f) : new ≠ [] := by
  have hin := List.mem_append_left g hmem
  rw [← h] at hin
  exact new_ne_nil c d new hin

theorem new_ne_nil_back {early : List (Placeholder UInt8)} {t : Spot UInt8}
    (h : stage (loopPlaces templatePrefix) content early = f ++ t :: g) (c d : UInt8)
    (new : List UInt8) (hmem : Spot.place c d new true ∈ g) : new ≠ [] := by
  have hin := List.mem_append_right f (List.mem_cons_of_mem t hmem)
  rw [← h] at hin
  exact new_ne_nil c d new hin

/-- A part of what is put is a word in a text that contains it. -/
theorem mem_wordsIn_of_part {early : List (Placeholder UInt8)} {c d : UInt8} {new y : List UInt8}
    {filled : Bool}
    (h : stage (loopPlaces templatePrefix) content early = f ++ .place c d new filled :: g)
    (hy : y ≠ []) (hin : y <:+: new) (x z : List UInt8) : ⟨x, y, z⟩ ∈ wordsIn (x ++ (y ++ z)) := by
  rcases new_of_place h with ⟨r, hr, rfl⟩
  exact mem_wordsIn hy (fun c hc => (new_word hr).2.1 c (hin.subset hc))

/-! ## Places that are filled -/

/-- A filled place at which no kind before stands in the content: what is put
    behind it has completed the kind `r` there, where `r'` stands. -/
structure Completed (templatePrefix : Identifier) (early : List (Placeholder UInt8))
    (f g : List (Spot UInt8)) (r r' : Placeholder UInt8) : Prop where
  mem : r ∈ early
  first : r.first = 109
  left : r.left = []
  right : r.right ≠ ascii "-"
  held : r.right.map Piece.kept <+: present g
  mem' : r' ∈ loopPlaces templatePrefix
  right' : r'.right = []
  held' : r'.left.map Spot.kept <:+ f
  apart : ¬ ascii "my" <+: templatePrefix.lower

/-- What is completed before a pass is so after it. -/
theorem completed_congr {kinds kinds' : List (Placeholder UInt8)} {r r' : Placeholder UInt8}
    {f' g' : List (Spot UInt8)} (hkinds : ∀ r ∈ kinds, r ∈ kinds')
    (hf : f.map Spot.piece = f'.map Spot.piece)
    (hkept : ∀ x : List UInt8, x.map Piece.kept <+: present g → x.map Piece.kept <+: present g')
    (h : Completed templatePrefix kinds f g r r') : Completed templatePrefix kinds' f' g' r r' :=
  ⟨hkinds r h.mem, h.first, h.left, h.right, hkept _ h.held, h.mem', h.right',
    kept_suffix_congr hf h.held', h.apart⟩

/-- After the passes for some kinds every filled place is one at which one of them
    stands in the content, or it is completed. -/
def Explained (templatePrefix : Identifier) (content : List UInt8)
    (early : List (Placeholder UInt8)) : Prop :=
  ∀ f g c d new, stage (loopPlaces templatePrefix) content early = f ++ .place c d new true :: g →
    FilledBy early f g c d new ∨ ∃ r r', Completed templatePrefix early f g r r'

/-- What is kept next to a filled place. -/
theorem exists_filler {early : List (Placeholder UInt8)}
    (hexp : Explained templatePrefix content early) {c d : UInt8} {new : List UInt8}
    (h : stage (loopPlaces templatePrefix) content early = f ++ .place c d new true :: g) :
    ∃ r ∈ early, r.left.map Spot.kept <:+ f ∧ r.right.map Piece.kept <+: present g := by
  rcases hexp f g c d new h with ⟨r, hr, -, -, -, hleft, hright⟩ | ⟨r, r', hr⟩
  · exact ⟨r, hr, hleft, kept_prefix_present hright⟩
  · refine ⟨r, hr.mem, ?_, hr.held⟩
    rw [hr.left]
    exact List.nil_suffix

/-- The text on the left of a kind is not completed. -/
theorem left_of_pass {early later : List (Placeholder UInt8)} {q : Placeholder UInt8}
    (turn : loopPlaces templatePrefix = early ++ q :: later) (hlater : later ≠ [])
    (hexp : Explained templatePrefix content early) {c' d' : UInt8} {new' : List UInt8}
    (h : stage (loopPlaces templatePrefix) content early = f ++ .place c' d' new' false :: g)
    (hleft : q.left.map Piece.kept <:+ present f) : q.left.map Spot.kept <:+ f := by
  rcases ends_cases (new_ne_nil_front h) hleft
    with hkept | ⟨f', c', d', new', s, y, z, rfl, hsplit, hy, hin⟩
  · exact hkept
  · rw [List.append_assoc, List.cons_append] at h
    rcases exists_filler hexp h with ⟨r, hr, -, hright⟩
    rw [present_append, present_kept] at hright
    have hword := mem_wordsIn_of_part h hy hin z s
    rw [← hsplit] at hword
    have hchecked := of_everyTurn leftKept_checked (bare_turn turn)
      (fun hnil => hlater (List.map_eq_nil_iff.mp hnil)) _ hword r.bare (List.mem_map_of_mem hr)
    exact absurd (beginAlike_of_kept hright (List.prefix_append _ _)) hchecked

/-- What is put behind a place completes the text on the right of a kind there only
    if no other kind before stands there. -/
theorem right_of_pass {early later : List (Placeholder UInt8)} {q : Placeholder UInt8}
    (turn : loopPlaces templatePrefix = early ++ q :: later)
    (hexp : Explained templatePrefix content early) {c' d' : UInt8} {new' : List UInt8}
    (h : stage (loopPlaces templatePrefix) content early = f ++ .place c' d' new' false :: g)
    (hfirst : q.first = c') (hsecond : q.second = d') (hleft : q.left.map Spot.kept <:+ f)
    (hright : q.right.map Piece.kept <+: present g) :
    FilledBy (early ++ [q]) f g c' d' new' ∨
      ∃ r', Completed templatePrefix (early ++ [q]) f g q r' := by
  have hsep : Separate (loopPlaces templatePrefix) := separate_placeholders _ _ _
  have hmarks := marks_stage (loopPlaces templatePrefix) content early
  rw [h] at hmarks
  have hqmem := mem_of_turn turn
  have hqlast : q ∈ early ++ [q] := List.mem_append_right _ List.mem_cons_self
  rcases starts_cases (new_ne_nil_back h) hright
    with hkept | ⟨s, c, d, new, g', y, w, rfl, hsplit, hy, hpre, hw, hrest⟩
  · -- The kind stands at the place in the content.
    have hstands := stands_of_between (between_of_kept hleft hkept)
    rw [hfirst, hsecond] at hstands
    exact Or.inl ⟨q, hqlast, hfirst, hsecond, (held_of_stands hsep hmarks hqmem hstands).2.2, hleft,
      hkept⟩
  · rcases exists_of_place hsep hmarks with ⟨r', hr', hfirst', hsecond', hnew', hleft', hright'⟩
    have hshort := kept_prefix_before hright'
    rw [turn] at hr'
    rcases List.mem_append.mp hr' with hbefore | hr'
    · exact Or.inl ⟨r', List.mem_append_left _ hbefore, hfirst', hsecond', hnew', hleft', hright'⟩
    rcases List.mem_cons.mp hr' with rfl | hbehind
    · exact Or.inl ⟨r', hqlast, hfirst', hsecond', hnew', hleft', hright'⟩
    -- Only a kind behind stands there in the content.
    have hbare := of_everyTurn rightCompleted_checked (bare_turn turn) r'.bare
      (List.mem_map_of_mem hbehind) (hfirst'.trans hfirst.symm)
    have hin : r'.right <+: q.right := by
      rw [hsplit]
      exact hshort.trans (List.prefix_append _ _)
    rcases hbare hin with ⟨hnone, hwords⟩
    have hplace : stage (loopPlaces templatePrefix) content early =
        (f ++ .place c' d' new' false :: s.map Spot.kept) ++ .place c d new true :: g' := by
      rw [h, List.append_assoc, List.cons_append]
    rcases exists_filler hexp hplace with ⟨r, hr, hfront, hback⟩
    have hword := mem_wordsIn_of_part hplace hy hpre.isInfix s w
    rw [← hsplit] at hword
    rcases hwords _ hword r.bare (List.mem_map_of_mem hr) (beginAlike_of_kept hback hrest)
      (kept_suffix_behind hfront) with ⟨hm, hleftnil, hdash, -, hmy⟩
    refine Or.inr ⟨r', hqlast, hm, hleftnil, hdash, hright, ?_, hnone, hleft', fun hstart => ?_⟩
    · rw [turn]
      exact List.mem_append_right _ (List.mem_cons_of_mem _ hbehind)
    · -- The part of the prefix would begin with `my` as well.
      rcases new_of_place hplace with ⟨p, hp, rfl⟩
      have hlower := hpre.map toLower
      rw [(new_word hp).2.2] at hlower
      exact hmy (List.prefix_or_prefix_of_prefix hstart hlower)

/-- The passes for some kinds fill the places at which one of them stands in the
    content, and places that are completed. The induction is on the kinds from
    the last one. -/
theorem explained {early later : List (Placeholder UInt8)} {q : Placeholder UInt8}
    (turn : loopPlaces templatePrefix = early ++ q :: later) :
    Explained templatePrefix content early := by
  induction early using List.reverseRecOn generalizing q later with
  | nil =>
      intro f g c d new h
      exact absurd (h ▸ List.mem_append_right f List.mem_cons_self) not_filled_spots
  | append_singleton early q' ih =>
      intro f g c d new h
      rw [List.append_assoc] at turn
      have hexp := ih turn
      have hsep : Separate (loopPlaces templatePrefix) := separate_placeholders _ _ _
      rw [stage_concat] at h
      rcases place_of_pass h with ⟨f', filled, g', hbefore, hf, hg, hfilled, hkept⟩
      have hmarks := marks_stage (loopPlaces templatePrefix) content early
      rw [hbefore] at hmarks
      cases filled with
      | true =>
          have hkinds : ∀ r ∈ early, r ∈ early ++ [q'] := fun r hr => List.mem_append_left _ hr
          rcases hexp f' g' c d new hbefore with hby | ⟨r, r', hr⟩
          · exact Or.inl (filledBy_congr hkinds hf hg hby)
          · exact Or.inr ⟨r, r', completed_congr hkinds hf hkept hr⟩
      | false =>
          rcases hfilled.mp rfl with hno | hstands
          · exact absurd hno (by simp only [Bool.false_eq_true, not_false_eq_true])
          rcases held_present hsep hmarks (mem_of_turn turn) hstands with ⟨hleft, hright⟩
          have hleft' := left_of_pass turn (List.cons_ne_nil _ _) hexp hbefore hleft
          rcases letters_of_stands hstands with ⟨hfirst, hsecond⟩
          rcases right_of_pass turn hexp hbefore hfirst hsecond hleft' hright with hby | ⟨r', hr⟩
          · exact Or.inl (filledBy_congr (fun r hr => hr) hf hg hby)
          · exact Or.inr ⟨q', r', completed_congr (fun r hr => hr) hf hkept hr⟩

/-! ## Patterns that are found -/

/-- At a filled place of which a part is in a pattern when its turn comes, a kind
    before stands in the content. -/
theorem filledBy_of_part {early later : List (Placeholder UInt8)} {q : Placeholder UInt8}
    (turn : loopPlaces templatePrefix = early ++ q :: later) {c d : UInt8} {new x y z : List UInt8}
    (h : stage (loopPlaces templatePrefix) content early = f ++ .place c d new true :: g)
    (hpattern : q.pattern = x ++ (y ++ z)) (hy : y ≠ []) (hin : y <:+: new)
    (hstart : x ≠ [] → y <+: new) (hfront : ∀ w : List UInt8, w.map Spot.kept <:+ f → EndAlike w x)
    (hback : z.map Piece.kept <+: present g) : FilledBy early f g c d new := by
  rcases explained turn f g c d new h with hby | ⟨r, r', hr⟩
  · exact hby
  · have hword := mem_wordsIn_of_part h hy hin x z
    rw [← hpattern] at hword
    rcases of_everyTurn completedInside_checked (bare_turn turn) _ hword r.bare
      (List.mem_map_of_mem hr.mem) hr.first hr.left hr.right (beginAlike_of_kept hr.held hback)
      r'.bare (bare_mem hr.mem') hr.right' (hfront _ hr.held') with ⟨hx, hmy⟩
    -- The prefix would begin with `my`.
    rcases new_of_place h with ⟨p, hp, rfl⟩
    have hlower := (hstart hx).map toLower
    rw [(new_word hp).2.2] at hlower
    exact absurd (hmy.trans hlower) hr.apart

/-- A pattern with parts of what is put at two places. -/
theorem joins_of_two {early later : List (Placeholder UInt8)} {q r : Placeholder UInt8}
    (turn : loopPlaces templatePrefix = early ++ q :: later) (hr : r ∈ early) {c d : UInt8}
    {new x y m y' z : List UInt8}
    (hstage : stage (loopPlaces templatePrefix) content early =
      f ++ x.map Spot.kept ++ .place r.first r.second r.new true ::
        (m.map Spot.kept ++ .place c d new true :: g))
    (hleft : r.left.map Spot.kept <:+ f ++ x.map Spot.kept)
    (hright : r.right.map Spot.kept <+: m.map Spot.kept ++ .place c d new true :: g)
    (hpattern : q.pattern = x ++ (y ++ (m ++ (y' ++ z)))) (hy : y ≠ []) (hend : y <:+ r.new)
    (hwhole : x ≠ [] → y = r.new) (hy' : y' ≠ []) (hstart : y' <+: new)
    (hwhole' : z ≠ [] → y' = new) (hrest : z.map Piece.kept <+: present g) :
    Joins (loopPlaces templatePrefix) content := by
  have hmarks := marks_stage (loopPlaces templatePrefix) content early
  have hstage' : stage (loopPlaces templatePrefix) content early =
      (f ++ x.map Spot.kept ++ .place r.first r.second r.new true :: m.map Spot.kept) ++
        .place c d new true :: g := by
    rw [hstage, List.append_assoc (f ++ x.map Spot.kept), List.cons_append]
  have hpattern' : q.pattern = (x ++ (y ++ m)) ++ (y' ++ z) := by
    rw [hpattern]
    simp only [List.append_assoc]
  have hfront : ∀ w : List UInt8, w.map Spot.kept <:+
      f ++ x.map Spot.kept ++ .place r.first r.second r.new true :: m.map Spot.kept →
        EndAlike w (x ++ (y ++ m)) := by
    intro w hw
    refine Or.inl ((kept_suffix_behind hw).trans ?_)
    rw [← List.append_assoc]
    exact List.suffix_append _ _
  rcases filledBy_of_part turn hstage' hpattern' hy' hstart.isInfix (fun _ => hstart) hfront
    hrest with ⟨r', hr', rfl, rfl, rfl, hleft', hright'⟩
  have hlower : r.new.map toLower = r'.new.map toLower := by
    rw [(new_word (mem_early_of_turn turn hr)).2.2, (new_word (mem_early_of_turn turn hr')).2.2]
  -- The two parts are at the ends of the pattern.
  have hword := mem_wordsIn_of_part hstage hy hend.isInfix x (m ++ (y' ++ z))
  have hword' := mem_wordsIn_of_part hstage' hy' hstart.isInfix m z
  rw [← hpattern] at hword
  have hshort := kept_prefix_before hright
  have hends : x = [] ∧ z = [] := by
    refine of_everyTurn twoAtEnds_checked (bare_turn turn) _ hword r.bare (List.mem_map_of_mem hr)
      (endAlike_of_kept hleft) (hshort.trans (List.prefix_append _ _)) _ hword' hshort r'.bare
      (List.mem_map_of_mem hr') (kept_suffix_behind hleft')
      (beginAlike_of_kept (kept_prefix_present hright') hrest) (fun hx => ?_) (fun hz => ?_)
    · have hstarts := hstart.map toLower
      rw [← hlower, ← hwhole hx] at hstarts
      exact hstarts
    · have hlast := hend.map toLower
      rw [hlower, ← hwhole' hz] at hlast
      exact hlast
  rw [hends.1, List.map_nil, List.append_nil] at hstage hleft hleft'
  rw [hends.1, hends.2, List.nil_append, List.append_nil] at hpattern
  rw [hstage] at hmarks
  exact joins_two turn hr hr' hmarks hleft hright hleft' hright' hpattern hend hstart

/-- The passes are clean exactly if no pattern is put together. -/
theorem clean_iff_not_joins (templatePrefix : Identifier) (content : List UInt8) :
    Clean (loopPlaces templatePrefix) (cut (loopPlaces templatePrefix) content) ↔
      ¬ Joins (loopPlaces templatePrefix) content := by
  have hsep : Separate (loopPlaces templatePrefix) := separate_placeholders _ _ _
  refine ⟨fun hclean hjoins => not_clean_of_joins hsep hjoins hclean, fun hno => ?_⟩
  rw [clean_cut_iff hsep]
  intro early q later turn hin
  refine hno ?_
  have hmarks := marks_stage (loopPlaces templatePrefix) content early
  cases occurs_of_infix new_ne_nil (pattern_ne_nil q) hin with
  | kept f g hstage =>
      rw [hstage] at hmarks
      exact absurd hmarks (pattern_not_kept (mem_of_turn turn))
  | part f x c d new g y z hstage hpattern hy hyin hstart hend hboth hrest =>
      rw [← List.append_assoc] at hstage
      rcases filledBy_of_part turn hstage hpattern hy hyin hstart (fun w => endAlike_of_kept) hrest
        with ⟨r, hr, rfl, rfl, rfl, hleft, hright⟩
      rcases starts_cases (new_ne_nil_back hstage) hrest
        with ⟨g', rfl⟩ | ⟨m, c', d', new', g', y', z', rfl, rfl, hy', hstart', hwhole', hrest'⟩
      · rw [hstage, List.append_assoc] at hmarks
        exact joins_one turn hr hmarks hleft hright hpattern hyin hstart hend hboth
      · have hz : m ++ (y' ++ z') ≠ [] := by
          intro hnil
          exact hy' (List.append_eq_nil_iff.mp (List.append_eq_nil_iff.mp hnil).2).1
        exact joins_of_two turn hr hstage hleft hright hpattern hy (hend hz)
          (fun hx => hboth hx hz) hy' hstart' hwhole' hrest'

instance (templatePrefix : Identifier) (content : List UInt8) :
    Decidable (Joins (loopPlaces templatePrefix) content) :=
  decidable_of_iff (¬ Clean (loopPlaces templatePrefix) (cut (loopPlaces templatePrefix) content))
    (by rw [clean_iff_not_joins, not_not])

end

end Qdmi
