import Mathlib.Data.List.Induction
import Mathlib.Data.List.TakeWhile

/-!
# Replacing Whole Words

Replacing a word of a text where it stands between two separators, by matching
the separators along with it.

A matcher that takes the separators into its match goes on behind the second
one, so this separator is not there any more for the word that follows. What
that means for a text is easier to say of its words than of its characters.
`cutWords` cuts a text into words and the separators before them, and
`replaceDelimited_joinWords` turns the matching loop into `replaceWord`, which
goes over the words and remembers whether the separator at hand has been used.

A sequence of such passes, one for each of some words, is a single pass over
the text for all of them, `replaceWords`. It only asks which words there are,
so their order does not matter. It differs from `markWords`, which replaces
every word between two separators, exactly where a word stands twice in a row.

## Main definitions

* `replaceDelimited`: Replacing a word between separators by matching both.
* `joinWords`, `cutWords`: A text as words with separators before them.
* `WellCut`: The words are made of word characters.
* `replaceWord`, `replaceWords`: One pass for one word, and for several.
* `markWords`: Replacing every word between two separators.
* `Repeats`, `RepeatsBetween`: A word stands twice in a row.

## Theorems

* `replaceDelimited_word`, `replaceDelimited_match`,
  `replaceDelimited_separator`: One step of the matching loop.
* `joinWords_cutWords`, `cutWords_joinWords`: Cutting and joining are inverse.
* `replaceDelimited_joinWords`: The matching loop, word by word.
* `foldl_replaceWord`, `foldl_replaceDelimited`: A sequence of passes is one
  pass.
* `replaceWords_congr`: It does not depend on the order.
* `replaceWords_eq_markWords_iff`: When it replaces every word.
* `replaceWords_markWords`: What is marked is not replaced again.
* `repeatsBetween_iff`: A repetition in the text and in its words.
-/

namespace Qdmi

section

variable {α : Type} (p : α → Bool)

/-! ## Words and separators -/

/-- A text from its first word and the others with the separators before them. -/
def joinWords (head : List α) (tokens : List (α × List α)) : List α :=
  head ++ tokens.flatMap (fun t => t.1 :: t.2)

/-- The words are made of word characters and the separators are not. -/
structure WellCut (p : α → Bool) (head : List α) (tokens : List (α × List α)) : Prop where
  head : ∀ c ∈ head, p c = true
  tokens : ∀ t ∈ tokens, p t.1 = false ∧ ∀ c ∈ t.2, p c = true

/-- The first word of a text, and the others with the separators before them. -/
def cutWords : List α → List α × List (α × List α)
  | [] => ([], [])
  | c :: cs =>
    if p c then (c :: (cutWords cs).1, (cutWords cs).2)
    else ([], (c, (cutWords cs).1) :: (cutWords cs).2)

example : cutWords (· ≠ 0) [1, 0, 0, 2, 3] = ([1], [(0, []), (0, [2, 3])]) := by decide

variable {p}

theorem joinWords_cons (head : List α) (s : α) (w : List α) (tokens : List (α × List α)) :
    joinWords head ((s, w) :: tokens) = head ++ s :: joinWords w tokens := by
  rw [joinWords, joinWords, List.flatMap_cons, List.cons_append]

theorem joinWords_append (head : List α) (tokens tokens' : List (α × List α)) :
    joinWords head (tokens ++ tokens') =
      joinWords head tokens ++ tokens'.flatMap (fun t => t.1 :: t.2) := by
  rw [joinWords, joinWords, List.flatMap_append, List.append_assoc]

theorem wellCut_tail {head w : List α} {s : α} {tokens : List (α × List α)}
    (h : WellCut p head ((s, w) :: tokens)) : WellCut p w tokens :=
  ⟨(h.tokens _ List.mem_cons_self).2, fun t ht => h.tokens t (List.mem_cons_of_mem _ ht)⟩

/-- Joining what was cut gives the text back. -/
theorem joinWords_cutWords (text : List α) :
    joinWords (cutWords p text).1 (cutWords p text).2 = text ∧
      WellCut p (cutWords p text).1 (cutWords p text).2 := by
  induction text with
  | nil => exact ⟨rfl, fun _ h => absurd h List.not_mem_nil, fun _ h => absurd h List.not_mem_nil⟩
  | cons c cs ih =>
      rw [cutWords]
      by_cases hc : p c = true
      · -- The character belongs to the first word.
        rw [if_pos hc]
        refine ⟨?_, fun d hd => ?_, ih.2.tokens⟩
        · rw [joinWords, List.cons_append]
          exact congrArg (List.cons c) ih.1
        · rcases List.mem_cons.mp hd with hd | hd
          · rw [hd]
            exact hc
          · exact ih.2.head d hd
      · -- It separates an empty first word from the others.
        rw [if_neg hc]
        refine ⟨?_, fun _ h => absurd h List.not_mem_nil, fun t ht => ?_⟩
        · rw [joinWords_cons, List.nil_append, ih.1]
        · rcases List.mem_cons.mp ht with ht | ht
          · rw [ht]
            exact ⟨Bool.eq_false_iff.mpr hc, ih.2.head⟩
          · exact ih.2.tokens t ht

/-- Cutting what was joined gives the words back. The induction is on the words,
    and on the characters of the first one. -/
theorem cutWords_joinWords {tokens : List (α × List α)} : ∀ {head : List α},
    WellCut p head tokens → cutWords p (joinWords head tokens) = (head, tokens) := by
  -- Cutting passes over a first word.
  have hword : ∀ (w rest : List α), (∀ c ∈ w, p c = true) →
      cutWords p (w ++ rest) = (w ++ (cutWords p rest).1, (cutWords p rest).2) := by
    intro w rest hw
    induction w with
    | nil => rfl
    | cons c w ih =>
        have hrest := ih (fun d hd => hw d (List.mem_cons_of_mem _ hd))
        rw [List.cons_append, cutWords, if_pos (hw c List.mem_cons_self), hrest, List.cons_append]
  induction tokens with
  | nil =>
      intro head h
      rw [joinWords, hword head _ h.head, List.flatMap_nil, cutWords, List.append_nil]
  | cons t tokens ih =>
      rcases t with ⟨s, w⟩
      intro head h
      have hs : ¬ p s = true := by
        rw [(h.tokens _ List.mem_cons_self).1]
        decide
      rw [joinWords_cons, hword head _ h.head, cutWords, if_neg hs, ih (wellCut_tail h),
        List.append_nil]

/-- A text has its words and separators in one way only. -/
theorem joinWords_inj {head head' : List α} {tokens tokens' : List (α × List α)}
    (h : WellCut p head tokens) (h' : WellCut p head' tokens')
    (heq : joinWords head tokens = joinWords head' tokens') : head = head' ∧ tokens = tokens' := by
  have hcut := cutWords_joinWords h
  rw [heq, cutWords_joinWords h', Prod.mk.injEq] at hcut
  exact ⟨hcut.1.symm, hcut.2.symm⟩

/-- What stands before the first separator is determined. -/
theorem word_unique {w w' rest rest' : List α} {s s' : α} (hw : ∀ c ∈ w, p c = true)
    (hw' : ∀ c ∈ w', p c = true) (hs : p s = false) (hs' : p s' = false)
    (h : w ++ s :: rest = w' ++ s' :: rest') : w = w' := by
  have htake : ∀ (w rest : List α) {s : α}, (∀ c ∈ w, p c = true) → p s = false →
      (w ++ s :: rest).takeWhile p = w := by
    intro w rest s hw hs
    rw [List.takeWhile_append_of_pos hw, List.takeWhile_cons_of_neg (by rw [hs]; decide),
      List.append_nil]
  rw [← htake w rest hw hs, h, htake w' rest' hw' hs']

/-! ## Repetitions -/

variable {names : List (List α)}

/-- One of some words stands twice in a row, with a separator behind it. -/
def Repeats (names : List (List α)) (tokens : List (α × List α)) : Prop :=
  ∃ before s w s' t after, w ∈ names ∧ tokens = before ++ (s, w) :: (s', w) :: t :: after

/-- The same for a text: a word between separators, twice, with one separator
    between the two. -/
def RepeatsBetween (p : α → Bool) (names : List (List α)) (text : List α) : Prop :=
  ∃ before s w s' s'' after, w ∈ names ∧ p s = false ∧ p s' = false ∧ p s'' = false ∧
    text = before ++ s :: (w ++ s' :: (w ++ s'' :: after))

/-- The words begin with a given one that has a separator behind it. -/
def BeginsWith (w : List α) (tokens : List (α × List α)) : Prop :=
  ∃ s t after, tokens = (s, w) :: t :: after

theorem repeats_cons {s : α} {w : List α} {rest : List (α × List α)} :
    Repeats names ((s, w) :: rest) ↔ w ∈ names ∧ BeginsWith w rest ∨ Repeats names rest := by
  constructor
  · rintro ⟨before, s₀, w₀, s', t, after, hw, heq⟩
    rcases before with _ | ⟨t₀, before⟩
    · rw [List.nil_append, List.cons.injEq, Prod.mk.injEq] at heq
      rw [heq.1.2, heq.2]
      exact Or.inl ⟨hw, s', t, after, rfl⟩
    · rw [List.cons_append, List.cons.injEq] at heq
      exact Or.inr ⟨before, s₀, w₀, s', t, after, hw, heq.2⟩
  · rintro (⟨hw, s', t, after, hrest⟩ | ⟨before, s₀, w₀, s', t, after, hw, hrest⟩)
    · exact ⟨[], s, w, s', t, after, hw, by rw [hrest, List.nil_append]⟩
    · exact ⟨(s, w) :: before, s₀, w₀, s', t, after, hw, by rw [hrest, List.cons_append]⟩

/-- A repetition in a text is one in its words. -/
theorem repeatsBetween_iff (hnames : ∀ n ∈ names, ∀ c ∈ n, p c = true) (text : List α) :
    RepeatsBetween p names text ↔ Repeats names (cutWords p text).2 := by
  constructor
  · rintro ⟨before, s, w, s', s'', after, hw, hs, hs', hs'', heq⟩
    -- The words of the text around the two, and the two between them.
    rcases joinWords_cutWords (p := p) before with ⟨hbefore, hcut⟩
    rcases joinWords_cutWords (p := p) after with ⟨hafter, hcut'⟩
    have htext : text = joinWords (cutWords p before).1 ((cutWords p before).2 ++
        (s, w) :: (s', w) :: (s'', (cutWords p after).1) :: (cutWords p after).2) := by
      rw [joinWords_append, hbefore, heq]
      nth_rewrite 1 [← hafter]
      rfl
    have hwell : WellCut p (cutWords p before).1 ((cutWords p before).2 ++
        (s, w) :: (s', w) :: (s'', (cutWords p after).1) :: (cutWords p after).2) := by
      refine ⟨hcut.head, fun t ht => ?_⟩
      rcases List.mem_append.mp ht with ht | ht
      · exact hcut.tokens t ht
      rcases List.mem_cons.mp ht with ht | ht
      · rw [ht]
        exact ⟨hs, hnames w hw⟩
      rcases List.mem_cons.mp ht with ht | ht
      · rw [ht]
        exact ⟨hs', hnames w hw⟩
      rcases List.mem_cons.mp ht with ht | ht
      · rw [ht]
        exact ⟨hs'', hcut'.head⟩
      · exact hcut'.tokens t ht
    rw [htext, cutWords_joinWords hwell]
    exact ⟨_, s, w, s', _, _, hw, rfl⟩
  · rintro ⟨before, s, w, s', t, after, hw, heq⟩
    -- The text is joined from its words, so the two stand in it.
    rcases joinWords_cutWords (p := p) text with ⟨htext, hcut⟩
    rw [heq] at htext hcut
    have hmem : ∀ u ∈ (s, w) :: (s', w) :: t :: after, p u.1 = false :=
      fun u hu => (hcut.tokens u (List.mem_append_right _ hu)).1
    refine ⟨joinWords (cutWords p text).1 before, s, w, s', t.1, joinWords t.2 after, hw,
      hmem _ List.mem_cons_self, hmem _ (List.mem_cons_of_mem _ List.mem_cons_self),
      hmem t (List.mem_cons_of_mem _ (List.mem_cons_of_mem _ List.mem_cons_self)), ?_⟩
    rw [joinWords_append] at htext
    exact htext.symm

end

section

variable {α : Type} [DecidableEq α] (p : α → Bool)

/-! ## Matching -/

/-- The separators around a word that begins behind the first element. -/
def matchDelimited (name : List α) : List α → Option (α × α)
  | [] => none
  | s :: rest =>
    match rest.drop name.length with
    | [] => none
    | s' :: _ => if p s = false ∧ name.isPrefixOf rest ∧ p s' = false then some (s, s') else none

/-- Replacing a word between separators, when the next `skip` elements belong to
    a match. -/
def replaceDelimitedFrom (name new : List α) : Nat → List α → List α
  | _, [] => []
  | skip + 1, _ :: cs => replaceDelimitedFrom name new skip cs
  | 0, c :: cs =>
    match matchDelimited p name (c :: cs) with
    | some (s, s') => s :: (new ++ s' :: replaceDelimitedFrom name new (name.length + 1) cs)
    | none => c :: replaceDelimitedFrom name new 0 cs

/-- Replacing a word between separators, from left to right. The separators
    belong to the match and are put back. -/
def replaceDelimited (name new text : List α) : List α := replaceDelimitedFrom p name new 0 text

example : replaceDelimited (· ≠ 0) [1] [2, 2] [0, 1, 0, 3, 0, 1, 0] =
    [0, 2, 2, 0, 3, 0, 2, 2, 0] := by decide

variable {p} {name new : List α}

theorem replaceDelimitedFrom_eq (text : List α) : ∀ skip,
    replaceDelimitedFrom p name new skip text = replaceDelimited p name new (text.drop skip) := by
  induction text with
  | nil =>
      intro skip
      rw [List.drop_nil, replaceDelimited, replaceDelimitedFrom, replaceDelimitedFrom]
  | cons c cs ih =>
      intro skip
      rcases skip with _ | skip
      · rfl
      · rw [replaceDelimitedFrom, ih skip, List.drop_succ_cons]

theorem replaceDelimited_none {c : α} {cs : List α} (h : matchDelimited p name (c :: cs) = none) :
    replaceDelimited p name new (c :: cs) = c :: replaceDelimited p name new cs := by
  rw [replaceDelimited, replaceDelimitedFrom, h]
  rfl

/-- A match does not begin with a word character. -/
theorem replaceDelimited_word {c : α} (hc : p c = true) (cs : List α) :
    replaceDelimited p name new (c :: cs) = c :: replaceDelimited p name new cs := by
  refine replaceDelimited_none ?_
  rw [matchDelimited]
  split
  · rfl
  · rw [if_neg (fun h => absurd (hc.symm.trans h.1) (by decide))]

/-- The word between two separators is replaced, and reading goes on behind
    both. -/
theorem replaceDelimited_match {s s' : α} (hs : p s = false) (hs' : p s' = false)
    (rest : List α) : replaceDelimited p name new (s :: (name ++ s' :: rest)) =
      s :: (new ++ s' :: replaceDelimited p name new rest) := by
  have hdrop : (name ++ s' :: rest).drop name.length = s' :: rest := List.drop_left
  have hpre : name.isPrefixOf (name ++ s' :: rest) = true :=
    List.isPrefixOf_iff_prefix.mpr (List.prefix_append _ _)
  have hmatch : matchDelimited p name (s :: (name ++ s' :: rest)) = some (s, s') := by
    simp only [matchDelimited, hdrop, hpre, hs, hs', and_self, if_true]
  have hskip : (name ++ s' :: rest).drop (name.length + 1) = rest := by
    rw [← List.drop_drop, hdrop, List.drop_succ_cons, List.drop_zero]
  rw [replaceDelimited, replaceDelimitedFrom, hmatch]
  dsimp only
  rw [replaceDelimitedFrom_eq, hskip]

/-- A match is the word between its separators. -/
theorem matchDelimited_eq_some {text : List α} {s s' : α}
    (h : matchDelimited p name text = some (s, s')) :
    p s' = false ∧ ∃ rest, text = s :: (name ++ s' :: rest) := by
  rcases text with _ | ⟨c, cs⟩
  · exact absurd h (by simp only [matchDelimited, reduceCtorEq, not_false_eq_true])
  rw [matchDelimited] at h
  split at h
  · exact absurd h (by simp only [reduceCtorEq, not_false_eq_true])
  rename_i d rest hdrop
  split at h
  · rename_i hcond
    rw [Option.some.injEq, Prod.mk.injEq] at h
    rw [← h.1, ← h.2]
    refine ⟨hcond.2.2, rest, ?_⟩
    rcases List.isPrefixOf_iff_prefix.mp hcond.2.1 with ⟨tail, htail⟩
    rw [← htail, List.drop_left] at hdrop
    rw [← htail, hdrop]
  · exact absurd h (by simp only [reduceCtorEq, not_false_eq_true])

/-- A separator before another word, or before the last one, is passed over. -/
theorem replaceDelimited_separator (hname : ∀ c ∈ name, p c = true) {s : α} {w : List α}
    (hw : ∀ c ∈ w, p c = true) {rest : List α} (hrest : ∀ c ∈ rest.head?, p c = false)
    (hne : rest = [] ∨ w ≠ name) : replaceDelimited p name new (s :: (w ++ rest)) =
      s :: replaceDelimited p name new (w ++ rest) := by
  refine replaceDelimited_none ?_
  rcases hmatch : matchDelimited p name (s :: (w ++ rest)) with _ | ⟨t, t'⟩
  · rfl
  rcases matchDelimited_eq_some hmatch with ⟨ht', tail, heq⟩
  rw [List.cons.injEq] at heq
  rcases rest with _ | ⟨c, rest⟩
  · -- There is no second separator in a word.
    rw [List.append_nil] at heq
    have hmem : t' ∈ w := by
      rw [heq.2]
      exact List.mem_append_right _ List.mem_cons_self
    exact absurd ((hw t' hmem).symm.trans ht') (by decide)
  · rcases hne with hnil | hne
    · exact absurd hnil (List.cons_ne_nil _ _)
    · exact absurd (word_unique hw hname (hrest c rfl) ht' heq.2) hne

/-! ## One pass -/

/-- A pass over the words for one of them. A separator that ended a match is not
    available to the next word. -/
def replaceWord (name new : List α) : Bool → List (α × List α) → List (α × List α)
  | _, [] => []
  | available, (s, w) :: rest =>
    if available = true ∧ w = name ∧ rest ≠ [] then (s, new) :: replaceWord name new false rest
    else (s, w) :: replaceWord name new true rest

theorem replaceDelimited_append {w : List α} (hw : ∀ c ∈ w, p c = true) (rest : List α) :
    replaceDelimited p name new (w ++ rest) = w ++ replaceDelimited p name new rest := by
  induction w with
  | nil => rfl
  | cons c w ih =>
      rw [List.cons_append, replaceDelimited_word (hw c List.mem_cons_self),
        ih (fun d hd => hw d (List.mem_cons_of_mem _ hd)), List.cons_append]

/-- The matching loop, word by word. A match takes two separators, so the word
    behind it is the first word of what remains to be read, and the induction
    goes two words on. -/
theorem replaceDelimited_joinWords (hname : ∀ c ∈ name, p c = true) :
    ∀ (tokens : List (α × List α)) {head : List α}, WellCut p head tokens →
      replaceDelimited p name new (joinWords head tokens) =
        joinWords head (replaceWord name new true tokens)
  | [], head, h => by
    rw [replaceWord, joinWords, List.flatMap_nil, replaceDelimited_append h.head]
    rfl
  | [(s, w)], head, h => by
    have hw := replaceDelimited_joinWords hname [] (wellCut_tail h)
    rw [joinWords, List.flatMap_nil] at hw
    have hkeep : replaceWord name new true [(s, w)] = [(s, w)] := by
      rw [replaceWord, if_neg (fun hcond => hcond.2.2 rfl), replaceWord]
    rw [hkeep, joinWords_cons, replaceDelimited_append h.head, joinWords, List.flatMap_nil,
      replaceDelimited_separator hname (wellCut_tail h).head
        (fun c hc => absurd hc (by simp only [List.head?_nil, Option.mem_def, reduceCtorEq,
          not_false_eq_true])) (Or.inl rfl), hw]
    rfl
  | (s, w) :: (s', w') :: rest, head, h => by
    have hs := (h.tokens _ List.mem_cons_self).1
    have hs' := ((wellCut_tail h).tokens _ List.mem_cons_self).1
    rw [joinWords_cons, joinWords_cons, replaceDelimited_append h.head]
    by_cases hw : w = name
    · -- The second separator is gone, and reading goes on behind it.
      have hpass : replaceWord name new true ((s, w) :: (s', w') :: rest) =
          (s, new) :: (s', w') :: replaceWord name new true rest := by
        rw [replaceWord, if_pos ⟨rfl, hw, List.cons_ne_nil _ _⟩, replaceWord,
          if_neg (fun hcond => absurd hcond.1 (by decide))]
      rw [hpass, joinWords_cons, joinWords_cons, hw, replaceDelimited_match hs hs',
        replaceDelimited_joinWords hname rest (wellCut_tail (wellCut_tail h))]
    · -- The separator is passed over, and so is the word behind it.
      have hpass : replaceWord name new true ((s, w) :: (s', w') :: rest) =
          (s, w) :: replaceWord name new true ((s', w') :: rest) := by
        rw [replaceWord, if_neg (fun hcond => hw hcond.2.1)]
      have hsep : ∀ c ∈ (s' :: joinWords w' rest).head?, p c = false := by
        intro c hc
        rw [List.head?_cons, Option.mem_def, Option.some.injEq] at hc
        rw [← hc]
        exact hs'
      have htail := replaceDelimited_joinWords hname ((s', w') :: rest) (wellCut_tail h)
      rw [joinWords_cons] at htail
      rw [hpass, joinWords_cons,
        replaceDelimited_separator hname (wellCut_tail h).head hsep (Or.inr hw), htail]

/-- A pass leaves the words well cut. -/
theorem wellCut_replaceWord (hnew : ∀ c ∈ new, p c = true) {tokens : List (α × List α)} :
    ∀ {head : List α}, WellCut p head tokens → ∀ available,
      WellCut p head (replaceWord name new available tokens) := by
  induction tokens with
  | nil =>
      intro head h available
      rw [replaceWord]
      exact h
  | cons t rest ih =>
      rcases t with ⟨s, w⟩
      intro head h available
      have hs := (h.tokens _ List.mem_cons_self).1
      -- Whatever word is put here, the separator in front of it is kept.
      have hcons : ∀ {v : List α} {avail : Bool}, (∀ c ∈ v, p c = true) →
          WellCut p head ((s, v) :: replaceWord name new avail rest) := by
        intro v avail hv
        refine ⟨h.head, fun t ht => ?_⟩
        rcases List.mem_cons.mp ht with ht | ht
        · rw [ht]
          exact ⟨hs, hv⟩
        · exact (ih (wellCut_tail h) avail).tokens t ht
      rw [replaceWord]
      split
      · exact hcons hnew
      · exact hcons (wellCut_tail h).head

/-! ## A sequence of passes -/

/-- One pass over the words for several of them. A separator that ended a match
    is not available to the same word. -/
def replaceWords (names : List (List α)) (mark : List α → List α) :
    Option (List α) → List (α × List α) → List (α × List α)
  | _, [] => []
  | last, (s, w) :: rest =>
    if w ∈ names ∧ last ≠ some w ∧ rest ≠ [] then
      (s, mark w) :: replaceWords names mark (some w) rest
    else (s, w) :: replaceWords names mark none rest

variable {names : List (List α)} {mark : List α → List α}

theorem replaceWords_eq_nil {last : Option (List α)} {tokens : List (α × List α)} :
    replaceWords names mark last tokens = [] ↔ tokens = [] := by
  rcases tokens with _ | ⟨⟨s, w⟩, rest⟩
  · rw [replaceWords]
  · rw [replaceWords]
    split
    · simp only [reduceCtorEq]
    · simp only [reduceCtorEq]

theorem replaceWords_no_names (tokens : List (α × List α)) : ∀ last,
    replaceWords [] mark last tokens = tokens := by
  induction tokens with
  | nil =>
      intro last
      rw [replaceWords]
  | cons t rest ih =>
      intro last
      rw [replaceWords, if_neg (fun h => absurd h.1 List.not_mem_nil), ih none]

/-- One more pass, for a word that none of the passes so far has put in. What
    the passes remember of the last match is about one word, either the new
    one or one of the others. -/
theorem replaceWord_replaceWords {n : List α} (hn : n ∉ names) (hmark : ∀ w ∈ names, mark w ≠ n)
    (tokens : List (α × List α)) : ∀ (available : Bool) (last : Option (List α)),
      (available = false → last = none) → last ≠ some n →
      replaceWord n (mark n) available (replaceWords names mark last tokens) =
        replaceWords (names ++ [n]) mark (if available then last else some n) tokens := by
  induction tokens with
  | nil =>
      intro available last _ _
      rw [replaceWords, replaceWords, replaceWord]
  | cons t rest ih =>
      rcases t with ⟨s, w⟩
      intro available last hfree hlast
      -- What holds behind a word that neither of the two replaces.
      have hnone := ih true none (fun h => absurd h (by decide)) (by simp only [ne_eq,
        reduceCtorEq, not_false_eq_true])
      rw [if_pos rfl] at hnone
      by_cases hw : w = n
      · -- The new word, which the passes so far have left alone.
        have hmem : w ∈ names ++ [n] := by
          rw [hw]
          exact List.mem_append_right _ List.mem_cons_self
        have hold : ¬(w ∈ names ∧ last ≠ some w ∧ rest ≠ []) := by
          rw [hw]
          exact fun h => hn h.1
        rw [replaceWords, if_neg hold, replaceWord, replaceWords]
        rcases available with _ | _
        · rw [if_neg (fun h => absurd h.1 (by decide)), hnone, hw,
            if_neg (fun h => h.2.1 (if_neg (by decide)))]
        · by_cases hrest : rest = []
          · rw [if_neg (fun h => h.2.2 (replaceWords_eq_nil.mpr hrest)), hnone,
              if_neg (fun h => h.2.2 hrest)]
          · have hnew := ih false none (fun _ => rfl) (by simp only [ne_eq, reduceCtorEq,
              not_false_eq_true])
            rw [if_neg (by decide)] at hnew
            rw [if_pos ⟨rfl, hw, fun h => hrest (replaceWords_eq_nil.mp h)⟩, hnew,
              if_pos ⟨hmem, by rw [hw, if_pos rfl]; exact hlast, hrest⟩, hw]
      · -- Another word. The new pass leaves it and what is put in for it alone.
        have hmem : w ∈ names ++ [n] ↔ w ∈ names := by
          rw [List.mem_append, List.mem_singleton, or_iff_left hw]
        have hsame : (if available then last else some n) = some w ↔ last = some w := by
          rcases available with _ | _
          · rw [if_neg (by decide), hfree rfl, Option.some.injEq]
            exact iff_of_false (fun h => hw h.symm) (by simp only [reduceCtorEq,
              not_false_eq_true])
          · rw [if_pos rfl]
        by_cases hcond : w ∈ names ∧ last ≠ some w ∧ rest ≠ []
        · have hmarked := ih true (some w) (fun h => absurd h (by decide))
            (fun h => hw (Option.some.inj h))
          rw [if_pos rfl] at hmarked
          rw [replaceWords, if_pos hcond, replaceWord,
            if_neg (fun h => hmark w hcond.1 h.2.1), hmarked, replaceWords,
            if_pos ⟨hmem.mpr hcond.1, fun h => hcond.2.1 (hsame.mp h), hcond.2.2⟩]
        · rw [replaceWords, if_neg hcond, replaceWord, if_neg (fun h => hw h.2.1), hnone,
            replaceWords,
            if_neg (fun h => hcond ⟨hmem.mp h.1, fun hl => h.2.1 (hsame.mpr hl), h.2.2⟩)]

/-- A sequence of passes is one pass, for different words of which none puts
    in one of the others. -/
theorem foldl_replaceWord (tokens : List (α × List α)) (hnodup : names.Nodup)
    (hmark : ∀ n ∈ names, mark n ∉ names) :
    names.foldl (fun ts n => replaceWord n (mark n) true ts) tokens =
      replaceWords names mark none tokens := by
  induction names using List.reverseRecOn with
  | nil => rw [List.foldl_nil, replaceWords_no_names]
  | append_singleton names n ih =>
      rw [List.nodup_append] at hnodup
      have hn : n ∉ names := fun h => hnodup.2.2 n h n List.mem_cons_self rfl
      have hmem : n ∈ names ++ [n] := List.mem_append_right _ List.mem_cons_self
      rw [List.foldl_append, List.foldl_cons, List.foldl_nil,
        ih hnodup.1 (fun m hm h =>
          hmark m (List.mem_append_left _ hm) (List.mem_append_left _ h)),
        replaceWord_replaceWords hn (fun w hw h =>
          hmark w (List.mem_append_left _ hw) (by rw [h]; exact hmem)) tokens true none
          (fun h => absurd h (by decide)) (by simp only [ne_eq, reduceCtorEq, not_false_eq_true]),
        if_pos rfl]

/-- A sequence of matching loops is one pass over the words. -/
theorem foldl_replaceDelimited {head : List α} {tokens : List (α × List α)}
    (h : WellCut p head tokens) (hnodup : names.Nodup) (hmark : ∀ n ∈ names, mark n ∉ names)
    (hnames : ∀ n ∈ names, (∀ c ∈ n, p c = true) ∧ ∀ c ∈ mark n, p c = true) :
    names.foldl (fun text n => replaceDelimited p n (mark n) text) (joinWords head tokens) =
        joinWords head (replaceWords names mark none tokens) ∧
      WellCut p head (replaceWords names mark none tokens) := by
  rw [← foldl_replaceWord tokens hnodup hmark]
  clear hnodup hmark
  induction names generalizing tokens with
  | nil => exact ⟨rfl, h⟩
  | cons n names ih =>
      have hn := hnames n List.mem_cons_self
      rw [List.foldl_cons, List.foldl_cons, replaceDelimited_joinWords hn.1 tokens h]
      exact ih (wellCut_replaceWord hn.2 h true)
        (fun m hm => hnames m (List.mem_cons_of_mem _ hm))

/-- A pass for several words only asks which words there are. -/
theorem replaceWords_congr {names' : List (List α)} (h : ∀ w, w ∈ names ↔ w ∈ names')
    (tokens : List (α × List α)) : ∀ last,
    replaceWords names mark last tokens = replaceWords names' mark last tokens := by
  induction tokens with
  | nil =>
      intro last
      rw [replaceWords, replaceWords]
  | cons t rest ih =>
      intro last
      rw [replaceWords, replaceWords, ih none, ih (some t.2)]
      by_cases hcond : t.2 ∈ names ∧ last ≠ some t.2 ∧ rest ≠ []
      · rw [if_pos hcond, if_pos ⟨(h t.2).mp hcond.1, hcond.2⟩]
      · rw [if_neg hcond, if_neg (fun hc => hcond ⟨(h t.2).mpr hc.1, hc.2⟩)]

/-! ## Every word -/

/-- Every one of some words that has a separator on both sides, replaced. -/
def markWords (names : List (List α)) (mark : List α → List α) :
    List (α × List α) → List (α × List α)
  | [] => []
  | (s, w) :: rest =>
    (s, if w ∈ names ∧ rest ≠ [] then mark w else w) :: markWords names mark rest

theorem wellCut_markWords (hmark : ∀ n ∈ names, ∀ c ∈ mark n, p c = true)
    {tokens : List (α × List α)} : ∀ {head : List α}, WellCut p head tokens →
    WellCut p head (markWords names mark tokens) := by
  induction tokens with
  | nil =>
      intro head h
      rw [markWords]
      exact h
  | cons t rest ih =>
      intro head h
      have htail := ih (wellCut_tail h)
      rw [markWords]
      refine ⟨h.head, fun u hu => ?_⟩
      -- A marked word consists of word characters like the one it replaces.
      rcases List.mem_cons.mp hu with hu | hu
      · have ht := h.tokens t List.mem_cons_self
        rw [hu]
        refine ⟨ht.1, ?_⟩
        dsimp only
        split
        · rename_i hcond
          exact hmark t.2 hcond.1
        · exact ht.2
      · exact htail.tokens u hu

/-- A pass replaces every word exactly if none of them stands twice in a row,
    and the next one is not the last replaced. -/
theorem replaceWords_eq_markWords_iff (hmark : ∀ n ∈ names, mark n ∉ names)
    (tokens : List (α × List α)) : ∀ last, (∀ w, last = some w → w ∈ names) →
    (replaceWords names mark last tokens = markWords names mark tokens ↔
      ¬Repeats names tokens ∧ ∀ w, last = some w → ¬BeginsWith w tokens) := by
  induction tokens with
  | nil =>
      intro last _
      rw [replaceWords, markWords]
      refine iff_of_true rfl ⟨?_, ?_⟩
      · rintro ⟨before, s, w, s', t, after, -, heq⟩
        exact List.cons_ne_nil _ _ (List.append_eq_nil_iff.mp heq.symm).2
      · rintro w - ⟨s, t, after, heq⟩
        exact List.cons_ne_nil _ _ heq.symm
  | cons t rest ih =>
      rcases t with ⟨s, w⟩
      intro last hlast
      have hnone := ih none (fun w h => absurd h (by simp only [reduceCtorEq, not_false_eq_true]))
      have hfresh : ∀ v, (none : Option (List α)) = some v → ¬BeginsWith v rest :=
        fun v h => absurd h (by simp only [reduceCtorEq, not_false_eq_true])
      rw [replaceWords, markWords, repeats_cons]
      by_cases hcond : w ∈ names ∧ rest ≠ []
      · rw [if_pos hcond]
        by_cases hw : last = some w
        · -- The separator before the word is gone, and the word stays.
          rw [if_neg (fun h => h.2.1 hw)]
          rcases rest with _ | ⟨t, after⟩
          · exact absurd rfl hcond.2
          refine iff_of_false (fun h => ?_) (fun h => h.2 w hw ⟨s, t, after, rfl⟩)
          rw [List.cons.injEq, Prod.mk.injEq] at h
          exact hmark w hcond.1 (h.1.2 ▸ hcond.1)
        · -- The word is replaced, and the same word behind it would not be.
          have hbehind := ih (some w) (fun v h => Option.some.inj h ▸ hcond.1)
          rw [if_pos ⟨hcond.1, hw, hcond.2⟩, List.cons.injEq, hbehind]
          constructor
          · rintro ⟨-, hrep, hnext⟩
            refine ⟨fun h => h.elim (fun hb => hnext w rfl hb.2) hrep, fun v hv hb => ?_⟩
            rcases hb with ⟨s', t, after, heq⟩
            rw [List.cons.injEq, Prod.mk.injEq] at heq
            rw [heq.1.2] at hw
            exact hw hv
          · rintro ⟨hrep, -⟩
            refine ⟨rfl, fun h => hrep (Or.inr h), fun v hv hb => hrep (Or.inl ⟨hcond.1, ?_⟩)⟩
            rw [Option.some.inj hv]
            exact hb
      · -- A word that is not listed, or the last one, is left alone by both.
        rw [if_neg hcond, if_neg (fun h => hcond ⟨h.1, h.2.2⟩), List.cons.injEq, hnone]
        constructor
        · rintro ⟨-, hrep, -⟩
          refine ⟨fun h => h.elim (fun hb => hcond ⟨hb.1, ?_⟩) hrep, fun v hv hb => ?_⟩
          · rcases hb.2 with ⟨s', t, after, heq⟩
            rw [heq]
            exact List.cons_ne_nil _ _
          · rcases hb with ⟨s', t, after, heq⟩
            rw [List.cons.injEq, Prod.mk.injEq] at heq
            refine hcond ⟨?_, ?_⟩
            · rw [heq.1.2]
              exact hlast v hv
            · rw [heq.2]
              exact List.cons_ne_nil _ _
        · rintro ⟨hrep, -⟩
          exact ⟨rfl, fun h => hrep (Or.inr h), hfresh⟩

/-- What is marked is not replaced again. -/
theorem replaceWords_markWords (hmark : ∀ n ∈ names, mark n ∉ names)
    (tokens : List (α × List α)) : ∀ last,
    replaceWords names mark last (markWords names mark tokens) = markWords names mark tokens := by
  induction tokens with
  | nil =>
      intro last
      rw [markWords, replaceWords]
  | cons t rest ih =>
      intro last
      rw [markWords, replaceWords, ih none, if_neg]
      rintro ⟨hmem, -, hne⟩
      -- A word that is still listed stood at the end.
      by_cases hcond : t.2 ∈ names ∧ rest ≠ []
      · rw [if_pos hcond] at hmem
        exact hmark t.2 hcond.1 hmem
      · rw [if_neg hcond] at hmem
        have hrest : rest = [] := not_not.mp (fun h => hcond ⟨hmem, h⟩)
        rw [hrest, markWords] at hne
        exact hne rfl

end

end Qdmi
