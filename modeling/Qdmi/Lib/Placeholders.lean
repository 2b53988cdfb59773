import Mathlib.Data.List.Shortlex
import Qdmi.Lib.Substitute

/-!
# Filling Placeholders

Placeholders of a text and what they are replaced by, all at once and one kind
after the other.

A placeholder is two elements between two given texts. Only the two elements
are replaced, and the texts around them may belong to other placeholders as
well. Replacing all of them at once means to look at the text as it is. So the
text is cut into pieces first: the elements that stay, and a hole for every
placeholder. Filling the holes is the replacement.

Replacing one kind after the other works on a text in which holes have been
filled, and there a placeholder may stand that is none of the text. The pieces
keep the two apart: such a placeholder stands at elements that stay. If it
never happens the passes fill the holes and nothing else, `passes_clean`. If it
happens they put something in that should not be there, and it is not taken
back: a pass makes a text greater in an order in which every replacement is
greater than what it replaces, `passes_not_clean`. So the passes are right
exactly if every kind stands only at holes when its turn comes.

## Main definitions

* `Placeholder`: Two elements, what stands around them, what is put for them.
* `Piece`: An element of a text that stays, or a hole.
* `cut`: A text with holes at its placeholders.
* `fill`: Filling all placeholders at once.
* `passes`: Filling one kind after the other.
* `Clean`: Every kind stands only at holes when its turn comes.
* `Separate`: Placeholders do not overlap in the elements they replace.

## Theorems

* `cut_induction`: Induction along a cut.
* `sound_cut`, `sound_fillHoles`: Holes keep what stands around them.
* `fill_pass`: A kind that stands only at holes fills these holes.
* `filled_le_fill`: Filling the placeholders of a text puts in what the holes
  get, or more.
* `passes_clean`, `passes_not_clean`: When the passes fill the holes.
-/

namespace Qdmi

/-- A placeholder: two elements between two texts, and what is put for the two
    elements. -/
structure Placeholder (α : Type) where
  left : List α
  first : α
  second : α
  right : List α
  new : List α

/-- A piece of a text: an element that stays, or a placeholder and what is put
    for it. -/
inductive Piece (α : Type) where
  | kept (c : α)
  | hole (first second : α) (new : List α)
  deriving DecidableEq

section

variable {α : Type}

/-- The text of some pieces. -/
def sourceText : List (Piece α) → List α
  | [] => []
  | .kept c :: ps => c :: sourceText ps
  | .hole c d _ :: ps => c :: d :: sourceText ps

/-- The text with the holes filled. -/
def filledText : List (Piece α) → List α
  | [] => []
  | .kept c :: ps => c :: filledText ps
  | .hole _ _ new :: ps => new ++ filledText ps

@[simp]
theorem sourceText_append (ps qs : List (Piece α)) :
    sourceText (ps ++ qs) = sourceText ps ++ sourceText qs := by
  induction ps with
  | nil => rfl
  | cons p ps ih =>
      cases p with
      | kept c => exact congrArg (c :: ·) ih
      | hole c d new => exact congrArg (fun t => c :: d :: t) ih

@[simp]
theorem sourceText_kept (x : List α) : sourceText (x.map Piece.kept) = x := by
  induction x with
  | nil => rfl
  | cons c x ih => exact congrArg (c :: ·) ih

@[simp]
theorem filledText_kept (x : List α) (ps : List (Piece α)) :
    filledText (x.map Piece.kept ++ ps) = x ++ filledText ps := by
  induction x with
  | nil => rfl
  | cons c x ih => exact congrArg (c :: ·) ih

/-- A placeholder stands at the beginning of `rest`. -/
def Placeholder.Stands (r : Placeholder α) (before rest : List α) : Prop :=
  r.left <:+ before ∧ r.first :: r.second :: r.right <+: rest

instance [DecidableEq α] (r : Placeholder α) (before rest : List α) :
    Decidable (r.Stands before rest) :=
  inferInstanceAs (Decidable (_ ∧ _))

variable [DecidableEq α] {rules : List (Placeholder α)}

/-- Cutting a text behind the text `before`. -/
def cutFrom (rules : List (Placeholder α)) : List α → List α → List (Piece α)
  | before, c :: d :: rest =>
    match rules.find? (fun r => decide (r.Stands before (c :: d :: rest))) with
    | some r => .hole c d r.new :: cutFrom rules (before ++ [c, d]) rest
    | none => .kept c :: cutFrom rules (before ++ [c]) (d :: rest)
  | _, [c] => [.kept c]
  | _, [] => []

/-- A text with holes at its placeholders. -/
def cut (rules : List (Placeholder α)) (text : List α) : List (Piece α) := cutFrom rules [] text

/-- All placeholders of a text are filled at once. -/
def fill (rules : List (Placeholder α)) (text : List α) : List α := filledText (cut rules text)

/-- The placeholders are filled one kind after the other. -/
def passes (rules : List (Placeholder α)) (text : List α) : List α :=
  rules.foldl (fun text r => fill [r] text) text

@[simp]
theorem passes_nil (text : List α) : passes [] text = text := rfl

theorem passes_cons (r : Placeholder α) (rules : List (Placeholder α)) (text : List α) :
    passes (r :: rules) text = passes rules (fill [r] text) := rfl

theorem passes_append (rules rules' : List (Placeholder α)) (text : List α) :
    passes (rules ++ rules') text = passes rules' (passes rules text) := List.foldl_append

/-! ## Cutting a text -/

/-- At a placeholder there is a hole. -/
theorem cutFrom_hole {r : Placeholder α} {before rest : List α}
    (hfind : rules.find? (fun r' => decide (r'.Stands before (r.first :: r.second :: rest))) =
      some r) : cutFrom rules before (r.first :: r.second :: rest) =
        .hole r.first r.second r.new :: cutFrom rules (before ++ [r.first, r.second]) rest := by
  rw [cutFrom, hfind]

/-- Where no placeholder stands the element is kept. -/
theorem cutFrom_kept {c : α} {before rest : List α}
    (h : ∀ r ∈ rules, ¬ r.Stands before (c :: rest)) :
    cutFrom rules before (c :: rest) = .kept c :: cutFrom rules (before ++ [c]) rest := by
  rcases rest with _ | ⟨d, rest⟩
  · rw [cutFrom, cutFrom]
  · have hfind : rules.find? (fun r => decide (r.Stands before (c :: d :: rest))) = none :=
      List.find?_eq_none.mpr (fun r hr hstands => h r hr (of_decide_eq_true hstands))
    rw [cutFrom, hfind]

omit [DecidableEq α] in
theorem not_stands_nil (r : Placeholder α) (before : List α) : ¬ r.Stands before [] :=
  fun h => List.cons_ne_nil _ _ (List.prefix_nil.mp h.2)

omit [DecidableEq α] in
theorem first_of_stands {r : Placeholder α} {before rest : List α} {c : α}
    (h : r.Stands before (c :: rest)) : r.first = c :=
  (List.cons_prefix_cons.mp h.2).1

omit [DecidableEq α] in
theorem letters_of_stands {r : Placeholder α} {before rest : List α} {c d : α}
    (h : r.Stands before (c :: d :: rest)) : r.first = c ∧ r.second = d := by
  rcases List.cons_prefix_cons.mp h.2 with ⟨hfirst, hrest⟩
  exact ⟨hfirst, (List.cons_prefix_cons.mp hrest).1⟩

/-- The elements at the beginning of a text at which a placeholder stands. -/
theorem exists_find {r : Placeholder α} (hr : r ∈ rules) {before text : List α}
    (hstands : r.Stands before text) :
    ∃ r' ∈ rules, ∃ rest, text = r'.first :: r'.second :: rest ∧ r'.Stands before text ∧
      rules.find? (fun r'' => decide (r''.Stands before text)) = some r' := by
  rcases hfind : rules.find? (fun r'' => decide (r''.Stands before text)) with _ | r'
  · exact absurd hstands
      (fun h => List.find?_eq_none.mp hfind r hr (decide_eq_true h))
  · have hfound := List.find?_some hfind
    rw [decide_eq_true_eq] at hfound
    rcases hfound.2 with ⟨rest, hrest⟩
    exact ⟨r', List.mem_of_find?_eq_some hfind, r'.right ++ rest, hrest.symm, hfound, hfind⟩

/-- Where a placeholder stands there is a hole, of it or of another one that
    stands there. -/
theorem cutFrom_stands {r : Placeholder α} (hr : r ∈ rules) {before rest : List α} {c d : α}
    (hstands : r.Stands before (c :: d :: rest)) :
    ∃ r' ∈ rules, r'.Stands before (c :: d :: rest) ∧
      cutFrom rules before (c :: d :: rest) =
        .hole c d r'.new :: cutFrom rules (before ++ [c, d]) rest := by
  rcases exists_find hr hstands with ⟨r', hr', -, -, hstands', hfind⟩
  exact ⟨r', hr', hstands', by rw [cutFrom, hfind]⟩

/-- Induction along a cut: a placeholder stands at the beginning of the text, or
    one element is kept. -/
theorem cut_induction (rules : List (Placeholder α)) {P : List α → List α → Prop}
    (hnil : ∀ before, P before [])
    (hhole : ∀ r ∈ rules, ∀ before rest, r.Stands before (r.first :: r.second :: rest) →
      rules.find? (fun r' => decide (r'.Stands before (r.first :: r.second :: rest))) = some r →
      P (before ++ [r.first, r.second]) rest → P before (r.first :: r.second :: rest))
    (hkept : ∀ before c rest, (∀ r ∈ rules, ¬ r.Stands before (c :: rest)) →
      P (before ++ [c]) rest → P before (c :: rest)) (before text : List α) : P before text := by
  induction hn : text.length using Nat.strong_induction_on generalizing before text with
  | _ n ih =>
      rcases text with _ | ⟨c, rest⟩
      · exact hnil before
      -- The rest is shorter by two elements at a placeholder and by one elsewhere.
      by_cases hsome : ∃ r ∈ rules, r.Stands before (c :: rest)
      · rcases hsome with ⟨r, hr, hstands⟩
        rcases exists_find hr hstands with ⟨r', hr', rest', htext, hstands', hfind⟩
        have hlength := congrArg List.length htext
        rw [htext] at hstands' hfind ⊢
        refine hhole r' hr' before rest' hstands' hfind (ih rest'.length ?_ _ rest' rfl)
        rw [← hn, hlength, List.length_cons, List.length_cons]
        omega
      · refine hkept before c rest (fun r hr hstands => hsome ⟨r, hr, hstands⟩) ?_
        refine ih rest.length ?_ _ rest rfl
        rw [← hn, List.length_cons]
        omega

/-- The pieces of a text are the text. -/
theorem sourceText_cutFrom (before text : List α) :
    sourceText (cutFrom rules before text) = text := by
  refine cut_induction rules (P := fun before text => sourceText (cutFrom rules before text) = text)
    (fun _ => ?_) (fun r hr before rest hstands hfind ih => ?_) (fun before c rest h ih => ?_)
    before text
  · rw [cutFrom, sourceText]
  · rw [cutFrom_hole hfind, sourceText, ih]
  · rw [cutFrom_kept h, sourceText, ih]

@[simp]
theorem fill_nil (text : List α) : fill [] text = text := by
  refine cut_induction [] (P := fun before text => filledText (cutFrom [] before text) = text)
    (fun _ => ?_) (fun r hr => absurd hr List.not_mem_nil) (fun before c rest hno ih => ?_) [] text
  · rw [cutFrom, filledText]
  · rw [cutFrom_kept hno, filledText, ih]

/-! ## What stands around a hole -/

/-- Placeholders that do not overlap in the elements they replace, and of which
    no text around one reaches into the elements of another. Where two of them
    stand they put the same. -/
structure Separate (rules : List (Placeholder α)) : Prop where
  cores : ∀ r ∈ rules, ∀ r' ∈ rules, r.second ≠ r'.first
  left_head : ∀ r ∈ rules, ∀ r' ∈ rules, r'.second ∉ r.left.head?
  left_core : ∀ r ∈ rules, ∀ r' ∈ rules, ¬ [r'.first, r'.second] <:+: r.left
  right_last : ∀ r ∈ rules, ∀ r' ∈ rules, r'.first ∉ r.right.getLast?
  right_core : ∀ r ∈ rules, ∀ r' ∈ rules, ¬ [r'.first, r'.second] <:+: r.right
  agree : ∀ r ∈ rules, ∀ r' ∈ rules, ∀ before rest, r.Stands before rest →
    r'.Stands before rest → r.new = r'.new

omit [DecidableEq α] in
/-- No placeholder stands at the second element of another one. -/
theorem not_stands_second (hsep : Separate rules) {r r' : Placeholder α} (hr : r ∈ rules)
    (hr' : r' ∈ rules) (before rest : List α) : ¬ r'.Stands before (r.second :: rest) :=
  fun h => hsep.cores r hr r' hr' (first_of_stands h).symm

/-- The holes are at the elements of placeholders. -/
def Cores (rules : List (Placeholder α)) (ps : List (Piece α)) : Prop :=
  ∀ c d new, Piece.hole c d new ∈ ps → ∃ r ∈ rules, r.first = c ∧ r.second = d

/-- A placeholder between pieces: what stands around it is kept. -/
def Placeholder.Held (r : Placeholder α) (front back : List (Piece α)) : Prop :=
  r.left.map Piece.kept <:+ front ∧ r.right.map Piece.kept <+: back

/-- At every hole behind the pieces `front` stands a placeholder that puts what
    the hole gets. -/
def Sound (rules : List (Placeholder α)) : List (Piece α) → List (Piece α) → Prop
  | _, [] => True
  | front, .kept c :: ps => Sound rules (front ++ [.kept c]) ps
  | front, .hole c d new :: ps =>
    (∃ r ∈ rules, r.first = c ∧ r.second = d ∧ r.new = new ∧ r.Held front ps) ∧
      Sound rules (front ++ [.hole c d new]) ps

omit [DecidableEq α] in
theorem stands_of_held {r : Placeholder α} {front back : List (Piece α)} (h : r.Held front back) :
    r.Stands (sourceText front) (r.first :: r.second :: sourceText back) := by
  rcases h with ⟨⟨front', rfl⟩, ⟨back', rfl⟩⟩
  rw [sourceText_append, sourceText_append, sourceText_kept, sourceText_kept]
  exact ⟨List.suffix_append _ _, List.prefix_append _ _⟩

omit [DecidableEq α] in
theorem sound_append_kept {x : List α} {front ps : List (Piece α)} :
    Sound rules front (x.map Piece.kept ++ ps) ↔
      Sound rules (front ++ x.map Piece.kept) ps := by
  induction x generalizing front with
  | nil => rw [List.map_nil, List.nil_append, List.append_nil]
  | cons c x ih => rw [List.map_cons, List.cons_append, Sound, ih, List.append_assoc]; rfl

omit [DecidableEq α] in
/-- Pieces that end with the text on the left of a placeholder end with it
    element by element. The induction is on this text from its end. -/
theorem left_kept {front : List (Piece α)} (hcores : Cores rules front) (left : List α)
    (hhead : ∀ r ∈ rules, r.second ∉ left.head?)
    (hcore : ∀ r ∈ rules, ¬ [r.first, r.second] <:+: left)
    (hsuffix : left <:+ sourceText front) : left.map Piece.kept <:+ front := by
  induction left using List.reverseRecOn generalizing front with
  | nil => exact List.nil_suffix
  | append_singleton left c ih =>
      rcases List.eq_nil_or_concat' front with rfl | ⟨front, p, rfl⟩
      · exact absurd (List.suffix_nil.mp hsuffix) (List.append_ne_nil_of_right_ne_nil _
          (List.cons_ne_nil _ _))
      have hfront : Cores rules front :=
        fun f s new hmem => hcores f s new (List.mem_append_left _ hmem)
      rw [sourceText_append] at hsuffix
      cases p with
      | kept c' =>
          rcases List.suffix_concat_iff.mp hsuffix with hnil | ⟨t, ht, hsuffix⟩
          · exact absurd hnil (List.append_ne_nil_of_right_ne_nil _ (List.cons_ne_nil _ _))
          · rcases List.append_inj_left' ht rfl with rfl
            rw [List.append_cancel_left_eq, List.cons.injEq] at ht
            have hrest := ih hfront (fun r hr hmem => hhead r hr ?_)
              (fun r hr hin => hcore r hr (hin.trans (List.prefix_append _ _).isInfix)) hsuffix
            · rw [List.map_append, ht.1]
              exact List.suffix_append_inj_of_length_eq rfl |>.mpr ⟨hrest, rfl⟩
            · rw [List.head?_append, Option.mem_def.mp hmem]
              rfl
      | hole f s new =>
          -- The text would end with the second element, and with both if it is longer.
          rcases hcores f s new (List.mem_append_right _ List.mem_cons_self) with ⟨r, hr, rfl, rfl⟩
          have hpair : sourceText front ++ sourceText [Piece.hole r.first r.second new] =
              (sourceText front ++ [r.first]) ++ [r.second] := by
            rw [List.append_assoc]
            rfl
          rw [hpair] at hsuffix
          rcases List.suffix_concat_iff.mp hsuffix with hnil | ⟨t, ht, hsuffix⟩
          · exact absurd hnil (List.append_ne_nil_of_right_ne_nil _ (List.cons_ne_nil _ _))
          rcases List.suffix_concat_iff.mp hsuffix with hnil | ⟨u, hu, -⟩
          · rw [ht, hnil] at hhead
            exact absurd rfl (hhead r hr)
          · rw [ht, hu, List.append_assoc] at hcore
            exact absurd (List.suffix_append _ _).isInfix (hcore r hr)

omit [DecidableEq α] in
/-- Pieces that begin with the text on the right of a placeholder begin with it
    element by element. -/
theorem right_kept {back : List (Piece α)} (hcores : Cores rules back) (right : List α)
    (hlast : ∀ r ∈ rules, r.first ∉ right.getLast?)
    (hcore : ∀ r ∈ rules, ¬ [r.first, r.second] <:+: right)
    (hpre : right <+: sourceText back) : right.map Piece.kept <+: back := by
  induction right generalizing back with
  | nil => exact List.nil_prefix
  | cons c right ih =>
      rcases back with _ | ⟨p, back⟩
      · exact absurd (List.prefix_nil.mp hpre) (List.cons_ne_nil _ _)
      have hback : Cores rules back :=
        fun f s new hmem => hcores f s new (List.mem_cons_of_mem _ hmem)
      cases p with
      | kept c' =>
          rw [sourceText, List.cons_prefix_cons] at hpre
          have hrest := ih hback (fun r hr hmem => hlast r hr ?_)
            (fun r hr hin => hcore r hr (hin.trans (List.suffix_cons _ _).isInfix)) hpre.2
          · rw [List.map_cons, hpre.1, List.cons_prefix_cons]
            exact ⟨rfl, hrest⟩
          · rw [List.getLast?_cons, Option.mem_def.mp hmem]
            rfl
      | hole f s new =>
          -- The text would end with the first element, or go on with the second.
          rcases hcores f s new List.mem_cons_self with ⟨r, hr, rfl, rfl⟩
          rw [sourceText, List.cons_prefix_cons] at hpre
          rcases right with _ | ⟨d, right⟩
          · rw [hpre.1] at hlast
            exact absurd rfl (hlast r hr)
          · rw [List.cons_prefix_cons] at hpre
            rw [hpre.1, hpre.2.1] at hcore
            exact absurd (List.prefix_append [r.first, r.second] right).isInfix (hcore r hr)

theorem cores_cutFrom (before text : List α) : Cores rules (cutFrom rules before text) := by
  refine cut_induction rules (P := fun before text => Cores rules (cutFrom rules before text))
    (fun before => ?_) (fun r hr before rest _ hfind ih => ?_) (fun before c rest hno ih => ?_)
    before text
  · intro c d new hmem
    rw [cutFrom] at hmem
    exact absurd hmem List.not_mem_nil
  · intro c d new hmem
    rw [cutFrom_hole hfind] at hmem
    rcases List.mem_cons.mp hmem with heq | hmem
    · rw [Piece.hole.injEq] at heq
      exact ⟨r, hr, heq.1.symm, heq.2.1.symm⟩
    · exact ih c d new hmem
  · intro c' d new hmem
    rw [cutFrom_kept hno] at hmem
    rcases List.mem_cons.mp hmem with heq | hmem
    · exact absurd heq (by simp only [reduceCtorEq, not_false_eq_true])
    · exact ih c' d new hmem

omit [DecidableEq α] in
theorem cores_append_singleton {front : List (Piece α)} {p : Piece α} (hfront : Cores rules front)
    (hp : ∀ c d new, p = .hole c d new → ∃ r ∈ rules, r.first = c ∧ r.second = d) :
    Cores rules (front ++ [p]) := by
  intro c d new hmem
  rcases List.mem_append.mp hmem with hmem | hmem
  · exact hfront c d new hmem
  · exact hp c d new (List.mem_singleton.mp hmem).symm

/-- The holes of a cut are placeholders, and what stands around them is kept. -/
theorem sound_cutFrom (hsep : Separate rules) {front : List (Piece α)} (hfront : Cores rules front)
    (text : List α) : Sound rules front (cutFrom rules (sourceText front) text) := by
  refine cut_induction rules (P := fun before text => ∀ front, Cores rules front →
      sourceText front = before → Sound rules front (cutFrom rules before text))
    (fun before front _ _ => ?_) (fun r hr before rest hstands hfind ih front hfront htext => ?_)
    (fun before c rest hno ih front hfront htext => ?_) (sourceText front) text front hfront rfl
  · rw [cutFrom]
    trivial
  · rw [cutFrom_hole hfind]
    have hnext : Cores rules (front ++ [.hole r.first r.second r.new]) := by
      refine cores_append_singleton hfront (fun c d new heq => ?_)
      rw [Piece.hole.injEq] at heq
      exact ⟨r, hr, heq.1, heq.2.1⟩
    -- No hole reaches into the texts around the placeholder, so they are kept.
    refine ⟨⟨r, hr, rfl, rfl, rfl, ?_, ?_⟩, ih _ hnext ?_⟩
    · rw [← htext] at hstands
      exact left_kept hfront r.left (hsep.left_head r hr) (hsep.left_core r hr) hstands.1
    · have hright := hstands.2
      rw [List.cons_prefix_cons, List.cons_prefix_cons] at hright
      refine right_kept (cores_cutFrom _ _) r.right (hsep.right_last r hr)
        (hsep.right_core r hr) ?_
      rw [sourceText_cutFrom]
      exact hright.2.2
    · rw [sourceText_append, htext]
      rfl
  · rw [cutFrom_kept hno]
    refine ih _ (cores_append_singleton hfront (fun c d new heq => ?_)) ?_
    · exact absurd heq (by simp only [reduceCtorEq, not_false_eq_true])
    · rw [sourceText_append, htext]
      rfl

theorem sound_cut (hsep : Separate rules) (text : List α) : Sound rules [] (cut rules text) :=
  sound_cutFrom hsep (fun _ _ _ hmem => absurd hmem List.not_mem_nil) text

/-! ## One kind of placeholder -/

/-- A placeholder stands only at holes: it does not stand where an element is
    kept. -/
def OnlyAtHoles (r : Placeholder α) : List (Piece α) → List (Piece α) → Prop
  | _, [] => True
  | front, .kept c :: ps =>
    ¬ r.Stands (sourceText front) (c :: sourceText ps) ∧ OnlyAtHoles r (front ++ [.kept c]) ps
  | front, .hole c d new :: ps => OnlyAtHoles r (front ++ [.hole c d new]) ps

/-- The holes at which a placeholder stands are filled. -/
def fillHoles (r : Placeholder α) : List (Piece α) → List (Piece α) → List (Piece α)
  | _, [] => []
  | front, .kept c :: ps => .kept c :: fillHoles r (front ++ [.kept c]) ps
  | front, .hole c d new :: ps =>
    if r.Stands (sourceText front) (c :: d :: sourceText ps) then
      new.map Piece.kept ++ fillHoles r (front ++ [.hole c d new]) ps
    else .hole c d new :: fillHoles r (front ++ [.hole c d new]) ps

/-- Taking the placeholders in order, each fills the holes at which it stands,
    and none ever stands at elements that are kept. -/
def Clean : List (Placeholder α) → List (Piece α) → Prop
  | [], _ => True
  | r :: rules, ps => OnlyAtHoles r [] ps ∧ Clean rules (fillHoles r [] ps)

instance decidableOnlyAtHoles (r : Placeholder α) :
    ∀ front ps, Decidable (OnlyAtHoles r front ps)
  | _, [] => .isTrue trivial
  | front, .kept c :: ps =>
    @instDecidableAnd _ _ inferInstance (decidableOnlyAtHoles r (front ++ [.kept c]) ps)
  | front, .hole c d new :: ps => decidableOnlyAtHoles r (front ++ [.hole c d new]) ps

instance decidableClean : ∀ (rules : List (Placeholder α)) ps, Decidable (Clean rules ps)
  | [], _ => .isTrue trivial
  | r :: rules, ps =>
    @instDecidableAnd _ _ inferInstance (decidableClean rules (fillHoles r [] ps))

theorem filledText_fillHoles (r : Placeholder α) (front ps : List (Piece α)) :
    filledText (fillHoles r front ps) = filledText ps := by
  induction ps generalizing front with
  | nil => rfl
  | cons p ps ih =>
      cases p with
      | kept c => exact congrArg (c :: ·) (ih _)
      | hole c d new =>
          rw [fillHoles]
          split
          · rw [filledText_kept, ih, filledText]
          · rw [filledText, ih, filledText]

theorem onlyAtHoles_cutFrom {r : Placeholder α} (hr : r ∈ rules) (front : List (Piece α))
    (text : List α) : OnlyAtHoles r front (cutFrom rules (sourceText front) text) := by
  refine cut_induction rules (P := fun before text => ∀ front, sourceText front = before →
      OnlyAtHoles r front (cutFrom rules before text))
    (fun before front _ => ?_) (fun r' _ before rest _ hfind ih front htext => ?_)
    (fun before c rest hno ih front htext => ?_) (sourceText front) text front rfl
  · rw [cutFrom]
    trivial
  · rw [cutFrom_hole hfind]
    refine ih _ ?_
    rw [sourceText_append, htext]
    rfl
  · rw [cutFrom_kept hno]
    refine ⟨?_, ih _ ?_⟩
    · rw [htext, sourceText_cutFrom]
      exact hno r hr
    · rw [sourceText_append, htext]
      rfl

/-- A kind that stands only at holes fills these holes and nothing else. The
    induction is on the pieces. -/
theorem fill_pass (hsep : Separate rules) {r : Placeholder α} (hr : r ∈ rules)
    {front ps : List (Piece α)} (hsound : Sound rules front ps) (honly : OnlyAtHoles r front ps) :
    filledText (cutFrom [r] (sourceText front) (sourceText ps)) =
      sourceText (fillHoles r front ps) := by
  induction ps generalizing front with
  | nil => rfl
  | cons p ps ih =>
      cases p with
      | kept c =>
          have hno : ∀ r' ∈ [r], ¬ r'.Stands (sourceText front) (c :: sourceText ps) :=
            fun r' hr' => List.mem_singleton.mp hr' ▸ honly.1
          have hrest := ih hsound honly.2
          rw [sourceText_append] at hrest
          rw [sourceText, cutFrom_kept hno, filledText, fillHoles, sourceText]
          exact congrArg (c :: ·) hrest
      | hole c d new =>
          rcases hsound with ⟨⟨r', hr', rfl, rfl, rfl, hheld⟩, hsound⟩
          have hrest := ih hsound honly
          rw [sourceText_append] at hrest
          rw [sourceText, fillHoles]
          by_cases hstands : r.Stands (sourceText front) (r'.first :: r'.second :: sourceText ps)
          · -- Both kinds stand here and put the same.
            have hnew := hsep.agree r hr r' hr' _ _ hstands (stands_of_held hheld)
            rcases cutFrom_stands List.mem_cons_self hstands with ⟨q, hq, -, hcut⟩
            rw [List.mem_singleton.mp hq] at hcut
            rw [if_pos hstands, sourceText_append, sourceText_kept, hcut, filledText, hnew]
            exact congrArg (r'.new ++ ·) hrest
          · -- The kind does not stand at the second element either.
            have hfirst : ∀ q ∈ [r], ¬ q.Stands (sourceText front)
                (r'.first :: r'.second :: sourceText ps) :=
              fun q hq => List.mem_singleton.mp hq ▸ hstands
            have hsecond : ∀ q ∈ [r], ¬ q.Stands (sourceText front ++ [r'.first])
                (r'.second :: sourceText ps) :=
              fun q hq => List.mem_singleton.mp hq ▸ not_stands_second hsep hr' hr _ _
            rw [if_neg hstands, cutFrom_kept hfirst, cutFrom_kept hsecond, List.append_assoc]
            exact congrArg (fun t => r'.first :: r'.second :: t) hrest

omit [DecidableEq α] in
theorem kept_suffix_concat {x : List α} {front : List (Piece α)} {p : Piece α}
    (h : x.map Piece.kept <:+ front ++ [p]) :
    x = [] ∨ ∃ y c, x = y ++ [c] ∧ p = .kept c ∧ y.map Piece.kept <:+ front := by
  rcases List.eq_nil_or_concat' x with rfl | ⟨y, c, rfl⟩
  · exact Or.inl rfl
  · rw [List.map_append] at h
    rcases List.suffix_concat_iff.mp h with hnil | ⟨t, ht, hsuffix⟩
    · exact absurd hnil (List.append_ne_nil_of_right_ne_nil _ (List.cons_ne_nil _ _))
    · have hlast := List.append_inj' ht rfl
      rw [List.map_singleton, List.cons.injEq] at hlast
      exact Or.inr ⟨y, c, rfl, hlast.2.1.symm, hlast.1 ▸ hsuffix⟩

/-- What is kept at the beginning of some pieces stays there when holes are
    filled. -/
theorem kept_prefix_fillHoles (r : Placeholder α) {x : List α} {front ps : List (Piece α)}
    (h : x.map Piece.kept <+: ps) : x.map Piece.kept <+: fillHoles r front ps := by
  induction x generalizing front ps with
  | nil => exact List.nil_prefix
  | cons c x ih =>
      rcases ps with _ | ⟨p, ps⟩
      · exact absurd (List.prefix_nil.mp h) (List.cons_ne_nil _ _)
      · rw [List.map_cons, List.cons_prefix_cons] at h
        rw [← h.1, fillHoles, List.map_cons, List.cons_prefix_cons]
        exact ⟨rfl, ih h.2⟩

/-- After a pass every hole that is left is a placeholder of another kind. -/
theorem sound_fillHoles {r : Placeholder α} {front newFront ps : List (Piece α)}
    (hsound : Sound (r :: rules) front ps)
    (hkeep : ∀ x : List α, x.map Piece.kept <:+ front → x.map Piece.kept <:+ newFront) :
    Sound rules newFront (fillHoles r front ps) := by
  induction ps generalizing front newFront with
  | nil => trivial
  | cons p ps ih =>
      cases p with
      | kept c =>
          refine ih hsound (fun x hx => ?_)
          rcases kept_suffix_concat hx with rfl | ⟨y, d, rfl, hd, hy⟩
          · exact List.nil_suffix
          · rcases hkeep y hy with ⟨z, rfl⟩
            refine ⟨z, ?_⟩
            rw [List.map_append, List.append_assoc, hd]
            rfl
      | hole c d new =>
          rcases hsound with ⟨⟨r', hr', rfl, rfl, rfl, hheld⟩, hsound⟩
          -- Only the empty text ends at a hole.
          have hempty : ∀ x : List α, x.map Piece.kept <:+
              front ++ [.hole r'.first r'.second r'.new] → x = [] := by
            intro x hx
            rcases kept_suffix_concat hx with rfl | ⟨y, d, rfl, hd, hy⟩
            · rfl
            · exact absurd hd (by simp only [reduceCtorEq, not_false_eq_true])
          have hkeep' : ∀ newFront, ∀ x : List α, x.map Piece.kept <:+
              front ++ [.hole r'.first r'.second r'.new] → x.map Piece.kept <:+ newFront :=
            fun newFront x hx => hempty x hx ▸ List.nil_suffix
          rw [fillHoles]
          by_cases hstands : r.Stands (sourceText front) (r'.first :: r'.second :: sourceText ps)
          · rw [if_pos hstands, sound_append_kept]
            exact ih hsound (hkeep' _)
          · rw [if_neg hstands]
            rcases List.mem_cons.mp hr' with rfl | hr'
            · exact absurd (stands_of_held hheld) hstands
            · exact ⟨⟨r', hr', rfl, rfl, rfl, hkeep _ hheld.1, kept_prefix_fillHoles r hheld.2⟩,
                ih hsound (hkeep' _)⟩

/-! ## Passes that put in more -/

/-- A relation between texts in which every replacement is greater than the
    elements it replaces. -/
structure Grows (R : List α → List α → Prop) (rules : List (Placeholder α)) : Prop where
  trans : ∀ {a b c}, R a b → R b c → R a c
  left : ∀ x {a b}, R a b → R (x ++ a) (x ++ b)
  right : ∀ x {a b}, R a b → R (a ++ x) (b ++ x)
  core : ∀ r ∈ rules, R [r.first, r.second] r.new

/-- Filling the placeholders of the text of some pieces fills the holes, and if
    a placeholder stands anywhere else the result is greater. The induction is
    on the pieces. -/
theorem filled_le_fill {R : List α → List α → Prop} (hgrows : Grows R rules)
    (hsep : Separate rules) {front ps : List (Piece α)} (hsound : Sound rules front ps) :
    (filledText (cutFrom rules (sourceText front) (sourceText ps)) = filledText ps ∧
        ∀ r ∈ rules, OnlyAtHoles r front ps) ∨
      R (filledText ps) (filledText (cutFrom rules (sourceText front) (sourceText ps))) := by
  induction hn : ps.length using Nat.strong_induction_on generalizing front ps with
  | _ n ih =>
      rcases ps with _ | ⟨p, ps⟩
      · exact Or.inl ⟨rfl, fun r _ => trivial⟩
      cases p with
      | hole c d new =>
          rcases hsound with ⟨⟨r, hr, rfl, rfl, rfl, hheld⟩, hsound⟩
          have hrest := ih ps.length (by rw [← hn, List.length_cons]; omega) hsound rfl
          rw [sourceText_append] at hrest
          -- The first kind that stands here puts what the hole gets.
          have hstands := stands_of_held hheld
          rcases cutFrom_stands hr hstands with ⟨r', hr', hstands', hcut⟩
          have hnew := hsep.agree r' hr' r hr _ _ hstands' hstands
          rw [sourceText, hcut, filledText, filledText, hnew]
          rcases hrest with ⟨heq, honly⟩ | hgreater
          · exact Or.inl ⟨congrArg (r.new ++ ·) heq, honly⟩
          · exact Or.inr (hgrows.left _ hgreater)
      | kept c =>
          by_cases hsome : ∃ r ∈ rules, r.Stands (sourceText front) (c :: sourceText ps)
          · -- A placeholder stands here. Its second element is kept too.
            rcases hsome with ⟨r, hr, hstands⟩
            rcases ps with _ | ⟨q, ps⟩
            · have hpre := (List.cons_prefix_cons.mp hstands.2).2
              exact absurd (List.prefix_nil.mp hpre) (List.cons_ne_nil _ _)
            cases q with
            | hole f s new =>
                rcases hsound.1 with ⟨q, hq, rfl, -⟩
                exact absurd (letters_of_stands hstands).2 (hsep.cores r hr q hq)
            | kept d =>
                have htail : Sound rules (front ++ [.kept c] ++ [.kept d]) ps := hsound
                have hrest := ih ps.length (by
                  rw [← hn, List.length_cons, List.length_cons]; omega) htail rfl
                rw [sourceText_append, sourceText_append, List.append_assoc] at hrest
                rcases cutFrom_stands hr hstands with ⟨r', hr', hstands', hcut⟩
                rw [sourceText, sourceText, hcut, filledText, filledText, filledText]
                -- What is put here is greater, and what is put behind it at least as much.
                rcases letters_of_stands hstands' with ⟨hfirst, hsecond⟩
                have hcore := hgrows.right (filledText ps) (hgrows.core r' hr')
                rw [hfirst, hsecond] at hcore
                refine Or.inr ?_
                rcases hrest with ⟨heq, -⟩ | hgreater
                · have heq' := congrArg (r'.new ++ ·) heq
                  exact heq' ▸ hcore
                · exact hgrows.trans hcore (hgrows.left _ hgreater)
          · have hno : ∀ r ∈ rules, ¬ r.Stands (sourceText front) (c :: sourceText ps) :=
              fun r hr hstands => hsome ⟨r, hr, hstands⟩
            have htail : Sound rules (front ++ [.kept c]) ps := hsound
            have hrest := ih ps.length (by rw [← hn, List.length_cons]; omega) htail rfl
            rw [sourceText_append] at hrest
            rw [sourceText, cutFrom_kept hno, filledText, filledText]
            rcases hrest with ⟨heq, honly⟩ | hgreater
            · exact Or.inl ⟨congrArg (c :: ·) heq, fun r hr => ⟨hno r hr, honly r hr⟩⟩
            · exact Or.inr (hgrows.left [c] hgreater)

/-! ## Sequences of passes -/

omit [DecidableEq α] in
theorem separate_of_subset {rules' : List (Placeholder α)} (hsep : Separate rules)
    (hsub : ∀ r ∈ rules', r ∈ rules) : Separate rules' where
  cores r hr r' hr' := hsep.cores r (hsub r hr) r' (hsub r' hr')
  left_head r hr r' hr' := hsep.left_head r (hsub r hr) r' (hsub r' hr')
  left_core r hr r' hr' := hsep.left_core r (hsub r hr) r' (hsub r' hr')
  right_last r hr r' hr' := hsep.right_last r (hsub r hr) r' (hsub r' hr')
  right_core r hr r' hr' := hsep.right_core r (hsub r hr) r' (hsub r' hr')
  agree r hr r' hr' := hsep.agree r (hsub r hr) r' (hsub r' hr')

omit [DecidableEq α] in
theorem separate_tail {r : Placeholder α} (hsep : Separate (r :: rules)) : Separate rules :=
  separate_of_subset hsep (fun _ h => List.mem_cons_of_mem _ h)

omit [DecidableEq α] in
theorem grows_tail {R : List α → List α → Prop} {r : Placeholder α}
    (hgrows : Grows R (r :: rules)) : Grows R rules where
  trans := hgrows.trans
  left := hgrows.left
  right := hgrows.right
  core r' hr' := hgrows.core r' (List.mem_cons_of_mem _ hr')

omit [DecidableEq α] in
/-- Pieces without a placeholder are a text. -/
theorem filledText_of_sound_nil {front ps : List (Piece α)} (h : Sound [] front ps) :
    filledText ps = sourceText ps := by
  induction ps generalizing front with
  | nil => rfl
  | cons p ps ih =>
      cases p with
      | kept c => exact congrArg (c :: ·) (ih h)
      | hole c d new =>
          rcases h.1 with ⟨r, hr, -⟩
          exact absurd hr List.not_mem_nil

/-- One pass over the text of some pieces, if the kind stands only at holes. -/
theorem fill_sourceText {r : Placeholder α} {ps : List (Piece α)} (hsep : Separate (r :: rules))
    (hsound : Sound (r :: rules) [] ps) (honly : OnlyAtHoles r [] ps) :
    fill [r] (sourceText ps) = sourceText (fillHoles r [] ps) :=
  fill_pass hsep List.mem_cons_self hsound honly

/-- Passes put in what filling all placeholders at once does, or more. -/
theorem fill_le_passes {R : List α → List α → Prop} (hgrows : Grows R rules)
    (hsep : Separate rules) (text : List α) :
    passes rules text = fill rules text ∨ R (fill rules text) (passes rules text) := by
  induction rules generalizing text with
  | nil => exact Or.inl (fill_nil text).symm
  | cons r rules ih =>
      -- The first pass fills holes, and the others stand at the rest of them.
      have hsound := sound_cut hsep text
      have hstep := fill_sourceText hsep hsound
        (onlyAtHoles_cutFrom List.mem_cons_self [] text)
      have htext : sourceText (cut (r :: rules) text) = text := sourceText_cutFrom [] text
      rw [htext] at hstep
      have hsound' : Sound rules [] (fillHoles r [] (cut (r :: rules) text)) :=
        sound_fillHoles hsound (fun x hx => hx)
      have hrest := filled_le_fill (grows_tail hgrows) (separate_tail hsep) hsound'
      rw [filledText_fillHoles, ← hstep] at hrest
      have hpasses := ih (grows_tail hgrows) (separate_tail hsep) (fill [r] text)
      rw [passes_cons]
      rcases hrest with ⟨heq, -⟩ | hgreater
      · have hfill : fill rules (fill [r] text) = fill (r :: rules) text := heq
        rwa [hfill] at hpasses
      · rcases hpasses with hsame | hmore
        · rw [hsame]
          exact Or.inr hgreater
        · exact Or.inr (hgrows.trans hgreater hmore)

/-- If every kind stands only at holes when its turn comes, the passes fill the
    holes. The induction is on the kinds. -/
theorem passes_clean {ps : List (Piece α)} (hsep : Separate rules) (hsound : Sound rules [] ps)
    (hclean : Clean rules ps) : passes rules (sourceText ps) = filledText ps := by
  induction rules generalizing ps with
  | nil => exact (filledText_of_sound_nil hsound).symm
  | cons r rules ih =>
      have hrest := ih (separate_tail hsep) (sound_fillHoles hsound (fun x hx => hx)) hclean.2
      rw [filledText_fillHoles, ← fill_sourceText hsep hsound hclean.1] at hrest
      exact hrest

/-- If a kind stands anywhere else when its turn comes, the passes put in more
    than the holes get. -/
theorem passes_not_clean {R : List α → List α → Prop} (hgrows : Grows R rules)
    {ps : List (Piece α)} (hsep : Separate rules) (hsound : Sound rules [] ps)
    (hnot : ¬ Clean rules ps) : R (filledText ps) (passes rules (sourceText ps)) := by
  induction rules generalizing ps with
  | nil => exact absurd trivial hnot
  | cons r rules ih =>
      by_cases honly : OnlyAtHoles r [] ps
      · have hrest := ih (grows_tail hgrows) (separate_tail hsep)
          (sound_fillHoles hsound (fun x hx => hx)) (fun h => hnot ⟨honly, h⟩)
        rw [filledText_fillHoles, ← fill_sourceText hsep hsound honly] at hrest
        exact hrest
      · rcases filled_le_fill hgrows hsep hsound with ⟨-, hall⟩ | hgreater
        · exact absurd (hall r List.mem_cons_self) honly
        · rcases fill_le_passes hgrows hsep (sourceText ps) with hsame | hmore
          · exact hsame ▸ hgreater
          · exact hgrows.trans hgreater hmore

end

/-! ## An order in which replacements are greater -/

section

variable {α : Type} {key : α → Nat}

theorem lex_append_right {s t : List Nat} (hlength : s.length = t.length)
    (h : List.Lex (· < ·) s t) (u : List Nat) : List.Lex (· < ·) (s ++ u) (t ++ u) := by
  induction h with
  | nil => exact absurd hlength (by simp only [List.length_nil, List.length_cons]; omega)
  | cons _ ih =>
      rw [List.length_cons, List.length_cons] at hlength
      exact List.Lex.cons (ih (by omega))
  | rel hlt => exact List.Lex.rel hlt

theorem shortlex_append_right {s t : List Nat} (h : List.Shortlex (· < ·) s t) (u : List Nat) :
    List.Shortlex (· < ·) (s ++ u) (t ++ u) := by
  rcases List.shortlex_def.mp h with hlength | ⟨hlength, hlex⟩
  · refine List.Shortlex.of_length_lt ?_
    rw [List.length_append, List.length_append]
    omega
  · refine List.Shortlex.of_lex ?_ (lex_append_right hlength hlex u)
    rw [List.length_append, List.length_append, hlength]

theorem shortlex_trans {s t u : List Nat} (hst : List.Shortlex (· < ·) s t)
    (htu : List.Shortlex (· < ·) t u) : List.Shortlex (· < ·) s u := by
  rcases List.shortlex_def.mp hst with hst | ⟨hst, hlex⟩
  · refine List.Shortlex.of_length_lt ?_
    rcases List.shortlex_def.mp htu with htu | ⟨htu, -⟩ <;> omega
  · rcases List.shortlex_def.mp htu with htu | ⟨htu, hlex'⟩
    · exact List.Shortlex.of_length_lt (by omega)
    · exact List.Shortlex.of_lex (by omega) (List.lex_trans Nat.lt_trans hlex hlex')

theorem not_shortlex_self (s : List Nat) : ¬ List.Shortlex (· < ·) s s := by
  have hasymm : Std.Asymm (List.Shortlex (α := Nat) (· < ·)) := inferInstance
  exact fun h => hasymm.asymm s s h h

/-- Texts compared by their length and then by the keys of their elements. -/
def KeyLess (key : α → Nat) (a b : List α) : Prop :=
  List.Shortlex (· < ·) (a.map key) (b.map key)

/-- If all placeholders are replaced by texts with the same greater keys, every
    replacement is greater. -/
theorem grows_keyLess {rules : List (Placeholder α)} {core new : List Nat}
    (hkeys : ∀ r ∈ rules, [r.first, r.second].map key = core ∧ r.new.map key = new)
    (hless : List.Shortlex (· < ·) core new) : Grows (KeyLess key) rules where
  trans := shortlex_trans
  left x a b h := by
    rw [KeyLess, List.map_append, List.map_append]
    exact h.append_left _
  right x a b h := by
    rw [KeyLess, List.map_append, List.map_append]
    exact shortlex_append_right h _
  core r hr := by
    rw [KeyLess, (hkeys r hr).1, (hkeys r hr).2]
    exact hless

/-- The same with the order turned round, for smaller keys. -/
theorem grows_keyGreater {rules : List (Placeholder α)} {core new : List Nat}
    (hkeys : ∀ r ∈ rules, [r.first, r.second].map key = core ∧ r.new.map key = new)
    (hless : List.Shortlex (· < ·) new core) : Grows (fun a b => KeyLess key b a) rules where
  trans hab hbc := shortlex_trans hbc hab
  left x a b h := by
    rw [KeyLess, List.map_append, List.map_append]
    exact h.append_left _
  right x a b h := by
    rw [KeyLess, List.map_append, List.map_append]
    exact shortlex_append_right h _
  core r hr := by
    rw [KeyLess, (hkeys r hr).1, (hkeys r hr).2]
    exact hless

/-- If all placeholders have the same keys and are replaced by texts with the
    same other keys, the passes fill the holes of a text exactly if every kind
    stands only at holes when its turn comes. Otherwise not even the keys are
    right. -/
theorem passes_exact [DecidableEq α] {rules : List (Placeholder α)} {core new : List Nat}
    (hsep : Separate rules)
    (hkeys : ∀ r ∈ rules, [r.first, r.second].map key = core ∧ r.new.map key = new)
    (hne : core ≠ new) (text : List α) :
    (Clean rules (cut rules text) → passes rules text = fill rules text) ∧
      (¬ Clean rules (cut rules text) →
        (passes rules text).map key ≠ (fill rules text).map key) := by
  have hsound := sound_cut hsep text
  have htext : sourceText (cut rules text) = text := sourceText_cutFrom [] text
  refine ⟨fun hclean => ?_, fun hnot heq => ?_⟩
  · have hpasses := passes_clean hsep hsound hclean
    rwa [htext] at hpasses
  · -- The replacements are all greater or all smaller, since the order is total.
    have htri : Std.Trichotomous (List.Shortlex (α := Nat) (· < ·)) := inferInstance
    by_cases hless : List.Shortlex (· < ·) core new
    · have hgreater := passes_not_clean (grows_keyLess hkeys hless) hsep hsound hnot
      rw [htext, KeyLess, heq] at hgreater
      exact not_shortlex_self _ hgreater
    · have hmore : List.Shortlex (· < ·) new core :=
        Classical.byContradiction (fun h => hne (htri.trichotomous core new hless h))
      have hgreater := passes_not_clean (grows_keyGreater hkeys hmore) hsep hsound hnot
      rw [htext, KeyLess, heq] at hgreater
      exact not_shortlex_self _ hgreater

end

end Qdmi
