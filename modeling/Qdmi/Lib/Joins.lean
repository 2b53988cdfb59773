import Qdmi.Lib.Patterns
import Qdmi.Lib.Spots

/-!
# Patterns Put Together by Replacing

When passes over a text find a pattern that the text does not have.

A pass puts something for a placeholder, and a later pass may find its pattern
in that, or in that and what stands next to it. `Joins` says so without the
passes: it speaks of the text, of its placeholders, of what is put for them and
of the patterns. The pattern is inside of what is put, or begins with its end or
ends with its beginning, or has all of it, or stretches from one placeholder to
the next; and the parts of the pattern that are not put stand in the text next to
the placeholder and have no placeholder of their own.

If that happens the passes are not clean, `not_clean_of_joins`. The converse
needs that what is put does not make a kind stand where it did not, and that a
pattern has room for no more than two placeholders. `joins_one` and `joins_two`
are the steps from a pattern in a stage of the text to `Joins`.

## Main definitions

* `Joins`: A pattern is put together.
* `stage`: A text after the passes for some kinds, with its places marked.
* `FilledBy`: A place at which one of some kinds stands in the text.

## Theorems

* `exists_hole`: Where a placeholder stands a cut has a hole.
* `filled_of_stands`: The passes for some kinds fill the places at which one of
  them stands.
* `clean_cut_iff`: The passes are clean exactly if no pattern ever occurs.
* `not_clean_of_joins`: If a pattern is put together they are not.
* `joins_one`, `joins_two`: A pattern in a stage is put together.
-/

namespace Qdmi

section

variable {α : Type}

/-- A placeholder of a text between two parts of it. -/
def Placeholder.Between (r : Placeholder α) (u v : List α) : Prop :=
  r.left <:+ u ∧ r.right <+: v

/-- No placeholder stands in the part `w` of a text. -/
def Unmarked (rules : List (Placeholder α)) (before w after : List α) : Prop :=
  ∀ u v, w = u ++ v → v ≠ [] → ∀ r ∈ rules, ¬ r.Stands (before ++ u) (v ++ after)

/-- The pattern of a kind is put together from what is put for placeholders of
    kinds before it and from parts of the text next to them that have no
    placeholder. -/
inductive Joins (rules : List (Placeholder α)) (content : List α) : Prop
  /-- All of the pattern is in what is put. -/
  | inside (early later : List (Placeholder α)) (q r : Placeholder α) (u v : List α)
    (turn : rules = early ++ q :: later) (mem : r ∈ early)
    (text : content = u ++ r.first :: r.second :: v) (place : r.Between u v)
    (pattern : q.pattern <:+: r.new)
  /-- The pattern begins at the end of what is put. -/
  | behind (early later : List (Placeholder α)) (q r : Placeholder α) (u b t v : List α)
    (turn : rules = early ++ q :: later) (mem : r ∈ early)
    (text : content = u ++ r.first :: r.second :: (t ++ v)) (place : r.Between u (t ++ v))
    (back : Unmarked rules (u ++ [r.first, r.second]) t v)
    (pattern : q.pattern = b ++ t) (part : b <:+ r.new)
  /-- The pattern ends at the beginning of what is put. -/
  | ahead (early later : List (Placeholder α)) (q r : Placeholder α) (u s b v : List α)
    (turn : rules = early ++ q :: later) (mem : r ∈ early)
    (text : content = u ++ s ++ r.first :: r.second :: v) (place : r.Between (u ++ s) v)
    (front : Unmarked rules u s (r.first :: r.second :: v))
    (pattern : q.pattern = s ++ b) (part : b <+: r.new)
  /-- All that is put is in the pattern. -/
  | through (early later : List (Placeholder α)) (q r : Placeholder α) (u s t v : List α)
    (turn : rules = early ++ q :: later) (mem : r ∈ early)
    (text : content = u ++ s ++ r.first :: r.second :: (t ++ v))
    (place : r.Between (u ++ s) (t ++ v))
    (front : Unmarked rules u s (r.first :: r.second :: (t ++ v)))
    (back : Unmarked rules (u ++ s ++ [r.first, r.second]) t v)
    (pattern : q.pattern = s ++ r.new ++ t)
  /-- The pattern begins at the end of what is put and ends at the beginning of
      what is put for the next placeholder. -/
  | between (early later : List (Placeholder α)) (q r r' : Placeholder α) (u b s b' v : List α)
    (turn : rules = early ++ q :: later) (mem : r ∈ early) (mem' : r' ∈ early)
    (text : content = u ++ r.first :: r.second :: (s ++ r'.first :: r'.second :: v))
    (place : r.Between u (s ++ r'.first :: r'.second :: v))
    (place' : r'.Between (u ++ r.first :: r.second :: s) v)
    (middle : Unmarked rules (u ++ [r.first, r.second]) s (r'.first :: r'.second :: v))
    (pattern : q.pattern = b ++ s ++ b') (part : b <:+ r.new) (part' : b' <+: r'.new)

theorem stands_of_between {r : Placeholder α} {u v : List α} (h : r.Between u v) :
    r.Stands u (r.first :: r.second :: v) := by
  refine ⟨h.1, ?_⟩
  rw [List.cons_prefix_cons, List.cons_prefix_cons]
  exact ⟨rfl, rfl, h.2⟩

theorem between_of_kept {f g : List (Spot α)} {r : Placeholder α}
    (hleft : r.left.map Spot.kept <:+ f) (hright : r.right.map Spot.kept <+: g) :
    r.Between (original f) (original g) := by
  rcases hleft with ⟨a, rfl⟩
  rcases hright with ⟨b, rfl⟩
  rw [original_append, original_kept, original_append, original_kept]
  exact ⟨List.suffix_append _ _, List.prefix_append _ _⟩

section

variable {rules early later : List (Placeholder α)} {q r : Placeholder α}

theorem mem_of_turn (turn : rules = early ++ q :: later) : q ∈ rules := by
  rw [turn]
  exact List.mem_append_right _ List.mem_cons_self

theorem mem_early_of_turn (turn : rules = early ++ q :: later) (hr : r ∈ early) : r ∈ rules := by
  rw [turn]
  exact List.mem_append_left _ hr

end

variable [DecidableEq α] {rules : List (Placeholder α)} {content : List α}
  {ts f g : List (Spot α)}

omit [DecidableEq α] in
theorem unmarked_nil (before after : List α) : Unmarked rules before [] after :=
  fun _ _ h hne => absurd (List.append_eq_nil_iff.mp h.symm).2 hne

/-! ## Stages of a text -/

/-- The pieces of a cut as spots. -/
def Piece.spot : Piece α → Spot α
  | .kept c => .kept c
  | .hole c d new => .place c d new false

omit [DecidableEq α] in
theorem piece_spots (ps : List (Piece α)) : (ps.map Piece.spot).map Spot.piece = ps := by
  rw [List.map_map]
  refine List.map_id'' (fun p => ?_) ps
  cases p <;> rfl

omit [DecidableEq α] in
theorem present_spots (ps : List (Piece α)) : present (ps.map Piece.spot) = ps := by
  induction ps with
  | nil => rfl
  | cons p ps ih =>
      rw [List.map_cons, present_cons, ih]
      cases p <;> rfl

theorem not_filled_spots {α : Type} {ps : List (Piece α)} {c d : α} {new : List α} :
    .place c d new true ∉ ps.map Piece.spot := by
  intro h
  rcases List.mem_map.mp h with ⟨p, -, hp⟩
  cases p with
  | kept e => exact absurd hp (by simp only [Piece.spot, reduceCtorEq, not_false_eq_true])
  | hole e e' new => exact absurd hp (by simp only [Piece.spot, Spot.place.injEq, reduceCtorEq,
      and_false, not_false_eq_true])

/-- A text after the passes for some kinds, with its places marked. -/
def stage (rules : List (Placeholder α)) (content : List α) (early : List (Placeholder α)) :
    List (Spot α) :=
  afterPasses early ((cut rules content).map Piece.spot)

theorem stage_concat (rules : List (Placeholder α)) (content : List α)
    (early : List (Placeholder α)) (r : Placeholder α) :
    stage rules content (early ++ [r]) = passSpots r [] (stage rules content early) :=
  List.foldl_append

/-- Spots whose places are those of a text. -/
def Marks (rules : List (Placeholder α)) (content : List α) (ts : List (Spot α)) : Prop :=
  ts.map Spot.piece = cut rules content

theorem marks_stage (rules : List (Placeholder α)) (content : List α)
    (early : List (Placeholder α)) : Marks rules content (stage rules content early) :=
  (piece_afterPasses _ _).trans (piece_spots _)

theorem original_of_marks (h : Marks rules content ts) : original ts = content := by
  rw [original, h]
  exact sourceText_cutFrom [] content

/-! ## The places of a text -/

omit [DecidableEq α] in
/-- At a hole behind other pieces. -/
theorem sound_hole {front a b : List (Piece α)} {c d : α} {new : List α}
    (h : Sound rules front (a ++ .hole c d new :: b)) :
    ∃ r ∈ rules, r.first = c ∧ r.second = d ∧ r.new = new ∧ r.Held (front ++ a) b := by
  induction a generalizing front with
  | nil => rw [List.append_nil]; exact h.1
  | cons p a ih =>
      have hrest : Sound rules (front ++ [p]) (a ++ .hole c d new :: b) := by
        cases p with
        | kept e => exact h
        | hole e f new => exact h.2
      rcases ih hrest with ⟨r, hr, hfirst, hsecond, hnew, hheld⟩
      rw [List.append_assoc] at hheld
      exact ⟨r, hr, hfirst, hsecond, hnew, hheld⟩

/-- Where a placeholder of a text stands a cut has a hole. The induction is on
    the length of the text before it. -/
theorem exists_hole (hsep : Separate rules) {r : Placeholder α} (hr : r ∈ rules)
    {before u v : List α} (h : r.Stands (before ++ u) (r.first :: r.second :: v)) :
    ∃ a b new, cutFrom rules before (u ++ r.first :: r.second :: v) =
        a ++ .hole r.first r.second new :: b ∧ sourceText a = u ∧ sourceText b = v := by
  induction hn : u.length using Nat.strong_induction_on generalizing before u with
  | _ n ih =>
      rcases u with _ | ⟨e, u⟩
      · rw [List.append_nil] at h
        rcases cutFrom_stands hr h with ⟨q, -, -, hcut⟩
        exact ⟨[], _, q.new, hcut, rfl, sourceText_cutFrom _ _⟩
      by_cases hsome : ∃ q ∈ rules, q.Stands before (e :: (u ++ r.first :: r.second :: v))
      · -- Another placeholder stands before it, and it does not reach into it.
        rcases hsome with ⟨q, hq, hstands⟩
        rcases exists_find hq hstands with ⟨q', hq', rest, htext, -, hfind⟩
        rw [List.cons.injEq] at htext
        rcases u with _ | ⟨f, u⟩
        · rw [List.nil_append, List.cons.injEq] at htext
          exact absurd htext.2.1.symm (hsep.cores q' hq' r hr)
        rw [List.cons_append, List.cons.injEq] at htext
        rcases htext with ⟨rfl, rfl, rfl⟩
        have hnext : r.Stands (before ++ [q'.first, q'.second] ++ u)
            (r.first :: r.second :: v) := by
          rw [List.append_assoc]
          exact h
        rcases ih u.length (by rw [← hn, List.length_cons, List.length_cons]; omega) hnext rfl
          with ⟨a, b, new, hcut, ha, hb⟩
        refine ⟨.hole q'.first q'.second q'.new :: a, b, new, ?_, ?_, hb⟩
        · exact (cutFrom_hole hfind).trans (congrArg (Piece.hole _ _ _ :: ·) hcut)
        · rw [sourceText, ha]
      · have hno : ∀ q ∈ rules, ¬ q.Stands before (e :: (u ++ r.first :: r.second :: v)) :=
          fun q hq hstands => hsome ⟨q, hq, hstands⟩
        have hnext : r.Stands (before ++ [e] ++ u) (r.first :: r.second :: v) := by
          rw [List.append_assoc]
          exact h
        rcases ih u.length (by rw [← hn, List.length_cons]; omega) hnext rfl
          with ⟨a, b, new, hcut, ha, hb⟩
        refine ⟨.kept e :: a, b, new, ?_, ?_, hb⟩
        · rw [List.cons_append, cutFrom_kept hno, hcut]
          rfl
        · rw [sourceText, ha]

/-- No placeholder stands at what is kept. -/
theorem not_stands_kept {c : α} (h : Marks rules content (f ++ .kept c :: g)) {r : Placeholder α}
    (hr : r ∈ rules) : ¬ r.Stands (original f) (c :: original g) := by
  have honly := onlyAtHoles_iff.mp (onlyAtHoles_cutFrom hr [] content)
  rw [Marks, List.map_append, List.map_cons] at h
  exact honly _ c _ h.symm

/-- At a place a placeholder stands that is filled as the place is, and what
    stands around it is kept. -/
theorem exists_of_place (hsep : Separate rules) {c d : α} {new : List α} {filled : Bool}
    (h : Marks rules content (f ++ .place c d new filled :: g)) :
    ∃ r ∈ rules, r.first = c ∧ r.second = d ∧ r.new = new ∧
      r.left.map Spot.kept <:+ f ∧ r.right.map Spot.kept <+: g := by
  have hsound := sound_cut hsep content
  rw [Marks, List.map_append, List.map_cons] at h
  rw [← h] at hsound
  rcases sound_hole hsound with ⟨r, hr, hfirst, hsecond, hnew, hheld⟩
  rw [List.nil_append] at hheld
  exact ⟨r, hr, hfirst, hsecond, hnew, kept_suffix_of_pieces hheld.1,
    kept_prefix_of_pieces hheld.2⟩

/-- What stands around a placeholder that stands at a place is kept. -/
theorem held_of_stands (hsep : Separate rules) {c d : α} {new : List α} {filled : Bool}
    (h : Marks rules content (f ++ .place c d new filled :: g)) {r : Placeholder α} (hr : r ∈ rules)
    (hstands : r.Stands (original f) (c :: d :: original g)) :
    r.left.map Spot.kept <:+ f ∧ r.right.map Spot.kept <+: g ∧ r.new = new := by
  have hcores : Cores rules (f.map Spot.piece ++ Piece.hole c d new :: g.map Spot.piece) := by
    rw [Marks, List.map_append, List.map_cons] at h
    exact h ▸ cores_cutFrom [] content
  have hback := hstands.2
  rw [List.cons_prefix_cons, List.cons_prefix_cons] at hback
  refine ⟨?_, ?_, ?_⟩
  · exact kept_suffix_of_pieces (left_kept
      (fun c d new hmem => hcores c d new (List.mem_append_left _ hmem)) r.left
      (hsep.left_head r hr) (hsep.left_core r hr) hstands.1)
  · exact kept_prefix_of_pieces (right_kept
      (fun c d new hmem => hcores c d new (List.mem_append_right _ (List.mem_cons_of_mem _ hmem)))
      r.right (hsep.right_last r hr) (hsep.right_core r hr) hback.2.2)
  · rcases exists_of_place hsep h with ⟨q, hq, hfirst, hsecond, hnew, hleft, hright⟩
    rcases hleft with ⟨a, rfl⟩
    rcases hright with ⟨b, rfl⟩
    rw [← hnew]
    refine hsep.agree r hr q hq _ _ hstands ?_
    rw [← hfirst, ← hsecond, original_append, original_append, original_kept, original_kept]
    exact ⟨List.suffix_append _ _, List.prefix_append _ _⟩

/-- After the passes for some kinds the places at which one of them stands are
    filled. The induction is on the kinds from the last one. -/
theorem filled_of_stands (hsep : Separate rules) {early : List (Placeholder α)}
    (hearly : ∀ r ∈ early, r ∈ rules) {c d : α} {new : List α} {filled : Bool}
    (h : stage rules content early = f ++ .place c d new filled :: g) {r : Placeholder α}
    (hr : r ∈ early) (hstands : r.Stands (original f) (c :: d :: original g)) : filled = true := by
  induction early using List.reverseRecOn generalizing f g filled with
  | nil => exact absurd hr List.not_mem_nil
  | append_singleton early q ih =>
      rw [stage_concat] at h
      rcases place_of_pass h with ⟨f', filled', g', hbefore, hf, hg, hfilled, -⟩
      rw [← original_congr hf, ← original_congr hg] at hstands
      rw [hfilled]
      rcases List.mem_append.mp hr with hr | hr
      · exact Or.inl (ih (fun p hp => hearly p (List.mem_append_left _ hp)) hbefore hr hstands)
      · -- Its letters and what stands around it are as they were.
        have hmarks := marks_stage rules content early
        rw [hbefore] at hmarks
        rcases held_of_stands hsep hmarks (hearly r (List.mem_append_right _ hr)) hstands
          with ⟨hleft, hright, -⟩
        rcases letters_of_stands hstands with ⟨rfl, rfl⟩
        have hheld : r.Held (present f') (present g') :=
          ⟨kept_suffix_present hleft, kept_prefix_present hright⟩
        exact Or.inr (List.mem_singleton.mp hr ▸ stands_of_held hheld)

/-- A placeholder of a text has a place in its stages, and the place is filled
    if the passes for the placeholder are over. -/
theorem exists_place_of_between (hsep : Separate rules) {early : List (Placeholder α)}
    (hearly : ∀ r ∈ early, r ∈ rules) {r : Placeholder α} (hr : r ∈ early) {u v : List α}
    (htext : content = u ++ r.first :: r.second :: v) (h : r.Between u v) :
    ∃ f g, stage rules content early = f ++ .place r.first r.second r.new true :: g ∧
      original f = u ∧ original g = v := by
  have hstands : r.Stands ([] ++ u) (r.first :: r.second :: v) := stands_of_between h
  rcases exists_hole hsep (hearly r hr) hstands with ⟨a, b, new, hcut, rfl, rfl⟩
  rw [← htext] at hcut
  have hmarks := marks_stage rules content early
  have hpieces : (stage rules content early).map Spot.piece =
      a ++ .hole r.first r.second new :: b := hmarks.trans hcut
  rcases List.map_eq_append_iff.mp hpieces with ⟨f, g, hstage, rfl, hg⟩
  rcases List.map_eq_cons_iff.mp hg with ⟨t, g, rfl, ht, rfl⟩
  cases t with
  | kept c => exact absurd ht (by simp only [Spot.piece, reduceCtorEq, not_false_eq_true])
  | place c d new' filled =>
      rw [Spot.piece, Piece.hole.injEq] at ht
      rcases ht with ⟨rfl, rfl, rfl⟩
      rw [hstage] at hmarks
      have hfilled := filled_of_stands hsep hearly hstage hr hstands
      have hnew := (held_of_stands hsep hmarks (hearly r hr) hstands).2.2
      rw [hfilled, ← hnew] at hstage
      exact ⟨f, g, hstage, rfl, rfl⟩

/-! ## Parts without placeholders -/

/-- Where elements are kept no placeholder stands. -/
theorem unmarked_of_kept {s : List α} (h : Marks rules content (f ++ (s.map Spot.kept ++ g))) :
    Unmarked rules (original f) s (original g) := by
  intro x y hxy hne r hr hstands
  rcases y with _ | ⟨c, y⟩
  · exact hne rfl
  rw [hxy, List.map_append, List.map_cons, List.append_assoc, List.cons_append,
    ← List.append_assoc] at h
  refine not_stands_kept h hr ?_
  rw [original_append, original_kept, original_append, original_kept]
  exact hstands

/-- A part of a text without placeholders is kept. -/
theorem kept_of_unmarked (hsep : Separate rules) (h : Marks rules content (f ++ g)) {t v : List α}
    (htext : original g = t ++ v) (hfree : Unmarked rules (original f) t v) :
    ∃ g', g = t.map Spot.kept ++ g' ∧ original g' = v := by
  induction t generalizing f g with
  | nil => exact ⟨g, rfl, htext⟩
  | cons c t ih =>
      rcases g with _ | ⟨p, g⟩
      · exact absurd htext.symm (List.cons_ne_nil _ _)
      cases p with
      | kept c' =>
          rw [original_kept_cons, List.cons_append, List.cons.injEq] at htext
          have hnext : Marks rules content ((f ++ [.kept c']) ++ g) := by
            rw [List.append_assoc]
            exact h
          have hrest : Unmarked rules (original (f ++ [.kept c'])) t v := by
            intro x y hxy hne r hr hstands
            rw [original_append, List.append_assoc, htext.1] at hstands
            exact hfree (c :: x) y (by rw [hxy]; rfl) hne r hr hstands
          rcases ih hnext htext.2 hrest with ⟨g', rfl, hg'⟩
          exact ⟨g', by rw [htext.1]; rfl, hg'⟩
      | place c' d new filled =>
          rcases exists_of_place hsep h with ⟨r, hr, rfl, rfl, -, ⟨a, rfl⟩, ⟨b, rfl⟩⟩
          refine absurd ?_ (hfree [] (c :: t) rfl (List.cons_ne_nil _ _) r hr)
          rw [← htext, List.append_nil, original_append, original_kept, original_place_cons,
            original_append, original_kept]
          exact ⟨List.suffix_append _ _, List.prefix_append _ _⟩

/-- The same for a part before a place, if it does not begin with the second
    element of a placeholder. -/
theorem kept_of_unmarked_front (hsep : Separate rules) (h : Marks rules content (f ++ g))
    {u s : List α} (htext : original f = u ++ s)
    (hfree : Unmarked rules u s (original g)) (hhead : ∀ r ∈ rules, r.second ∉ s.head?) :
    ∃ f', f = f' ++ s.map Spot.kept ∧ original f' = u := by
  have hseconds : ∀ c d new filled, Spot.place c d new filled ∈ f → d ∉ s.head? := by
    intro c d new filled hmem
    rcases List.mem_iff_append.mp hmem with ⟨a, b, rfl⟩
    rw [List.append_assoc] at h
    rcases exists_of_place hsep h with ⟨r, hr, -, rfl, -⟩
    exact hhead r hr
  rcases exists_split htext hseconds with ⟨a, b, rfl, rfl, rfl⟩
  rw [List.append_assoc] at h
  rcases kept_of_unmarked hsep h (original_append b g) hfree with ⟨g', hsplit, hg'⟩
  have hb := (split_unique hsplit (original_kept (original b)).symm).1
  exact ⟨a, by rw [← hb], rfl⟩

/-- A filled place and the parts without placeholders next to it. -/
theorem exists_place_with (hsep : Separate rules) {early : List (Placeholder α)}
    (hearly : ∀ r ∈ early, r ∈ rules) {r : Placeholder α} (hr : r ∈ early) {u s t v : List α}
    (htext : content = u ++ s ++ r.first :: r.second :: (t ++ v))
    (h : r.Between (u ++ s) (t ++ v))
    (hfront : Unmarked rules u s (r.first :: r.second :: (t ++ v)))
    (hback : Unmarked rules (u ++ s ++ [r.first, r.second]) t v)
    (hhead : ∀ r ∈ rules, r.second ∉ s.head?) :
    ∃ f g, stage rules content early = f ++ (s.map Spot.kept ++
        .place r.first r.second r.new true :: (t.map Spot.kept ++ g)) ∧
      original f = u ∧ original g = v := by
  rcases exists_place_of_between hsep hearly hr htext h with ⟨f, g, hstage, hf, hg⟩
  have hmarks := marks_stage rules content early
  rw [hstage] at hmarks
  rw [← hg] at hfront
  rcases kept_of_unmarked_front hsep hmarks hf hfront hhead with ⟨f', rfl, hf'⟩
  rw [List.append_cons] at hmarks
  rw [← hf, ← List.append_nil [r.first, r.second]] at hback
  have hback' : Unmarked rules (original (f' ++ s.map Spot.kept ++
      [.place r.first r.second r.new true])) t v := by
    rw [original_append]
    exact hback
  rcases kept_of_unmarked hsep hmarks hg hback' with ⟨g', rfl, hg'⟩
  exact ⟨f', g', by rw [hstage, List.append_assoc], hf', hg'⟩

/-! ## Patterns in a stage -/

omit [DecidableEq α] in
theorem hole_of_present {c d : α} {new : List α} (h : Piece.hole c d new ∈ present ts) :
    Piece.hole c d new ∈ ts.map Spot.piece := by
  rcases List.mem_flatMap.mp h with ⟨t, ht, hmem⟩
  refine List.mem_map.mpr ⟨t, ht, ?_⟩
  cases t with
  | kept e => exact absurd (List.mem_singleton.mp hmem) (by simp only [reduceCtorEq,
      not_false_eq_true])
  | place e e' new' filled =>
      cases filled with
      | false => exact (List.mem_singleton.mp hmem).symm
      | true =>
          rcases List.mem_map.mp hmem with ⟨x, -, hx⟩
          exact absurd hx (by simp only [reduceCtorEq, not_false_eq_true])

theorem cores_present (h : Marks rules content ts) : Cores rules (present ts) := by
  intro c d new hmem
  have hhole := hole_of_present hmem
  rw [h] at hhole
  exact cores_cutFrom [] content c d new hhole

/-- What stands around a placeholder where it is filled. -/
theorem held_present (hsep : Separate rules) {c d : α} {new : List α} {filled : Bool}
    (h : Marks rules content (f ++ .place c d new filled :: g)) {r : Placeholder α} (hr : r ∈ rules)
    (hstands : r.Stands (sourceText (present f)) (c :: d :: sourceText (present g))) :
    r.left.map Piece.kept <:+ present f ∧ r.right.map Piece.kept <+: present g := by
  have hcores := cores_present h
  rw [present_append, present_cons] at hcores
  have hback := hstands.2
  rw [List.cons_prefix_cons, List.cons_prefix_cons] at hback
  exact ⟨left_kept (fun c d new hmem => hcores c d new (List.mem_append_left _ hmem)) r.left
      (hsep.left_head r hr) (hsep.left_core r hr) hstands.1,
    right_kept (fun c d new hmem => hcores c d new (List.mem_append_right _
      (List.mem_append_right _ hmem))) r.right (hsep.right_last r hr) (hsep.right_core r hr)
      hback.2.2⟩

/-- A kind stands only at holes exactly if its pattern does not occur among what
    is kept and what is put. -/
theorem onlyAtHoles_present_iff (hsep : Separate rules) (h : Marks rules content ts)
    {q : Placeholder α} (hq : q ∈ rules) :
    OnlyAtHoles q [] (present ts) ↔ ¬ q.pattern.map Piece.kept <:+: present ts := by
  rw [onlyAtHoles_iff]
  constructor
  · rintro honly ⟨a, b, hab⟩
    rw [Placeholder.pattern, List.map_append, List.map_cons] at hab
    have hsplit : present ts = (a ++ q.left.map Piece.kept) ++
        .kept q.first :: ((q.second :: q.right).map Piece.kept ++ b) := by
      rw [← hab]
      simp only [List.append_assoc, List.cons_append]
    refine honly _ _ _ hsplit ?_
    rw [List.nil_append, sourceText_append, sourceText_append, sourceText_kept, sourceText_kept]
    refine ⟨List.suffix_append _ _, ?_⟩
    rw [List.cons_append, List.cons_prefix_cons, List.cons_prefix_cons]
    exact ⟨rfl, rfl, List.prefix_append _ _⟩
  · intro hno a c b hab hstands
    have hcores := cores_present h
    rw [hab] at hcores
    rw [List.nil_append] at hstands
    have hfirst := first_of_stands hstands
    have hleft := left_kept (fun c d new hmem => hcores c d new (List.mem_append_left _ hmem))
      q.left (hsep.left_head q hq) (hsep.left_core q hq) hstands.1
    have hback := (List.cons_prefix_cons.mp hstands.2).2
    -- The second element is kept too, since no hole begins with it.
    rcases b with _ | ⟨p, b⟩
    · exact absurd (List.prefix_nil.mp hback) (List.cons_ne_nil _ _)
    cases p with
    | hole e e' new =>
        rcases hcores e e' new (List.mem_append_right _ (List.mem_cons_of_mem _
          List.mem_cons_self)) with ⟨r, hr, rfl, -⟩
        exact absurd (List.cons_prefix_cons.mp hback).1 (hsep.cores q hq r hr)
    | kept d =>
        rw [sourceText, List.cons_prefix_cons] at hback
        have hright := right_kept (fun c d new hmem => hcores c d new (List.mem_append_right _
          (List.mem_cons_of_mem _ (List.mem_cons_of_mem _ hmem)))) q.right (hsep.right_last q hq)
          (hsep.right_core q hq) hback.2
        rcases hleft with ⟨x, rfl⟩
        rcases hright with ⟨y, rfl⟩
        refine hno ⟨x, y, ?_⟩
        rw [hab, Placeholder.pattern, List.map_append, List.map_cons, List.map_cons, hfirst,
          hback.1]
        simp only [List.append_assoc, List.cons_append]

/-- The passes are clean exactly if no pattern ever occurs among what is kept and
    what is put. -/
theorem clean_cut_iff (hsep : Separate rules) :
    Clean rules (cut rules content) ↔ ∀ early q later, rules = early ++ q :: later →
      ¬ q.pattern.map Piece.kept <:+: present (stage rules content early) := by
  have hpieces : cut rules content = present ((cut rules content).map Piece.spot) :=
    (present_spots _).symm
  rw [hpieces, clean_present_iff]
  refine forall_congr' (fun early => forall_congr' (fun q => forall_congr' (fun later =>
    forall_congr' (fun hturn => ?_))))
  exact onlyAtHoles_present_iff hsep (marks_stage rules content early) (mem_of_turn hturn)

omit [DecidableEq α] in
/-- No pattern begins with the second element of a placeholder. -/
theorem head_of_pattern (hsep : Separate rules) {q : Placeholder α} (hq : q ∈ rules) {s w : List α}
    (h : q.pattern = s ++ w) : ∀ r ∈ rules, r.second ∉ s.head? := by
  intro r hr hmem
  have hhead : q.pattern.head? = some r.second := by
    rw [h, List.head?_append, Option.mem_def.mp hmem]
    rfl
  rw [Placeholder.pattern, List.head?_append] at hhead
  rcases hleft : q.left.head? with _ | c
  · rw [hleft] at hhead
    exact hsep.cores r hr q hq (Option.some.inj hhead).symm
  · rw [hleft] at hhead
    refine hsep.left_head q hq r hr ?_
    rw [hleft]
    exact hhead

/-- If a pattern is put together in a text the passes are not clean. -/
theorem not_clean_of_joins (hsep : Separate rules) (h : Joins rules content) :
    ¬ Clean rules (cut rules content) := by
  rw [clean_cut_iff hsep]
  intro hclean
  cases h with
  | inside early later q r u v turn mem text place pattern =>
      have hearly : ∀ p ∈ early, p ∈ rules := fun _ => mem_early_of_turn turn
      rcases exists_place_of_between hsep hearly mem text place with ⟨f, g, hstage, -, -⟩
      rcases pattern with ⟨a, b, hab⟩
      refine hclean early q later turn ⟨present f ++ a.map Piece.kept,
        b.map Piece.kept ++ present g, ?_⟩
      rw [hstage, present_append, present_cons, Spot.pieces, ← hab]
      simp only [List.map_append, List.append_assoc]
  | behind early later q r u b t v turn mem text place back pattern part =>
      have hearly : ∀ p ∈ early, p ∈ rules := fun _ => mem_early_of_turn turn
      rw [← List.append_nil u] at text place back
      rcases exists_place_with hsep hearly mem text place (unmarked_nil _ _) back
        (by simp only [List.head?_nil, Option.mem_def, reduceCtorEq, not_false_eq_true,
          implies_true]) with ⟨f, g, hstage, -, -⟩
      rcases part with ⟨a, ha⟩
      refine hclean early q later turn ⟨present f ++ a.map Piece.kept, present g, ?_⟩
      rw [hstage, present_append, List.map_nil, List.nil_append, present_cons, present_append,
        present_kept, Spot.pieces, ← ha, pattern]
      simp only [List.map_append, List.append_assoc]
  | ahead early later q r u s b v turn mem text place front pattern part =>
      have hearly : ∀ p ∈ early, p ∈ rules := fun _ => mem_early_of_turn turn
      rw [← List.nil_append v] at text place front
      rcases exists_place_with hsep hearly mem text place front (unmarked_nil _ _)
        (head_of_pattern hsep (mem_of_turn turn) pattern) with ⟨f, g, hstage, -, -⟩
      rcases part with ⟨a, ha⟩
      refine hclean early q later turn ⟨present f, a.map Piece.kept ++ present g, ?_⟩
      rw [hstage, present_append, present_append, present_kept, present_cons, Spot.pieces,
        ← ha, pattern]
      simp only [List.map_append, List.append_assoc, List.map_nil, List.nil_append]
  | through early later q r u s t v turn mem text place front back pattern =>
      have hearly : ∀ p ∈ early, p ∈ rules := fun _ => mem_early_of_turn turn
      have hhead : q.pattern = s ++ (r.new ++ t) := by rw [pattern, List.append_assoc]
      rcases exists_place_with hsep hearly mem text place front back
        (head_of_pattern hsep (mem_of_turn turn) hhead) with ⟨f, g, hstage, -, -⟩
      refine hclean early q later turn ⟨present f, present g, ?_⟩
      rw [hstage, present_append, present_append, present_kept, present_cons, present_append,
        present_kept, Spot.pieces, pattern]
      simp only [List.map_append, List.append_assoc]
  | between early later q r r' u b s b' v turn mem mem' text place place' middle pattern part
      part' =>
      have hearly : ∀ p ∈ early, p ∈ rules := fun _ => mem_early_of_turn turn
      rw [← List.append_nil u] at text place middle
      rcases exists_place_with hsep hearly mem text place (unmarked_nil _ _) middle
        (by simp only [List.head?_nil, Option.mem_def, reduceCtorEq, not_false_eq_true,
          implies_true]) with ⟨f, g, hstage, hf, hg⟩
      -- The second place stands behind the part between the two.
      have htext' : content = (u ++ r.first :: r.second :: s) ++ r'.first :: r'.second :: v := by
        rw [text]
        simp only [List.append_nil, List.append_assoc, List.cons_append]
      rcases exists_place_of_between hsep hearly mem' htext' place'
        with ⟨f', g', hstage', hf', -⟩
      have hsplit : (f ++ .place r.first r.second r.new true :: s.map Spot.kept) ++ g =
          f' ++ .place r'.first r'.second r'.new true :: g' := by
        rw [← hstage', hstage]
        simp only [List.map_nil, List.nil_append, List.append_assoc, List.cons_append]
      have hsame := (split_unique hsplit (by
        rw [original_append, original_place_cons, original_kept, hf, hf'])).2
      rcases part with ⟨a, ha⟩
      rcases part' with ⟨a', ha'⟩
      refine hclean early q later turn ⟨present f ++ a.map Piece.kept,
        a'.map Piece.kept ++ present g', ?_⟩
      rw [hstage, hsame, present_append, List.map_nil, List.nil_append, present_cons,
        present_append, present_kept, present_cons, Spot.pieces, Spot.pieces, ← ha, ← ha', pattern]
      simp only [List.map_append, List.append_assoc]

/-- No pattern is kept as a whole, since no placeholder stands at what is kept. -/
theorem pattern_not_kept {q : Placeholder α} (hq : q ∈ rules) :
    ¬ Marks rules content (f ++ (q.pattern.map Spot.kept ++ g)) := by
  intro h
  rw [Placeholder.pattern, List.map_append, List.map_cons, List.append_assoc, List.cons_append,
    ← List.append_assoc] at h
  refine not_stands_kept h hq ?_
  rw [original_append, original_kept, original_append, original_kept]
  refine ⟨List.suffix_append _ _, ?_⟩
  rw [List.cons_append, List.cons_prefix_cons, List.cons_prefix_cons]
  exact ⟨rfl, rfl, List.prefix_append _ _⟩

/-- A place between spots at which one of some kinds stands in the text. -/
def FilledBy (early : List (Placeholder α)) (f g : List (Spot α)) (c d : α) (new : List α) :
    Prop :=
  ∃ r ∈ early, r.first = c ∧ r.second = d ∧ r.new = new ∧
    r.left.map Spot.kept <:+ f ∧ r.right.map Spot.kept <+: g

omit [DecidableEq α] in
theorem filledBy_congr {kinds kinds' : List (Placeholder α)} {f' g' : List (Spot α)} {c d : α}
    {new : List α} (hkinds : ∀ r ∈ kinds, r ∈ kinds') (hf : f.map Spot.piece = f'.map Spot.piece)
    (hg : g.map Spot.piece = g'.map Spot.piece) (h : FilledBy kinds f g c d new) :
    FilledBy kinds' f' g' c d new := by
  rcases h with ⟨r, hr, hfirst, hsecond, hnew, hleft, hright⟩
  exact ⟨r, hkinds r hr, hfirst, hsecond, hnew, kept_suffix_congr hf hleft,
    kept_prefix_congr hg hright⟩

/-- A pattern with a part of what is put at one place. -/
theorem joins_one {early later : List (Placeholder α)} {q r : Placeholder α}
    (turn : rules = early ++ q :: later) (mem : r ∈ early) {x y z : List α} {filled : Bool}
    (h : Marks rules content
      (f ++ (x.map Spot.kept ++ .place r.first r.second r.new filled :: (z.map Spot.kept ++ g))))
    (hleft : r.left.map Spot.kept <:+ f ++ x.map Spot.kept)
    (hright : r.right.map Spot.kept <+: z.map Spot.kept ++ g)
    (hpattern : q.pattern = x ++ (y ++ z)) (hin : y <:+: r.new) (hstart : x ≠ [] → y <+: r.new)
    (hend : z ≠ [] → y <:+ r.new) (hboth : x ≠ [] → z ≠ [] → y = r.new) :
    Joins rules content := by
  have htext : content = original f ++ x ++ r.first :: r.second :: (z ++ original g) := by
    rw [← original_of_marks h]
    simp only [original_append, original_kept, original_place_cons, List.append_assoc]
  have hbetween : r.Between (original f ++ x) (z ++ original g) := by
    have hplace := between_of_kept hleft hright
    rwa [original_append, original_append, original_kept, original_kept] at hplace
  have hfront : Unmarked rules (original f) x (r.first :: r.second :: (z ++ original g)) := by
    have hplace := unmarked_of_kept h
    rwa [original_place_cons, original_append, original_kept] at hplace
  have hback : Unmarked rules (original f ++ x ++ [r.first, r.second]) z (original g) := by
    rw [List.append_cons, ← List.append_assoc] at h
    have hplace := unmarked_of_kept h
    rwa [original_append, original_append, original_kept, ← List.append_assoc] at hplace
  by_cases hx : x = []
  · rw [hx, List.append_nil] at htext hbetween hback
    rw [hx, List.nil_append] at hpattern
    by_cases hz : z = []
    · rw [hz, List.append_nil] at hpattern
      exact .inside early later q r _ _ turn mem htext hbetween (hpattern ▸ hin)
    · exact .behind early later q r _ y z _ turn mem htext hbetween hback hpattern (hend hz)
  · by_cases hz : z = []
    · rw [hz, List.nil_append] at htext hbetween hfront
      rw [hz, List.append_nil] at hpattern
      exact .ahead early later q r _ x y _ turn mem htext hbetween hfront hpattern (hstart hx)
    · rw [hboth hx hz, ← List.append_assoc] at hpattern
      exact .through early later q r _ x z _ turn mem htext hbetween hfront hback hpattern

/-- A pattern with a part of what is put at two places. -/
theorem joins_two {early later : List (Placeholder α)} {q r r' : Placeholder α}
    (turn : rules = early ++ q :: later) (mem : r ∈ early) (mem' : r' ∈ early) {y m y' : List α}
    {filled filled' : Bool}
    (h : Marks rules content (f ++ .place r.first r.second r.new filled ::
      (m.map Spot.kept ++ .place r'.first r'.second r'.new filled' :: g)))
    (hleft : r.left.map Spot.kept <:+ f)
    (hright : r.right.map Spot.kept <+:
      m.map Spot.kept ++ .place r'.first r'.second r'.new filled' :: g)
    (hleft' : r'.left.map Spot.kept <:+
      f ++ .place r.first r.second r.new filled :: m.map Spot.kept)
    (hright' : r'.right.map Spot.kept <+: g)
    (hpattern : q.pattern = y ++ (m ++ y')) (hend : y <:+ r.new) (hstart : y' <+: r'.new) :
    Joins rules content := by
  have htext : content = original f ++
      r.first :: r.second :: (m ++ r'.first :: r'.second :: original g) := by
    rw [← original_of_marks h]
    simp only [original_append, original_kept, original_place_cons]
  have hbetween : r.Between (original f) (m ++ r'.first :: r'.second :: original g) := by
    have hplace := between_of_kept hleft hright
    rwa [original_append, original_kept, original_place_cons] at hplace
  have hbetween' : r'.Between (original f ++ r.first :: r.second :: m) (original g) := by
    have hplace := between_of_kept hleft' hright'
    rwa [original_append, original_place_cons, original_kept] at hplace
  have hmiddle : Unmarked rules (original f ++ [r.first, r.second]) m
      (r'.first :: r'.second :: original g) := by
    rw [List.append_cons] at h
    have hplace := unmarked_of_kept h
    rwa [original_append] at hplace
  exact .between early later q r r' _ y m y' _ turn mem mem' htext hbetween hbetween' hmiddle
    (by rw [hpattern, List.append_assoc]) hend hstart

end

end Qdmi
