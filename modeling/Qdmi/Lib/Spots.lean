import Qdmi.Lib.Placeholders

/-!
# Places in a Text That Is Being Filled

A text in which placeholders are filled one kind after the other, as spots.

The pieces of `Placeholders` forget a hole when it is filled. A spot does not: it
is an element that is kept or a place, and a place remembers the two elements
that were there and whether it has been filled. So the same spots are the text
as it was, `original`, and as it is at present, `present`, and a pass changes
nothing but the marks of places.

A text that is found among what is kept and what has been put is there in one of
two ways, `Occurs`: it is kept as a whole, or a part of it is a part of what was
put at some place.

## Main definitions

* `Spot`: An element that is kept, or a place.
* `present`, `original`: The text as it is and as it was.
* `Occurs`: How a text occurs in some spots.
* `passSpots`, `afterPasses`: One pass, and the passes in order.

## Theorems

* `starts_cases`, `ends_cases`: A text at the beginning or the end of some spots.
* `occurs_of_infix`: A text that is found in some spots.
* `present_passSpots`: A pass over the spots is a pass over the pieces.
* `place_of_pass`: A place after a pass and before it.
* `clean_present_iff`: When the passes are clean.
-/

namespace Qdmi

/-- An element of a text that is kept, or the place of a placeholder, what is put
    for it, and whether this has been done. -/
inductive Spot (α : Type) where
  | kept (c : α)
  | place (first second : α) (new : List α) (filled : Bool)

section

variable {α : Type} {ts f g : List (Spot α)}

/-- The piece a spot was cut as. -/
def Spot.piece : Spot α → Piece α
  | .kept c => .kept c
  | .place c d new _ => .hole c d new

/-- The pieces a spot is at present. -/
def Spot.pieces : Spot α → List (Piece α)
  | .kept c => [.kept c]
  | .place c d new false => [.hole c d new]
  | .place _ _ new true => new.map .kept

/-- The text at present, as pieces. -/
def present (ts : List (Spot α)) : List (Piece α) := ts.flatMap Spot.pieces

/-- The text as it was. -/
def original (ts : List (Spot α)) : List α := sourceText (ts.map Spot.piece)

@[simp]
theorem present_nil : present ([] : List (Spot α)) = [] := rfl

@[simp]
theorem present_append (ts us : List (Spot α)) : present (ts ++ us) = present ts ++ present us :=
  List.flatMap_append

@[simp]
theorem present_cons (t : Spot α) (ts : List (Spot α)) :
    present (t :: ts) = t.pieces ++ present ts := List.flatMap_cons

@[simp]
theorem present_kept (x : List α) : present (x.map Spot.kept) = x.map Piece.kept := by
  induction x with
  | nil => rfl
  | cons c x ih => exact congrArg (Piece.kept c :: ·) ih

@[simp]
theorem original_append (ts us : List (Spot α)) :
    original (ts ++ us) = original ts ++ original us := by
  rw [original, List.map_append, sourceText_append]
  rfl

@[simp]
theorem original_kept_cons (c : α) (ts : List (Spot α)) :
    original (.kept c :: ts) = c :: original ts := rfl

@[simp]
theorem original_place_cons (c d : α) (new : List α) (filled : Bool) (ts : List (Spot α)) :
    original (.place c d new filled :: ts) = c :: d :: original ts := rfl

@[simp]
theorem original_kept (x : List α) : original (x.map Spot.kept) = x := by
  induction x with
  | nil => rfl
  | cons c x ih => exact congrArg (c :: ·) ih

theorem original_congr (h : f.map Spot.piece = g.map Spot.piece) : original f = original g :=
  congrArg sourceText h

theorem original_nil_iff : original ts = [] ↔ ts = [] := by
  constructor
  · intro h
    rcases ts with _ | ⟨t, ts⟩
    · rfl
    · cases t <;> exact absurd h (List.cons_ne_nil _ _)
  · intro h
    rw [h]
    rfl

/-- Spots are split in one way only at a place of the text. -/
theorem split_unique {f' g' : List (Spot α)} (h : f ++ g = f' ++ g')
    (htext : original f = original f') : f = f' ∧ g = g' := by
  rcases List.append_eq_append_iff.mp h with ⟨x, rfl, rfl⟩ | ⟨x, rfl, rfl⟩
  · rw [original_append, List.self_eq_append_right, original_nil_iff] at htext
    rw [htext, List.append_nil, List.nil_append]
    exact ⟨rfl, rfl⟩
  · rw [original_append, List.append_right_eq_self, original_nil_iff] at htext
    rw [htext, List.append_nil, List.nil_append]
    exact ⟨rfl, rfl⟩

/-- Spots can be split at every point of the text but between the two elements of
    a place. -/
theorem exists_split {u s : List α} (htext : original f = u ++ s)
    (hhead : ∀ c d new filled, Spot.place c d new filled ∈ f → d ∉ s.head?) :
    ∃ a b, f = a ++ b ∧ original a = u ∧ original b = s := by
  induction f generalizing u with
  | nil =>
      rcases List.append_eq_nil_iff.mp htext.symm with ⟨rfl, rfl⟩
      exact ⟨[], [], rfl, rfl, rfl⟩
  | cons t f ih =>
      have hrest : ∀ c d new filled, Spot.place c d new filled ∈ f → d ∉ s.head? :=
        fun c d new filled hmem => hhead c d new filled (List.mem_cons_of_mem _ hmem)
      rcases u with _ | ⟨e, u⟩
      · exact ⟨[], t :: f, rfl, rfl, htext⟩
      cases t with
      | kept c =>
          rw [original_kept_cons, List.cons_append, List.cons.injEq] at htext
          rcases ih htext.2 hrest with ⟨a, b, rfl, ha, hb⟩
          exact ⟨.kept c :: a, b, rfl, by rw [original_kept_cons, ha, htext.1], hb⟩
      | place c d new filled =>
          rw [original_place_cons, List.cons_append, List.cons.injEq] at htext
          rcases u with _ | ⟨e', u⟩
          · refine absurd ?_ (hhead c d new filled List.mem_cons_self)
            rw [← List.nil_append s, ← htext.2]
            rfl
          · rw [List.cons_append, List.cons.injEq] at htext
            rcases ih htext.2.2 hrest with ⟨a, b, rfl, ha, hb⟩
            refine ⟨.place c d new filled :: a, b, rfl, ?_, hb⟩
            rw [original_place_cons, ha, htext.1, htext.2.1]

/-! ## What is kept -/

theorem kept_injective : Function.Injective (Piece.kept : α → Piece α) := fun _ _ => Piece.kept.inj

theorem spot_injective : Function.Injective (Spot.kept : α → Spot α) := fun _ _ => Spot.kept.inj

theorem kept_of_pieces {x : List α} {ts : List (Spot α)}
    (h : ts.map Spot.piece = x.map Piece.kept) : ts = x.map Spot.kept := by
  induction x generalizing ts with
  | nil => exact List.map_eq_nil_iff.mp h
  | cons c x ih =>
      rcases ts with _ | ⟨t, ts⟩
      · exact absurd h.symm (List.cons_ne_nil _ _)
      rw [List.map_cons, List.map_cons, List.cons.injEq] at h
      cases t with
      | kept c' =>
          rw [Spot.piece, Piece.kept.injEq] at h
          rw [List.map_cons, h.1, ih h.2]
      | place e f new filled => exact absurd h.1 (by simp only [Spot.piece, reduceCtorEq,
          not_false_eq_true])

theorem kept_suffix_of_pieces {x : List α} {ts : List (Spot α)}
    (h : x.map Piece.kept <:+ ts.map Spot.piece) : x.map Spot.kept <:+ ts := by
  rcases h with ⟨a, ha⟩
  rcases List.map_eq_append_iff.mp ha.symm with ⟨f, g, rfl, -, hg⟩
  exact ⟨f, by rw [kept_of_pieces hg]⟩

theorem kept_prefix_of_pieces {x : List α} {ts : List (Spot α)}
    (h : x.map Piece.kept <+: ts.map Spot.piece) : x.map Spot.kept <+: ts := by
  rcases h with ⟨b, hb⟩
  rcases List.map_eq_append_iff.mp hb.symm with ⟨f, g, rfl, hf, -⟩
  exact ⟨g, by rw [kept_of_pieces hf]⟩

theorem kept_suffix_congr {α : Type} {f f' : List (Spot α)}
    (h : f.map Spot.piece = f'.map Spot.piece) {x : List α} (hx : x.map Spot.kept <:+ f) :
    x.map Spot.kept <:+ f' := by
  have hpieces := hx.map Spot.piece
  rw [h, List.map_map] at hpieces
  exact kept_suffix_of_pieces hpieces

theorem kept_prefix_congr {α : Type} {g g' : List (Spot α)}
    (h : g.map Spot.piece = g'.map Spot.piece) {x : List α} (hx : x.map Spot.kept <+: g) :
    x.map Spot.kept <+: g' := by
  have hpieces := hx.map Spot.piece
  rw [h, List.map_map] at hpieces
  exact kept_prefix_of_pieces hpieces

theorem kept_suffix_present {x : List α} (h : x.map Spot.kept <:+ f) :
    x.map Piece.kept <:+ present f := by
  rcases h with ⟨a, rfl⟩
  rw [present_append, present_kept]
  exact List.suffix_append _ _

theorem kept_prefix_present {x : List α} (h : x.map Spot.kept <+: g) :
    x.map Piece.kept <+: present g := by
  rcases h with ⟨b, rfl⟩
  rw [present_append, present_kept]
  exact List.prefix_append _ _

/-- What is kept right before some kept text behind a place is part of it. -/
theorem kept_suffix_behind {x m : List α} {c d : α} {new : List α} {filled : Bool}
    (h : x.map Spot.kept <:+ f ++ .place c d new filled :: m.map Spot.kept) : x <:+ m := by
  have hno : ∀ w : List α, ¬ .place c d new filled :: m.map Spot.kept <:+ w.map Spot.kept := by
    intro w hw
    rcases List.mem_map.mp (hw.subset List.mem_cons_self) with ⟨e, -, he⟩
    exact absurd he (by simp only [reduceCtorEq, not_false_eq_true])
  rcases List.suffix_or_suffix_of_suffix h (List.suffix_append f _) with hin | hout
  · rcases List.suffix_cons_iff.mp hin with heq | hin
    · exact absurd (heq ▸ List.suffix_rfl) (hno x)
    · exact (List.suffix_map_iff_of_injective spot_injective).mp hin
  · exact absurd hout (hno x)

theorem kept_prefix_before {x m : List α} {c d : α} {new : List α} {filled : Bool}
    (h : x.map Spot.kept <+: m.map Spot.kept ++ .place c d new filled :: g) : x <+: m := by
  induction m generalizing x with
  | nil =>
      rcases x with _ | ⟨e, x⟩
      · exact List.nil_prefix
      · rw [List.map_nil, List.nil_append, List.map_cons, List.cons_prefix_cons] at h
        exact absurd h.1 (by simp only [reduceCtorEq, not_false_eq_true])
  | cons e m ih =>
      rcases x with _ | ⟨e', x⟩
      · exact List.nil_prefix
      · rw [List.map_cons, List.map_cons, List.cons_append, List.cons_prefix_cons,
          Spot.kept.injEq] at h
        rw [h.1, List.cons_prefix_cons]
        exact ⟨rfl, ih h.2⟩

/-! ## A text in some spots -/

/-- A text at the beginning of another one and what stands behind it. -/
theorem kept_prefix_append {w new : List α} {ps : List (Piece α)}
    (h : w.map Piece.kept <+: new.map Piece.kept ++ ps) :
    ∃ y z, w = y ++ z ∧ y <+: new ∧ (z ≠ [] → y = new) ∧ z.map Piece.kept <+: ps := by
  induction w generalizing new with
  | nil => exact ⟨[], [], rfl, List.nil_prefix, fun h => absurd rfl h, List.nil_prefix⟩
  | cons c w ih =>
      rcases new with _ | ⟨e, new⟩
      · exact ⟨[], c :: w, rfl, List.nil_prefix, fun _ => rfl, h⟩
      · rw [List.map_cons, List.map_cons, List.cons_append, List.cons_prefix_cons,
          Piece.kept.injEq] at h
        rcases ih h.2 with ⟨y, z, rfl, hy, hz, hrest⟩
        refine ⟨c :: y, z, rfl, ?_, fun hne => ?_, hrest⟩
        · rw [h.1, List.cons_prefix_cons]
          exact ⟨rfl, hy⟩
        · rw [h.1, hz hne]

/-- A text at the beginning of some spots: it is kept, or it goes on at a filled
    place behind what is kept. -/
theorem starts_cases (hnew : ∀ c d new, Spot.place c d new true ∈ g → new ≠ []) {w : List α}
    (h : w.map Piece.kept <+: present g) :
    w.map Spot.kept <+: g ∨
      ∃ x c d new g' y z, g = x.map Spot.kept ++ .place c d new true :: g' ∧ w = x ++ (y ++ z) ∧
        y ≠ [] ∧ y <+: new ∧ (z ≠ [] → y = new) ∧ z.map Piece.kept <+: present g' := by
  induction w generalizing g with
  | nil => exact Or.inl List.nil_prefix
  | cons e w ih =>
      rcases g with _ | ⟨t, g⟩
      · exact absurd (List.prefix_nil.mp h) (List.cons_ne_nil _ _)
      cases t with
      | kept e' =>
          rw [present_cons, Spot.pieces, List.map_cons, List.cons_append, List.nil_append,
            List.cons_prefix_cons, Piece.kept.injEq] at h
          rcases ih (fun c d new hmem => hnew c d new (List.mem_cons_of_mem _ hmem)) h.2
            with hkept | ⟨x, c, d, new, g', y, z, rfl, rfl, hy, hpre, hz, hrest⟩
          · rw [h.1, List.map_cons, List.cons_prefix_cons]
            exact Or.inl ⟨rfl, hkept⟩
          · exact Or.inr ⟨e :: x, c, d, new, g', y, z, by rw [h.1]; rfl, rfl, hy, hpre, hz, hrest⟩
      | place c d new filled =>
          cases filled with
          | false =>
              rw [present_cons, Spot.pieces, List.map_cons, List.cons_append, List.nil_append,
                List.cons_prefix_cons] at h
              exact absurd h.1 (by simp only [reduceCtorEq, not_false_eq_true])
          | true =>
              rw [present_cons, Spot.pieces] at h
              rcases kept_prefix_append h with ⟨y, z, hw, hpre, hz, hrest⟩
              refine Or.inr ⟨[], c, d, new, g, y, z, rfl, hw, ?_, hpre, hz, hrest⟩
              -- The text is not empty, and neither is what is put.
              rintro rfl
              have hz' : z ≠ [] := by
                rw [List.nil_append] at hw
                exact hw ▸ List.cons_ne_nil _ _
              exact hnew c d new List.mem_cons_self (hz hz').symm

/-- A text at the end of some spots: it is kept, or it begins before or in the
    last filled place and what is behind this place is kept. -/
theorem ends_cases (hnew : ∀ c d new, Spot.place c d new true ∈ f → new ≠ []) {w : List α}
    (h : w.map Piece.kept <:+ present f) :
    w.map Spot.kept <:+ f ∨
      ∃ f' c d new s y z, f = f' ++ .place c d new true :: s.map Spot.kept ∧ w = z ++ (y ++ s) ∧
        y ≠ [] ∧ y <:+: new := by
  induction w using List.reverseRecOn generalizing f with
  | nil => exact Or.inl List.nil_suffix
  | append_singleton w e ih =>
      rcases List.eq_nil_or_concat' f with rfl | ⟨f, t, rfl⟩
      · exact absurd (List.map_eq_nil_iff.mp (List.suffix_nil.mp h))
          (List.append_ne_nil_of_right_ne_nil _ (List.cons_ne_nil _ _))
      rw [present_append, present_cons, present_nil, List.append_nil] at h
      cases t with
      | kept e' =>
          rcases kept_suffix_concat h with hnil | ⟨w', c, heq, hc, hrest⟩
          · exact absurd hnil (List.append_ne_nil_of_right_ne_nil _ (List.cons_ne_nil _ _))
          have hboth := List.append_inj' heq rfl
          rw [Piece.kept.injEq] at hc
          rw [← hboth.1] at hrest
          rcases ih (fun c d new hmem => hnew c d new (List.mem_append_left _ hmem)) hrest
            with hkept | ⟨f', c', d, new, s, y, z, rfl, rfl, hy, hpart⟩
          · rw [List.map_append, hboth.2, hc]
            exact Or.inl (List.suffix_append_inj_of_length_eq rfl |>.mpr ⟨hkept, rfl⟩)
          · refine Or.inr ⟨f', c', d, new, s ++ [e], y, z, ?_, ?_, hy, hpart⟩
            · rw [List.map_append, hboth.2, hc, List.append_assoc]
              rfl
            · rw [List.append_assoc, List.append_assoc]
      | place c d new filled =>
          cases filled with
          | false =>
              rcases kept_suffix_concat h with hnil | ⟨w', c', -, hc, -⟩
              · exact absurd hnil (List.append_ne_nil_of_right_ne_nil _ (List.cons_ne_nil _ _))
              · exact absurd hc (by simp only [reduceCtorEq, not_false_eq_true])
          | true =>
              have hne := hnew c d new (List.mem_append_right _ List.mem_cons_self)
              rcases List.suffix_or_suffix_of_suffix h (List.suffix_append (present f) _)
                with hin | hout
              · refine Or.inr ⟨f, c, d, new, [], w ++ [e], [], rfl, (List.append_nil _).symm, ?_,
                  ?_⟩
                · exact List.append_ne_nil_of_right_ne_nil _ (List.cons_ne_nil _ _)
                · exact ((List.suffix_map_iff_of_injective kept_injective).mp hin).isInfix
              · rcases (List.suffix_map_iff_of_injective kept_injective).mp hout with ⟨z, hz⟩
                refine Or.inr ⟨f, c, d, new, [], new, z, rfl, ?_, hne, List.infix_rfl⟩
                rw [List.append_nil, hz]

/-- Where a text in two parts has another one: it begins in the first part, or
    it is in the second one. -/
theorem infix_append_cases {β : Type} {w a b : List β} (h : w <:+: a ++ b) :
    (∃ x, x <:+ a ∧ x ≠ [] ∧ w <+: x ++ b) ∨ w <:+: b := by
  induction a with
  | nil => exact Or.inr h
  | cons e a ih =>
      rcases List.infix_cons_iff.mp h with hpre | hin
      · exact Or.inl ⟨e :: a, List.suffix_rfl, List.cons_ne_nil _ _, hpre⟩
      · rcases ih hin with ⟨x, hx, hne, hpre⟩ | hin
        · exact Or.inl ⟨x, hx.trans (List.suffix_cons _ _), hne, hpre⟩
        · exact Or.inr hin

/-- How a text occurs in some spots: it is kept, or a part of it is a part of what
    is put at a filled place. Where the text begins before the place this part
    begins with what is put, and where it goes on behind it ends with that. -/
inductive Occurs (w : List α) (ts : List (Spot α)) : Prop
  | kept (f g : List (Spot α)) (spots : ts = f ++ (w.map Spot.kept ++ g))
  | part (f : List (Spot α)) (x : List α) (c d : α) (new : List α) (g : List (Spot α))
    (y z : List α) (spots : ts = f ++ (x.map Spot.kept ++ .place c d new true :: g))
    (text : w = x ++ (y ++ z)) (nonempty : y ≠ []) (inside : y <:+: new)
    (start : x ≠ [] → y <+: new) (finish : z ≠ [] → y <:+ new)
    (whole : x ≠ [] → z ≠ [] → y = new) (rest : z.map Piece.kept <+: present g)

theorem occurs_cons {w : List α} (t : Spot α) (h : Occurs w ts) : Occurs w (t :: ts) := by
  cases h with
  | kept f g spots => exact .kept (t :: f) g (by rw [spots]; rfl)
  | part f x c d new g y z spots text nonempty inside start finish whole rest =>
      exact .part (t :: f) x c d new g y z (by rw [spots]; rfl) text nonempty inside start finish
        whole rest

theorem occurs_of_start (hnew : ∀ c d new, Spot.place c d new true ∈ ts → new ≠ []) {w : List α}
    (h : w.map Piece.kept <+: present ts) : Occurs w ts := by
  rcases starts_cases hnew h with ⟨g, hg⟩ | ⟨x, c, d, new, g, y, z, hts, hsplit, hy, hyn, hz, hrest⟩
  · exact .kept [] g hg.symm
  · exact .part [] x c d new g y z hts hsplit hy hyn.isInfix (fun _ => hyn)
      (fun hne => hz hne ▸ List.suffix_rfl) (fun _ => hz) hrest

/-- A text that is found in some spots. The induction is on the spots, and the
    text begins with the first one, or inside of what is put there, or behind. -/
theorem occurs_of_infix (hnew : ∀ c d new, Spot.place c d new true ∈ ts → new ≠ []) {w : List α}
    (hw : w ≠ []) (h : w.map Piece.kept <:+: present ts) : Occurs w ts := by
  induction ts with
  | nil => exact absurd (List.map_eq_nil_iff.mp (List.infix_nil.mp h)) hw
  | cons t ts ih =>
      rw [present_cons] at h
      rcases infix_append_cases h with ⟨n, hn, hne, hpre⟩ | hin
      · have hall (hsingle : t.pieces.length = 1) : n = t.pieces :=
          hn.eq_of_length_le (by
            rw [hsingle]
            exact List.length_pos_iff.mpr hne)
        cases t with
        | kept e =>
            rw [hall rfl] at hpre
            exact occurs_of_start hnew hpre
        | place c d new filled =>
            cases filled with
            | false =>
                rw [hall rfl] at hpre
                exact occurs_of_start hnew hpre
            | true =>
                rcases hn with ⟨a, ha⟩
                rcases List.map_eq_append_iff.mp ha.symm with ⟨a, n', hnew', -, rfl⟩
                rcases kept_prefix_append hpre with ⟨y, z, rfl, hyn, hz, hrest⟩
                have hend : n' <:+ new := ⟨a, hnew'.symm⟩
                refine .part [] [] c d new ts y z rfl rfl ?_ (hyn.isInfix.trans hend.isInfix)
                  (fun hx => absurd rfl hx) (fun hz' => hz hz' ▸ hend) (fun hx => absurd rfl hx)
                  hrest
                -- What is put from where the text begins is not empty.
                rintro rfl
                refine hne ?_
                rw [← hz hw]
                rfl
      · exact occurs_cons t
          (ih (fun c d new hmem => hnew c d new (List.mem_cons_of_mem _ hmem)) hin)

/-! ## Passes -/

variable [DecidableEq α]

/-- One pass at a spot between others. -/
def Spot.pass (r : Placeholder α) (front back : List (Spot α)) : Spot α → Spot α
  | .kept c => .kept c
  | .place c d new filled => .place c d new (filled ||
      decide (r.Stands (sourceText (present front)) (c :: d :: sourceText (present back))))

/-- One pass over some spots, behind others. -/
def passSpots (r : Placeholder α) : List (Spot α) → List (Spot α) → List (Spot α)
  | _, [] => []
  | front, t :: ts => t.pass r front ts :: passSpots r (front ++ [t]) ts

/-- The passes for some kinds in order. -/
def afterPasses (rules : List (Placeholder α)) (ts : List (Spot α)) : List (Spot α) :=
  rules.foldl (fun ts r => passSpots r [] ts) ts

theorem fillHoles_kept (r : Placeholder α) (x : List α) (front ps : List (Piece α)) :
    fillHoles r front (x.map Piece.kept ++ ps) =
      x.map Piece.kept ++ fillHoles r (front ++ x.map Piece.kept) ps := by
  induction x generalizing front with
  | nil => rw [List.map_nil, List.append_nil]; rfl
  | cons c x ih =>
      rw [List.map_cons, List.cons_append, fillHoles, ih, List.append_assoc]
      rfl

/-- A pass over the spots is a pass over the pieces. -/
theorem present_passSpots (r : Placeholder α) (front ts : List (Spot α)) :
    present (passSpots r front ts) = fillHoles r (present front) (present ts) := by
  induction ts generalizing front with
  | nil => rfl
  | cons t ts ih =>
      rw [passSpots, present_cons, present_cons, ih, present_append]
      cases t with
      | kept c => rfl
      | place c d new filled =>
          cases filled with
          | false =>
              rw [Spot.pieces, List.cons_append, List.nil_append, fillHoles]
              by_cases hstands : r.Stands (sourceText (present front))
                (c :: d :: sourceText (present ts))
              · simp only [Spot.pass, Spot.pieces, hstands, decide_true, Bool.or_true, if_true]
                simp only [present, List.flatMap_cons, List.flatMap_nil, Spot.pieces,
                  List.append_nil]
              · simp only [Spot.pass, Spot.pieces, hstands, decide_false, Bool.or_false, if_false]
                simp only [present, List.flatMap_cons, List.flatMap_nil, Spot.pieces,
                  List.append_nil]
                rfl
          | true =>
              rw [Spot.pass, Bool.true_or, Spot.pieces, fillHoles_kept]
              simp only [present, List.flatMap_cons, List.flatMap_nil, Spot.pieces,
                List.append_nil]

theorem piece_passSpots (r : Placeholder α) (front ts : List (Spot α)) :
    (passSpots r front ts).map Spot.piece = ts.map Spot.piece := by
  induction ts generalizing front with
  | nil => rfl
  | cons t ts ih =>
      rw [passSpots, List.map_cons, List.map_cons, ih]
      cases t <;> rfl

theorem piece_afterPasses (rules : List (Placeholder α)) (ts : List (Spot α)) :
    (afterPasses rules ts).map Spot.piece = ts.map Spot.piece := by
  induction rules generalizing ts with
  | nil => rfl
  | cons r rules ih => exact (ih _).trans (piece_passSpots r [] ts)

/-- A pass looks at every spot between the spots as they are before the pass. -/
theorem passSpots_split {r : Placeholder α} {front f' g' : List (Spot α)} {t' : Spot α}
    (h : passSpots r front ts = f' ++ t' :: g') :
    ∃ f t g, ts = f ++ t :: g ∧ t' = t.pass r (front ++ f) g ∧
      f.map Spot.piece = f'.map Spot.piece ∧
      g' = passSpots r (front ++ f ++ [t]) g := by
  induction ts generalizing front f' with
  | nil => exact absurd h.symm (List.append_ne_nil_of_right_ne_nil _ (List.cons_ne_nil _ _))
  | cons t ts ih =>
      rw [passSpots] at h
      rcases f' with _ | ⟨s, f'⟩
      · rw [List.nil_append, List.cons.injEq] at h
        refine ⟨[], t, ts, rfl, ?_, rfl, ?_⟩
        · rw [List.append_nil]
          exact h.1.symm
        · rw [List.append_nil]
          exact h.2.symm
      · rw [List.cons_append, List.cons.injEq] at h
        rcases ih h.2 with ⟨f, t', g, rfl, ht', hpieces, hg⟩
        refine ⟨t :: f, t', g, rfl, ?_, ?_, ?_⟩
        · rw [ht', List.append_assoc]
          rfl
        · rw [List.map_cons, List.map_cons, hpieces, ← h.1]
          cases t <;> rfl
        · rw [hg, List.append_assoc, List.append_assoc, List.append_assoc]
          rfl

/-- A place after a pass and the same place before it. -/
theorem place_of_pass {r : Placeholder α} {f' g' : List (Spot α)} {c d : α} {new : List α}
    {filled' : Bool} (h : passSpots r [] ts = f' ++ .place c d new filled' :: g') :
    ∃ f filled g, ts = f ++ .place c d new filled :: g ∧ f.map Spot.piece = f'.map Spot.piece ∧
      g.map Spot.piece = g'.map Spot.piece ∧
      (filled' = true ↔ filled = true ∨
        r.Stands (sourceText (present f)) (c :: d :: sourceText (present g))) ∧
      ∀ x : List α, x.map Piece.kept <+: present g → x.map Piece.kept <+: present g' := by
  rcases passSpots_split h with ⟨f, t, g, hts, ht, hf, hg⟩
  cases t with
  | kept e => exact absurd ht (by simp only [Spot.pass, reduceCtorEq, not_false_eq_true])
  | place e e' new' filled =>
      rw [Spot.pass, Spot.place.injEq, List.nil_append] at ht
      rcases ht with ⟨rfl, rfl, rfl, hfilled⟩
      refine ⟨f, filled, g, hts, hf, ?_, ?_, fun x hx => ?_⟩
      · rw [hg, piece_passSpots]
      · rw [hfilled, Bool.or_eq_true, decide_eq_true_eq]
      · rw [hg, present_passSpots]
        exact kept_prefix_fillHoles r hx

omit [DecidableEq α] in
/-- Where a kind stands only at holes. -/
theorem onlyAtHoles_iff {r : Placeholder α} {front ps : List (Piece α)} :
    OnlyAtHoles r front ps ↔ ∀ a c b, ps = a ++ .kept c :: b →
      ¬ r.Stands (sourceText (front ++ a)) (c :: sourceText b) := by
  induction ps generalizing front with
  | nil =>
      refine iff_of_true trivial (fun a c b h => ?_)
      exact absurd h.symm (List.append_ne_nil_of_right_ne_nil _ (List.cons_ne_nil _ _))
  | cons p ps ih =>
      cases p with
      | kept c =>
          rw [OnlyAtHoles, ih]
          constructor
          · rintro ⟨hhead, htail⟩ a c' b h
            rcases a with _ | ⟨p, a⟩
            · rw [List.nil_append, List.cons.injEq, Piece.kept.injEq] at h
              rw [List.append_nil, ← h.1, ← h.2]
              exact hhead
            · rw [List.cons_append, List.cons.injEq] at h
              have := htail a c' b h.2
              rw [List.append_assoc, h.1] at this
              exact this
          · intro h
            refine ⟨?_, fun a c' b hps => ?_⟩
            · have := h [] c ps rfl
              rwa [List.append_nil] at this
            · have := h (.kept c :: a) c' b (by rw [hps]; rfl)
              rwa [List.append_assoc]
      | hole c d new =>
          rw [OnlyAtHoles, ih]
          constructor
          · intro htail a c' b h
            rcases a with _ | ⟨p, a⟩
            · rw [List.nil_append, List.cons.injEq] at h
              exact absurd h.1 (by simp only [reduceCtorEq, not_false_eq_true])
            · rw [List.cons_append, List.cons.injEq] at h
              have := htail a c' b h.2
              rw [List.append_assoc, h.1] at this
              exact this
          · intro h a c' b hps
            have := h (.hole c d new :: a) c' b (by rw [hps]; rfl)
            rwa [List.append_assoc]

/-- The passes are clean exactly if every kind stands only at holes after the passes
    for the kinds before it. -/
theorem clean_present_iff {rules : List (Placeholder α)} {ts : List (Spot α)} :
    Clean rules (present ts) ↔ ∀ early q later, rules = early ++ q :: later →
      OnlyAtHoles q [] (present (afterPasses early ts)) := by
  induction rules generalizing ts with
  | nil =>
      refine iff_of_true trivial (fun early q later h => ?_)
      exact absurd h.symm (List.append_ne_nil_of_right_ne_nil _ (List.cons_ne_nil _ _))
  | cons r rules ih =>
      have hnext : fillHoles r [] (present ts) = present (passSpots r [] ts) :=
        (present_passSpots r [] ts).symm
      rw [Clean, hnext, ih]
      constructor
      · rintro ⟨hfirst, hrest⟩ early q later h
        rcases early with _ | ⟨r', early⟩
        · rw [List.nil_append, List.cons.injEq] at h
          rw [← h.1]
          exact hfirst
        · rw [List.cons_append, List.cons.injEq] at h
          rw [← h.1]
          exact hrest early q later h.2
      · intro h
        refine ⟨h [] r rules rfl, fun early q later hrules => ?_⟩
        exact h (r :: early) q later (by rw [hrules]; rfl)

end

end Qdmi
