import Mathlib.Data.List.TakeWhile

/-!
# Fields Between Blanks

Texts that are read field by field, where a field is a stretch without blanks.

There are three ways to say what the fields of a text are. `fields` splits the
text at every blank and drops the empty pieces. `nextField` reads one field
from what is left of a stream, skipping the blanks before it, and leaves the
rest of the stream behind. `Separated` describes a text by what it is made of.
`fields_eq_iff` and `fields_nextField` say that all three agree, so a reader
that takes fields one at a time can be compared with the text as a whole.

## Main definitions

* `fields`: The fields of a text, by splitting it.
* `nextField`: The first field of a text, and what follows it.
* `Separated`: A text is made of some fields with blanks between them.

## Theorems

* `fields_blank_append`, `fields_field_append`: The fields of a text that
  starts with blanks or with a field.
* `nextField_eq_none`, `nextField_eq_some`: What reading a field leaves.
* `fields_nextField`: Reading field by field.
* `fields_eq_iff`: The fields of a text are what it is made of.
-/

namespace Qdmi

section

variable {α : Type} (p : α → Bool)

/-- The fields of a text: the pieces between its blanks, without the empty ones. -/
def fields (text : List α) : List (List α) :=
  (text.splitOnP p).filter (fun field => !field.isEmpty)

/-- The first field of a text and what follows it. -/
def nextField (text : List α) : Option (List α × List α) :=
  match text.dropWhile p with
  | [] => none
  | a :: rest => some ((a :: rest).takeWhile (fun b => !p b), (a :: rest).dropWhile (fun b => !p b))

/-- A text is made of some fields. Behind a field the text ends or goes on with
    a blank. -/
inductive Separated : List α → List (List α) → Prop where
  | blank {blanks : List α} (hblanks : ∀ a ∈ blanks, p a = true) : Separated blanks []
  | field {blanks field rest : List α} {later : List (List α)}
      (hblanks : ∀ a ∈ blanks, p a = true) (hne : field ≠ []) (hfield : ∀ a ∈ field, p a = false)
      (hend : ∀ a ∈ rest.head?, p a = true) (h : Separated rest later) :
      Separated (blanks ++ (field ++ rest)) (field :: later)

variable {p}

/-! ## Splitting -/

theorem fields_nil : fields p [] = [] := by
  rw [fields, List.splitOnP_nil]
  rfl

theorem fields_cons_blank {a : α} (ha : p a = true) (text : List α) :
    fields p (a :: text) = fields p text := by
  rw [fields, List.splitOnP_cons_eq_if_modifyHead, if_pos ha]
  rfl

/-- Blanks in front do not count. -/
theorem fields_blank_append {blanks : List α} (hblanks : ∀ a ∈ blanks, p a = true)
    (text : List α) : fields p (blanks ++ text) = fields p text := by
  induction blanks with
  | nil => rfl
  | cons a blanks ih =>
      rw [List.cons_append, fields_cons_blank (hblanks a List.mem_cons_self)]
      exact ih (fun b hb => hblanks b (List.mem_cons_of_mem _ hb))

/-- A text that starts with a field has it first. -/
theorem fields_field_append {field rest : List α} (hne : field ≠ [])
    (hfield : ∀ a ∈ field, p a = false) (hend : ∀ a ∈ rest.head?, p a = true) :
    fields p (field ++ rest) = field :: fields p rest := by
  have hkeep : ∀ pieces : List (List α), (field :: pieces).filter (fun f => !f.isEmpty) =
      field :: pieces.filter (fun f => !f.isEmpty) := by
    intro pieces
    refine List.filter_cons_of_pos ?_
    rw [Bool.not_eq_true', List.isEmpty_eq_false_iff]
    exact hne
  rcases rest with _ | ⟨a, rest⟩
  · rw [List.append_nil, fields_nil, fields, List.splitOnP_eq_singleton hfield, hkeep,
      List.filter_nil]
  · -- The field ends at the blank behind it.
    have ha : p a = true := hend a rfl
    rw [fields_cons_blank ha, fields, List.splitOnP_append_cons_of_forall_mem hfield a ha,
      hkeep, fields]

/-! ## Reading -/

/-- Nothing is read from blanks only. -/
theorem nextField_eq_none {text : List α} (h : nextField p text = none) :
    ∀ a ∈ text, p a = true := by
  unfold nextField at h
  split at h
  · rename_i hdrop
    exact List.dropWhile_eq_nil_iff.mp hdrop
  · exact absurd h (by simp only [reduceCtorEq, not_false_eq_true])

/-- What is read is a field, and what is left starts with a blank. -/
theorem nextField_eq_some {text field rest : List α} (h : nextField p text = some (field, rest)) :
    ∃ blanks, text = blanks ++ (field ++ rest) ∧ (∀ a ∈ blanks, p a = true) ∧ field ≠ [] ∧
      (∀ a ∈ field, p a = false) ∧ ∀ a ∈ rest.head?, p a = true := by
  unfold nextField at h
  split at h
  · exact absurd h (by simp only [reduceCtorEq, not_false_eq_true])
  rename_i a left hdrop
  rw [Option.some.injEq, Prod.mk.injEq] at h
  rcases h with ⟨hfield, hrest⟩
  -- The blanks end where the first character that is none stands.
  have ha : p a = false := by
    have hhead := List.head?_dropWhile_not p text
    rw [hdrop, List.head?_cons] at hhead
    simpa using hhead
  refine ⟨text.takeWhile p, ?_, fun b hb => List.mem_takeWhile_imp hb, ?_, fun b hb => ?_,
    fun b hb => ?_⟩
  · rw [← hfield, ← hrest, List.takeWhile_append_dropWhile, ← hdrop,
      List.takeWhile_append_dropWhile]
  · rw [← hfield, List.takeWhile_cons_of_pos (by rw [ha]; rfl)]
    exact List.cons_ne_nil _ _
  · rw [← hfield] at hb
    have := List.mem_takeWhile_imp hb
    simpa using this
  · rw [← hrest] at hb
    have hhead := List.head?_dropWhile_not (fun b => !p b) (a :: left)
    rw [Option.mem_def] at hb
    rw [hb] at hhead
    simpa using hhead

/-- Splitting a text finds the field that is read first, and then those of the
    rest. -/
theorem fields_nextField (text : List α) : fields p text =
    match nextField p text with
    | none => []
    | some (field, rest) => field :: fields p rest := by
  rcases h : nextField p text with _ | ⟨field, rest⟩
  · have hblank := nextField_eq_none h
    rw [← List.append_nil text, fields_blank_append hblank, fields_nil]
  · rcases nextField_eq_some h with ⟨blanks, htext, hblanks, hne, hfield, hend⟩
    rw [htext, fields_blank_append hblanks, fields_field_append hne hfield hend]

/-! ## What a text is made of -/

theorem fields_of_separated {text : List α} {found : List (List α)} (h : Separated p text found) :
    fields p text = found := by
  induction h with
  | @blank blanks hblanks => rw [← List.append_nil blanks, fields_blank_append hblanks, fields_nil]
  | field hblanks hne hfield hend _ ih =>
      rw [fields_blank_append hblanks, fields_field_append hne hfield hend, ih]

/-- Every text is made of its fields. The induction is on the length of what is
    left to read. -/
theorem separated_fields (n : Nat) : ∀ text : List α, text.length ≤ n →
    Separated p text (fields p text) := by
  induction n with
  | zero =>
      intro text hlen
      rw [List.length_eq_zero_iff.mp (Nat.le_zero.mp hlen), fields_nil]
      exact Separated.blank (fun a ha => absurd ha List.not_mem_nil)
  | succ n ih =>
      intro text hlen
      rw [fields_nextField]
      rcases h : nextField p text with _ | ⟨field, rest⟩
      · exact Separated.blank (nextField_eq_none h)
      · rcases nextField_eq_some h with ⟨blanks, htext, hblanks, hne, hfield, hend⟩
        -- A field is not empty, so less is left behind it.
        have hpos := List.length_pos_iff.mpr hne
        have hrest : rest.length ≤ n := by
          rw [htext, List.length_append, List.length_append] at hlen
          omega
        rw [htext]
        exact Separated.field hblanks hne hfield hend (ih rest hrest)

/-- The fields of a text are what it is made of. -/
theorem fields_eq_iff {text : List α} {found : List (List α)} :
    fields p text = found ↔ Separated p text found := by
  constructor
  · intro h
    rw [← h]
    exact separated_fields text.length text (Nat.le_refl _)
  · exact fields_of_separated

end

end Qdmi
