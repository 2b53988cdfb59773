import Mathlib.Data.List.Infix

/-!
# Paths

Paths as texts, as elements, and as places.

As a text a path is a list of characters in which a separator stands between the
names. Iterating over it gives its elements: the root, if it starts there, and its
names. A place is where a path leads when there are no links: the names of the
directories from the root to it. The name `.` stays where it is and `..` goes up.

A normal text names its place. Between normal texts, the elements of one begin with
those of the other exactly if it leads to the same place or below
(`elements_prefix_iff`). For other texts the elements say nothing.

## Main definitions

* `names`, `elements`: What iterating over a path gives.
* `absolute`, `Normal`: The text that names a place.
* `place`, `Inside`: Where a path leads.

## Theorems

* `names_absolute`, `elements_absolute`, `place_absolute`: What a normal text names.
* `elements_prefix_iff`: Comparing elements.
-/

namespace Qdmi

namespace Paths

variable {α : Type}

/-- The text that names a place: a separator before each name, or the root. -/
def absolute (sep : α) (ns : List (List α)) : List α :=
  if ns = [] then [sep] else ns.flatMap (fun name => sep :: name)

/-- A name that leads on from where a path has come to. -/
structure Proper (sep dot : α) (name : List α) : Prop where
  nonempty : name ≠ []
  whole : sep ∉ name
  stays : name ≠ [dot]
  rises : name ≠ [dot, dot]

/-- A text that names its place. -/
def Normal (sep dot : α) (path : List α) : Prop :=
  ∃ ns, path = absolute sep ns ∧ ∀ name ∈ ns, Proper sep dot name

section

variable [DecidableEq α]

/-- The names of a path. Behind a separator at its end there is an empty one. -/
def names (sep : α) (path : List α) : List (List α) :=
  let parts := (path.splitOn sep).filter (fun name => !name.isEmpty)
  if parts ≠ [] ∧ path.getLast? = some sep then parts ++ [[]] else parts

/-- The elements of a path. The root is written as a separator. -/
def elements (sep : α) (path : List α) : List (List α) :=
  if path.head? = some sep then [sep] :: names sep path else names sep path

/-- One more name. -/
def follow (dot : α) (here : List (List α)) (name : List α) : List (List α) :=
  if name = [] ∨ name = [dot] then here
  else if name = [dot, dot] then here.dropLast
  else here ++ [name]

/-- The place an absolute path leads to. -/
def place (sep dot : α) (path : List α) : List (List α) := (names sep path).foldl (follow dot) []

/-- A path leads to the place of a directory, or below it. -/
def Inside (sep dot : α) (dir path : List α) : Prop := place sep dot dir <+: place sep dot path

instance (sep dot : α) (dir path : List α) : Decidable (Inside sep dot dir path) :=
  inferInstanceAs (Decidable (place sep dot dir <+: place sep dot path))

end

variable {sep dot : α} {ns : List (List α)}

/-! ## Normal texts -/

theorem flatMap_eq_intercalate (sep : α) (ns : List (List α)) :
    ns.flatMap (fun name => sep :: name) = [sep].intercalate ([] :: ns) := by
  -- The claim is stronger for a text that has begun already.
  have hfrom : ∀ first : List α, first ++ ns.flatMap (fun name => sep :: name) =
      [sep].intercalate (first :: ns) := by
    induction ns with
    | nil =>
        intro first
        rw [List.flatMap_nil, List.append_nil, List.intercalate_singleton]
    | cons name ns ih =>
        intro first
        rw [List.flatMap_cons, List.intercalate_cons_cons, ← ih, List.cons_append,
          List.append_assoc, List.singleton_append]
  exact hfrom []

/-- A normal text ends with its last name. -/
theorem getLast?_flatMap_ne (h : ∀ name ∈ ns, name ≠ [] ∧ sep ∉ name) :
    (ns.flatMap (fun name => sep :: name)).getLast? ≠ some sep := by
  induction ns with
  | nil =>
      intro hend
      exact absurd hend (by simp only [List.flatMap_nil, List.getLast?_nil, reduceCtorEq,
        not_false_eq_true])
  | cons name ns ih =>
      rcases List.forall_mem_cons.mp h with ⟨hname, hns⟩
      intro hend
      rw [List.flatMap_cons, List.getLast?_append] at hend
      rcases hlast : (ns.flatMap (fun name => sep :: name)).getLast? with _ | c
      · rw [hlast, Option.none_or, List.getLast?_cons, List.getLast?_eq_some_getLast hname.1,
          Option.getD_some, Option.some.injEq] at hend
        exact hname.2 (hend ▸ List.getLast_mem hname.1)
      · rw [hlast, Option.some_or] at hend
        exact ih hns (hlast.trans hend)

section

variable [DecidableEq α]

/-- The names of a text that names a place. -/
theorem names_absolute (h : ∀ name ∈ ns, Proper sep dot name) :
    names sep (absolute sep ns) = ns := by
  by_cases hnil : ns = []
  · -- The root: splitting gives two empty pieces.
    rw [hnil]
    simp [names, absolute, List.splitOn_cons_eq_if_modifyHead]
  -- Splitting gives an empty piece before the first separator, and the names.
  have hsplit : (ns.flatMap (fun name => sep :: name)).splitOn sep = [] :: ns := by
    rw [flatMap_eq_intercalate]
    exact List.splitOn_intercalate sep (List.forall_mem_cons.mpr
      ⟨List.not_mem_nil, fun name hname => (h name hname).whole⟩) (List.cons_ne_nil _ _)
  have hkept : ns.filter (fun name => !name.isEmpty) = ns := by
    refine List.filter_eq_self.mpr (fun name hname => ?_)
    rw [Bool.not_eq_true', List.isEmpty_eq_false_iff]
    exact (h name hname).nonempty
  -- The last name is not empty, so there is no empty one behind it.
  have hend := getLast?_flatMap_ne (fun name hname =>
    ⟨(h name hname).nonempty, (h name hname).whole⟩)
  unfold names absolute
  dsimp only
  rw [if_neg hnil, hsplit, List.filter_cons_of_neg (by simp), hkept,
    if_neg (fun hboth => hend hboth.2)]

/-- Its elements are the root and its names. -/
theorem elements_absolute (h : ∀ name ∈ ns, Proper sep dot name) :
    elements sep (absolute sep ns) = [sep] :: ns := by
  have hhead : (absolute sep ns).head? = some sep := by
    unfold absolute
    rcases ns with _ | ⟨name, ns⟩
    · rfl
    · rw [if_neg (List.cons_ne_nil name ns), List.flatMap_cons, List.cons_append, List.head?_cons]
  rw [elements, if_pos hhead, names_absolute h]

/-- A normal text names its place. The induction is on the names that are left. -/
theorem place_absolute (h : ∀ name ∈ ns, Proper sep dot name) :
    place sep dot (absolute sep ns) = ns := by
  have hfrom : ∀ here : List (List α), ns.foldl (follow dot) here = here ++ ns := by
    induction ns with
    | nil => exact fun here => (List.append_nil here).symm
    | cons name ns ih =>
        intro here
        rcases List.forall_mem_cons.mp h with ⟨hname, hns⟩
        have hfollow : follow dot here name = here ++ [name] := by
          rw [follow, if_neg (fun hor => hor.elim hname.nonempty hname.stays), if_neg hname.rises]
        rw [List.foldl_cons, hfollow, ih hns, List.append_assoc, List.singleton_append]
  rw [place, names_absolute h, hfrom, List.nil_append]

/-- Comparing the elements of normal texts compares places. -/
theorem elements_prefix_iff {dir path : List α} (hdir : Normal sep dot dir)
    (hpath : Normal sep dot path) :
    elements sep dir <+: elements sep path ↔ Inside sep dot dir path := by
  rcases hdir with ⟨ds, hds, hd⟩
  rcases hpath with ⟨ns, hns, hn⟩
  rw [Inside, hds, hns, elements_absolute hd, elements_absolute hn, place_absolute hd,
    place_absolute hn, List.prefix_cons_inj]

/-- A text that goes up has the elements of the directory that it leaves. -/
example : elements 0 [0, 2] <+: elements 0 [0, 2, 0, 1, 1, 0, 3] ∧
    ¬ Inside 0 1 [0, 2] [0, 2, 0, 1, 1, 0, 3] := by decide

end

end Paths

end Qdmi
