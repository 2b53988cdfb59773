import Qdmi.Theory.Tool.Rule

/-!
# What the Tool Leaves Alone

The tool is to change the declaration of `q` and the indices behind the name
`q`, and nothing else of a program.

It looks for bytes and not for names, so it also rewrites the index behind a
name that only ends in `q`, and whatever looks like a reference in a comment or
a string. `ChangesOnlyQ` compares two texts by their items, with the indices
behind `q` forgotten, and by the insides of their comments and strings, which
are no items. Both sides of the comparison follow the text: the items of a
rewritten text are those of the text with some indices replaced, and its
remarks are the remarks with the same replacements. So what the tool has to
leave alone it leaves alone exactly if each replacement puts in what was there.

A literal declaration that stands in a comment is rewritten twice, first to the
size of the device and then like any other index. It occurs once, which is what
keeps the two apart.

## Main definitions

* `forgetIndex`, `ChangesOnlyQ`: Two texts that differ in the indices of `q`.
* `relocated`, `resized`: What becomes of an index.
* `Spared`: The texts whose other names, comments and strings are spared.

## Theorems

* `items_rewritten`, `remarks_rewritten`: A rewritten text, item by item.
* `references_of_items`: References to other names stay.
* `compile_changesOnlyQ_iff`: Which programs are changed in `q` only.
* `compile_renames_bit`: A classical register whose bits are renamed.
-/

namespace Qdmi

open Qasm (Item Mode Reference readAll references referencesOf items itemsFrom remarks remarksFrom
  indexRule)

/-- Forget the index behind the name `q`. -/
def forgetIndex : Item → Item
  | .indexed name index => if name = ascii "q" then .indexed name [] else .indexed name index
  | item => item

/-- Two texts that differ in nothing but indices behind the name `q`. -/
structure ChangesOnlyQ (text out : List UInt8) : Prop where
  /-- Words, symbols, blanks and references to other names are the same. -/
  items : (items out).map forgetIndex = (items text).map forgetIndex
  /-- So is what stands in comments and strings. -/
  remarks : remarks out = remarks text
  /-- In particular, every reference to another name is the same. -/
  others : (references out).filter (fun r => r.name != ascii "q") =
    (references text).filter (fun r => r.name != ascii "q")

/-- The index a `q[k]` is left with by the loops. -/
def relocated (id0 id1 : Nat) (k : List UInt8) : List UInt8 := ((sites id0 id1).lookup k).getD k

/-- The index of a `q[k]` after the declaration has been rewritten. -/
def resized (numQubits available : Nat) (front k back : List UInt8) : List UInt8 :=
  if ascii "qreg " <:+ front ∧ k = decimal numQubits ∧ [59] <+: back then decimal available else k

/-- The texts whose other names, comments and strings are spared. -/
structure Spared (text : List UInt8) (numQubits available id0 id1 : Nat) : Prop where
  /-- An index behind a longer name that ends in `q` is replaced by itself. -/
  names : ∀ name k, Item.indexed name k ∈ items text → name.getLast? = some 113 →
    name ≠ ascii "q" → relocated id0 id1 k = k
  /-- So is what looks like a reference in a comment or a string. -/
  remarks : ∀ front k back, remarks text = front ++ (indexedQ k ++ back) →
    relocated id0 id1 (resized numQubits available front k back) = k

/-! ## Items -/

section

variable {text front back : List UInt8} {numQubits available id0 id1 : Nat}

/-- An item that is replaced by itself. -/
theorem forget_retarget_iff (item : Item) :
    forgetIndex (item.retarget 113 (sites id0 id1)) = forgetIndex item ↔
      ∀ name k, item = .indexed name k → name.getLast? = some 113 → name ≠ ascii "q" →
        relocated id0 id1 k = k := by
  rcases item with w | ⟨name, k⟩ | c | c | _ | _
  case indexed =>
    have hboth : (∀ name' k', Item.indexed name k = .indexed name' k' →
        name'.getLast? = some 113 → name' ≠ ascii "q" → relocated id0 id1 k' = k') ↔
        (name.getLast? = some 113 → name ≠ ascii "q" → relocated id0 id1 k = k) := by
      refine ⟨fun h => h name k rfl, fun h name' k' heq => ?_⟩
      rw [Item.indexed.injEq] at heq
      rw [← heq.1, ← heq.2]
      exact h
    rw [hboth, Item.retarget]
    -- Only an index behind a `q` is replaced, and that of `q` itself is forgotten.
    by_cases hlast : name.getLast? = some 113
    · rw [if_pos hlast, forgetIndex, forgetIndex]
      by_cases hname : name = ascii "q"
      · rw [if_pos hname, if_pos hname]
        exact iff_of_true rfl (fun _ hne => absurd hname hne)
      · rw [if_neg hname, if_neg hname, Item.indexed.injEq]
        exact ⟨fun h _ _ => h.2, fun h => ⟨rfl, h hlast hname⟩⟩
    · rw [if_neg hlast]
      exact iff_of_true rfl (fun h => absurd h hlast)
  all_goals
    refine iff_of_true rfl (fun name k heq => ?_)
    exact absurd heq (by simp only [reduceCtorEq, not_false_eq_true])

/-- An index that is forgotten need not be replaced before. -/
theorem forget_retarget_forget (item : Item) :
    forgetIndex ((forgetIndex item).retarget 113 (sites id0 id1)) =
      forgetIndex (item.retarget 113 (sites id0 id1)) := by
  rcases item with w | ⟨name, k⟩ | c | c | _ | _
  case indexed =>
    by_cases hname : name = ascii "q"
    · have hlast : name.getLast? = some 113 := by
        rw [hname]
        decide
      simp only [forgetIndex, if_pos hname, Item.retarget, if_pos hlast]
    · rw [forgetIndex, if_neg hname]
  all_goals rfl

/-- Rewriting the declaration changes an index behind `q`, if any. -/
theorem items_declared (hn : numQubits ≤ 2) (hsizes : registerSizes text = [numQubits])
    (available : Nat) :
    (items (declared text numQubits available)).map forgetIndex = (items text).map forgetIndex := by
  by_cases hoccurs : declaration numQubits <:+: text
  · rcases hoccurs with ⟨front, back, htext⟩
    rw [List.append_assoc] at htext
    rw [declared_of_occurs hn hsizes htext.symm, ← htext, items, items, Qasm.itemsFrom_append,
      Qasm.itemsFrom_append, Qasm.itemsFrom_append, Qasm.itemsFrom_append, ← modeBehind]
    by_cases hskips : (modeBehind front).skips = true
    · rw [readAll_declaration_skips hskips, readAll_declaration_skips hskips]
    · rw [Bool.not_eq_true] at hskips
      rw [readAll_declaration hskips, readAll_declaration hskips]
      simp only [List.map_append, List.map_cons, forgetIndex, if_true]
  · rw [declared_of_absent hoccurs]

/-- The items of a rewritten text. -/
theorem items_rewritten (hn : numQubits ≤ 2) (hsizes : registerSizes text = [numQubits]) :
    (items (rewritten text numQubits available id0 id1)).map forgetIndex =
      (items text).map (fun item => forgetIndex (item.retarget 113 (sites id0 id1))) := by
  have hforget : ∀ all : List Item,
      all.map (fun item => forgetIndex (item.retarget 113 (sites id0 id1))) =
      (all.map forgetIndex).map
        (fun item => forgetIndex (item.retarget 113 (sites id0 id1))) := by
    intro all
    rw [List.map_map]
    exact List.map_congr_left (fun item _ => (forget_retarget_forget item).symm)
  rw [rewritten_eq, Qasm.items_substitute (by decide) isWord_sites, List.map_map,
    hforget (items text), ← items_declared hn hsizes available, ← hforget]
  rfl

theorem reindexes_forgetIndex : Qasm.Reindexes forgetIndex
    (fun name index => if name = ascii "q" then [] else index) where
  indexed name index := by
    rw [forgetIndex]
    split <;> rfl
  other item hitem := by
    cases item with
    | indexed name index => exact absurd rfl (hitem name index)
    | _ => rfl

/-- References to other names are seen in the items. -/
theorem references_of_items {out : List UInt8}
    (h : (items out).map forgetIndex = (items text).map forgetIndex) :
    (references out).filter (fun r => r.name != ascii "q") =
      (references text).filter (fun r => r.name != ascii "q") := by
  have hkeep : ∀ all : List Item,
      (referencesOf (all.map forgetIndex)).filter (fun r => r.name != ascii "q") =
        (referencesOf all).filter (fun r => r.name != ascii "q") := by
    intro all
    rw [Qasm.references_reindex reindexes_forgetIndex, List.filter_map]
    have hname : ((fun r : Reference => r.name != ascii "q") ∘ Reference.reindex
        (fun name index => if name = ascii "q" then [] else index)) =
        fun r => r.name != ascii "q" := by
      funext r
      rw [Function.comp_apply, Reference.reindex]
      split <;> rfl
    rw [hname]
    refine (List.map_congr_left (fun r hr => ?_)).trans (List.map_id _)
    have hne : r.name ≠ ascii "q" := bne_iff_ne.mp (List.mem_filter.mp hr).2
    rw [Reference.reindex, if_neg hne]
    split <;> rfl
  rw [references, ← hkeep, h, hkeep, ← references]

/-! ## Comments and strings -/

/-- The comments and strings of a rewritten text. -/
theorem remarks_rewritten (text : List UInt8) (numQubits available id0 id1 : Nat) :
    remarks (rewritten text numQubits available id0 id1) =
      substitute ((sites id0 id1).map (indexRule 113))
        (remarks (declared text numQubits available)) := by
  rw [rewritten_eq, Qasm.remarks_substitute (by decide) isWord_sites]

/-- An index that is replaced has no bracket and no `q`. -/
theorem not_mem_key {c : UInt8} (hc : c = 93 ∨ c = 113) :
    ∀ entry ∈ sites id0 id1, c ∉ entry.1 := by
  have hzero : (93 : UInt8) ∉ ascii "0" ∧ (113 : UInt8) ∉ ascii "0" := by decide
  have hone : (93 : UInt8) ∉ ascii "1" ∧ (113 : UInt8) ∉ ascii "1" := by decide
  have haux : (93 : UInt8) ∉ ascii "aux" ∧ (113 : UInt8) ∉ ascii "aux" := by decide
  intro entry hentry
  rw [sites, List.mem_cons, List.mem_cons, List.mem_singleton] at hentry
  rcases hentry with rfl | rfl | rfl <;> rcases hc with rfl | rfl
  · exact hzero.1
  · exact hzero.2
  · exact hone.1
  · exact hone.2
  · exact haux.1
  · exact haux.2

theorem relocated_of_mem {k : List UInt8} {c : UInt8} (hk : c ∈ k) (hc : c = 93 ∨ c = 113) :
    relocated id0 id1 k = k := by
  have hnone : (sites id0 id1).lookup k = none := by
    refine List.lookup_eq_none_iff.mpr (fun entry hentry => ?_)
    rw [bne_iff_ne]
    rintro rfl
    exact not_mem_key hc entry hentry hk
  rw [relocated, hnone, Option.getD_none]

/-- Nor has an index that is put in. -/
theorem not_mem_value {c : UInt8} (hc : c = 93 ∨ c = 113) :
    ∀ entry ∈ sites id0 id1, c ∉ entry.2 := by
  have hdigits : ∀ n, c ∉ decimal n := by
    intro n
    refine not_mem_decimal (Or.inr ?_)
    rcases hc with rfl | rfl <;> decide
  intro entry hentry
  rw [sites, List.mem_cons, List.mem_cons, List.mem_singleton] at hentry
  rcases hentry with rfl | rfl | rfl
  · exact hdigits id0
  · exact hdigits id1
  · exact hdigits id0

theorem not_mem_relocated {k : List UInt8} {c : UInt8} (hk : c ∉ k) (hc : c = 93 ∨ c = 113) :
    c ∉ relocated id0 id1 k := by
  rw [relocated]
  rcases hlookup : (sites id0 id1).lookup k with _ | v
  · rwa [Option.getD_none]
  · rcases List.lookup_eq_some_iff.mp hlookup with ⟨before, after, hsplit, _⟩
    rw [Option.getD_some]
    exact not_mem_value hc (k, v) (hsplit ▸ List.mem_append_right _ List.mem_cons_self)

/-- An edit of a bracketed index looks the index up. -/
theorem edit_bracketed {table : List (List UInt8 × List UInt8)}
    (htable : ∀ entry ∈ table, (93 : UInt8) ∉ entry.1) {k : List UInt8} (hk : 93 ∉ k)
    (s : List UInt8) :
    edit (table.map (fun entry => (bracketed entry.1, bracketed entry.2))) (bracketed k ++ s) =
      bracketed ((table.lookup k).getD k) ++ s := by
  induction table with
  | nil => rfl
  | cons entry table ih =>
      rcases entry with ⟨key, v⟩
      rw [List.forall_mem_cons] at htable
      rw [List.map_cons]
      by_cases hkey : k = key
      · rw [hkey, edit_head, List.lookup_cons_self, Option.getD_some]
      · have hno : ¬ bracketed key <+: bracketed k ++ s :=
          fun h => hkey (bracketed_inj htable.1 hk h).symm
        rw [edit_tail hno, ih htable.2, List.lookup_cons, beq_eq_false_iff_ne.mpr hkey]

/-- What the loops do behind a `q`. -/
def siteEdits (id0 id1 : Nat) : List (List UInt8 × List UInt8) :=
  (sites id0 id1).map (fun entry => (bracketed entry.1, bracketed entry.2))

theorem siteEdits_eq (id0 id1 : Nat) :
    (sites id0 id1).map (indexRule 113) = (siteEdits id0 id1).map (atMarker 113) := rfl

theorem not_mem_siteEdits :
    ∀ rule ∈ siteEdits id0 id1, (113 : UInt8) ∉ rule.1 ∧ (113 : UInt8) ∉ rule.2 := by
  intro rule hrule
  rcases List.mem_map.mp hrule with ⟨entry, hentry, rfl⟩
  exact ⟨not_mem_bracketed (not_mem_key (Or.inr rfl) entry hentry),
    not_mem_bracketed (not_mem_value (Or.inr rfl) entry hentry)⟩

/-- Behind a `q` nothing is edited exactly if an index that stands there is
    replaced by itself. -/
theorem edit_siteEdits_iff (s : List UInt8) :
    edit (siteEdits id0 id1) s = s ↔
      ∀ k back, s = bracketed k ++ back → relocated id0 id1 k = k := by
  have hkeys : ∀ entry ∈ sites id0 id1, (93 : UInt8) ∉ entry.1 := not_mem_key (Or.inl rfl)
  constructor
  · rintro h k back rfl
    by_cases hk : (93 : UInt8) ∈ k
    · exact relocated_of_mem hk (Or.inl rfl)
    · rw [siteEdits, edit_bracketed hkeys hk, ← relocated] at h
      exact bracketed_inj (not_mem_relocated hk (Or.inl rfl)) hk
        (h ▸ List.prefix_append _ _)
  · intro h
    rcases hfind : (siteEdits id0 id1).find? (fun rule => rule.1.isPrefixOf s) with _ | rule
    · rw [edit, hfind]
    · rcases List.mem_map.mp (List.mem_of_find?_eq_some hfind) with ⟨entry, hentry, hrule⟩
      have hpre := List.find?_some hfind
      rw [← hrule] at hpre
      rcases List.isPrefixOf_iff_prefix.mp hpre with ⟨back, rfl⟩
      have hsame := h entry.1 back rfl
      rw [relocated] at hsame
      rw [siteEdits, edit_bracketed hkeys (hkeys entry hentry), hsame]

/-- The loops leave a text as it is exactly if every index behind a `q` is
    replaced by itself. -/
theorem substitute_sites_iff (s : List UInt8) :
    substitute ((sites id0 id1).map (indexRule 113)) s = s ↔
      ∀ front k back, s = front ++ (indexedQ k ++ back) → relocated id0 id1 k = k := by
  rw [siteEdits_eq, substitute_fixed_iff (fun rule hrule => (not_mem_siteEdits rule hrule).1)
    (fun rule hrule => (not_mem_siteEdits rule hrule).2)]
  constructor
  · intro h front k back hs
    exact (edit_siteEdits_iff (bracketed k ++ back)).mp (h front _ hs) k back rfl
  · intro h front back hs
    refine (edit_siteEdits_iff back).mpr (fun k rest hback => h front k rest ?_)
    rw [hs, hback]
    rfl

theorem substitute_indexedQ_append {k : List UInt8} (hclose : 93 ∉ k) (hq : 113 ∉ k)
    (s : List UInt8) :
    substitute ((sites id0 id1).map (indexRule 113)) (indexedQ k ++ s) =
      indexedQ (relocated id0 id1 k) ++
        substitute ((sites id0 id1).map (indexRule 113)) s := by
  have hrules : ∀ rule ∈ siteEdits id0 id1, (113 : UInt8) ∉ rule.1 :=
    fun rule hrule => (not_mem_siteEdits rule hrule).1
  rcases exists_marked (113 : UInt8) s with ⟨x, ys, rfl, hx, hys⟩
  have hcut : ∀ k x ys,
      indexedQ k ++ marked 113 x ys = marked 113 [] ((bracketed k ++ x) :: ys) := by
    intro k x ys
    rw [marked_cons, marked, marked, List.append_assoc]
    rfl
  have hfirst : (113 : UInt8) ∉ bracketed k ++ x := by
    rw [List.mem_append, not_or]
    exact ⟨not_mem_bracketed hq, hx⟩
  rw [hcut, siteEdits_eq, substitute_marked hrules List.not_mem_nil
    (List.forall_mem_cons.mpr ⟨hfirst, hys⟩), substitute_marked hrules hx hys, List.map_cons, hcut,
    siteEdits, edit_bracketed (not_mem_key (Or.inl rfl)) hclose, ← relocated]

/-- A literal declaration is the keyword and an index behind `q`. -/
theorem declaration_append (numQubits : Nat) (back : List UInt8) :
    declaration numQubits ++ back =
      ascii "qreg " ++ (indexedQ (decimal numQubits) ++ 59 :: back) := by
  simp only [declaration, indexedQ, List.append_assoc]
  rfl

/-- The loops on a literal declaration: its size is an index like any other. -/
theorem substitute_declaration (numQubits : Nat) (front back : List UInt8) :
    substitute ((sites id0 id1).map (indexRule 113)) (front ++ (declaration numQubits ++ back)) =
      substitute ((sites id0 id1).map (indexRule 113)) front ++ (ascii "qreg " ++
        (indexedQ (relocated id0 id1 (decimal numQubits)) ++ 59 ::
          substitute ((sites id0 id1).map (indexRule 113)) back)) := by
  have hrules : ∀ rule ∈ siteEdits id0 id1, (113 : UInt8) ∉ rule.1 :=
    fun rule hrule => (not_mem_siteEdits rule hrule).1
  have hkeyword : substitute ((siteEdits id0 id1).map (atMarker 113)) (ascii "qreg ") =
      ascii "qreg " := rfl
  have hend : substitute ((siteEdits id0 id1).map (atMarker 113)) (59 :: back) =
      59 :: substitute ((siteEdits id0 id1).map (atMarker 113)) back := by
    have hletter : (113 : UInt8) ∉ [59] := by decide
    exact substitute_unmarked hletter back
  have hfirst : ∀ s, ascii "qreg " ++ s = 113 :: (ascii "reg " ++ s) := fun s => rfl
  have hindex : ∀ k s, indexedQ k ++ s = 113 :: (bracketed k ++ s) := fun k s => rfl
  have hindexed : substitute ((sites id0 id1).map (indexRule 113))
      (indexedQ (decimal numQubits) ++ 59 :: back) =
      indexedQ (relocated id0 id1 (decimal numQubits)) ++
        substitute ((sites id0 id1).map (indexRule 113)) (59 :: back) :=
    substitute_indexedQ_append (not_mem_decimal (by decide)) (not_mem_decimal (by decide)) _
  -- The text is cut before the keyword and before the index, where a `q` stands.
  rw [siteEdits_eq] at hindexed ⊢
  rw [declaration_append, hfirst, substitute_append_marker hrules, ← hfirst, hindex,
    substitute_append_marker hrules, ← hindex, hindexed, hkeyword, hend]

/-- A `q[k]` is resized in the one place where the declaration stands. -/
theorem resized_of_ne {k back' : List UInt8} {front' : List UInt8}
    (hunique : ∀ other rest, front ++ (declaration numQubits ++ back) =
      other ++ (declaration numQubits ++ rest) → other = front)
    (h : front ++ (declaration numQubits ++ back) = front' ++ (indexedQ k ++ back'))
    (hne : front' ≠ front ++ ascii "qreg ") :
    resized numQubits available front' k back' = k := by
  rw [resized, if_neg]
  rintro ⟨⟨other, rfl⟩, rfl, ⟨rest, rfl⟩⟩
  refine hne ?_
  rw [hunique other rest]
  rw [h, declaration_append, List.append_assoc, List.singleton_append]

/-- A text in which the declaration stands once. The places of a `q[k]` are
    those before the declaration, the declaration itself and those behind it. -/
theorem substitute_resized_iff
    (hunique : ∀ other rest, front ++ (declaration numQubits ++ back) =
      other ++ (declaration numQubits ++ rest) → other = front) :
    substitute ((sites id0 id1).map (indexRule 113)) (front ++ (declaration available ++ back)) =
        front ++ (declaration numQubits ++ back) ↔
      ∀ front' k back', front ++ (declaration numQubits ++ back) = front' ++ (indexedQ k ++ back') →
        relocated id0 id1 (resized numQubits available front' k back') = k := by
  have hclose : ∀ n, (93 : UInt8) ∉ decimal n := fun n => not_mem_decimal (by decide)
  -- Both sides say it of the three parts.
  have hleft : substitute ((sites id0 id1).map (indexRule 113))
        (front ++ (declaration available ++ back)) = front ++ (declaration numQubits ++ back) ↔
      substitute ((sites id0 id1).map (indexRule 113)) front = front ∧
        relocated id0 id1 (decimal available) = decimal numQubits ∧
        substitute ((sites id0 id1).map (indexRule 113)) back = back := by
    rw [substitute_declaration, declaration_append]
    constructor
    · intro h
      have hcount : (substitute ((siteEdits id0 id1).map (atMarker 113)) front).count 113 =
          front.count 113 :=
        count_substitute (fun rule hrule => (not_mem_siteEdits rule hrule).1)
          (fun rule hrule => (not_mem_siteEdits rule hrule).2) front
      rcases append_marker_inj hcount h with ⟨hfront, hrest⟩
      have hindex := List.append_cancel_left hrest
      have hsize : relocated id0 id1 (decimal available) = decimal numQubits := by
        refine bracketed_inj (not_mem_relocated (hclose available) (Or.inl rfl)) (hclose numQubits)
          (s := 59 :: back) ?_
        have hbracket : bracketed (relocated id0 id1 (decimal available)) ++
            59 :: substitute ((sites id0 id1).map (indexRule 113)) back =
            bracketed (decimal numQubits) ++ 59 :: back := (List.cons.inj hindex).2
        rw [← hbracket]
        exact List.prefix_append _ _
      rw [hsize] at hindex
      exact ⟨hfront, hsize, (List.cons.inj (List.append_cancel_left hindex)).2⟩
    · rintro ⟨hfront, hsize, hback⟩
      rw [hfront, hsize, hback]
  rw [hleft, substitute_sites_iff, substitute_sites_iff]
  constructor
  · rintro ⟨hfront, hsize, hback⟩ front' k back' h
    by_cases hhere : ascii "qreg " <:+ front' ∧ k = decimal numQubits ∧ [59] <+: back'
    · rw [resized, if_pos hhere, hsize, hhere.2.1]
    rw [resized, if_neg hhere]
    by_cases hend : (93 : UInt8) ∈ k
    · exact relocated_of_mem hend (Or.inl rfl)
    by_cases hletter : (113 : UInt8) ∈ k
    · exact relocated_of_mem hletter (Or.inr rfl)
    have hcut : front ++ 113 :: (ascii "reg " ++
        113 :: (bracketed (decimal numQubits) ++ 59 :: back)) =
        front' ++ 113 :: (bracketed k ++ back') := by
      rw [declaration_append] at h
      exact h
    rcases append_marker_cases hcut with ⟨_, hs⟩ | ⟨gap, hgap, hs⟩ | ⟨gap, hgap, hs⟩
    · -- Behind the first letter of the keyword comes no bracket.
      have hbracket : ∀ s, ascii "reg " ++ s = 114 :: (ascii "eg " ++ s) := fun s => rfl
      rw [hbracket] at hs
      exact absurd (List.cons.inj hs).1 (by decide)
    · rcases append_marker_cases hs with
        ⟨hkeyword, hs⟩ | ⟨gap', hkeyword, hs⟩ | ⟨gap', hkeyword, _⟩
      · -- The size of the declaration, which would have been rewritten.
        have hpre : bracketed k <+: bracketed (decimal numQubits) ++ 59 :: back := by
          rw [hs]
          exact List.prefix_append _ _
        have hk := bracketed_inj hend (hclose numQubits) hpre
        rw [hk] at hs
        have hrest := List.append_cancel_left hs
        refine absurd ⟨⟨front, ?_⟩, hk, ⟨back, hrest⟩⟩ hhere
        rw [hgap, ← hkeyword]
        rfl
      · have hnone : (113 : UInt8) ∉ bracketed (decimal numQubits) ++ [59] := by
          rw [List.mem_append, not_or]
          exact ⟨not_mem_bracketed (not_mem_decimal (by decide)), by decide⟩
        have hback' : (bracketed (decimal numQubits) ++ [59]) ++ back =
            gap' ++ 113 :: (bracketed k ++ back') := by
          rw [List.append_assoc]
          exact hs
        rcases exists_gap hnone hback' with ⟨before, _, hbefore⟩
        exact hback before k back' hbefore
      · have hnone : (113 : UInt8) ∉ ascii "reg " := by decide
        refine absurd ?_ hnone
        rw [hkeyword]
        exact List.mem_append_right _ List.mem_cons_self
    · rcases exists_gap (not_mem_bracketed hletter) hs with ⟨gap', hgap', _⟩
      refine hfront front' k gap' ?_
      rw [hgap, hgap']
      rfl
  · intro h
    refine ⟨fun front' k back' hfront => ?_, ?_, fun front' k back' hback => ?_⟩
    · have hsplit : front ++ (declaration numQubits ++ back) =
          front' ++ (indexedQ k ++ (back' ++ (declaration numQubits ++ back))) := by
        rw [hfront, List.append_assoc, List.append_assoc]
      have hsame := h _ _ _ hsplit
      rwa [resized_of_ne hunique hsplit] at hsame
      intro heq
      have hlength := congrArg List.length heq
      rw [hfront] at hlength
      simp only [List.length_append] at hlength
      have hfive : (ascii "qreg ").length = 5 := rfl
      omega
    · have hsame := h (front ++ ascii "qreg ") (decimal numQubits) (59 :: back)
        (by rw [declaration_append, List.append_assoc])
      rwa [resized, if_pos ⟨List.suffix_append _ _, rfl, List.prefix_append [59] back⟩] at hsame
    · have hsplit : front ++ (declaration numQubits ++ back) =
          (front ++ (declaration numQubits ++ front')) ++ (indexedQ k ++ back') := by
        rw [hback]
        simp only [List.append_assoc]
      have hsame := h _ _ _ hsplit
      rwa [resized_of_ne hunique hsplit] at hsame
      intro heq
      have hlength := congrArg List.length (List.append_cancel_left heq)
      simp only [declaration, List.length_append] at hlength
      have hfive : (ascii "qreg ").length = 5 := rfl
      have hopen : (ascii "qreg q[").length = 7 := rfl
      omega

/-- A literal declaration in a comment or a string is a part of the remarks,
    any other one is not. -/
theorem remarks_declaration (front back : List UInt8) (numQubits : Nat) :
    remarks (front ++ (declaration numQubits ++ back)) = remarks front ++
      (if (modeBehind front).skips then
        declaration numQubits ++ remarksFrom (modeBehind front) back
      else remarksFrom (.code []) back) := by
  have hline := not_mem_declaration (Or.inl rfl) numQubits
  have hquote := not_mem_declaration (Or.inr (Or.inl rfl)) numQubits
  rw [remarks, Qasm.remarksFrom_append, ← modeBehind, remarks]
  by_cases hskips : (modeBehind front).skips = true
  · rw [if_pos hskips, Qasm.remarksFrom_skips hskips hline hquote]
  · rw [if_neg hskips]
    rw [Bool.not_eq_true] at hskips
    rw [Qasm.remarksFrom_append, readAll_declaration hskips, Qasm.remarksFrom_code hskips
      (not_mem_declaration (Or.inr (Or.inr rfl)) numQubits) hquote, List.nil_append]

/-- The remarks of a rewritten text stay as they are exactly if every index in
    them is replaced by itself. -/
theorem remarks_rewritten_iff (hn : numQubits ≤ 2) (hsizes : registerSizes text = [numQubits]) :
    remarks (rewritten text numQubits available id0 id1) = remarks text ↔
      ∀ front k back, remarks text = front ++ (indexedQ k ++ back) →
        relocated id0 id1 (resized numQubits available front k back) = k := by
  have hne : declaration numQubits ≠ [] := List.cons_ne_nil _ _
  have hline := not_mem_declaration (Or.inl rfl) numQubits
  have hquote := not_mem_declaration (Or.inr (Or.inl rfl)) numQubits
  -- What occurs in the remarks is the declaration that is rewritten.
  have hfound : ∀ a b, remarks text = a ++ (declaration numQubits ++ b) →
      ∃ front back, text = front ++ (declaration numQubits ++ back) ∧
        (modeBehind front).skips = true ∧ remarks front = a :=
    fun a b h => Qasm.exists_of_remarksFrom hne hline hquote h
  rw [remarks_rewritten]
  by_cases hoccurs : ∃ a b, remarks text = a ++ (declaration numQubits ++ b)
  · rcases hoccurs with ⟨a, b, hremarks⟩
    rcases hfound a b hremarks with ⟨front, back, htext, hskips, ha⟩
    have hparts := remarks_declaration front back
    have hbefore := hparts numQubits
    have hafter := hparts available
    rw [if_pos hskips] at hbefore hafter
    rw [← htext] at hbefore
    rw [← declared_of_occurs hn hsizes htext available] at hafter
    rw [hafter, hbefore]
    refine substitute_resized_iff (fun other rest hother => ?_)
    rw [← hbefore] at hother
    rcases hfound other rest hother with ⟨front', back', htext', _, hother'⟩
    rw [← hother', declaration_unique hn hsizes htext htext']
  · -- The declaration is none of the remarks, which are those of the text.
    have hsame : remarks (declared text numQubits available) = remarks text := by
      by_cases hliteral : declaration numQubits <:+: text
      · rcases hliteral with ⟨front, back, htext⟩
        rw [List.append_assoc] at htext
        have hskips : ¬ (modeBehind front).skips = true := by
          intro hskips
          have hparts := remarks_declaration front back numQubits
          rw [if_pos hskips, htext] at hparts
          exact hoccurs ⟨_, _, hparts⟩
        rw [declared_of_occurs hn hsizes htext.symm, remarks_declaration, if_neg hskips, ← htext,
          remarks_declaration, if_neg hskips]
      · rw [declared_of_absent hliteral]
    have hresized : ∀ front k back, remarks text = front ++ (indexedQ k ++ back) →
        resized numQubits available front k back = k := by
      intro front k back h
      rw [resized, if_neg]
      rintro ⟨⟨a, rfl⟩, rfl, ⟨b, rfl⟩⟩
      refine hoccurs ⟨a, b, ?_⟩
      rw [h, declaration_append, List.append_assoc, List.singleton_append]
    rw [hsame, substitute_sites_iff]
    constructor
    · intro h front k back hremarks
      rw [hresized front k back hremarks]
      exact h front k back hremarks
    · intro h front k back hremarks
      have hsame := h front k back hremarks
      rwa [hresized front k back hremarks] at hsame

/-- A rewritten text is changed in `q` only exactly if the text is spared. -/
theorem changesOnlyQ_iff (hn : numQubits ≤ 2) (hsizes : registerSizes text = [numQubits]) :
    ChangesOnlyQ text (rewritten text numQubits available id0 id1) ↔
      Spared text numQubits available id0 id1 := by
  have hnames : (items (rewritten text numQubits available id0 id1)).map forgetIndex =
      (items text).map forgetIndex ↔ ∀ name k, Item.indexed name k ∈ items text →
        name.getLast? = some 113 → name ≠ ascii "q" → relocated id0 id1 k = k := by
    rw [items_rewritten hn hsizes, List.map_inj_left]
    constructor
    · intro h name k hmem
      exact (forget_retarget_iff (.indexed name k)).mp (h _ hmem) name k rfl
    · intro h item hmem
      refine (forget_retarget_iff item).mpr (fun name k hitem => ?_)
      rw [hitem] at hmem
      exact h name k hmem
  constructor
  · rintro ⟨hitems, hremarks, _⟩
    exact ⟨hnames.mp hitems, (remarks_rewritten_iff hn hsizes).mp hremarks⟩
  · rintro ⟨hnamed, hremarks⟩
    have hitems := hnames.mpr hnamed
    exact ⟨hitems, (remarks_rewritten_iff hn hsizes).mpr hremarks, references_of_items hitems⟩

end

/-! ## What is changed -/

/-- A program that is accepted is changed in `q` only exactly when it is
    spared. -/
theorem compile_changesOnlyQ_iff (device : ClientDevice) (text out : List UInt8)
    (h : compile device text = .returned out) :
    ∃ numQubits available id0 id1, Accepted device text numQubits available id0 id1 ∧
      (ChangesOnlyQ text out ↔ Spared text numQubits available id0 id1) := by
  rcases compile_returned.mp h with ⟨numQubits, available, id0, id1, haccepted, rfl⟩
  exact ⟨numQubits, available, id0, id1, haccepted,
    changesOnlyQ_iff haccepted.atMost haccepted.sizes⟩

theorem compile_changesOnlyQ_iff_sample :
    ∃ numQubits available id0 id1,
      Accepted crossedDevice (ascii "qreg q[2]; cx q[0],q[1];") numQubits available id0 id1 ∧
      (ChangesOnlyQ (ascii "qreg q[2]; cx q[0],q[1];") (ascii "qreg q[5]; cx q[1],q[0];") ↔
        Spared (ascii "qreg q[2]; cx q[0],q[1];") numQubits available id0 id1) :=
  compile_changesOnlyQ_iff crossedDevice (ascii "qreg q[2]; cx q[0],q[1];")
    (ascii "qreg q[5]; cx q[1],q[0];") (by decide +kernel)

/-- A program with a classical register whose name ends in `q`. -/
def measuredProgram : List UInt8 := ascii "qreg q[2];creg cq[2];measure q[0]->cq[0];"

/-- What the tool makes of it. -/
def measuredOutput : List UInt8 := ascii "qreg q[5];creg cq[2];measure q[1]->cq[1];"

/-- A result that is stored in another bit than the program says. -/
theorem compile_renames_bit :
    compile crossedDevice measuredProgram = .returned measuredOutput ∧
      (declarations measuredProgram).map Reference.name = [ascii "q"] ∧
      ¬ ChangesOnlyQ measuredProgram measuredOutput ∧
      ∃ r ∈ references measuredProgram, r.name = ascii "cq" ∧ r ∉ references measuredOutput := by
  have hitems : ¬ (items measuredOutput).map forgetIndex =
      (items measuredProgram).map forgetIndex := by decide +kernel
  refine ⟨by decide +kernel, by decide +kernel, fun h => hitems h.items, ?_⟩
  exact ⟨⟨[], ascii "cq", ascii "0", true⟩, by decide +kernel, rfl, by decide +kernel⟩

end Qdmi
