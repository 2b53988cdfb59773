import Mathlib.Data.List.Nodup

/-!
# Custody of Borrowed Resources

A client deals with providers. It opens a provider, takes resources from it,
uses them, gives them back and closes the provider. `Books` records who is
open and what is held, `Allows` is the discipline, one deal at a time: a
provider is opened when it is closed, and nothing else is asked of it then; a
resource is used and returned while it is held; a provider is closed when
nothing of it is held any more. An attempt to open may fail, and then nothing
has changed.

`Lawful` extends the discipline to a sequence of deals, and `Leads` adds where
the sequence leaves the books. Sequences compose by `leads_append`, so the
deals of a program are followed call by call, and `leads_returns` and
`leads_closes` are the two loops of an orderly shutdown.

What a lawful sequence means is said without books by the last section. What
has been taken and opened was returned and closed, or is on the books at the
end. A provider is opened when each earlier opening has been closed, and is
left alone while it is not open. A resource that has been taken is back before
its provider is closed.

## Main definitions

* `Deal`: What a client does with a provider.
* `Books`: The open providers and the resources held.
* `Books.Allows`, `Books.after`: The discipline, and the books after a deal.
* `Lawful`, `Leads`: Sequences of deals.

## Theorems

* `leads_append`, `leads_cons`: Sequences compose.
* `leads_one`, `leads_uses`: A single deal, and one that moves no books.
* `leads_other`: The books of a provider without deals.
* `leads_held`, `lawful_not_takes`: What is held and not given back is still held,
  and it is not taken again.
* `leads_takes`, `leads_borrow`: Taking a new resource, to keep or for a while.
* `leads_returns`, `leads_closes`: Returning and closing a whole list.
* `lawful_quiet`, `lawful_idle`: A provider that is not open is left alone.
* `leads_balance_held`, `leads_balance_opened`: What has been taken and opened
  was returned and closed, or is on the books.
* `lawful_opens`: Where a provider is opened, it was closed before.
* `lawful_returns`: Where a provider is closed, its resources are back.
-/

namespace Qdmi

/-- What a client does with a provider `k`, and with a resource `r` of it. -/
inductive Deal (κ ρ : Type) where
  | opens (k : κ) (ok : Bool)
  | closes (k : κ)
  | calls (k : κ)
  | takes (k : κ) (r : ρ)
  | uses (k : κ) (r : ρ)
  | returns (k : κ) (r : ρ)
  deriving DecidableEq

/-- The open providers and the resources held. -/
@[ext]
structure Books (κ ρ : Type) where
  opened : κ → Prop
  held : κ → ρ → Prop

section

variable {κ ρ : Type}

/-- The provider of a deal. -/
def Deal.provider : Deal κ ρ → κ
  | .opens k _ => k
  | .closes k => k
  | .calls k => k
  | .takes k _ => k
  | .uses k _ => k
  | .returns k _ => k

namespace Books

/-- Nothing is open and nothing is held. -/
def empty : Books κ ρ := ⟨fun _ => False, fun _ _ => False⟩

/-- The discipline, one deal at a time. -/
def Allows (b : Books κ ρ) : Deal κ ρ → Prop
  | .opens k _ => ¬ b.opened k
  | .closes k => b.opened k ∧ ∀ r, ¬ b.held k r
  | .calls k => b.opened k
  | .takes k r => b.opened k ∧ ¬ b.held k r
  | .uses k r => b.opened k ∧ b.held k r
  | .returns k r => b.opened k ∧ b.held k r

/-- The books after a deal. An attempt to open that fails changes nothing. -/
def after (b : Books κ ρ) : Deal κ ρ → Books κ ρ
  | .opens k ok => { b with opened := fun k' => b.opened k' ∨ (k' = k ∧ ok = true) }
  | .closes k => { b with opened := fun k' => b.opened k' ∧ k' ≠ k }
  | .calls _ => b
  | .takes k r => { b with held := fun k' r' => b.held k' r' ∨ (k' = k ∧ r' = r) }
  | .uses _ _ => b
  | .returns k r => { b with held := fun k' r' => b.held k' r' ∧ ¬ (k' = k ∧ r' = r) }

end Books

/-- Every deal of a sequence is allowed when its turn comes. -/
def Lawful : Books κ ρ → List (Deal κ ρ) → Prop
  | _, [] => True
  | b, d :: ds => b.Allows d ∧ Lawful (b.after d) ds

/-- A sequence is lawful and leaves the books as given. -/
def Leads (b : Books κ ρ) (ds : List (Deal κ ρ)) (b' : Books κ ρ) : Prop :=
  Lawful b ds ∧ ds.foldl Books.after b = b'

theorem leads_nil (b : Books κ ρ) : Leads b [] b := ⟨trivial, rfl⟩

theorem leads_cons {b b' : Books κ ρ} {d : Deal κ ρ} {ds : List (Deal κ ρ)} (h : b.Allows d)
    (hrest : Leads (b.after d) ds b') : Leads b (d :: ds) b' := ⟨⟨h, hrest.1⟩, hrest.2⟩

theorem leads_append {b b' b'' : Books κ ρ} {ds ds' : List (Deal κ ρ)} (h : Leads b ds b')
    (h' : Leads b' ds' b'') : Leads b (ds ++ ds') b'' := by
  induction ds generalizing b with
  | nil =>
      rw [← h.2] at h'
      exact h'
  | cons d ds ih => exact leads_cons h.1.1 (ih ⟨h.1.2, h.2⟩)

/-- A sequence can be cut anywhere. -/
theorem leads_split {b b' : Books κ ρ} {ds ds' : List (Deal κ ρ)} (h : Leads b (ds ++ ds') b') :
    ∃ c, Leads b ds c ∧ Leads c ds' b' := by
  induction ds generalizing b with
  | nil => exact ⟨b, leads_nil b, h⟩
  | cons d ds ih =>
      rcases ih ⟨h.1.2, h.2⟩ with ⟨c, hc, hc'⟩
      exact ⟨c, leads_cons h.1.1 hc, hc'⟩

theorem leads_one {b b' : Books κ ρ} {d : Deal κ ρ} (h : Leads b [d] b') :
    b.Allows d ∧ b' = b.after d := ⟨h.1.1, h.2.symm⟩

/-- Using a resource does not move the books. -/
theorem leads_uses {b b' : Books κ ρ} {k : κ} {r : ρ} (h : Leads b [.uses k r] b') :
    (b.opened k ∧ b.held k r) ∧ b' = b := leads_one h

/-- The books of a provider do not move in a deal with another. -/
theorem after_other {b : Books κ ρ} {d : Deal κ ρ} {k : κ} (hne : k ≠ d.provider) :
    ((b.after d).opened k ↔ b.opened k) ∧ ∀ r, (b.after d).held k r ↔ b.held k r := by
  cases d with
  | opens k' ok => exact ⟨or_iff_left (fun hc => hne hc.1), fun _ => Iff.rfl⟩
  | closes k' => exact ⟨and_iff_left hne, fun _ => Iff.rfl⟩
  | calls k' => exact ⟨Iff.rfl, fun _ => Iff.rfl⟩
  | takes k' r' => exact ⟨Iff.rfl, fun _ => or_iff_left (fun hc => hne hc.1)⟩
  | uses k' r' => exact ⟨Iff.rfl, fun _ => Iff.rfl⟩
  | returns k' r' => exact ⟨Iff.rfl, fun _ => and_iff_left (fun hc => hne hc.1)⟩

theorem leads_other {b b' : Books κ ρ} {ds : List (Deal κ ρ)} (h : Leads b ds b') {k : κ}
    (hne : ∀ d ∈ ds, k ≠ d.provider) :
    (b'.opened k ↔ b.opened k) ∧ ∀ r, b'.held k r ↔ b.held k r := by
  induction ds generalizing b with
  | nil =>
      rw [← h.2]
      exact ⟨Iff.rfl, fun _ => Iff.rfl⟩
  | cons d ds ih =>
      have hone := after_other (b := b) (hne d List.mem_cons_self)
      have hrest := ih ⟨h.1.2, h.2⟩ (fun d' hd' => hne d' (List.mem_cons_of_mem _ hd'))
      exact ⟨hrest.1.trans hone.1, fun r => (hrest.2 r).trans (hone.2 r)⟩

/-- What is held and not given back is still held. -/
theorem leads_held {b b' : Books κ ρ} {ds : List (Deal κ ρ)} {k : κ} {r : ρ} (h : Leads b ds b')
    (hheld : b.held k r) (hback : Deal.returns k r ∉ ds) : b'.held k r := by
  induction ds generalizing b with
  | nil =>
      rw [← h.2]
      exact hheld
  | cons d ds ih =>
      rw [List.mem_cons, not_or] at hback
      refine ih ⟨h.1.2, h.2⟩ ?_ hback.2
      cases d with
      | opens | closes | calls | uses => exact hheld
      | takes k' r' => exact Or.inl hheld
      | returns k' r' =>
          refine ⟨hheld, fun heq => hback.1 ?_⟩
          rw [heq.1, heq.2]

/-- What is held and not given back is not taken again. -/
theorem lawful_not_takes {b : Books κ ρ} {ds : List (Deal κ ρ)} {k : κ} {r : ρ} (h : Lawful b ds)
    (hheld : b.held k r) (hback : Deal.returns k r ∉ ds) : Deal.takes k r ∉ ds := by
  induction ds generalizing b with
  | nil => exact List.not_mem_nil
  | cons d ds ih =>
      rw [List.mem_cons, not_or] at hback
      -- The first deal leaves it held.
      have hone : Leads b [d] (b.after d) := leads_cons h.1 (leads_nil _)
      have hafter := leads_held hone hheld (fun hmem => hback.1 (List.mem_singleton.mp hmem))
      rw [List.mem_cons, not_or]
      refine ⟨fun heq => ?_, ih h.2 hafter hback.2⟩
      have hallow := h.1
      rw [← heq] at hallow
      exact hallow.2 hheld

/-- A new resource is taken and then used. -/
theorem leads_takes {b : Books κ ρ} {k : κ} {r : ρ} {uses : List (Deal κ ρ)} (hopen : b.opened k)
    (hnew : ¬ b.held k r) (huses : ∀ d ∈ uses, d = .uses k r) :
    Leads b (.takes k r :: uses) (b.after (.takes k r)) := by
  refine leads_cons ⟨hopen, hnew⟩ ?_
  have hheld : (b.after (.takes k r)).opened k ∧ (b.after (.takes k r)).held k r :=
    ⟨hopen, Or.inr ⟨rfl, rfl⟩⟩
  generalize b.after (.takes k r) = c at hheld
  -- Using the resource does not move the books.
  induction uses with
  | nil => exact leads_nil c
  | cons d uses ih =>
      rw [huses d List.mem_cons_self]
      exact leads_cons hheld (ih (fun d' hd' => huses d' (List.mem_cons_of_mem _ hd')))

/-- A new resource is taken, used and given back. -/
theorem leads_borrow {b : Books κ ρ} {k : κ} {r : ρ} {uses : List (Deal κ ρ)} (hopen : b.opened k)
    (hnew : ¬ b.held k r) (huses : ∀ d ∈ uses, d = .uses k r) :
    Leads b (.takes k r :: (uses ++ [.returns k r])) b := by
  have htaken := leads_takes hopen hnew huses
  -- Taking and returning cancel, since the resource was not held before.
  have hback : (b.after (.takes k r)).after (.returns k r) = b := by
    ext k' r'
    · exact Iff.rfl
    · constructor
      · rintro ⟨hin | heq, hne⟩
        · exact hin
        · exact absurd heq hne
      · intro hin
        refine ⟨Or.inl hin, fun heq => hnew ?_⟩
        rwa [← heq.1, ← heq.2]
  refine leads_append htaken (leads_cons ⟨hopen, Or.inr ⟨rfl, rfl⟩⟩ ?_)
  rw [hback]
  exact leads_nil b

/-- Returning a whole list of resources. -/
theorem leads_returns {b : Books κ ρ} (l : List (κ × ρ)) (hnodup : l.Nodup)
    (hheld : ∀ x ∈ l, b.opened x.1 ∧ b.held x.1 x.2) :
    Leads b (l.map (fun x => .returns x.1 x.2))
      { b with held := fun k r => b.held k r ∧ (k, r) ∉ l } := by
  induction l generalizing b with
  | nil =>
      have hb : { b with held := fun k r => b.held k r ∧ (k, r) ∉ [] } = b := by
        ext k
        · exact Iff.rfl
        · exact and_iff_left List.not_mem_nil
      rw [hb]
      exact leads_nil b
  | cons x l ih =>
      rcases List.nodup_cons.mp hnodup with ⟨hx, hnodup⟩
      -- What is returned later is still held after `x` is back.
      have hlater : ∀ y ∈ l, (b.after (.returns x.1 x.2)).opened y.1 ∧
          (b.after (.returns x.1 x.2)).held y.1 y.2 := by
        intro y hy
        rcases hheld y (List.mem_cons_of_mem _ hy) with ⟨hopen, hin⟩
        refine ⟨hopen, hin, fun hyx => ?_⟩
        exact hx (Prod.ext hyx.1 hyx.2 ▸ hy)
      have hrest := ih hnodup hlater
      have hbooks : { b.after (.returns x.1 x.2) with
          held := fun k r => (b.after (.returns x.1 x.2)).held k r ∧ (k, r) ∉ l } =
          { b with held := fun k r => b.held k r ∧ (k, r) ∉ x :: l } := by
        ext k r
        · exact Iff.rfl
        · simp only [Books.after, List.mem_cons, not_or, and_assoc, Prod.ext_iff]
      rw [hbooks] at hrest
      exact leads_cons (hheld x List.mem_cons_self) hrest

/-- Closing a whole list of providers. -/
theorem leads_closes {b : Books κ ρ} (l : List κ) (hnodup : l.Nodup)
    (hopen : ∀ k ∈ l, b.opened k ∧ ∀ r, ¬ b.held k r) :
    Leads b (l.map .closes) { b with opened := fun k => b.opened k ∧ k ∉ l } := by
  induction l generalizing b with
  | nil =>
      have hb : { b with opened := fun k => b.opened k ∧ k ∉ [] } = b := by
        ext k
        · exact and_iff_left List.not_mem_nil
        · exact Iff.rfl
      rw [hb]
      exact leads_nil b
  | cons k l ih =>
      rcases List.nodup_cons.mp hnodup with ⟨hk, hnodup⟩
      -- The list has no duplicates, so what is closed later is still open.
      have hlater : ∀ k' ∈ l, (b.after (.closes k)).opened k' ∧
          ∀ r, ¬ (b.after (.closes k)).held k' r := by
        intro k' hk'
        rcases hopen k' (List.mem_cons_of_mem _ hk') with ⟨hin, hnone⟩
        exact ⟨⟨hin, fun heq => hk (heq ▸ hk')⟩, hnone⟩
      have hrest := ih hnodup hlater
      have hbooks : { b.after (.closes k) with
          opened := fun k' => (b.after (.closes k)).opened k' ∧ k' ∉ l } =
          { b with opened := fun k' => b.opened k' ∧ k' ∉ k :: l } := by
        ext k'
        · simp only [Books.after, List.mem_cons, not_or, and_assoc]
        · exact Iff.rfl
      rw [hbooks] at hrest
      exact leads_cons (hopen k List.mem_cons_self) hrest

/-! ## What a lawful sequence means -/

/-- A provider that is not open is left alone until it is opened. -/
theorem lawful_quiet {k : κ} {ds : List (Deal κ ρ)} {b : Books κ ρ} (h : Lawful b ds)
    (hclosed : ¬ b.opened k) (hnot : ∀ ok, Deal.opens k ok ∉ ds) : ∀ d ∈ ds, d.provider ≠ k := by
  induction ds generalizing b with
  | nil => exact fun d hd => absurd hd List.not_mem_nil
  | cons d ds ih =>
      -- Anything but opening needs an open provider.
      have hd : d.provider ≠ k := by
        rintro rfl
        cases d with
        | opens k ok => exact hnot ok List.mem_cons_self
        | calls k => exact hclosed h.1
        | closes k | takes k r | uses k r | returns k r => exact hclosed h.1.1
      have hafter : ¬ (b.after d).opened k := by
        cases d with
        | opens k' ok => exact fun hc => hc.elim hclosed (fun heq => hd heq.1.symm)
        | closes k' => exact fun hc => hclosed hc.1
        | calls | takes | uses | returns => exact hclosed
      intro d' hd'
      rcases List.mem_cons.mp hd' with heq | htail
      · rw [heq]
        exact hd
      · exact ih h.2 hafter (fun ok hok => hnot ok (List.mem_cons_of_mem _ hok)) d' htail

section

variable [DecidableEq κ] [DecidableEq ρ]

open Classical in
/-- What has been taken was returned or is on the books. The induction is on
    the sequence; only the deals with this very resource move the balance. -/
theorem leads_balance_held {b b' : Books κ ρ} {ds : List (Deal κ ρ)} (h : Leads b ds b') (k : κ)
    (r : ρ) : ds.count (.takes k r) + (if b.held k r then 1 else 0) =
      ds.count (.returns k r) + (if b'.held k r then 1 else 0) := by
  induction ds generalizing b with
  | nil =>
      rw [← h.2]
      rfl
  | cons d ds ih =>
      have hrest := ih ⟨h.1.2, h.2⟩
      have hallow := h.1.1
      rw [List.count_cons, List.count_cons]
      by_cases htake : d = .takes k r
      · subst htake
        have hafter : (b.after (.takes k r)).held k r := Or.inr ⟨rfl, rfl⟩
        rw [if_pos hafter] at hrest
        rw [if_neg hallow.2]
        simp only [beq_self_eq_true, if_true, beq_iff_eq, reduceCtorEq, if_false]
        omega
      by_cases hreturn : d = .returns k r
      · subst hreturn
        have hafter : ¬ (b.after (.returns k r)).held k r := fun hc => hc.2 ⟨rfl, rfl⟩
        rw [if_neg hafter] at hrest
        rw [if_pos hallow.2]
        simp only [beq_self_eq_true, if_true, beq_iff_eq, reduceCtorEq, if_false]
        omega
      · -- Any other deal leaves the resource where it is.
        have hafter : (b.after d).held k r ↔ b.held k r := by
          cases d with
          | opens | closes | calls | uses => exact Iff.rfl
          | takes k' r' =>
              refine or_iff_left (fun hc => htake ?_)
              rw [hc.1, hc.2]
          | returns k' r' =>
              refine and_iff_left (fun hc => hreturn ?_)
              rw [hc.1, hc.2]
        rw [if_congr hafter rfl rfl] at hrest
        simp only [beq_iff_eq, htake, hreturn, if_false]
        omega

open Classical in
/-- What has been opened was closed or is open. -/
theorem leads_balance_opened {b b' : Books κ ρ} {ds : List (Deal κ ρ)} (h : Leads b ds b')
    (k : κ) : ds.count (.opens k true) + (if b.opened k then 1 else 0) =
      ds.count (.closes k) + (if b'.opened k then 1 else 0) := by
  induction ds generalizing b with
  | nil =>
      rw [← h.2]
      rfl
  | cons d ds ih =>
      have hrest := ih ⟨h.1.2, h.2⟩
      have hallow := h.1.1
      rw [List.count_cons, List.count_cons]
      by_cases hopen : d = .opens k true
      · subst hopen
        have hafter : (b.after (.opens k true)).opened k := Or.inr ⟨rfl, rfl⟩
        rw [if_pos hafter] at hrest
        rw [if_neg hallow]
        simp only [beq_self_eq_true, if_true, beq_iff_eq, reduceCtorEq, if_false]
        omega
      by_cases hclose : d = .closes k
      · subst hclose
        have hafter : ¬ (b.after (.closes k)).opened k := fun hc => hc.2 rfl
        rw [if_neg hafter] at hrest
        rw [if_pos hallow.1]
        simp only [beq_self_eq_true, if_true, beq_iff_eq, reduceCtorEq, if_false]
        omega
      · -- Any other deal leaves the provider as it is.
        have hafter : (b.after d).opened k ↔ b.opened k := by
          cases d with
          | calls | takes | uses | returns => exact Iff.rfl
          | opens k' ok =>
              refine or_iff_left (fun hc => hopen ?_)
              rw [hc.1, hc.2]
          | closes k' =>
              refine and_iff_left (fun hc => hclose ?_)
              rw [hc]
        rw [if_congr hafter rfl rfl] at hrest
        simp only [beq_iff_eq, hopen, hclose, if_false]
        omega

/-- A provider is opened when each earlier opening has been closed. -/
theorem lawful_opens {k : κ} {ok : Bool} {ds ds' : List (Deal κ ρ)} {b : Books κ ρ}
    (h : Leads .empty (ds ++ .opens k ok :: ds') b) :
    ds.count (.opens k true) = ds.count (.closes k) := by
  classical
  rcases leads_split h with ⟨c, hc, hc'⟩
  have hbalance := leads_balance_opened hc k
  have hempty : ¬ (Books.empty : Books κ ρ).opened k := fun hf => hf
  have hclosed : ¬ c.opened k := hc'.1.1
  rw [if_neg hempty, if_neg hclosed] at hbalance
  exact hbalance

/-- A resource that has been taken is returned before its provider is closed:
    once more than it is taken again in between. -/
theorem lawful_returns {k : κ} {r : ρ} {ds mid ds' : List (Deal κ ρ)} {b b' : Books κ ρ}
    (h : Leads b (ds ++ .takes k r :: (mid ++ .closes k :: ds')) b') :
    mid.count (.returns k r) = mid.count (.takes k r) + 1 := by
  classical
  rcases leads_split h with ⟨c, _, hc⟩
  have hrest : Leads (c.after (.takes k r)) (mid ++ .closes k :: ds') b' := ⟨hc.1.2, hc.2⟩
  rcases leads_split hrest with ⟨c', hc', hclose⟩
  have hbalance := leads_balance_held hc' k r
  have htaken : (c.after (.takes k r)).held k r := Or.inr ⟨rfl, rfl⟩
  have hnone : ¬ c'.held k r := hclose.1.1.2 r
  rw [if_pos htaken, if_neg hnone] at hbalance
  exact hbalance.symm

/-- While each opening so far has been closed, the provider is left alone
    until it is opened. -/
theorem lawful_idle {k : κ} {ds mid ds' : List (Deal κ ρ)} {b : Books κ ρ}
    (h : Leads .empty (ds ++ (mid ++ ds')) b)
    (hclosed : ds.count (.opens k true) = ds.count (.closes k))
    (hnot : ∀ ok, Deal.opens k ok ∉ mid) : ∀ d ∈ mid, d.provider ≠ k := by
  classical
  rcases leads_split h with ⟨c, hc, hrest⟩
  rcases leads_split hrest with ⟨c', hc', _⟩
  have hbalance := leads_balance_opened hc k
  have hempty : ¬ (Books.empty : Books κ ρ).opened k := fun hf => hf
  have hidle : ¬ c.opened k := by
    intro hopen
    rw [if_neg hempty, if_pos hopen] at hbalance
    omega
  exact lawful_quiet hc'.1 hidle hnot

end

end

end Qdmi
