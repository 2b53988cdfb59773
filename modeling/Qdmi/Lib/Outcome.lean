import Mathlib.Data.List.Basic

/-!
# Computations That Can Fail

Rules for reading results off computations in `Except`.

Two questions are asked of such a computation. What must have held when it
returned a value is answered by `bind_eq_ok`, which takes a sequence apart, and
by `mapM_eq_ok_iff`, which does the same for a loop that builds a list and
stops at the first element that fails. Which errors it cannot end in is
answered by `Avoids`: a predicate on one error, closed under the shapes a
computation is built from, so the proof follows the program.

`loopFrom` is a loop that keeps what it has done when it ends early. Its turns
see how many went before, and `loopFrom_induct` is its invariant rule, with one
invariant for the state a turn starts from and one for the state an aborted
loop leaves.

## Main definitions

* `Avoids`: A computation does not end in a given error.
* `loopFrom`: A loop over a list that a turn can end early.

## Theorems

* `bind_eq_ok`, `map_eq_ok`: Taking a sequence apart.
* `mapM_eq_ok_iff`: When a loop that builds a list succeeds.
* `mapM_eq_error`: How such a loop fails.
* `bind_same_or`, `mapM_same_or`: Comparing two computations step by step.
* `avoids_ok`, `avoids_error`, `avoids_bind`, `avoids_map`, `avoids_foldlM`:
  Avoiding an error, by the shape of the computation.
* `loopFrom_induct_split`, `loopFrom_induct`: The invariant rule of such a loop.
* `loopFrom_none_iff`: When such a loop goes through.
* `loopFrom_same_or`, `loopFrom_rel`: Two such loops side by side.
-/

namespace Qdmi

section

variable {ε α β : Type} {e : ε}

theorem bind_eq_ok {x : Except ε α} {f : α → Except ε β} {b : β} (h : x >>= f = .ok b) :
    ∃ a, x = .ok a ∧ f a = .ok b := by
  rcases x with d | a
  · exact absurd h (by simp only [bind, Except.bind, reduceCtorEq, not_false_eq_true])
  · exact ⟨a, rfl, h⟩

theorem map_eq_ok {x : Except ε α} {f : α → β} {b : β} (h : x.map f = .ok b) :
    ∃ a, x = .ok a ∧ f a = b := by
  rcases x with d | a
  · exact absurd h (by simp only [Except.map, reduceCtorEq, not_false_eq_true])
  · exact ⟨a, rfl, Except.ok.inj h⟩

/-- A loop that builds a list succeeds if every turn does, and builds the list
    of what the turns compute. -/
theorem mapM_eq_ok_iff {f : α → Except ε β} (g : α → β) (hf : ∀ a b, f a = .ok b → b = g a)
    (l : List α) (bs : List β) :
    l.mapM f = .ok bs ↔ (∀ a ∈ l, f a = .ok (g a)) ∧ bs = l.map g := by
  constructor
  · intro h
    induction l generalizing bs with
    | nil =>
        have hnil : ([] : List β) = bs := Except.ok.inj h
        exact ⟨fun a ha => absurd ha List.not_mem_nil, hnil.symm⟩
    | cons a l ih =>
        rw [List.mapM_cons] at h
        rcases bind_eq_ok h with ⟨b, hb, hrest⟩
        rcases bind_eq_ok hrest with ⟨bs', hbs', hpure⟩
        have hcons : b :: bs' = bs := Except.ok.inj hpure
        rcases ih bs' hbs' with ⟨hall, heq⟩
        -- A turn that succeeds computes what `g` says.
        have hba := hf a b hb
        refine ⟨fun a' ha' => ?_, ?_⟩
        · rcases List.mem_cons.mp ha' with h₁ | h₁
          · rw [h₁, ← hba, hb]
          · exact hall a' h₁
        · rw [← hcons, heq, hba, List.map_cons]
  · rintro ⟨hall, hbs⟩
    induction l generalizing bs with
    | nil =>
        rw [hbs]
        rfl
    | cons a l ih =>
        have htail := ih (l.map g) (fun b hb => hall b (List.mem_cons_of_mem _ hb)) rfl
        rw [List.mapM_cons, hall a List.mem_cons_self, htail, hbs]
        rfl

/-- A loop that builds a list fails with the error of one of its turns. -/
theorem mapM_eq_error {f : α → Except ε β} {l : List α} (h : l.mapM f = .error e) :
    ∃ a ∈ l, f a = .error e := by
  induction l with
  | nil =>
      rw [List.mapM_nil] at h
      exact absurd h (by simp only [pure, Except.pure, reduceCtorEq, not_false_eq_true])
  | cons a l ih =>
      rcases hone : f a with d | b
      · simp only [List.mapM_cons, hone, bind, Except.bind, Except.error.injEq] at h
        exact ⟨a, List.mem_cons_self, by rw [hone, h]⟩
      · rcases hrest : l.mapM f with d | bs
        · simp only [List.mapM_cons, hone, hrest, bind, Except.bind, Except.error.injEq] at h
          rcases ih (by rw [hrest, h]) with ⟨a', ha', hfa'⟩
          exact ⟨a', List.mem_cons_of_mem _ ha', hfa'⟩
        · simp only [List.mapM_cons, hone, hrest, bind, Except.bind, pure, Except.pure,
            reduceCtorEq] at h

/-- A computation goes on as another one would, or fails with a given error. -/
theorem bind_same_or {f g : α → Except ε β} (x : Except ε α)
    (hfg : ∀ a, f a = g a ∨ f a = .error e) : x >>= f = x >>= g ∨ x >>= f = .error e := by
  rcases x with d | a
  · exact Or.inl rfl
  · exact hfg a

/-- A loop whose turns go as they would in another one, or fail with a given
    error. -/
theorem mapM_same_or {f g : α → Except ε β} (hfg : ∀ a, f a = g a ∨ f a = .error e)
    (l : List α) : l.mapM f = l.mapM g ∨ l.mapM f = .error e := by
  induction l with
  | nil => exact Or.inl rfl
  | cons a l ih =>
      rw [List.mapM_cons, List.mapM_cons]
      rcases hfg a with ha | ha
      · rw [ha]
        refine bind_same_or (g a) (fun b => ?_)
        rcases ih with hl | hl
        · exact Or.inl (by rw [hl])
        · exact Or.inr (by rw [hl]; rfl)
      · exact Or.inr (by rw [ha]; rfl)

/-- A computation does not end in the given error. -/
def Avoids (e : ε) (x : Except ε α) : Prop := x ≠ .error e

theorem avoids_ok (a : α) : Avoids e (.ok a) := by
  simp only [Avoids, ne_eq, reduceCtorEq, not_false_eq_true]

theorem avoids_error {d : ε} (h : d ≠ e) : Avoids e (.error d : Except ε α) := by
  simpa only [Avoids, ne_eq, Except.error.injEq] using h

theorem avoids_bind {x : Except ε α} {f : α → Except ε β} (hx : Avoids e x)
    (hf : ∀ a, Avoids e (f a)) : Avoids e (x >>= f) := by
  rcases x with d | a
  · exact avoids_error (fun hd => hx (congrArg Except.error hd))
  · exact hf a

theorem avoids_map {x : Except ε α} {f : α → β} (hx : Avoids e x) : Avoids e (x.map f) := by
  rcases x with d | a
  · exact avoids_error (fun hd => hx (congrArg Except.error hd))
  · exact avoids_ok (f a)

theorem avoids_foldlM {body : β → α → Except ε β} (hbody : ∀ b a, Avoids e (body b a))
    (l : List α) (b : β) : Avoids e (l.foldlM body b) := by
  induction l generalizing b with
  | nil => exact avoids_ok b
  | cons a l ih =>
      rw [List.foldlM_cons]
      exact avoids_bind (hbody b a) ih

end

section

variable {α σ ε : Type} (body : Nat → α → σ → σ × Option ε)

/-- A loop over a list with a count of its turns. A turn that aborts ends it,
    and leaves its state behind. -/
def loopFrom : Nat → List α → σ → σ × Option ε
  | _, [], s => (s, none)
  | k, a :: as, s =>
    match body k a s with
    | (s, some e) => (s, some e)
    | (s, none) => loopFrom (k + 1) as s

variable {body}

/-- The invariant rule of what is left of a loop. The induction is on the
    elements still to come; `done` are the ones before them. -/
theorem loopFrom_induct_from {P : List α → σ → Prop} {Q : σ → ε → Prop} {all : List α}
    (hturn : ∀ done a after s s', all = done ++ a :: after → P done s →
      body done.length a s = (s', none) → P (done ++ [a]) s')
    (habort : ∀ done a after s s' e, all = done ++ a :: after → P done s →
      body done.length a s = (s', some e) → Q s' e) (as : List α) :
    ∀ (done : List α) {s s' : σ} {r : Option ε}, all = done ++ as → P done s →
      loopFrom body done.length as s = (s', r) →
      (r = none → P all s') ∧ ∀ e, r = some e → Q s' e := by
  induction as with
  | nil =>
      intro done s s' r hall hP h
      rw [loopFrom, Prod.mk.injEq] at h
      rw [← h.1, ← h.2, hall, List.append_nil]
      exact ⟨fun _ => hP, fun e he => absurd he (by simp only [reduceCtorEq, not_false_eq_true])⟩
  | cons a as ih =>
      intro done s s' r hall hP h
      rw [loopFrom] at h
      rcases hbody : body done.length a s with ⟨t, _ | e⟩
      · simp only [hbody] at h
        -- The turn is done, so its element moves over to `done`.
        have hcount : done.length + 1 = (done ++ [a]).length := by
          rw [List.length_append, List.length_singleton]
        rw [hcount] at h
        refine ih (done ++ [a]) ?_ (hturn done a as s t hall hP hbody) h
        rw [List.append_assoc, List.singleton_append, hall]
      · -- The turn aborts and the rest of the list is not looked at.
        simp only [hbody, Prod.mk.injEq] at h
        rw [← h.1, ← h.2]
        refine ⟨fun hr => absurd hr (by simp only [reduceCtorEq, not_false_eq_true]),
          fun e' he => ?_⟩
        rw [← Option.some.inj he]
        exact habort done a as s t e hall hP hbody

/-- The invariant rule, for turns that know how many went before them. `P` holds
    between the turns, of the elements that are done, and `Q` of what an aborted loop
    leaves. -/
theorem loopFrom_induct_split {P : List α → σ → Prop} {Q : σ → ε → Prop} {as : List α}
    (hturn : ∀ done a after s s', as = done ++ a :: after → P done s →
      body done.length a s = (s', none) → P (done ++ [a]) s')
    (habort : ∀ done a after s s' e, as = done ++ a :: after → P done s →
      body done.length a s = (s', some e) → Q s' e)
    {s s' : σ} {r : Option ε} (h0 : P [] s) (h : loopFrom body 0 as s = (s', r)) :
    (r = none → P as s') ∧ ∀ e, r = some e → Q s' e :=
  loopFrom_induct_from hturn habort as [] rfl h0 h

/-- The invariant rule. -/
theorem loopFrom_induct {P : List α → σ → Prop} {Q : σ → ε → Prop} {as : List α}
    (hturn : ∀ done a k s s', P done s → a ∈ as → body k a s = (s', none) → P (done ++ [a]) s')
    (habort : ∀ done a k s s' e, P done s → a ∈ as → body k a s = (s', some e) → Q s' e)
    {s s' : σ} {r : Option ε} (h0 : P [] s) (h : loopFrom body 0 as s = (s', r)) :
    (r = none → P as s') ∧ ∀ e, r = some e → Q s' e := by
  have hmem : ∀ {done : List α} {a after}, as = done ++ a :: after → a ∈ as := by
    intro done a after heq
    rw [heq]
    exact List.mem_append_right _ List.mem_cons_self
  exact loopFrom_induct_split
    (fun done a _ s s' heq hP hb => hturn done a done.length s s' hP (hmem heq) hb)
    (fun done a _ s s' e heq hP hb => habort done a done.length s s' e hP (hmem heq) hb) h0 h

/-- When such a loop goes through: every turn is one that goes through behind the
    ones before it. -/
theorem loopFrom_none_iff {P : List α → σ → Prop} {Ok : List α → α → Prop}
    (hturn : ∀ done a s, P done s → ((body done.length a s).2 = none ↔ Ok done a))
    (hkeep : ∀ done a s s', P done s → body done.length a s = (s', none) → P (done ++ [a]) s')
    (as : List α) : ∀ done s, P done s → ((loopFrom body done.length as s).2 = none ↔
      ∀ before a after, as = before ++ a :: after → Ok (done ++ before) a) := by
  induction as with
  | nil =>
      intro done s _
      refine iff_of_true rfl (fun before a after h => ?_)
      exact absurd h.symm (List.append_ne_nil_of_right_ne_nil _ (List.cons_ne_nil _ _))
  | cons a as ih =>
      intro done s hP
      have hone := hturn done a s hP
      rw [loopFrom]
      rcases hbody : body done.length a s with ⟨t, _ | e⟩
      · rw [hbody] at hone
        have hcount : done.length + 1 = (done ++ [a]).length := by
          rw [List.length_append, List.length_singleton]
        dsimp only
        rw [hcount, ih (done ++ [a]) t (hkeep done a s t hP hbody)]
        constructor
        · intro h before b after heq
          -- The element is the first one, or one of the others.
          rcases before with _ | ⟨c, before⟩
          · rw [List.nil_append, List.cons.injEq] at heq
            rw [List.append_nil, ← heq.1]
            exact hone.mp rfl
          · rw [List.cons_append, List.cons.injEq] at heq
            rw [← heq.1]
            have hrest := h before b after heq.2
            rwa [List.append_assoc, List.singleton_append] at hrest
        · intro h before b after heq
          rw [List.append_assoc, List.singleton_append]
          exact h (a :: before) b after (by rw [heq, List.cons_append])
      · rw [hbody] at hone
        refine iff_of_false (by simp only [reduceCtorEq, not_false_eq_true]) (fun h => ?_)
        have hok := h [] a as rfl
        rw [List.append_nil] at hok
        exact absurd (hone.mpr hok) (by simp only [reduceCtorEq, not_false_eq_true])

/-- A loop whose turns go as they would in another one, or end it in one of
    some ways. The induction is on the list. -/
theorem loopFrom_same_or {body' : Nat → α → σ → σ × Option ε} {Bad : ε → Prop}
    (hbody : ∀ k a s, body k a s = body' k a s ∨ ∃ e, (body k a s).2 = some e ∧ Bad e)
    (as : List α) : ∀ k s, loopFrom body k as s = loopFrom body' k as s ∨
      ∃ e, (loopFrom body k as s).2 = some e ∧ Bad e := by
  induction as with
  | nil => exact fun _ _ => Or.inl rfl
  | cons a as ih =>
      intro k s
      rw [loopFrom, loopFrom]
      rcases hbody k a s with hsame | ⟨e, he, hbad⟩
      · rw [hsame]
        rcases body' k a s with ⟨s', _ | e⟩
        · exact ih (k + 1) s'
        · exact Or.inl rfl
      · -- A turn that ends the loop ends it here, whatever would have come.
        rcases hturn : body k a s with ⟨s', r⟩
        rw [hturn] at he
        have hr : r = some e := he
        rw [hr]
        exact Or.inr ⟨e, rfl, hbad⟩

/-- Two loops whose turns go alike, from related states. The induction is on the
    list; a turn that aborts ends both. -/
theorem loopFrom_rel {τ : Type} {body' : Nat → α → τ → τ × Option ε} {R : σ → τ → Prop}
    (hbody : ∀ k a s t, R s t → R (body k a s).1 (body' k a t).1 ∧ (body k a s).2 = (body' k a t).2)
    (as : List α) : ∀ k s t, R s t → R (loopFrom body k as s).1 (loopFrom body' k as t).1 ∧
      (loopFrom body k as s).2 = (loopFrom body' k as t).2 := by
  induction as with
  | nil => exact fun _ _ _ hR => ⟨hR, rfl⟩
  | cons a as ih =>
      intro k s t hR
      have hturn := hbody k a s t hR
      rcases hs : body k a s with ⟨s', r⟩
      rcases ht : body' k a t with ⟨t', r'⟩
      rw [hs, ht] at hturn
      -- Both turns abort with the same error, or neither does.
      have hr : r = r' := hturn.2
      rw [loopFrom, loopFrom, hs, ht, ← hr]
      rcases r with _ | e
      · exact ih (k + 1) s' t' hturn.1
      · exact ⟨hturn.1, rfl⟩

end

end Qdmi
