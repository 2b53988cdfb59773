import Mathlib.Data.List.Basic

/-!
# Labelled Runs

Runs of a system that is driven from outside: each step is given a label, the
call together with everything the environment decides for it, and yields an
observation and a next state, or goes wrong.

A run is extended at its end, so an induction on `Runs` sees the history of
every state before the step out of it. `runs_invariant` packages that
induction once. Its predicate ranges over the history as well as the state,
which is what a claim such as "this object was submitted earlier" needs, and
it takes a condition on the states steps are taken from, so a law that holds
as long as the environment keeps a rule is proved by the same lemma as one
that holds outright.

`runs_relation` is the other shape: a reflexive and transitive relation kept
by each step relates the two ends of a run. It proves that something, once
reached, never changes again.

Two runs of a system are compared through `outputs`, the observations of a
list of labels. `outputs_eq_of_bisim` reduces equality of all of them to one
step of a relation between the states.

## Main definitions

* `Entry`: One step of a run, with the state it was taken from.
* `Runs`: Reachability with a history.
* `Respects`: Every step of a history was taken under a condition.
* `play`: The run of a list of labels.
* `outputs`: The observations of a list of labels.

## Theorems

* `runs_of_play`, `play_labels`, `runs_of_evaluated`: What was played is a run
  of those labels.
* `play_error`: Where labels go wrong.
* `runs_nil`, `runs_append`: Runs without steps, and runs one after the other.
* `runs_split`: A run can be cut anywhere in its history.
* `runs_at`, `runs_mem`, `runs_cons`: The runs before and behind a step of a
  history, anywhere in it or at its beginning.
* `runs_single`: A run with one label.
* `runs_last`: The last state of a run.
* `runs_filter`: A run without its idle steps.
* `runs_flatMap`: A run of one system as a run of another.
* `runs_invariant`: An invariant of the history and the state.
* `runs_forall_iff`: When a law holds in every state of a run.
* `runs_relation`: A relation between the two ends of a run.
* `respects_append`: A condition on a composed history.
* `outputs_eq_of_bisim`: Bisimilar states answer alike.
-/

namespace Qdmi

/-- One step of a run: the state it was taken from, its label, what was
    observed and the state it led to. -/
structure Entry (σ l ω : Type) where
  pre : σ
  label : l
  out : ω
  post : σ

section

variable {σ l ω ε : Type} (step : σ → l → Except ε (ω × σ))

/-- Reachability from `s` with a history, extended at its end. -/
inductive Runs (s : σ) : List (Entry σ l ω) → σ → Prop where
  | refl : Runs s [] s
  | snoc {t u : σ} {tr : List (Entry σ l ω)} {a : l} {w : ω} :
      Runs s tr t → step t a = .ok (w, u) → Runs s (tr ++ [⟨t, a, w, u⟩]) u

/-- Every step of a history was taken under a condition on the state before it
    and its label. -/
def Respects (C : σ → l → Prop) (tr : List (Entry σ l ω)) : Prop :=
  ∀ e ∈ tr, C e.pre e.label

variable {step}

theorem respects_append {C : σ → l → Prop} {tr tr' : List (Entry σ l ω)} :
    Respects C (tr ++ tr') ↔ Respects C tr ∧ Respects C tr' :=
  List.forall_mem_append

/-- A run without steps stays where it is. -/
theorem runs_nil {s t : σ} (h : Runs step s [] t) : t = s := by
  generalize htr : ([] : List (Entry σ l ω)) = tr at h
  cases h with
  | refl => rfl
  | snoc _ _ => exact absurd htr (by simp only [List.nil_eq, List.append_eq_nil_iff, reduceCtorEq,
      and_false, not_false_eq_true])

theorem runs_append {s t u : σ} {tr tr' : List (Entry σ l ω)} (h : Runs step s tr t)
    (h' : Runs step t tr' u) : Runs step s (tr ++ tr') u := by
  induction h' with
  | refl => rwa [List.append_nil]
  | snoc _ hstep ih =>
      rw [← List.append_assoc]
      exact Runs.snoc ih hstep

/-- A run can be cut anywhere in its history. -/
theorem runs_split {s u : σ} {tr : List (Entry σ l ω)} (h : Runs step s tr u) :
    ∀ tr₁ tr₂, tr = tr₁ ++ tr₂ → ∃ t, Runs step s tr₁ t ∧ Runs step t tr₂ u := by
  induction h with
  | refl =>
      intro tr₁ tr₂ htr
      rcases List.append_eq_nil_iff.mp htr.symm with ⟨h₁, h₂⟩
      rw [h₁, h₂]
      exact ⟨s, Runs.refl, Runs.refl⟩
  | snoc hrun hstep ih =>
      intro tr₁ tr₂ htr
      rcases List.eq_nil_or_concat tr₂ with hnil | ⟨init, last, hlast⟩
      · -- The cut is at the very end.
        rw [hnil, List.append_nil] at htr
        rw [← htr, hnil]
        exact ⟨_, Runs.snoc hrun hstep, Runs.refl⟩
      · -- The cut is further back, so the last step belongs to the second part.
        rw [List.concat_eq_append] at hlast
        rw [hlast, ← List.append_assoc] at htr
        rcases List.append_inj' htr rfl with ⟨hinit, hend⟩
        rcases ih tr₁ init hinit with ⟨t, ht₁, ht₂⟩
        rw [hlast, ← hend]
        exact ⟨t, ht₁, Runs.snoc ht₂ hstep⟩

/-- The runs before and behind a step of a history. -/
theorem runs_at {s u : σ} {tr₁ tr₂ : List (Entry σ l ω)} {e : Entry σ l ω}
    (h : Runs step s (tr₁ ++ e :: tr₂) u) : Runs step s tr₁ e.pre ∧
      step e.pre e.label = .ok (e.out, e.post) ∧ Runs step e.post tr₂ u := by
  rcases runs_split h (tr₁ ++ [e]) tr₂ (by rw [List.append_assoc, List.singleton_append]) with
    ⟨t, hupto, hrest⟩
  generalize htr : tr₁ ++ [e] = tr at hupto
  cases hupto with
  | refl => exact absurd htr (by simp only [List.append_eq_nil_iff, reduceCtorEq, and_false,
      not_false_eq_true])
  | snoc hrun hstep =>
      rcases List.append_inj' htr rfl with ⟨hinit, hlast⟩
      rw [List.singleton_inj] at hlast
      rw [hinit, hlast]
      exact ⟨hrun, hstep, hrest⟩

/-- The same for a step that occurs somewhere in a history. -/
theorem runs_mem {s u : σ} {tr : List (Entry σ l ω)} (h : Runs step s tr u) {e : Entry σ l ω}
    (he : e ∈ tr) : ∃ tr₁ tr₂, tr = tr₁ ++ e :: tr₂ ∧ Runs step s tr₁ e.pre ∧
      step e.pre e.label = .ok (e.out, e.post) ∧ Runs step e.post tr₂ u := by
  rcases List.append_of_mem he with ⟨tr₁, tr₂, htr⟩
  rw [htr] at h
  exact ⟨tr₁, tr₂, htr, runs_at h⟩

/-- The first step of a run, and the run behind it. -/
theorem runs_cons {s u : σ} {tr : List (Entry σ l ω)} {e : Entry σ l ω}
    (h : Runs step s (e :: tr) u) :
    step s e.label = .ok (e.out, e.post) ∧ Runs step e.post tr u := by
  rcases runs_at (show Runs step s ([] ++ e :: tr) u from h) with ⟨hnil, hstep, hrest⟩
  rw [← runs_nil hnil]
  exact ⟨hstep, hrest⟩

/-- A run with one label is one step. -/
theorem runs_single {s u : σ} {tr : List (Entry σ l ω)} {a : l} (h : Runs step s tr u)
    (hlabel : tr.map Entry.label = [a]) : ∃ w, step s a = .ok (w, u) := by
  rcases List.map_eq_singleton_iff.mp hlabel with ⟨e, rfl, rfl⟩
  rcases runs_cons h with ⟨hstep, hnil⟩
  rw [runs_nil hnil]
  exact ⟨e.out, hstep⟩

/-- What holds of the first state and behind every step holds of the last. -/
theorem runs_last {P : σ → Prop} {s u : σ} {tr : List (Entry σ l ω)} (h : Runs step s tr u)
    (h0 : P s) (hall : ∀ e ∈ tr, P e.post) : P u := by
  cases h with
  | refl => exact h0
  | snoc _ _ => exact hall _ (List.mem_append_right _ List.mem_cons_self)

/-- Steps that lead nowhere can be left out of a run. -/
theorem runs_filter {p : Entry σ l ω → Bool} {s u : σ} {tr : List (Entry σ l ω)}
    (h : Runs step s tr u) (hidle : ∀ e ∈ tr, p e = false → e.post = e.pre) :
    Runs step s (tr.filter p) u := by
  induction h with
  | refl => exact Runs.refl
  | snoc hrun hstep ih =>
      rcases List.forall_mem_append.mp hidle with ⟨hinit, hlast⟩
      have hkept := ih hinit
      rw [List.filter_append]
      cases hp : p ⟨_, _, _, _⟩ with
      | true =>
          rw [List.filter_singleton, hp]
          exact Runs.snoc hkept hstep
      | false =>
          -- The step is left out, and it has led nowhere.
          have hsame := List.forall_mem_singleton.mp hlast hp
          rw [List.filter_singleton, hp, cond_false, List.append_nil]
          dsimp only at hsame
          rw [hsame]
          exact hkept

/-- Where every step of one system is some run of another, a run is one too. The
    other system may be a part of the first, with no more than one step for each,
    or one that it drives through several. -/
theorem runs_flatMap {σ' l' ω' ε' : Type} {step' : σ' → l' → Except ε' (ω' × σ')} {f : σ → σ'}
    {g : Entry σ l ω → List (Entry σ' l' ω')} {C : Entry σ l ω → Prop}
    (hstep : ∀ s a w t, C ⟨s, a, w, t⟩ → step s a = .ok (w, t) →
      Runs step' (f s) (g ⟨s, a, w, t⟩) (f t))
    {s u : σ} {tr : List (Entry σ l ω)} (hrun : Runs step s tr u) (hC : ∀ e ∈ tr, C e) :
    Runs step' (f s) (tr.flatMap g) (f u) := by
  induction hrun with
  | refl => exact Runs.refl
  | snoc _ hs ih =>
      rcases List.forall_mem_append.mp hC with ⟨hinit, hlast⟩
      rw [List.flatMap_append, List.flatMap_singleton]
      exact runs_append (ih hinit) (hstep _ _ _ _ (List.forall_mem_singleton.mp hlast) hs)

/-- An invariant of the history and the state. The induction is on the run;
    each step may use that its state was reached and that the condition held
    when it was taken. -/
theorem runs_invariant {C : σ → l → Prop} {P : List (Entry σ l ω) → σ → Prop} {s u : σ}
    {tr : List (Entry σ l ω)} (hrun : Runs step s tr u) (hC : Respects C tr) (h0 : P [] s)
    (hstep : ∀ tr t a w v, Runs step s tr t → Respects C tr → P tr t → C t a →
      step t a = .ok (w, v) → P (tr ++ [⟨t, a, w, v⟩]) v) : P tr u := by
  induction hrun with
  | refl => exact h0
  | snoc hr hs ih =>
      rcases respects_append.mp hC with ⟨hpre, hlast⟩
      exact hstep _ _ _ _ _ hr hpre (ih hpre) (hlast _ (List.mem_singleton.mpr rfl)) hs

/-- When a law holds in every state of a run. Where each step is known to keep
    the law exactly under `C`, a run keeps it exactly when it respects `C`. -/
theorem runs_forall_iff {P : σ → Prop} {C D : σ → l → Prop} {s u : σ} {tr : List (Entry σ l ω)}
    (hrun : Runs step s tr u) (hD : Respects D tr) (h0 : P s)
    (hstep : ∀ t a w v, D t a → step t a = .ok (w, v) → P t → (P v ↔ C t a)) :
    (∀ e ∈ tr, P e.post) ↔ Respects C tr := by
  induction hrun with
  | refl =>
      exact ⟨fun _ e he => absurd he List.not_mem_nil, fun _ e he => absurd he List.not_mem_nil⟩
  | snoc hr hs ih =>
      rcases respects_append.mp hD with ⟨hpre, hlast⟩
      have hlaw := hstep _ _ _ _ (hlast _ (List.mem_singleton.mpr rfl)) hs
      rw [respects_append, List.forall_mem_append, ← ih hpre]
      refine and_congr_right fun hall => ?_
      -- The law holds where the last step starts.
      have hthere := runs_last hr h0 hall
      rw [Respects, List.forall_mem_singleton, List.forall_mem_singleton]
      exact hlaw hthere

/-- A relation kept by every step relates the two ends of a run. -/
theorem runs_relation {R : σ → σ → Prop} (hrefl : ∀ s, R s s)
    (htrans : ∀ s t u, R s t → R t u → R s u)
    (hstep : ∀ t a w u, step t a = .ok (w, u) → R t u) {s u : σ} {tr : List (Entry σ l ω)}
    (hrun : Runs step s tr u) : R s u := by
  induction hrun with
  | refl => exact hrefl s
  | snoc _ hs ih => exact htrans _ _ _ ih (hstep _ _ _ _ hs)

variable (step)

/-- The run of a list of labels, if no step goes wrong. -/
def play : σ → List l → Except ε (List (Entry σ l ω) × σ)
  | s, [] => .ok ([], s)
  | s, a :: as => match step s a with
    | .error e => .error e
    | .ok (w, s') => match play s' as with
      | .error e => .error e
      | .ok (tr, t) => .ok (⟨s, a, w, s'⟩ :: tr, t)

/-- The observations of a list of labels, up to the first step that goes
    wrong. -/
def outputs : σ → List l → List (Except ε ω)
  | _, [] => []
  | s, a :: as => match step s a with
    | .error e => [.error e]
    | .ok (w, s') => .ok w :: outputs s' as

variable {step}

/-- What was played is a run. The induction is on the labels, so each turn
    puts its step in front of the run it is given. -/
theorem runs_of_play (as : List l) : ∀ {s t : σ} {tr : List (Entry σ l ω)},
    play step s as = .ok (tr, t) → Runs step s tr t := by
  induction as with
  | nil =>
      intro s t tr h
      rw [play, Except.ok.injEq, Prod.mk.injEq] at h
      rw [← h.1, ← h.2]
      exact Runs.refl
  | cons a as ih =>
      intro s t tr h
      rw [play] at h
      split at h
      · exact absurd h (by simp only [reduceCtorEq, not_false_eq_true])
      · rename_i w s' hstep
        split at h
        · exact absurd h (by simp only [reduceCtorEq, not_false_eq_true])
        · rename_i tr' t' hplay
          rw [Except.ok.injEq, Prod.mk.injEq] at h
          rw [← h.1, ← h.2]
          -- The first step alone is a run, and the rest is put behind it.
          have hfirst : Runs step s [⟨s, a, w, s'⟩] s' := Runs.snoc Runs.refl hstep
          exact runs_append hfirst (ih hplay)

theorem play_labels (as : List l) : ∀ {s t : σ} {tr : List (Entry σ l ω)},
    play step s as = .ok (tr, t) → tr.map Entry.label = as := by
  induction as with
  | nil =>
      intro s t tr h
      rw [play, Except.ok.injEq, Prod.mk.injEq] at h
      rw [← h.1, List.map_nil]
  | cons a as ih =>
      intro s t tr h
      rw [play] at h
      split at h
      · exact absurd h (by simp only [reduceCtorEq, not_false_eq_true])
      · split at h
        · exact absurd h (by simp only [reduceCtorEq, not_false_eq_true])
        · rename_i hplay
          rw [Except.ok.injEq, Prod.mk.injEq] at h
          rw [← h.1, List.map_cons, ih hplay]

/-- Labels that do not play through have a first one that goes wrong, behind a run
    of those before it. -/
theorem play_error (as : List l) : ∀ {s : σ} {e : ε}, play step s as = .error e →
    ∃ pre a post tr t, as = pre ++ a :: post ∧ Runs step s tr t ∧ tr.map Entry.label = pre ∧
      step t a = .error e := by
  induction as with
  | nil =>
      intro s e h
      exact absurd h (by simp only [play, reduceCtorEq, not_false_eq_true])
  | cons a as ih =>
      intro s e h
      rw [play] at h
      split at h
      · rename_i hstep
        rw [← Except.error.inj h]
        exact ⟨[], a, as, [], s, rfl, Runs.refl, rfl, hstep⟩
      · rename_i w s' hstep
        split at h
        · rename_i hplay
          rw [← Except.error.inj h]
          rcases ih hplay with ⟨pre, b, post, tr, t, has, hrun, hlabels, hwrong⟩
          refine ⟨a :: pre, b, post, ⟨s, a, w, s'⟩ :: tr, t, by rw [has]; rfl, ?_, ?_, hwrong⟩
          · exact runs_append (Runs.snoc Runs.refl hstep) hrun
          · rw [List.map_cons, hlabels]
        · exact absurd h (by simp only [reduceCtorEq, not_false_eq_true])

/-- Labels whose run evaluates to some value have a run, and it is the value of
    that run. -/
theorem runs_of_evaluated {α : Type} {s : σ} {as : List l} {f : List (Entry σ l ω) × σ → Option α}
    {v : α} (h : (play step s as).toOption.bind f = some v) :
    ∃ tr t, Runs step s tr t ∧ tr.map Entry.label = as ∧ f (tr, t) = some v := by
  rcases Option.bind_eq_some_iff.mp h with ⟨⟨tr, t⟩, hplay, hv⟩
  rcases hrun : play step s as with e | p
  · rw [hrun] at hplay
    exact absurd hplay (by simp only [Except.toOption, reduceCtorEq, not_false_eq_true])
  · rw [hrun, Except.toOption, Option.some.injEq] at hplay
    rw [hplay] at hrun
    exact ⟨tr, t, runs_of_play as hrun, play_labels as hrun, hv⟩

/-- Bisimilar states answer alike. The induction is on the labels, and the
    relation has to be kept only where both sides go on. -/
theorem outputs_eq_of_bisim {R : σ → σ → Prop}
    (hstep : ∀ s t a, R s t →
      (∃ e, step s a = .error e ∧ step t a = .error e) ∨
      ∃ w s' t', step s a = .ok (w, s') ∧ step t a = .ok (w, t') ∧ R s' t')
    (as : List l) : ∀ s t, R s t → outputs step s as = outputs step t as := by
  induction as with
  | nil => intro s t _; rfl
  | cons a as ih =>
      intro s t hR
      rcases hstep s t a hR with ⟨e, hs, ht⟩ | ⟨w, s', t', hs, ht, hR'⟩
      · simp only [outputs, hs, ht]
      · simp only [outputs, hs, ht, ih s' t' hR']

end

end Qdmi
