import Mathlib.Data.List.Basic

/-!
# Programs That Ask

A client that talks to a component is a program that asks questions and goes on
with the answers, while others talk to the component too.

A program is a tree: it is done, it throws, or it asks, with a branch for each
answer. `Plays` follows a program along one conversation, whatever the answers
are. A program that returns only behind good answers `Heeds` them, and so do
programs that are built from such ones.

Where every question has one answer, or none, a program has one end, or none, and
`alone` computes it. A conversation with these answers leads there
(`plays_alone`), and there is one (`plays_of_alone`).

## Main definitions

* `Asking`: The programs.
* `Asking.alone`: The end of a program with known answers.
* `Plays`: A conversation of a program, with its end.
* `Heeds`: A program that does not return behind a bad answer.

## Theorems

* `plays_bind`: A conversation of one program behind another.
* `heeds_bind`, `heeds_foldlM`: Heeding what is told, step by step.
* `alone_bind`, `alone_bind_threw`, `alone_foldlM`: One program behind another, and a loop.
* `alone_mono`: More answers.
* `plays_alone`, `plays_of_alone`: Conversations with known answers.
-/

namespace Qdmi

/-- A program that asks questions and goes on with the answers. It may throw. -/
inductive Asking (q r ε α : Type) where
  | done (value : α)
  | threw (exception : ε)
  | ask (question : q) (rest : r → Asking q r ε α)

namespace Asking

variable {q r ε α β : Type}

/-- One program behind another. -/
def bind : Asking q r ε α → (α → Asking q r ε β) → Asking q r ε β
  | .done a, next => next a
  | .threw e, _ => .threw e
  | .ask x rest, next => .ask x (fun y => (rest y).bind next)

instance : Monad (Asking q r ε) where
  pure := .done
  bind := .bind

/-- Ask a question and return the answer. -/
def question (x : q) : Asking q r ε r := .ask x .done

/-- Go on with a result. -/
def ofExcept : Except ε α → Asking q r ε α
  | .ok a => .done a
  | .error e => .threw e

/-- The end of a program whose questions have the given answers. -/
def alone (answer : q → Option r) : Asking q r ε α → Option (Except ε α)
  | .done a => some (.ok a)
  | .threw e => some (.error e)
  | .ask x rest => (answer x).bind (fun y => (rest y).alone answer)

end Asking

/-- A conversation of a program, with its end. -/
inductive Plays {q r ε α : Type} : Asking q r ε α → List (q × r) → Except ε α → Prop where
  | done (a : α) : Plays (.done a) [] (.ok a)
  | threw (e : ε) : Plays (.threw e) [] (.error e)
  | ask {x : q} {y : r} {rest : r → Asking q r ε α} {l : List (q × r)} {res : Except ε α} :
      Plays (rest y) l res → Plays (.ask x rest) ((x, y) :: l) res

/-- A program that returns has been told nothing but what is all right. -/
def Heeds {q r ε α : Type} (ok : q → r → Prop) (p : Asking q r ε α) : Prop :=
  ∀ l a, Plays p l (.ok a) → ∀ z ∈ l, ok z.1 z.2

section

variable {q r ε α β : Type}

/-! ## Conversations -/

/-- A conversation of one program behind another. Either the first throws, or the
    second starts where it returns. -/
theorem plays_bind {p : Asking q r ε α} {next : α → Asking q r ε β} {l : List (q × r)}
    {res : Except ε β} (h : Plays (p >>= next) l res) :
    (∃ e, res = .error e ∧ Plays p l (.error e)) ∨
      ∃ l₁ l₂ a, l = l₁ ++ l₂ ∧ Plays p l₁ (.ok a) ∧ Plays (next a) l₂ res := by
  induction p generalizing l with
  | done a => exact Or.inr ⟨[], l, a, rfl, Plays.done a, h⟩
  | threw e =>
      cases h
      exact Or.inl ⟨e, rfl, Plays.threw e⟩
  | ask x rest ih =>
      cases h with
      | ask hrest =>
          rcases ih _ hrest with ⟨e, hres, hthrew⟩ | ⟨l₁, l₂, a, hl, hfirst, hnext⟩
          · exact Or.inl ⟨e, hres, Plays.ask hthrew⟩
          · refine Or.inr ⟨_ :: l₁, l₂, a, ?_, Plays.ask hfirst, hnext⟩
            rw [hl, List.cons_append]

/-! ## Programs that heed what they are told -/

variable {ok : q → r → Prop}

theorem heeds_done (a : α) : Heeds ok (.done a : Asking q r ε α) := by
  intro l res h z hz
  cases h
  exact absurd hz List.not_mem_nil

theorem heeds_threw (e : ε) : Heeds ok (.threw e : Asking q r ε α) := by
  intro l res h
  cases h

theorem heeds_bind {p : Asking q r ε α} {next : α → Asking q r ε β} (hp : Heeds ok p)
    (hnext : ∀ a, Heeds ok (next a)) : Heeds ok (p >>= next) := by
  intro l res h z hz
  rcases plays_bind h with ⟨e, he, _⟩ | ⟨l₁, l₂, a, hl, hfirst, hsecond⟩
  · exact absurd he (by simp only [reduceCtorEq, not_false_eq_true])
  · rw [hl] at hz
    rcases List.mem_append.mp hz with hz | hz
    · exact hp l₁ a hfirst z hz
    · exact hnext a l₂ res hsecond z hz

/-- A loop heeds what its body does. -/
theorem heeds_foldlM {τ : Type} {body : β → τ → Asking q r ε β}
    (hbody : ∀ b x, Heeds ok (body b x)) (l : List τ) (b : β) : Heeds ok (l.foldlM body b) := by
  induction l generalizing b with
  | nil => exact heeds_done b
  | cons x l ih =>
      rw [List.foldlM_cons]
      exact heeds_bind (hbody b x) ih

/-! ## Known answers -/

variable {answer : q → Option r}

/-- One program behind another, which starts where the first returns. -/
theorem alone_bind {p : Asking q r ε α} {a : α} (h : p.alone answer = some (.ok a))
    (next : α → Asking q r ε β) : (p >>= next).alone answer = (next a).alone answer := by
  induction p with
  | done b =>
      rw [Asking.alone, Option.some.injEq, Except.ok.injEq] at h
      rw [← h]
      rfl
  | threw e =>
      rw [Asking.alone, Option.some.injEq] at h
      exact absurd h (by simp only [reduceCtorEq, not_false_eq_true])
  | ask x rest ih =>
      rcases Option.bind_eq_some_iff.mp h with ⟨y, hy, hrest⟩
      rw [← ih y hrest]
      show (answer x).bind _ = _
      rw [hy]
      rfl

/-- A program behind one that throws is not started. -/
theorem alone_bind_threw {p : Asking q r ε α} {e : ε} (h : p.alone answer = some (.error e))
    (next : α → Asking q r ε β) : (p >>= next).alone answer = some (.error e) := by
  induction p with
  | done b =>
      rw [Asking.alone, Option.some.injEq] at h
      exact absurd h (by simp only [reduceCtorEq, not_false_eq_true])
  | threw e' =>
      rw [Asking.alone, Option.some.injEq, Except.error.injEq] at h
      rw [← h]
      rfl
  | ask x rest ih =>
      rcases Option.bind_eq_some_iff.mp h with ⟨y, hy, hrest⟩
      rw [← ih y hrest]
      show (answer x).bind _ = _
      rw [hy]
      rfl

/-- A loop whose body returns known values. The induction is on the elements that
    are left. -/
theorem alone_foldlM {τ : Type} {body : β → τ → Asking q r ε β} {f : β → τ → β} {l : List τ}
    (hbody : ∀ x ∈ l, ∀ b, (body b x).alone answer = some (.ok (f b x))) (b : β) :
    (l.foldlM body b).alone answer = some (.ok (l.foldl f b)) := by
  induction l generalizing b with
  | nil => rfl
  | cons x l ih =>
      rcases List.forall_mem_cons.mp hbody with ⟨hx, hl⟩
      rw [List.foldlM_cons, List.foldl_cons, alone_bind (hx b), ih hl]

/-- More questions with an answer leave the end as it is. -/
theorem alone_mono {answer' : q → Option r} (h : ∀ x y, answer x = some y → answer' x = some y)
    {p : Asking q r ε α} {res : Except ε α} (hp : p.alone answer = some res) :
    p.alone answer' = some res := by
  induction p with
  | done a => exact hp
  | threw e => exact hp
  | ask x rest ih =>
      rcases Option.bind_eq_some_iff.mp hp with ⟨y, hy, hrest⟩
      rw [Asking.alone, h x y hy, Option.bind_some]
      exact ih y hrest

/-- A conversation with the given answers ends where the program does. -/
theorem plays_alone {p : Asking q r ε α} {l : List (q × r)} {res : Except ε α}
    (hplays : Plays p l res) (hl : ∀ z ∈ l, answer z.1 = some z.2) :
    p.alone answer = some res := by
  induction hplays with
  | done a => rfl
  | threw e => rfl
  | ask hrest ih =>
      rcases List.forall_mem_cons.mp hl with ⟨hy, hl⟩
      rw [Asking.alone, hy, Option.bind_some]
      exact ih hl

/-- There is such a conversation. -/
theorem plays_of_alone {p : Asking q r ε α} {res : Except ε α} (h : p.alone answer = some res) :
    ∃ l, Plays p l res ∧ ∀ z ∈ l, answer z.1 = some z.2 := by
  induction p with
  | done a =>
      rw [← Option.some.inj h]
      exact ⟨[], Plays.done a, List.forall_mem_nil _⟩
  | threw e =>
      rw [← Option.some.inj h]
      exact ⟨[], Plays.threw e, List.forall_mem_nil _⟩
  | ask x rest ih =>
      rcases Option.bind_eq_some_iff.mp h with ⟨y, hy, hrest⟩
      rcases ih y hrest with ⟨l, hplays, hl⟩
      exact ⟨(x, y) :: l, Plays.ask hplays, List.forall_mem_cons.mpr ⟨hy, hl⟩⟩

end

end Qdmi
