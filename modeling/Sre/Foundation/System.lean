/- GID: Sre/Foundation/System
   digest: Labelled transition systems, what every run keeps, and what fair runs reach. -/

import Mathlib.Data.Nat.Basic
import Mathlib.Tactic.ByContra

set_option autoImplicit false

namespace Sre.Foundation

/-- States, where a run may begin, and the labelled steps between them. -/
structure System (σ α : Type) where
  init : σ → Prop
  step : σ → α → σ → Prop

namespace System

variable {σ α : Type} {M : System σ α} {ok ok' : σ → α → Prop} {s t u : σ} {a : α} {as bs : List α}

/-- A run whose steps all meet a condition, with its labels. -/
inductive Path (M : System σ α) (ok : σ → α → Prop) : σ → List α → σ → Prop
  | nil (s : σ) : Path M ok s [] s
  | cons {s t u : σ} {a : α} {as : List α} (step : M.step s a t) (met : ok s a)
      (rest : Path M ok t as u) : Path M ok s (a :: as) u

/-- The states of the runs whose steps all meet a condition. -/
def Reachable (M : System σ α) (ok : σ → α → Prop) (s : σ) : Prop :=
  ∃ s₀ as, M.init s₀ ∧ Path M ok s₀ as s

def free (_ : σ) (_ : α) : Prop := True

theorem Path.single (step : M.step s a t) (met : ok s a) : Path M ok s [a] t :=
  .cons step met (.nil t)

theorem Path.append (first : Path M ok s as t) (second : Path M ok t bs u) :
    Path M ok s (as ++ bs) u := by
  induction first with
  | nil => exact second
  | cons step met _ ih => exact .cons step met (ih second)

theorem Path.invariant {P : σ → Prop} (keeps : ∀ s a t, P s → M.step s a t → ok s a → P t)
    (path : Path M ok s as t) (start : P s) : P t := by
  induction path with
  | nil => exact start
  | cons step met _ ih => exact ih (keeps _ _ _ start step met)

theorem Reachable.init (start : M.init s) : M.Reachable ok s := ⟨s, [], start, .nil s⟩

theorem Reachable.step (reached : M.Reachable ok s) (step : M.step s a t) (met : ok s a) :
    M.Reachable ok t := by
  obtain ⟨s₀, as, start, path⟩ := reached
  exact ⟨s₀, as ++ [a], start, path.append (.single step met)⟩

theorem Reachable.invariant {P : σ → Prop} (start : ∀ s, M.init s → P s)
    (keeps : ∀ s a t, P s → M.step s a t → ok s a → P t) (reached : M.Reachable ok s) : P s := by
  obtain ⟨s₀, as, first, path⟩ := reached
  exact path.invariant keeps (start s₀ first)

/-- An infinite run; at some instants nothing may happen. -/
structure Execution (M : System σ α) where
  state : ℕ → σ
  act : ℕ → Option α
  init : M.init (state 0)
  step : ∀ n a, act n = some a → M.step (state n) a (state (n + 1))
  rest : ∀ n, act n = none → state (n + 1) = state n

namespace Execution

variable {run : Execution M} {A : α → Prop} {n : ℕ} {P : σ → Prop}

theorem reachable (run : Execution M) (n : ℕ) : M.Reachable free (run.state n) := by
  induction n with
  | zero => exact .init run.init
  | succ n ih =>
    cases acts : run.act n with
    | none =>
      rw [run.rest n acts]
      exact ih
    | some a => exact ih.step (run.step n a acts) trivial

/-- A state before those of a run. -/
private def shift (s : σ) (states : ℕ → σ) : ℕ → σ
  | 0 => s
  | k + 1 => states k

private theorem shift_steps {states : ℕ → σ} (step : M.step s a (states 0))
    (steps : ∀ k b, as[k]? = some b → M.step (states k) b (states (k + 1))) (k : ℕ) (b : α)
    (act : (a :: as)[k]? = some b) : M.step (shift s states k) b (shift s states (k + 1)) := by
  cases k with
  | zero =>
    cases act
    exact step
  | succ k => exact steps k b act

private theorem shift_last {states : ℕ → σ} (last : ∀ m, as.length ≤ m → states m = u) (m : ℕ)
    (late : (a :: as).length ≤ m) : shift s states m = u := by
  cases m with
  | zero => exact (Nat.not_succ_le_zero _ late).elim
  | succ m => exact last m (Nat.le_of_succ_le_succ late)

private theorem path_states (path : Path M ok s as u) : ∃ states : ℕ → σ, states 0 = s ∧
    (∀ k a, as[k]? = some a → M.step (states k) a (states (k + 1))) ∧
    ∀ m, as.length ≤ m → states m = u := by
  induction path with
  | nil s => exact ⟨fun _ => s, rfl, fun k a act => by simp at act, fun _ _ => rfl⟩
  | cons step _ _ ih =>
    obtain ⟨states, rfl, steps, last⟩ := ih
    exact ⟨shift _ states, rfl, shift_steps step steps, shift_last last⟩

private theorem path_states_append (first : Path M ok s as t) (second : Path M ok t bs u) :
    ∃ states : ℕ → σ, states 0 = s ∧ states as.length = t ∧
      (∀ k a, (as ++ bs)[k]? = some a → M.step (states k) a (states (k + 1))) ∧
      ∀ m, (as ++ bs).length ≤ m → states m = u := by
  induction first with
  | nil =>
    obtain ⟨states, begins, steps, last⟩ := path_states second
    exact ⟨states, begins, begins, steps, last⟩
  | cons step _ _ ih =>
    obtain ⟨states, rfl, middle, steps, last⟩ := ih second
    exact ⟨shift _ states, rfl, middle, shift_steps step steps, shift_last last⟩

theorem ofPath (start : M.init s) (first : Path M ok s as t) (second : Path M ok t bs u) :
    ∃ run : Execution M, (∀ k, run.act k = (as ++ bs)[k]?) ∧ run.state as.length = t ∧
      ∀ m, (as ++ bs).length ≤ m → run.state m = u := by
  obtain ⟨states, rfl, middle, steps, last⟩ := path_states_append first second
  refine ⟨⟨states, fun k => (as ++ bs)[k]?, start, steps, ?_⟩, fun _ => rfl, middle, last⟩
  intro k none
  have late := List.getElem?_eq_none_iff.mp none
  rw [last k late, last (k + 1) (Nat.le_succ_of_le late)]

theorem stays {m : ℕ} (keeps : ∀ s a t, M.Reachable free s → P s → M.step s a t → P t)
    (here : P (run.state n)) (later : n ≤ m) : P (run.state m) := by
  induction m, later using Nat.le_induction with
  | base => exact here
  | succ m _ ih =>
    cases acts : run.act m with
    | none =>
      rw [run.rest m acts]
      exact ih
    | some a => exact keeps _ a _ (run.reachable m) ih (run.step m a acts)

/-- What only a certain kind of act brings about, and another ends, holds since the last act
of the first kind, and there was none of the second in between. -/
theorem since {B : α → Prop} (start : ¬P (run.state 0))
    (step : ∀ s a t, M.step s a t → P t → A a ∨ P s ∧ ¬B a) (here : P (run.state n)) :
    ∃ m a, m < n ∧ run.act m = some a ∧ A a ∧ ∀ k b, m < k → k < n → run.act k = some b → ¬B b := by
  induction n with
  | zero => exact (start here).elim
  | succ n ih =>
    have before (held : P (run.state n)) (none : ∀ b, run.act n = some b → ¬B b) :
        ∃ m a, m < n + 1 ∧ run.act m = some a ∧ A a ∧
          ∀ k b, m < k → k < n + 1 → run.act k = some b → ¬B b := by
      obtain ⟨m, a, earlier, acts, kind, between⟩ := ih held
      refine ⟨m, a, Nat.lt_succ_of_lt earlier, acts, kind, ?_⟩
      intro k b after soon act
      rcases Nat.lt_succ_iff_lt_or_eq.mp soon with sooner | rfl
      · exact between k b after sooner act
      · exact none b act
    cases acts : run.act n with
    | none =>
      rw [run.rest n acts] at here
      exact before here (by simp [acts])
    | some a =>
      rcases step _ a _ (run.step n a acts) here with kind | ⟨held, other⟩
      · exact ⟨n, a, Nat.lt_succ_self n, acts, kind, fun k b after soon => by omega⟩
      · refine before held ?_
        intro b act
        rw [acts] at act
        cases act
        exact other

/-- An act of the kind happens, if from some instant on one is always possible. -/
def Fair (run : Execution M) (A : α → Prop) : Prop :=
  ∀ n, (∀ m, n ≤ m → ∃ a t, A a ∧ M.step (run.state m) a t) →
    ∃ m, n ≤ m ∧ ∃ a, run.act m = some a ∧ A a

/-- Where an act of a fair kind is possible as long as the goal is not reached, no step leads
away from it and each of those acts brings it nearer, it is reached. -/
theorem Fair.reaches {P Q : ℕ → Prop} (rank : ℕ → ℕ) (fair : run.Fair A)
    (possible : ∀ m, P m → ∃ a t, A a ∧ M.step (run.state m) a t)
    (step : ∀ m, P m → Q (m + 1) ∨ P (m + 1) ∧ rank (m + 1) ≤ rank m ∧
      ∀ a, run.act m = some a → A a → rank (m + 1) < rank m)
    (here : P n) : ∃ m, n < m ∧ Q m := by
  induction bound : rank n using Nat.strong_induction_on generalizing n with
  | _ k ih =>
    by_contra never
    have not : ∀ m, n < m → ¬Q m := fun m later reached => never ⟨m, later, reached⟩
    have kept : ∀ j, P (n + j) ∧ rank (n + j) ≤ rank n := by
      intro j
      induction j with
      | zero => exact ⟨here, le_rfl⟩
      | succ j ih =>
        grind
    obtain ⟨m, later, a, acts, kind⟩ := fair n fun m later => by
      obtain ⟨j, rfl⟩ := Nat.exists_eq_add_of_le later
      exact possible _ (kept j).1
    obtain ⟨j, rfl⟩ := Nat.exists_eq_add_of_le later
    rcases step (n + j) (kept j).1 with reached | ⟨held, -, less⟩
    · exact not _ (by omega) reached
    · have smaller : rank (n + j + 1) < k := by
        have := (kept j).2
        have := less a acts kind
        omega
      obtain ⟨m, after, reached⟩ := ih _ smaller held rfl
      exact not m (by omega) reached

theorem Fair.next {P Q : ℕ → Prop} (fair : run.Fair A)
    (possible : ∀ m, P m → ∃ a t, A a ∧ M.step (run.state m) a t)
    (step : ∀ m, P m → Q (m + 1) ∨ P (m + 1) ∧ ∀ a, run.act m = some a → ¬A a)
    (here : P n) : ∃ m, n < m ∧ Q m := by
  refine fair.reaches (fun _ => 0) possible (fun m held => (step m held).imp_right ?_) here
  rintro ⟨kept, other⟩
  exact ⟨kept, le_rfl, fun a acts kind => (other a acts kind).elim⟩

theorem Fair.leads {Q : σ → Prop} (rank : σ → ℕ) (fair : run.Fair A)
    (possible : ∀ s, M.Reachable free s → P s → ∃ a t, A a ∧ M.step s a t)
    (step : ∀ s a t, M.Reachable free s → P s → M.step s a t →
      Q t ∨ P t ∧ rank t ≤ rank s ∧ (A a → rank t < rank s)) (here : P (run.state n)) :
    ∃ m, n < m ∧ Q (run.state m) := by
  refine fair.reaches (P := fun m => P (run.state m)) (Q := fun m => Q (run.state m))
    (fun m => rank (run.state m)) (fun m held => possible _ (run.reachable m) held) ?_ here
  intro m held
  cases acts : run.act m with
  | none =>
    rw [run.rest m acts]
    exact Or.inr ⟨held, le_rfl, by simp⟩
  | some a =>
    refine (step _ a _ (run.reachable m) held (run.step m a acts)).imp_right ?_
    rintro ⟨kept, less, fewer⟩
    exact ⟨kept, less, by rintro b ⟨⟩; exact fewer⟩

end Execution

end System

end Sre.Foundation
