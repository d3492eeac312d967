/- GID: Sre/Foundation/Run
   digest: Histories of a fallible step function, newest entry first, and their induction rules. -/

import Mathlib.Data.List.Nodup
import Mathlib.Logic.Relation
import Sre.Foundation.Outcome

set_option autoImplicit false

namespace Sre.Foundation.Run

variable {ι σ ρ ε : Type} (step : ι → σ → Except ε (ρ × σ)) (init : σ)

def after (i : ι) (s : σ) : σ :=
  match step i s with
  | .error _ => s
  | .ok (_, next) => next

def replay : List ι → σ
  | [] => init
  | i :: past => after step i (replay past)

def Commits (past : List ι) (i : ι) (r : ρ) : Prop :=
  step i (replay step init past) = .ok (r, replay step init (i :: past))

variable {step init} {i : ι} {r : ρ}

theorem after_ok {s t : σ} (ok : step i s = .ok (r, t)) : after step i s = t := by
  simp [after, ok]

variable (step init) in
theorem replay_cases (i : ι) (past : List ι) :
    (replay step init (i :: past) = replay step init past ∧ ∀ r, ¬ Commits step init past i r) ∨
      ∃ r, Commits step init past i r := by
  cases answered : step i (replay step init past) with
  | error e =>
    refine Or.inl ⟨by simp [replay, after, answered], fun r commits => ?_⟩
    simp [Commits, answered] at commits
  | ok answer =>
    obtain ⟨r, t⟩ := answer
    exact Or.inr ⟨r, by rw [Commits, answered, replay, after_ok answered]⟩

theorem Commits.of_ok {past : List ι} {t : σ} (ok : step i (replay step init past) = .ok (r, t)) :
    Commits step init past i r := by
  rw [Commits, ok, replay, after_ok ok]

theorem Commits.of_eval {α : Type} {past : List ι} {i : ι} {f : ρ → Option α} {a : α}
    (value : (step i (replay step init past)).toOption.bind (fun x => f x.1) = some a) :
    ∃ r, Commits step init past i r ∧ f r = some a := by
  obtain ⟨⟨r, t⟩, answered, projected⟩ := Option.bind_eq_some_iff.mp value
  cases outcome : step i (replay step init past) with
  | error e => simp [outcome, Except.toOption] at answered
  | ok answer =>
    simp only [outcome, Except.toOption, Option.some.injEq] at answered
    exact ⟨r, Commits.of_ok (outcome.trans (congrArg _ answered)), projected⟩

/-- What holds at the start and is kept by every successful step holds throughout. -/
theorem replay_invariant {P : σ → Prop} (start : P init)
    (keeps : ∀ i s r t, step i s = .ok (r, t) → P s → P t) (history : List ι) :
    P (replay step init history) := by
  induction history with
  | nil => exact start
  | cons i past ih =>
    rcases replay_cases step init i past with ⟨same, -⟩ | ⟨r, commits⟩
    · exact same ▸ ih
    · exact keeps i _ r _ commits ih

theorem history_invariant {P : List ι → σ → Prop} (start : P [] init)
    (fails : ∀ i past s, P past s → P (i :: past) s)
    (keeps : ∀ i past r t, Commits step init past i r → t = replay step init (i :: past) →
      P past (replay step init past) → P (i :: past) t) (history : List ι) :
    P history (replay step init history) := by
  induction history with
  | nil => exact start
  | cons i past ih =>
    rcases replay_cases step init i past with ⟨same, -⟩ | ⟨r, commits⟩
    · exact same ▸ fails i past _ ih
    · exact keeps i past r _ commits rfl ih

theorem replay_rises {R : σ → σ → Prop} (refl : ∀ s, R s s)
    (trans : ∀ {a b c}, R a b → R b c → R a c)
    (keeps : ∀ i s r t, step i s = .ok (r, t) → R s t) (later past : List ι) :
    R (replay step init past) (replay step init (later ++ past)) := by
  induction later with
  | nil => exact refl _
  | cons i later ih =>
    rcases replay_cases step init i (later ++ past) with
      ⟨same, -⟩ | ⟨r, commits⟩
    · rw [List.cons_append, same]
      exact ih
    · exact trans ih (keeps i _ r _ commits)

end Sre.Foundation.Run

namespace Sre.Foundation.History

variable {α β : Type} {draw : α → List β} {d e : α} {later past : List α} {x : β}

theorem positions {later' past' : List α} (same : later ++ e :: past = later' ++ d :: past') :
    (later = later' ∧ e = d ∧ past = past') ∨ (∃ middle, past = middle ++ d :: past') ∨
      ∃ middle, past' = middle ++ e :: past := by
  rcases List.append_eq_append_iff.mp same with ⟨middle, rfl, tail⟩ | ⟨middle, rfl, tail⟩
  · cases middle with
    | nil => simp_all
    | cons head middle => exact Or.inr (Or.inl ⟨middle, (List.cons.inj tail).2⟩)
  · cases middle with
    | nil => simp_all
    | cons head middle => exact Or.inr (Or.inr ⟨middle, (List.cons.inj tail).2⟩)

theorem not_drawn_twice (fresh : ((later ++ e :: past).flatMap draw).Nodup) (drawn : x ∈ draw e)
    (older : d ∈ past) : x ∉ draw d := by
  grind

theorem position_unique {later' past' : List α} (fresh : ((later ++ e :: past).flatMap draw).Nodup)
    (same : later ++ e :: past = later' ++ d :: past') (first : x ∈ draw e) (second : x ∈ draw d) :
    later = later' ∧ e = d ∧ past = past' := by
  rcases positions same with equal | ⟨middle, rfl⟩ | ⟨middle, rfl⟩
  · exact equal
  · exact absurd second (not_drawn_twice fresh first (by simp))
  · rw [same] at fresh
    exact absurd first (not_drawn_twice fresh second (by simp))

theorem drawn_by_one {history : List α} (fresh : (history.flatMap draw).Nodup)
    (member : e ∈ history) (member' : d ∈ history) (first : x ∈ draw e) (second : x ∈ draw d) :
    e = d := by
  obtain ⟨later, past, rfl⟩ := List.append_of_mem member
  obtain ⟨later', past', same⟩ := List.append_of_mem member'
  exact (position_unique fresh same first second).2.1

end Sre.Foundation.History
