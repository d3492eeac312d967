/- GID: Sre/Foundation/Outcome
   digest: Inversion of fallible sequencing, and guards that answer one fixed error. -/

import Mathlib.Logic.Basic
import Mathlib.Tactic.Common

set_option autoImplicit false

namespace Sre.Foundation.Outcome

open List

variable {ε α β : Type} {b : β} {f : α → Except ε β} {x : Except ε α}

/-- Continue only when the condition holds; otherwise answer the given error. -/
def require (c : Bool) (e : ε) : Except ε Unit :=
  if c then .ok () else .error e

theorem bind_ok : (x >>= f) = .ok b ↔ ∃ a, x = .ok a ∧ f a = .ok b := by
  cases x with
  | error e | ok a => simp [bind, Except.bind]

variable {e : ε} {c : Bool} {u : Unit} {r : Except ε α} {l : List α}

theorem bind_error : (x >>= f) = .error e ↔ x = .error e ∨ ∃ a, x = .ok a ∧ f a = .error e := by
  cases x with
  | error e' | ok a => simp [bind, Except.bind]

@[simp] theorem require_ok : require c e = .ok u ↔ c = true := by
  cases c <;> simp [require]

@[simp] theorem require_error {e' : ε} : require c e = .error e' ↔ c = false ∧ e = e' := by
  cases c <;> simp [require]

@[simp] theorem pure_ok {a b : α} : (pure a : Except ε α) = .ok b ↔ a = b := by
  simp [pure, Except.pure]

theorem map_ok {f : α → β} (ok : r.map f = .ok b) : ∃ a, r = .ok a ∧ f a = b := by
  cases r with
  | error e => simp [Except.map] at ok
  | ok a => exact ⟨a, rfl, by simpa [Except.map] using ok⟩

theorem ok_of_isSome (some : r.toOption.isSome = true) : ∃ a, r = .ok a := by
  cases r with
  | error e => simp [Except.toOption] at some
  | ok a => exact ⟨a, rfl⟩

theorem forM_ok {f : α → Except ε Unit} (ok : l.forM f = .ok u) : ∀ a ∈ l, ∃ v, f a = .ok v := by
  induction l with
  | nil => simp
  | cons b l ih =>
    obtain ⟨v, head, rest⟩ := bind_ok.mp ok
    grind

theorem forM_of_all {f : α → Except ε Unit} (all : ∀ a ∈ l, f a = .ok ()) : l.forM f = .ok () := by
  induction l with
  | nil => rfl
  | cons a l ih =>
    change (f a >>= fun _ => l.forM f) = .ok ()
    rw [all a mem_cons_self]
    exact ih fun b member => all b (mem_cons_of_mem _ member)

/-- A reflexive and transitive relation that every step of a loop keeps relates the
ends of the loop. -/
theorem foldlM_rises {f : β → α → Except ε β} {R : β → β → Prop} (refl : ∀ b, R b b)
    (trans : ∀ {b c d}, R b c → R c d → R b d) (step : ∀ a ∈ l, ∀ b c, f b a = .ok c → R b c)
    {d : β} (ok : l.foldlM f b = .ok d) : R b d := by
  induction l generalizing b with
  | nil =>
    rw [foldlM_nil, pure_ok] at ok
    exact ok ▸ refl b
  | cons a l ih =>
    rw [foldlM_cons, bind_ok] at ok
    grind

end Sre.Foundation.Outcome
