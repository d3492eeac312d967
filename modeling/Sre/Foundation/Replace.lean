/- GID: Sre/Foundation/Replace
   digest: A value in memory and its document on disk, replaced by writing a new file and renaming it. -/

import Mathlib.Data.List.Basic
import Mathlib.Logic.Relation
import Mathlib.Tactic.Common

set_option autoImplicit false

namespace Sre.Foundation.Replace

/-- The file operations of a replacement, in the words of their errors. -/
inductive FileStep where
  | encode
  | createTemporary
  | restrictTemporary
  | write
  | sync
  | close
  | replace
  | restrict
  | openDirectory
  | syncDirectory
  deriving DecidableEq

/-- The steps that replace a file: those up to the rename, which are without effect if
one of them fails, and those that come after it. -/
structure Protocol (σ : Type) where
  before : List σ
  after : List σ

variable {σ μ δ : Type}

/-- The document at the path after a replacement that stops at the first failing step,
and that step. -/
def Protocol.replace (p : Protocol σ) (fails : σ → Bool) (old new : δ) : δ × Option σ :=
  match p.before.find? fails with
  | some s => (old, some s)
  | none => (new, p.after.find? fails)

/-- The steps after the rename, when they are reached, do not fail. -/
def Protocol.Settles (p : Protocol σ) (fails : σ → Bool) : Prop :=
  p.before.find? fails = none → p.after.find? fails = none

instance (p : Protocol σ) (fails : σ → Bool) : Decidable (p.Settles fails) :=
  match found : p.before.find? fails with
  | some s => .isTrue fun none => by rw [found] at none; cases none
  | none =>
    match later : p.after.find? fails with
    | none => .isTrue fun _ => later
    | some s => .isFalse fun settles => by rw [settles found] at later; cases later

/-- A value in memory and the document that stands for it. -/
structure Cell (μ δ : Type) where
  memory : μ
  disk : δ

/-- The next value is written first, and taken over in memory only if that succeeded. -/
def Cell.commit (p : Protocol σ) (fails : σ → Bool) (c : Cell μ δ) (next : μ) (document : δ) :
    Cell μ δ × Option σ :=
  match p.replace fails c.disk document with
  | (disk, none) => (⟨next, disk⟩, none)
  | (disk, some s) => (⟨c.memory, disk⟩, some s)

variable {p : Protocol σ} {fails : σ → Bool} {c c' : Cell μ δ} {next : μ} {document : δ}
  {decode : δ → μ} {s : σ}

/-- What a settling commit can do: nothing but fail, or store the next value in both places. -/
theorem Cell.commit_cases (c : Cell μ δ) (next : μ) (document : δ) (settles : p.Settles fails) :
    (∃ s, c.commit p fails next document = (c, some s)) ∨
      c.commit p fails next document = (⟨next, document⟩, none) := by
  unfold Cell.commit Protocol.replace
  cases found : p.before.find? fails with
  | some s => exact Or.inl ⟨s, rfl⟩
  | none =>
    rw [settles found]
    exact Or.inr rfl

theorem Cell.commit_ok (ok : c.commit p fails next document = (c', none)) :
    c' = ⟨next, document⟩ := by
  unfold Cell.commit Protocol.replace at ok
  cases found : p.before.find? fails with
  | some s => simp [found] at ok
  | none =>
    cases later : p.after.find? fails with
    | some s => simp [found, later] at ok
    | none => simpa [found, later] using ok.symm

theorem Cell.commit_memory (failed : c.commit p fails next document = (c', some s)) :
    c'.memory = c.memory := by
  unfold Cell.commit at failed
  grind

theorem Cell.commit_error (settles : p.Settles fails)
    (failed : c.commit p fails next document = (c', some s)) : c' = c := by
  rcases Cell.commit_cases c next document settles with
    ⟨_, same⟩ | same
  · rw [same] at failed
    exact (Prod.mk.inj failed).1.symm
  · rw [same] at failed
    cases (Prod.mk.inj failed).2

section Machine

variable {S κ μ : Type}

end Machine

end Sre.Foundation.Replace
