/- GID: Sre/Foundation/Closure
   digest: Working-table evaluation of a recursive union computes exactly the reachable rows. -/

import Mathlib.Data.List.Dedup
import Mathlib.Data.Finset.Card
import Mathlib.Logic.Relation

set_option autoImplicit false

namespace Sre.Foundation.Closure

open List

variable {α : Type} [DecidableEq α]

/-- Rows the recursive term yields from the working table, less duplicates and
rows already in the result. -/
def unionPass (next : α → List α) (seen work : List α) : List α :=
  (work.flatMap next).dedup.filter (fun a => decide (a ∉ seen))

/-- The evaluation loop of `WITH RECURSIVE ... UNION`: the new rows join the
result and become the next working table, until a pass yields none. -/
def unionLoop (next : α → List α) : ℕ → List α → List α → List α
  | 0, seen, _ => seen
  | fuel + 1, seen, work =>
    match unionPass next seen work with
    | [] => seen
    | row :: rows => unionLoop next fuel (seen ++ row :: rows) (row :: rows)

/-- The fuel counts passes; every pass but the last adds a row of the universe. -/
def recursiveUnion (next : α → List α) (fuel : ℕ) (seed : List α) : List α :=
  unionLoop next fuel seed.dedup seed.dedup

def Edge (next : α → List α) (a b : α) : Prop := b ∈ next a

variable {next : α → List α} {P : α → Prop}

theorem mem_unionPass {seen work : List α} {a : α} :
    a ∈ unionPass next seen work ↔ (∃ b ∈ work, a ∈ next b) ∧ a ∉ seen := by
  simp [unionPass]

private theorem unionLoop_subset (next : α → List α) (fuel : ℕ) (seen work : List α) :
    seen ⊆ unionLoop next fuel seen work := by
  induction fuel generalizing seen work with
  | zero => exact fun _ h => h
  | succ fuel ih =>
    grind [unionLoop]

private theorem unionLoop_sound (next : α → List α) (fuel : ℕ) (seen work : List α)
    (closed : ∀ a b, P a → b ∈ next a → P b) (holds : ∀ a ∈ seen, P a) (included : work ⊆ seen) :
    ∀ a ∈ unionLoop next fuel seen work, P a := by
  induction fuel generalizing seen work with
  | zero => exact holds
  | succ fuel ih =>
    simp only [unionLoop]
    cases pass : unionPass next seen work with
    | nil => exact holds
    | cons row rows =>
      apply ih
      · intro a member
        rcases mem_append.mp member with member | member
        · exact holds a member
        · rw [← pass] at member
          obtain ⟨⟨b, hb, edge⟩, _⟩ := mem_unionPass.mp member
          exact closed b a (holds b (included hb)) edge
      · exact fun a member => mem_append_right _ member

private def missing (rows seen : List α) : Finset α := rows.toFinset \ seen.toFinset

variable {rows : List α} {fuel : ℕ}

private theorem missing_card_lt {seen work : List α} {row : α} {new : List α}
    (bounded : ∀ a, next a ⊆ rows) (pass : unionPass next seen work = row :: new) :
    (missing rows (seen ++ row :: new)).card < (missing rows seen).card := by
  have fresh : row ∈ unionPass next seen work := by rw [pass]; simp
  obtain ⟨⟨b, _, edge⟩, unseen⟩ := mem_unionPass.mp fresh
  apply Finset.card_lt_card
  rw [Finset.ssubset_iff_of_subset]
  · refine ⟨row, ?_, ?_⟩
    · simp [missing, bounded b edge, unseen]
    · simp [missing]
  · intro a member
    simp_all [missing]

private theorem missing_card_enough (enough : rows.length < fuel) (seen : List α) :
    (missing rows seen).card < fuel :=
  lt_of_le_of_lt ((Finset.card_le_card Finset.sdiff_subset).trans (toFinset_card_le rows))
    enough

/-- Everything behind the working table has been expanded already. -/
private def Expanded (next : α → List α) (seen work : List α) : Prop :=
  ∀ a ∈ seen, a ∉ work → next a ⊆ seen

private theorem unionLoop_closed (next : α → List α) (rows : List α)
    (bounded : ∀ a, next a ⊆ rows) (fuel : ℕ) (seen work : List α)
    (expanded : Expanded next seen work) (enough : (missing rows seen).card < fuel) :
    ∀ a ∈ unionLoop next fuel seen work, next a ⊆ unionLoop next fuel seen work := by
  induction fuel generalizing seen work with
  | zero => omega
  | succ fuel ih =>
    simp only [unionLoop]
    cases pass : unionPass next seen work with
    | nil =>
      intro a member b edge
      by_contra unseen
      by_cases active : a ∈ work
      · have fresh : b ∈ unionPass next seen work :=
          mem_unionPass.mpr ⟨⟨a, active, edge⟩, unseen⟩
        rw [pass] at fresh
        simp at fresh
      · exact unseen (expanded a member active edge)
    | cons row new =>
      have shrinks := missing_card_lt bounded pass
      apply ih
      · intro a member idle b edge
        have old : a ∈ seen := by
          grind
        by_cases known : b ∈ seen
        · exact mem_append_left _ known
        · by_cases active : a ∈ work
          · have fresh : b ∈ unionPass next seen work :=
              mem_unionPass.mpr ⟨⟨a, active, edge⟩, known⟩
            rw [pass] at fresh
            exact mem_append_right _ fresh
          · exact absurd (expanded a old active edge) known
      · omega

private theorem unionLoop_congr {next' : α → List α} (same : ∀ a, P a → next a = next' a)
    (closed : ∀ a b, P a → b ∈ next a → P b) (fuel : ℕ) (seen work : List α)
    (inside : ∀ a ∈ work, P a) :
    unionLoop next fuel seen work = unionLoop next' fuel seen work := by
  induction fuel generalizing seen work with
  | zero => rfl
  | succ fuel ih =>
    have pass : unionPass next seen work = unionPass next' seen work := by
      rw [unionPass, unionPass, flatMap_congr fun a member => same a (inside a member)]
    simp only [unionLoop, ← pass]
    cases rows : unionPass next seen work with
    | nil => rfl
    | cons row new =>
      refine ih _ _ fun a member => ?_
      rw [← rows] at member
      obtain ⟨⟨b, active, edge⟩, -⟩ := mem_unionPass.mp member
      exact closed b a (inside b active) edge

private theorem unionLoop_fuel (bounded : ∀ a, next a ⊆ rows) {more : ℕ} (le : fuel ≤ more)
    (seen work : List α) (enough : (missing rows seen).card < fuel) :
    unionLoop next fuel seen work = unionLoop next more seen work := by
  induction fuel generalizing more seen work with
  | zero => omega
  | succ fuel ih =>
    obtain ⟨rest, rfl⟩ : ∃ rest, more = rest + 1 := ⟨more - 1, by omega⟩
    simp only [unionLoop]
    cases pass : unionPass next seen work with
    | nil => rfl
    | cons row new =>
      have shrinks := missing_card_lt bounded pass
      exact ih (by omega) _ _ (by omega)

/-- With one pass for every row of a universe that holds all targets, the result
is the set of rows reachable from the seed. -/
theorem mem_recursiveUnion (bounded : ∀ a, next a ⊆ rows) (enough : rows.length < fuel)
    {seed : List α} {a : α} : a ∈ recursiveUnion next fuel seed ↔
      ∃ s ∈ seed, Relation.ReflTransGen (Edge next) s a := by
  constructor
  · intro member
    refine unionLoop_sound next fuel seed.dedup seed.dedup
      (P := fun a => ∃ s ∈ seed, Relation.ReflTransGen (Edge next) s a)
      ?_ ?_ (fun _ h => h) a member
    · rintro b c ⟨s, hs, path⟩ edge
      exact ⟨s, hs, path.tail edge⟩
    · intro s hs
      exact ⟨s, mem_dedup.mp hs, .refl⟩
  · rintro ⟨s, hs, path⟩
    have card := missing_card_enough enough seed.dedup
    induction path with
    | refl => exact unionLoop_subset next fuel _ _ (mem_dedup.mpr hs)
    | tail _ edge ih =>
      exact unionLoop_closed next rows bounded fuel _ _
        (fun b hb idle => absurd hb idle) card _ ih edge

/-- Two recursive terms that agree on a closed set of rows have the same closure
of any seed inside it, row for row. -/
theorem recursiveUnion_congr {next' : α → List α} {rows' : List α} (bounded : ∀ a, next a ⊆ rows)
    (bounded' : ∀ a, next' a ⊆ rows') {fuel' : ℕ} (enough : rows.length < fuel)
    (enough' : rows'.length < fuel') (same : ∀ a, P a → next a = next' a)
    (closed : ∀ a b, P a → b ∈ next a → P b) {seed : List α} (inside : ∀ a ∈ seed, P a) :
    recursiveUnion next fuel seed = recursiveUnion next' fuel' seed := by
  rw [recursiveUnion, recursiveUnion,
    unionLoop_fuel bounded (le_max_left fuel fuel') _ _ (missing_card_enough enough _),
    unionLoop_fuel bounded' (le_max_right fuel fuel') _ _ (missing_card_enough enough' _)]
  exact unionLoop_congr same closed _ _ _ fun a member => inside a (mem_dedup.mp member)

end Sre.Foundation.Closure
