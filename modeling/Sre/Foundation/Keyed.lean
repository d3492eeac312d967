/- GID: Sre/Foundation/Keyed
   digest: Tables as lists with a key, and append-only rows whose versions count from one. -/

import Mathlib.Data.Bool.Basic
import Mathlib.Data.List.Nodup
import Mathlib.Data.List.Basic
import Mathlib.Algebra.Order.Ring.Int
import Mathlib.Tactic.Linarith

set_option autoImplicit false

namespace Sre.Foundation.Keyed

open List

variable {α κ : Type} [DecidableEq κ] {key : α → κ} {rows rows' : List α} {row : α}

theorem mem_iff_find? (unique : (rows.map key).Nodup) :
    row ∈ rows ↔ rows.find? (fun r => key r = key row) = some row := by
  constructor
  · intro member
    obtain ⟨r, found⟩ := Option.isSome_iff_exists.mp
      (find?_isSome.mpr ⟨row, member, by simp⟩ :
        (rows.find? (fun r => decide (key r = key row))).isSome)
    have same : key r = key row := by simpa using find?_some found
    rw [found, inj_on_of_nodup_map unique (mem_of_find?_eq_some found) member same]
  · exact mem_of_find?_eq_some

theorem find?_map {f : α → α} (same : ∀ r ∈ rows, key (f r) = key r) (k : κ) :
    (rows.map f).find? (fun r => key r = k) = (rows.find? (fun r => key r = k)).map f := by
  induction rows with
  | nil => rfl
  | cons r rows ih =>
    grind

omit [DecidableEq κ] in
theorem length_filter_le_one {p : α → Bool} (unique : (rows.map key).Nodup)
    (single : ∀ r ∈ rows, ∀ r' ∈ rows, p r = true → p r' = true → key r = key r') :
    (rows.filter p).length ≤ 1 := by
  have distinct : ((rows.filter p).map key).Nodup := unique.sublist (filter_sublist.map key)
  match found : rows.filter p with
  | [] => simp
  | [_] => simp
  | r :: r' :: rest =>
    have first : r ∈ rows.filter p := by simp [found]
    grind

/-- The second table is the first with one row stored under its key. -/
structure Stores (key : α → κ) (rows rows' : List α) (row : α) : Prop where
  unique : (rows.map key).Nodup → (rows'.map key).Nodup
  find? : ∀ k, rows'.find? (fun r => key r = k) =
    if key row = k then some row else rows.find? (fun r => key r = k)

namespace Stores

theorem append (absent : ∀ r ∈ rows, key r ≠ key row) : Stores key rows (rows ++ [row]) row where
  unique nodup := by
    rw [map_append, nodup_append]
    refine ⟨nodup, nodup_singleton _, ?_⟩
    simpa using absent
  find? k := by
    rw [find?_append]
    by_cases hit : key row = k
    · have missing : rows.find? (fun r => key r = k) = none := by
        simpa [find?_eq_none, ← hit] using absent
      simp [hit, missing]
    · simp [hit]

theorem map {old : α} {f : α → α} (found : rows.find? (fun r => key r = key old) = some old)
    (updated : f old = row) (same : ∀ r ∈ rows, key (f r) = key r)
    (others : ∀ r ∈ rows, key r ≠ key old → f r = r) : Stores key rows (rows.map f) row where
  unique nodup := by
    have keys : (rows.map f).map key = rows.map key := by
      rw [map_map]
      exact map_congr_left same
    rwa [keys]
  find? k := by
    have keep : key row = key old := updated ▸ same old (mem_of_find?_eq_some found)
    rw [find?_map same]
    by_cases hit : key row = k
    · rw [← hit, keep, found]
      simp [updated]
    · rw [if_neg hit]
      cases other : rows.find? (fun r => key r = k) with
      | none => rfl
      | some r =>
        have at_k : key r = k := by simpa using find?_some other
        rw [Option.map_some, others r (mem_of_find?_eq_some other)]
        rw [at_k, ← keep]
        exact fun h => hit h.symm

theorem mem (stores : Stores key rows rows' row) (nodup : (rows.map key).Nodup) (r : α) :
    r ∈ rows' ↔ r = row ∨ (r ∈ rows ∧ key r ≠ key row) := by
  rw [mem_iff_find? (stores.unique nodup), stores.find?]
  by_cases hit : key row = key r
  · simp [hit, eq_comm]
  · rw [if_neg hit, ← mem_iff_find? nodup]
    constructor
    · exact fun member => Or.inr ⟨member, fun h => hit h.symm⟩
    · grind

end Stores

end Sre.Foundation.Keyed

namespace Sre.Foundation.Versions

open List

variable {α κ : Type} {key : α → κ} {version : α → ℤ} {rows : List α} {row : α}

def Counted (key : α → κ) (version : α → ℤ) (rows : List α) : Prop :=
  ∀ k, ∃ n : ℕ, ∀ v : ℤ, (∃ r ∈ rows, key r = k ∧ version r = v) ↔ 1 ≤ v ∧ v ≤ n

namespace Counted

theorem nil : Counted key version [] := fun _ => ⟨0, fun v => by simp; lia⟩

private theorem append {m : ℕ} (counted : Counted key version rows)
    (held : ∀ v : ℤ, (∃ r ∈ rows, key r = key row ∧ version r = v) ↔ 1 ≤ v ∧ v ≤ m)
    (next : version row = m + 1) : Counted key version (rows ++ [row]) := by
  intro k
  have split (v : ℤ) : (∃ r ∈ rows ++ [row], key r = k ∧ version r = v) ↔
      (∃ r ∈ rows, key r = k ∧ version r = v) ∨ key row = k ∧ version row = v := by
    simp only [mem_append, mem_singleton, or_and_right, exists_or, exists_eq_left]
  by_cases same : key row = k
  · subst same
    refine ⟨m + 1, fun v => ?_⟩
    rw [split, held]
    lia
  · obtain ⟨n, exact_n⟩ := counted k
    refine ⟨n, fun v => ?_⟩
    rw [split, exact_n]
    simp [same]

theorem unused (counted : Counted key version rows) (one : version row = 1)
    (absent : ∀ r ∈ rows, ¬ (key r = key row ∧ version r = version row)) :
    ∀ r ∈ rows, key r ≠ key row := by
  intro r member same
  obtain ⟨n, held⟩ := counted (key row)
  have range := (held (version r)).mp ⟨r, member, same, rfl⟩
  obtain ⟨q, inside, twin, first⟩ := (held 1).mpr ⟨le_rfl, by lia⟩
  exact absent q inside ⟨twin, first.trans one.symm⟩

theorem first (counted : Counted key version rows) (one : version row = 1)
    (absent : ∀ r ∈ rows, ¬ (key r = key row ∧ version r = version row)) :
    Counted key version (rows ++ [row]) := by
  have fresh := counted.unused one absent
  refine counted.append (m := 0) (fun v => ⟨?_, ?_⟩) (by simpa using one)
  · rintro ⟨r, member, same, -⟩
    exact absurd same (fresh r member)
  · intro range
    lia

theorem next {old : α} (counted : Counted key version rows) (member : old ∈ rows)
    (newest : ∀ r ∈ rows, key r = key old → version r ≤ version old) (same : key row = key old)
    (next : version row = version old + 1) : Counted key version (rows ++ [row]) := by
  obtain ⟨n, held⟩ := counted (key row)
  have range := (held (version old)).mp ⟨old, member, same.symm, rfl⟩
  obtain ⟨r, inside, twin, last⟩ := (held n).mpr ⟨by lia, le_rfl⟩
  have below := newest r inside (twin.trans same)
  exact counted.append held (by lia)

end Counted

/-- A property of the older and the newer of two versions of a key. -/
def Along (key : α → κ) (version : α → ℤ) (R : α → α → Prop) (rows : List α) : Prop :=
  ∀ r ∈ rows, ∀ r' ∈ rows, key r = key r' → version r < version r' → R r r'

namespace Along

variable {R : α → α → Prop}

theorem nil : Along key version R [] := by simp [Along]

theorem append (along : Along key version R rows)
    (above : ∀ r ∈ rows, key r = key row → version r < version row ∧ R r row) :
    Along key version R (rows ++ [row]) := by
  intro r member r' member' same less
  rw [mem_append, mem_singleton] at member member'
  rcases member with member | rfl <;> rcases member' with member' | rfl
  · exact along r member r' member' same less
  · exact (above r member same).2
  · exact absurd (above r' member' same.symm).1 (not_lt.mpr less.le)
  · exact absurd less (lt_irrefl _)

end Along

end Sre.Foundation.Versions
