/- GID: Sre/Foundation/Assoc
   digest: Finite maps as lists of entries, and the orders in which their entries may be visited. -/

import Mathlib.Data.List.Perm.Basic

set_option autoImplicit false

namespace Sre.Foundation.Assoc

open List

variable {κ α : Type} [DecidableEq κ] {m : List (κ × α)} {k : κ} {v : α} {e : κ × α}

def put (m : List (κ × α)) (k : κ) (v : α) : List (κ × α) :=
  if m.any (fun e => e.1 = k) then m.map (fun e => if e.1 = k then (k, v) else e)
  else m ++ [(k, v)]

theorem mem_put (member : e ∈ put m k v) : e = (k, v) ∨ e ∈ m := by
  unfold put at member
  grind

section Lookup

variable [BEq κ] [LawfulBEq κ]

def Distinct (m : List (κ × α)) : Prop := (m.map Prod.fst).Nodup

omit [DecidableEq κ] in
theorem lookup_eq_some_iff (distinct : Distinct m) : m.lookup k = some v ↔ (k, v) ∈ m := by
  induction m with
  | nil => simp
  | cons e m ih =>
    have fresh := (nodup_cons.mp distinct).1
    have rest := ih (nodup_cons.mp distinct).2
    grind

omit [DecidableEq κ] in
theorem mem_of_lookup (found : m.lookup k = some v) : (k, v) ∈ m := by
  induction m with
  | nil => cases found
  | cons e m ih =>
    grind

omit [DecidableEq κ] [LawfulBEq κ] in
theorem lookup_perm [LawfulBEq κ] {m' : List (κ × α)} (distinct : Distinct m) (perm : m'.Perm m) :
    m'.lookup k = m.lookup k := by
  have distinct' : Distinct m' := (perm.map Prod.fst).nodup_iff.mpr distinct
  apply Option.ext
  intro v
  rw [lookup_eq_some_iff distinct, lookup_eq_some_iff distinct', perm.mem_iff]

omit [DecidableEq κ] in
theorem lookup_map {β : Type} (f : κ × α → β) :
    (m.map fun e => (e.1, f e)).lookup k = (m.lookup k).map fun v => f (k, v) := by
  induction m with
  | nil => rfl
  | cons e m ih =>
    grind

omit [DecidableEq κ] in
theorem lookup_filter (p : κ → Bool) :
    (m.filter fun e => p e.1).lookup k = if p k then m.lookup k else none := by
  induction m with
  | nil => simp
  | cons e m ih =>
    grind

omit [DecidableEq κ] in
theorem lookup_isSome : (m.lookup k).isSome = true ↔ k ∈ m.map Prod.fst := by
  simp

theorem lookup_put (key : κ) :
    (put m k v).lookup key = if key = k then some v else m.lookup key := by
  have known : m.any (fun e => e.1 = k) = true ↔ k ∈ m.map Prod.fst := by
    simp only [any_eq_true, decide_eq_true_eq, mem_map]
  unfold put
  split
  · rename_i inside
    have replaced : (m.map fun e => if e.1 = k then (k, v) else e) =
        m.map fun e => (e.1, if e.1 = k then v else e.2) := by
      grind
    rw [replaced, lookup_map fun e => if e.1 = k then v else e.2]
    by_cases here : key = k
    · subst here
      obtain ⟨old, found⟩ := Option.isSome_iff_exists.mp (lookup_isSome.mpr (known.mp inside))
      simp [found]
    · simp [here]
  · rename_i fresh
    grind

theorem length_put : (put m k v).length =
    if (m.lookup k).isSome then m.length else m.length + 1 := by
  have known : m.any (fun e => e.1 = k) = true ↔ (m.lookup k).isSome = true := by
    rw [lookup_isSome]
    simp only [any_eq_true, decide_eq_true_eq, mem_map]
  grind [put]

end Lookup

theorem Distinct.put (distinct : Distinct m) : Distinct (put m k v) := by
  unfold Distinct Assoc.put at *
  split
  · have same : (m.map fun e => if e.1 = k then (k, v) else e).map Prod.fst = m.map Prod.fst := by
      rw [map_map]
      refine map_congr_left fun e _ => ?_
      simp only [Function.comp_apply]
      split
      · rename_i here
        exact here.symm
      · rfl
    rwa [same]
  · grind

theorem split_of_lookup [BEq κ] [LawfulBEq κ] (distinct : Distinct m)
    (found : m.lookup k = some v) :
    ∃ before after, m = before ++ (k, v) :: after ∧
      (∀ f : α → α, (m.map fun e => if e.1 = k then (e.1, f e.2) else e) =
        before ++ (k, f v) :: after) ∧
      m.filter (fun e => e.1 ≠ k) = before ++ after := by
  obtain ⟨before, after, rfl⟩ := append_of_mem (mem_of_lookup found)
  have apart : ∀ e ∈ before ++ after, e.1 ≠ k := by
    have moved : (((k, v) :: (before ++ after)).map Prod.fst).Nodup :=
      (perm_middle.map Prod.fst).nodup_iff.mp distinct
    intro e member here
    refine (nodup_cons.mp moved).1 ?_
    exact mem_map.mpr ⟨e, member, here⟩
  refine ⟨before, after, rfl, ?_, ?_⟩
  · intro f
    have same : ∀ l : List (κ × α), (∀ e ∈ l, e.1 ≠ k) →
        (l.map fun e => if e.1 = k then (e.1, f e.2) else e) = l := by
      intro l other
      refine (map_congr_left fun e member => ?_).trans (map_id l)
      exact if_neg (other e member)
    rw [map_append, map_cons, if_pos rfl,
      same before fun e member => apart e (mem_append_left _ member),
      same after fun e member => apart e (mem_append_right _ member)]
  · have same : ∀ l : List (κ × α), (∀ e ∈ l, e.1 ≠ k) → l.filter (fun e => e.1 ≠ k) = l :=
      fun l other => filter_eq_self.mpr fun e member => decide_eq_true (other e member)
    rw [filter_append, filter_cons, if_neg (by simp),
      same before fun e member => apart e (mem_append_left _ member),
      same after fun e member => apart e (mem_append_right _ member)]

theorem put_of_absent (absent : ∀ e ∈ m, e.1 ≠ k) : put m k v = m ++ [(k, v)] := by
  grind [put]

theorem foldl_put {key : α → κ} (values : List α) :
    ∀ {m : List (κ × α)}, (m.map Prod.fst ++ values.map key).Nodup →
      values.foldl (fun m v => put m (key v) v) m = m ++ values.map fun v => (key v, v) := by
  induction values with
  | nil =>
    intro m _
    rw [foldl_nil, map_nil, append_nil]
  | cons v values ih =>
    intro m distinct
    have absent : ∀ e ∈ m, e.1 ≠ key v := by
      intro e member here
      refine (nodup_append.mp distinct).2.2 e.1 (mem_map.mpr ⟨e, member, rfl⟩) (key v)
        mem_cons_self here
    rw [foldl_cons, put_of_absent absent, ih, append_assoc]
    · rfl
    · rw [map_append, append_assoc]
      exact distinct

/-- An order in which a loop over a map visits its entries. -/
structure Iteration (α : Type) where
  order : List α → List α
  perm : ∀ l, (order l).Perm l

def Iteration.listed : Iteration α := ⟨fun l => l, fun _ => Perm.refl _⟩

end Sre.Foundation.Assoc
