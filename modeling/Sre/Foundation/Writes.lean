/- GID: Sre/Foundation/Writes
   digest: What a map holds after a sequence of assignments, as entries in the order of the keys. -/

import Mathlib.Data.List.Dedup
import Mathlib.Data.List.Lex
import Mathlib.Data.List.Sort
import Sre.Foundation.Assoc

set_option autoImplicit false

namespace Sre.Foundation.Writes

open List

variable {κ α β : Type} [LinearOrder κ]

/-- The value that the last assignment to a key left there. -/
def last (k : κ) : List (κ × α) → Option α
  | [] => none
  | w :: writes => (last k writes).or (if w.1 = k then some w.2 else none)

/-- One assignment to a map whose entries are in the order of their keys. -/
def assign (k : κ) (v : α) : List (κ × α) → List (κ × α)
  | [] => [(k, v)]
  | e :: m => if k < e.1 then (k, v) :: e :: m else if k = e.1 then (k, v) :: m
      else e :: assign k v m

def content (writes : List (κ × α)) : List (κ × α) :=
  writes.foldl (fun m w => assign w.1 w.2 m) []

variable {k : κ} {writes m : List (κ × α)} {v : α}

theorem last_filter (k : κ) (p : κ × α → Bool) (writes : List (κ × α))
    (kept : ∀ w ∈ writes, w.1 = k → p w = true) : last k (writes.filter p) = last k writes := by
  induction writes with
  | nil => rfl
  | cons w writes ih =>
    have rest := ih fun w inside => kept w (mem_cons_of_mem _ inside)
    rw [filter_cons]
    cases chosen : p w with
    | true => rw [if_pos rfl, last, rest, last]
    | false =>
      simp_all [last]

theorem last_mem (found : last k writes = some v) : (k, v) ∈ writes := by
  induction writes with
  | nil => cases found
  | cons w writes ih =>
    rw [last, Option.or_eq_some_iff] at found
    grind

theorem last_map (f : α → β) (k : κ) (writes : List (κ × α)) :
    last k (writes.map fun w => (w.1, f w.2)) = (last k writes).map f := by
  induction writes with
  | nil => rfl
  | cons w writes ih =>
    grind [last]

private theorem mem_assign {e : κ × α} (inside : e ∈ assign k v m) : e = (k, v) ∨ e ∈ m := by
  induction m with
  | nil => exact .inl (mem_singleton.mp inside)
  | cons d m ih =>
    grind [assign]

def Ordered (m : List (κ × α)) : Prop := m.Pairwise fun a b => a.1 < b.1

private theorem ordered_assign (ordered : Ordered m) : Ordered (assign k v m) := by
  induction m with
  | nil => exact pairwise_singleton _ _
  | cons d m ih =>
    obtain ⟨first, rest⟩ := pairwise_cons.mp ordered
    rw [assign]
    split
    · next below =>
        refine pairwise_cons.mpr ⟨?_, ordered⟩
        intro e inside
        rcases mem_cons.mp inside with rfl | later
        · exact below
        · exact below.trans (first e later)
    · next notBelow =>
        split
        · next same => exact pairwise_cons.mpr ⟨fun e inside => same ▸ first e inside, rest⟩
        · next other =>
            refine pairwise_cons.mpr ⟨?_, ih rest⟩
            intro e inside
            rcases mem_assign inside with rfl | old
            · exact lt_of_le_of_ne (not_lt.mp notBelow) (Ne.symm other)
            · exact first e old

private theorem lookup_entry (k : κ) (e : κ × α) (m : List (κ × α)) :
    (e :: m).lookup k = if e.1 = k then some e.2 else m.lookup k := by
  rw [lookup_cons]
  by_cases same : e.1 = k
  · rw [if_pos same, same, beq_self_eq_true]
  · rw [if_neg same, beq_eq_false_iff_ne.mpr (Ne.symm same)]

private theorem lookup_assign {k' : κ} :
    (assign k v m).lookup k' = if k = k' then some v else m.lookup k' := by
  induction m with
  | nil => rw [assign, lookup_entry]
  | cons d m ih =>
    rw [assign]
    split
    · rw [lookup_entry]
    · split
      · next eq =>
          grind
      · next other =>
          rw [lookup_entry, lookup_entry, ih]
          by_cases same : k = k'
          · rw [if_pos same, if_pos same, if_neg fun eq => other (same.trans eq.symm)]
          · rw [if_neg same, if_neg same]

private theorem foldl_assign (writes : List (κ × α)) :
    ∀ m : List (κ × α), Ordered m →
      Ordered (writes.foldl (fun m w => assign w.1 w.2 m) m) ∧
      ∀ k, (writes.foldl (fun m w => assign w.1 w.2 m) m).lookup k =
        (last k writes).or (m.lookup k) := by
  induction writes with
  | nil => exact fun m ordered => ⟨ordered, fun k => rfl⟩
  | cons w writes ih =>
    intro m ordered
    obtain ⟨sorted, found⟩ := ih (assign w.1 w.2 m) (ordered_assign ordered)
    refine ⟨sorted, fun k => ?_⟩
    rw [foldl_cons, found k, lookup_assign, last, Option.or_assoc]
    congr 1
    by_cases same : w.1 = k <;> simp [same]

theorem content_ordered (writes : List (κ × α)) : Ordered (content writes) :=
  (foldl_assign writes [] List.Pairwise.nil).1

theorem lookup_content (k : κ) (writes : List (κ × α)) :
    (content writes).lookup k = last k writes := by
  rw [content, (foldl_assign writes [] List.Pairwise.nil).2 k, lookup_nil, Option.or_none]

private theorem Ordered.distinct (ordered : Ordered m) : Assoc.Distinct m := by
  rw [Assoc.Distinct, Nodup, pairwise_map]
  exact ordered.imp fun below => below.ne

theorem mem_content (inside : (k, v) ∈ content writes) : (k, v) ∈ writes := by
  have found := (Assoc.lookup_eq_some_iff (content_ordered writes).distinct).mpr inside
  rw [lookup_content] at found
  exact last_mem found

theorem content_eq_iff (writes writes' : List (κ × α)) :
    content writes = content writes' ↔ ∀ k, last k writes = last k writes' := by
  constructor
  · intro same k
    rw [← lookup_content, same, lookup_content]
  · intro same
    have members : ∀ e, e ∈ content writes ↔ e ∈ content writes' := fun e => by
      rw [← Assoc.lookup_eq_some_iff (content_ordered writes).distinct,
        ← Assoc.lookup_eq_some_iff (content_ordered writes').distinct, lookup_content,
        lookup_content, same]
    have nodup : ∀ ws : List (κ × α), (content ws).Nodup := fun ws =>
      (content_ordered ws).distinct.of_map
    have perm := (perm_ext_iff_of_nodup (nodup writes) (nodup writes')).mpr members
    exact perm.eq_of_pairwise (fun a b _ _ below above => (lt_asymm below above).elim)
      (content_ordered writes) (content_ordered writes')

private theorem last_eq_none {k : κ} (absent : last k writes = none) : k ∉ writes.map Prod.fst := by
  induction writes with
  | nil => exact not_mem_nil
  | cons w writes ih =>
    rw [last, Option.or_eq_none_iff] at absent
    rw [map_cons, mem_cons, not_or]
    refine ⟨?_, ih absent.1⟩
    rintro rfl
    simp at absent

private theorem content_keys (writes : List (κ × α)) :
    ((content writes).map Prod.fst).Perm (writes.map Prod.fst).dedup := by
  refine (perm_ext_iff_of_nodup (content_ordered writes).distinct (nodup_dedup _)).mpr ?_
  intro k
  rw [mem_dedup]
  constructor
  · intro inside
    obtain ⟨e, member, rfl⟩ := mem_map.mp inside
    exact mem_map_of_mem (mem_content member)
  · intro assigned
    rw [← Assoc.lookup_isSome, lookup_content, Option.isSome_iff_ne_none]
    exact fun absent => last_eq_none absent assigned

/-- No assignment is lost exactly if the keys are all different. -/
theorem content_length_iff (writes : List (κ × α)) :
    (content writes).length = writes.length ↔ (writes.map Prod.fst).Nodup := by
  have keys := (content_keys writes).length_eq
  rw [length_map] at keys
  rw [keys, ← dedup_eq_self]
  constructor
  · intro same
    exact (dedup_sublist _).eq_of_length (by rw [same, length_map])
  · intro same
    rw [same, length_map]

theorem content_perm (distinct : (writes.map Prod.fst).Nodup) : (content writes).Perm writes := by
  have inside : content writes ⊆ writes := fun _ member => mem_content member
  exact (subperm_of_subset (content_ordered writes).distinct.of_map inside).perm_of_length_le
    ((content_length_iff writes).mpr distinct).ge

/-- The order of assignments to different keys does not matter. -/
theorem content_eq_of_perm {writes' : List (κ × α)} (distinct : (writes.map Prod.fst).Nodup)
    (perm : writes'.Perm writes) : content writes' = content writes := by
  have distinct' := (perm.map Prod.fst).nodup_iff.mpr distinct
  have same := (content_perm distinct').trans (perm.trans (content_perm distinct).symm)
  exact same.eq_of_pairwise (fun a b _ _ below above => (lt_asymm below above).elim)
    (content_ordered writes') (content_ordered writes)

end Sre.Foundation.Writes
