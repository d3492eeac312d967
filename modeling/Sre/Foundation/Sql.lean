/- GID: Sre/Foundation/Sql
   digest: Conditions with NULL, the aggregate that asks whether all rows agree, and row order. -/

import Mathlib.Data.List.Forall2
import Mathlib.Data.List.Sort
import Mathlib.Data.List.TakeWhile
import Sre.Foundation.Outcome

set_option autoImplicit false

namespace Sre.Foundation.Sql

open List

/-- A condition of a query: `none` is NULL. -/
abbrev Truth := Option Bool

def and3 : Truth → Truth → Truth
  | some false, _ => some false
  | _, some false => some false
  | some true, b => b
  | none, _ => none

def or3 : Truth → Truth → Truth
  | some true, _ => some true
  | _, some true => some true
  | some false, b => b
  | none, _ => none

/-- `COALESCE(bool_and(...), false)`: some row is not NULL and none is false. -/
def boolAnd (rows : List Truth) : Bool :=
  rows.any (fun v => v.isSome) && rows.all (fun v => v != some false)

theorem boolAnd_of_false {rows : List Truth} (member : some false ∈ rows) :
    boolAnd rows = false := by
  have failed : rows.all (fun v => v != some false) = false :=
    all_eq_false.mpr ⟨some false, member, by simp⟩
  simp [boolAnd, failed]

variable {ε α β : Type} {f : α → Except ε β} {l : List α} {out : List β}

theorem mapM_ok_iff : l.mapM f = .ok out ↔ List.Forall₂ (fun a b => f a = .ok b) l out := by
  induction l generalizing out with
  | nil => rw [mapM_nil, Outcome.pure_ok, List.forall₂_nil_left_iff, eq_comm]
  | cons a l ih =>
    simp only [mapM_cons, Outcome.bind_ok, Outcome.pure_ok, List.forall₂_cons_left_iff]
    grind

theorem mapM_ok (ok : l.mapM f = .ok out) : ∀ a ∈ l, ∃ b ∈ out, f a = .ok b := by
  have rows := mapM_ok_iff.mp ok
  clear ok
  induction rows with
  | nil => simp
  | @cons a b l out head _ ih =>
    grind

theorem mapM_congr {g : α → Except ε β} (same : ∀ a ∈ l, f a = g a) : l.mapM f = l.mapM g := by
  induction l with
  | nil => rfl
  | cons a l ih =>
    grind

theorem mapM_filter {p : α → Bool} {q : β → Bool}
    (outside : ∀ a ∈ l, p a = false → ∃ b, f a = .ok b)
    (agree : ∀ a ∈ l, ∀ b, f a = .ok b → q b = p a) :
    (l.filter p).mapM f = (l.mapM f).map (List.filter q) := by
  induction l with
  | nil => rfl
  | cons a l ih =>
    have rest := ih (fun x member => outside x (mem_cons_of_mem _ member))
      fun x member => agree x (mem_cons_of_mem _ member)
    rw [mapM_cons]
    cases head : f a with
    | ok b =>
      have same := agree a mem_cons_self b head
      cases chosen : p a with
      | true =>
        rw [filter_cons_of_pos chosen, mapM_cons, head, rest]
        cases l.mapM f with
        | error e => rfl
        | ok tail => simp [bind, Except.bind, Except.map, pure, Except.pure, same, chosen]
      | false =>
        rw [filter_cons_of_neg (by simp [chosen]), rest]
        cases l.mapM f with
        | error e => rfl
        | ok tail => simp [bind, Except.bind, Except.map, pure, Except.pure, same, chosen]
    | error e =>
      cases chosen : p a with
      | true =>
        rw [filter_cons_of_pos chosen, mapM_cons, head]
        rfl
      | false =>
        grind

theorem foldlM_filter {f g : β → α → Except ε β} {p : α → Bool}
    (skips : ∀ a ∈ l, p a = false → ∀ b, f b a = .ok b)
    (same : ∀ a ∈ l, p a = true → ∀ b, f b a = g b a) (b : β) :
    l.foldlM f b = (l.filter p).foldlM g b := by
  induction l generalizing b with
  | nil => rfl
  | cons a l ih =>
    have rest := ih (fun x member => skips x (mem_cons_of_mem _ member))
      fun x member => same x (mem_cons_of_mem _ member)
    rw [foldlM_cons]
    cases chosen : p a with
    | true =>
      grind
    | false =>
      rw [filter_cons_of_neg (by simp [chosen]), skips a mem_cons_self chosen]
      exact rest b

theorem mapM_ok_mem (ok : l.mapM f = .ok out) {b : β} (member : b ∈ out) :
    ∃ a ∈ l, f a = .ok b := by
  have rows := mapM_ok_iff.mp ok
  clear ok
  induction rows with
  | nil => simp at member
  | @cons a c l out head _ ih =>
    grind

theorem anyM_ok_true {f : α → Except ε Bool} (ok : l.anyM f = .ok true) :
    ∃ a ∈ l, f a = .ok true := by
  induction l with
  | nil => simp [List.anyM, pure, Except.pure] at ok
  | cons a l ih =>
    simp only [List.anyM, Outcome.bind_ok] at ok
    grind

theorem anyM_ok_false {f : α → Except ε Bool} (ok : l.anyM f = .ok false) :
    ∀ a ∈ l, f a = .ok false := by
  induction l with
  | nil => simp
  | cons a l ih =>
    simp only [List.anyM, Outcome.bind_ok] at ok
    simp_all

section Order

variable {κ : Type} [LinearOrder κ] (key : α → κ) (rows : List α)

/-- `ORDER BY key`. -/
def ascending : List α := rows.insertionSort fun a b => key a ≤ key b

/-- `ORDER BY key DESC`. -/
def descending : List α := rows.insertionSort fun a b => key b ≤ key a

variable {key rows}

@[simp] theorem mem_ascending {a : α} : a ∈ ascending key rows ↔ a ∈ rows := by
  simp [ascending]

@[simp] theorem mem_descending {a : α} : a ∈ descending key rows ↔ a ∈ rows := by
  simp [descending]

theorem pairwise_descending : (descending key rows).Pairwise fun a b => key b ≤ key a :=
  haveI : Std.Total fun a b => key b ≤ key a := ⟨fun a b => le_total (key b) (key a)⟩
  haveI : IsTrans α fun a b => key b ≤ key a := ⟨fun _ _ _ ab bc => bc.trans ab⟩
  pairwise_insertionSort _ rows

private theorem filter_insert_descending (keep : α → Bool) (a : α) {sorted : List α}
    (order : sorted.Pairwise fun a b => key b ≤ key a) :
    (sorted.orderedInsert (fun a b => key b ≤ key a) a).filter keep =
      if keep a then (sorted.filter keep).orderedInsert (fun a b => key b ≤ key a) a
      else sorted.filter keep := by
  induction sorted with
  | nil => cases kept : keep a <;> simp [kept]
  | cons b rest ih =>
    obtain ⟨above, order⟩ := pairwise_cons.mp order
    by_cases le : key b ≤ key a
    · -- everything below `b` is below `a` too, whichever rows are kept
      have front : ∀ c ∈ (b :: rest).filter keep, key c ≤ key a := by
        intro c member
        rcases mem_cons.mp (mem_filter.mp member).1 with rfl | member
        · exact le
        · exact (above c member).trans le
      rw [orderedInsert_cons, if_pos le, filter_cons]
      split
      · cases kept : (b :: rest).filter keep with
        | nil => rfl
        | cons c others =>
          rw [orderedInsert_cons, if_pos (front c (by simp [kept]))]
      · rfl
    · rw [orderedInsert_cons, if_neg le, filter_cons, filter_cons, ih order]
      cases keep a <;> cases keep b <;> simp [le]

theorem descending_filter (keep : α → Bool) :
    descending key (rows.filter keep) = (descending key rows).filter keep := by
  induction rows with
  | nil => rfl
  | cons a rows ih =>
    have order : (descending key rows).Pairwise fun a b => key b ≤ key a := pairwise_descending
    have inserted := filter_insert_descending keep a order
    grind [descending]

private theorem filter_eq_takeWhile (bound : κ) {sorted : List α}
    (order : sorted.Pairwise fun a b => key b ≤ key a) :
    sorted.filter (fun r => decide (bound ≤ key r)) =
      sorted.takeWhile fun r => decide (bound ≤ key r) := by
  induction sorted with
  | nil => rfl
  | cons a rest ih =>
    obtain ⟨above, order⟩ := pairwise_cons.mp order
    rw [filter_cons, takeWhile_cons]
    split
    · rw [ih order]
    · rename_i low
      refine filter_eq_nil_iff.mpr fun b member high => low ?_
      simp only [decide_eq_true_eq] at high ⊢
      exact high.trans (above b member)

/-- `WHERE bound <= key ORDER BY key DESC` reads the front of all the sorted rows. -/
theorem descending_since (bound : κ) :
    descending key (rows.filter fun r => decide (bound ≤ key r)) =
      (descending key rows).takeWhile fun r => decide (bound ≤ key r) := by
  rw [descending_filter, filter_eq_takeWhile bound pairwise_descending]

end Order

section Update

variable {κ : Type} {selects p : α → Bool} {change : α → α} {key : α → κ} {rows : List α}

/-- `UPDATE`: rows that the condition selects are changed. -/
def update (selects : α → Bool) (change : α → α) (rows : List α) : List α :=
  rows.map fun r => if selects r then change r else r

theorem mem_update {r : α} : r ∈ update selects change rows ↔
    ∃ q ∈ rows, (selects q = true ∧ r = change q) ∨ (selects q = false ∧ r = q) := by
  grind [update]

theorem map_update (same : ∀ r ∈ rows, selects r = true → key (change r) = key r) :
    (update selects change rows).map key = rows.map key := by
  rw [update, map_map]
  refine map_congr_left fun r member => ?_
  grind

/-- Rows that keep their key and never join a selection leave the keys of the selection
a part of the old ones. -/
theorem filter_map_sublist {f : α → α} (same : ∀ r ∈ rows, key (f r) = key r)
    (leaves : ∀ r ∈ rows, p (f r) = true → p r = true) :
    Sublist (((rows.map f).filter p).map key) ((rows.filter p).map key) := by
  induction rows with
  | nil => exact Sublist.slnil
  | cons r rows ih =>
    have rest := ih (fun q member => same q (mem_cons_of_mem _ member))
      fun q member => leaves q (mem_cons_of_mem _ member)
    rw [map_cons]
    cases kept : p (f r) with
    | true =>
      grind
    | false =>
      rw [filter_cons_of_neg (by simp [kept])]
      refine rest.trans (Sublist.map _ ?_)
      exact (sublist_cons_self r rows).filter p

end Update

end Sre.Foundation.Sql
