/- GID: Sre/Storage/Lineage
   digest: Eligibility over the closure of parent and guidance edges. -/

import Sre.Storage.Items
import Sre.Foundation.Closure
import Sre.Foundation.Sql

set_option autoImplicit false

namespace Sre.Storage

open Foundation.Json Foundation.Outcome Foundation.Closure Foundation.Sql Identity Incident List

/-- An item version met in a lineage, and whether a historical edge led to it. -/
abbrev Node := ItemRef × Bool

/-- Digits with an optional sign. -/
def readInteger (t : Text) : Option ℤ :=
  let (sign, rest) := readSign t
  match readDigits rest with
  | (d :: ds, []) =>
    some (if sign = some true then -(digitsValue (d :: ds) : ℤ) else digitsValue (d :: ds))
  | _ => none

/-- The cast `::bigint`. -/
def castBigint (text : Text) : Except Error ℤ :=
  match readInteger ((skipSpace (skipSpace text).reverse).reverse) with
  | none => .error .invalid
  | some z => if -2 ^ 63 ≤ z ∧ z < 2 ^ 63 then .ok z else .error .unavailable

def intText (z : ℤ) : Text := (intNumeral z).text

/-- `envelope#>>'{body,source,field}'`. -/
def ItemRow.source (r : ItemRow) (field : Text) : Option Text :=
  r.envelope.pathText ["body", "source", field]

namespace Tx

/-- Edges of both kinds with their `historic` mark. -/
def edges (t : Tx) : List (Dependency × Bool) :=
  (t.tables.itemParents.map fun d => (d, false)) ++
    t.tables.historicalDependencies.map fun d => (d, true)

def nextNodes (t : Tx) (n : Node) : List Node :=
  (t.edges.filter fun e => e.1.child = n.1).map fun e => (e.1.parent, n.2 || e.2)

def lineage (t : Tx) (ref : ItemRef) : List Node :=
  recursiveUnion t.nextNodes (2 * t.edges.length + 1)
    ((t.tables.items.filter fun r => r.ref = ref).map fun r => (r.ref, false))

/-- A revocation recorded for the agent's epoch at or above the generation. -/
def revokedThrough (t : Tx) (agentID epoch : Text) (generation : Option Text) : Except Error Bool :=
  (t.tables.agentRevocations.filter fun r => r.agentID = agentID ∧ r.epoch = epoch).anyM fun r =>
    match generation with
    | none => .ok false
    | some text => do
      let g ← castBigint text
      return decide (g ≤ r.throughGeneration)

/-- The agent row vouches for evidence recorded under it. -/
def agentVouches (t : Tx) (live : AgentRow → Bool) (row : ItemRow) : Except Error Bool :=
  t.tables.agents.anyM fun a =>
    if some a.id = row.source "agent_id" ∧ some a.epoch = row.source "epoch" ∧
        (t.authorityEpoch = [] ∨ a.epoch = t.authorityEpoch) ∧ a.role = .collector ∧
        a.revoked = false ∧ live a = true then do
      let revoked ← t.revokedThrough a.id a.epoch (row.source "generation")
      return !revoked
    else .ok false

def unquarantined (t : Tx) (ref : ItemRef) : Bool :=
  match t.tables.itemEligibility.find? (fun e => e.item = ref) with
  | none => false
  | some e => !e.quarantined

/-- Freshness of one row of the lineage; history need not be fresh. -/
def fresh (row : Option ItemRow) (historic : Bool) (now : Time) : Truth :=
  or3 (some historic) (row.map fun r => decide (r.observedAt ≤ now ∧ now < r.validUntil))

/-- Authority of one row of the lineage under the current collector. -/
def authority (t : Tx) (row : Option ItemRow) (historic : Bool) (now : Time) : Except Error Truth :=
  let other : Truth := row.map fun r => decide (r.kind ≠ .evidence)
  let unsourced := decide (t.authorityEpoch = []) && (row.bind fun r => r.source "epoch").isNone
  if other = some true ∨ unsourced = true then .ok (some true)
  else
    match row with
    | none => .ok (or3 other (some false))
    | some r => do
      let vouched ← t.agentVouches (fun a =>
        (historic || decide (some (intText a.generation) = r.source "generation")) &&
          (historic || decide (now < a.expiresAt))) r
      return or3 other (some vouched)

/-- The condition of `Eligible` at one row; conjuncts are tried from the left. -/
def eligibleRow (t : Tx) (now : Time) (n : Node) : Except Error Truth :=
  let row := t.tables.items.find? (fun r => r.ref = n.1)
  if t.unquarantined n.1 = false then .ok (some false)
  else if fresh row n.2 now = some false then .ok (some false)
  else do
    let vouched ← t.authority row n.2 now
    return and3 (fresh row n.2 now) vouched

def Eligible (t : Tx) (ref : ItemRef) (now : Time) : Except Error Bool := do
  require (validRef ref && decide (now ≠ 0)) .invalid
  let rows ← (t.lineage ref).mapM (t.eligibleRow (timestamptz now))
  return boolAnd rows

def Uncontested (t : Tx) (ref : ItemRef) : Except Error Bool := do
  require (validRef ref) .invalid
  return boolAnd ((t.lineage ref).map fun n => some (t.unquarantined n.1))

/-- The condition of `HistoricalEligible` at one row. -/
def historicalRow (t : Tx) (r : ItemRow) : Except Error Truth :=
  if r.kind ≠ .evidence then .ok (some true)
  else do
    let vouched ← t.agentVouches (fun _ => true) r
    return some vouched

def HistoricalEligible (t : Tx) (ref : ItemRef) : Except Error Bool := do
  require (validRef ref) .invalid
  let ok ← t.Uncontested ref
  if ok = false then return false
  else
    let rows ← (t.lineage ref).mapM fun n =>
      match t.tables.items.find? (fun r => r.ref = n.1) with
      | none => .ok none
      | some r => t.historicalRow r
    return boolAnd rows

end Tx

/-- One version rests directly on another, as a parent or through guidance. -/
def Tables.RestsOn (s : Tables) (a b : ItemRef) : Prop :=
  ⟨a, b⟩ ∈ s.itemParents ∨ ⟨a, b⟩ ∈ s.historicalDependencies

/-- Finite chains of such edges. -/
def Tables.Depends (s : Tables) : ItemRef → ItemRef → Prop := Relation.ReflTransGen s.RestsOn

namespace Tx

private theorem nextNodes_bounded (t : Tx) (n : Node) :
    t.nextNodes n ⊆ (t.edges.map fun e => (e.1.parent, false)) ++
      t.edges.map fun e => (e.1.parent, true) := by
  intro m member
  simp only [nextNodes, mem_map, mem_filter] at member
  obtain ⟨e, ⟨inside, -⟩, rfl⟩ := member
  rw [mem_append, mem_map, mem_map]
  cases mark : n.2 || e.2 with
  | false => exact Or.inl ⟨e, inside, rfl⟩
  | true => exact Or.inr ⟨e, inside, rfl⟩

variable {n : Node} {ref q : ItemRef} {t : Tx} {now : Time}

theorem mem_lineage : n ∈ t.lineage ref ↔ (∃ r ∈ t.tables.items, r.ref = ref) ∧
      Relation.ReflTransGen (Edge t.nextNodes) (ref, false) n := by
  rw [lineage, mem_recursiveUnion (nextNodes_bounded t) (by simp; omega)]
  constructor
  · rintro ⟨s, member, path⟩
    simp only [mem_map, mem_filter, decide_eq_true_eq] at member
    obtain ⟨r, ⟨inside, rfl⟩, rfl⟩ := member
    exact ⟨⟨r, inside, rfl⟩, path⟩
  · rintro ⟨⟨r, inside, rfl⟩, path⟩
    refine ⟨(r.ref, false), ?_, path⟩
    simp only [mem_map, mem_filter, decide_eq_true_eq]
    exact ⟨r, ⟨inside, rfl⟩, rfl⟩

theorem lineage_inside {P : ItemRef → Prop} (closed : ∀ n m, P n.1 → m ∈ t.nextNodes n → P m.1)
    (start : P ref) (member : n ∈ t.lineage ref) : P n.1 := by
  obtain ⟨-, path⟩ := mem_lineage.mp member
  induction path with
  | refl => exact start
  | tail path edge ih => exact closed _ _ (ih (mem_lineage.mpr ⟨(mem_lineage.mp member).1, path⟩)) edge

theorem lineage_congr {t' : Tx} {P : ItemRef → Prop}
    (same : ∀ n : Node, P n.1 → t.nextNodes n = t'.nextNodes n)
    (closed : ∀ n m, P n.1 → m ∈ t.nextNodes n → P m.1) (start : P ref)
    (rows : (t.tables.items.filter fun r => r.ref = ref) =
      t'.tables.items.filter fun r => r.ref = ref) : t.lineage ref = t'.lineage ref := by
  rw [lineage, lineage, ← rows]
  refine recursiveUnion_congr (P := fun n : Node => P n.1) (nextNodes_bounded t)
    (nextNodes_bounded t') (by simp; omega) (by simp; omega) same closed ?_
  intro n member
  simp only [mem_map, mem_filter, decide_eq_true_eq] at member
  obtain ⟨r, ⟨-, rfl⟩, rfl⟩ := member
  exact start

private theorem edge_of_restsOn {a b : ItemRef} (edge : t.tables.RestsOn a b) (historic : Bool) :
    ∃ h, Edge t.nextNodes (a, historic) (b, h) := by
  have marked : ∃ mark, (⟨a, b⟩, mark) ∈ t.edges := by
    rcases edge with edge | edge
    · exact ⟨false, by simp [edges, edge]⟩
    · exact ⟨true, by simp [edges, edge]⟩
  obtain ⟨mark, inside⟩ := marked
  refine ⟨historic || mark, ?_⟩
  simp only [Edge, nextNodes, mem_map, mem_filter, decide_eq_true_eq]
  exact ⟨(⟨a, b⟩, mark), ⟨inside, rfl⟩, rfl⟩

theorem mem_lineage_of_depends (stored : ∃ r ∈ t.tables.items, r.ref = ref)
    (path : t.tables.Depends ref q) : ∃ h, (q, h) ∈ t.lineage ref := by
  induction path with
  | refl => exact ⟨false, mem_lineage.mpr ⟨stored, .refl⟩⟩
  | tail _ edge ih =>
    obtain ⟨h, member⟩ := ih
    obtain ⟨h', step⟩ := edge_of_restsOn edge h
    exact ⟨h', mem_lineage.mpr ⟨stored, (mem_lineage.mp member).2.tail step⟩⟩

private theorem lineage_of_missing (missing : ¬ ∃ r ∈ t.tables.items, r.ref = ref) :
    t.lineage ref = [] :=
  eq_nil_iff_forall_not_mem.mpr fun _ member => missing (mem_lineage.mp member).1

theorem eligible_ne_true (path : t.tables.Depends ref q)
    (bad : ∀ h v, t.eligibleRow (timestamptz now) (q, h) = .ok v → v = some false) :
    t.Eligible ref now ≠ .ok true := by
  intro ok
  simp only [Eligible, bind_ok, pure_ok] at ok
  obtain ⟨-, -, rows, evaluated, all⟩ := ok
  by_cases stored : ∃ r ∈ t.tables.items, r.ref = ref
  · obtain ⟨h, member⟩ := mem_lineage_of_depends stored path
    obtain ⟨v, inside, value⟩ := mapM_ok evaluated _ member
    rw [bad h v value] at inside
    rw [boolAnd_of_false inside] at all
    exact Bool.false_ne_true all
  · rw [lineage_of_missing stored] at evaluated
    simp only [mapM_nil, pure_ok] at evaluated
    subst evaluated
    simp [boolAnd] at all

theorem uncontested_ne_true (path : t.tables.Depends ref q) (bad : t.unquarantined q = false) :
    t.Uncontested ref ≠ .ok true := by
  intro ok
  simp only [Uncontested, bind_ok, pure_ok] at ok
  obtain ⟨-, -, all⟩ := ok
  by_cases stored : ∃ r ∈ t.tables.items, r.ref = ref
  · obtain ⟨h, member⟩ := mem_lineage_of_depends stored path
    have inside : some false ∈ (t.lineage ref).map fun n => some (t.unquarantined n.1) :=
      mem_map.mpr ⟨(q, h), member, by rw [bad]⟩
    rw [boolAnd_of_false inside] at all
    exact Bool.false_ne_true all
  · rw [lineage_of_missing stored] at all
    simp [boolAnd] at all

theorem historical_uncontested (ok : t.HistoricalEligible ref = .ok true) :
    t.Uncontested ref = .ok true := by
  simp only [HistoricalEligible, bind_ok] at ok
  simp_all

variable {r : ItemRow}

theorem historical_ne_true (path : t.tables.Depends ref q)
    (row : t.tables.items.find? (fun r => r.ref = q) = some r)
    (bad : ∀ v, t.historicalRow r = .ok v → v = some false) :
    t.HistoricalEligible ref ≠ .ok true := by
  intro ok
  simp only [HistoricalEligible, bind_ok] at ok
  obtain ⟨-, -, contested, asked, rest⟩ := ok
  cases contested with
  | false => simp [pure, Except.pure] at rest
  | true =>
    simp only [Bool.true_eq_false, ↓reduceIte, bind_ok, pure_ok] at rest
    obtain ⟨rows, evaluated, all⟩ := rest
    by_cases stored : ∃ r ∈ t.tables.items, r.ref = ref
    · obtain ⟨h, member⟩ := mem_lineage_of_depends stored path
      obtain ⟨v, inside, value⟩ := mapM_ok evaluated _ member
      simp only [row] at value
      rw [bad v value] at inside
      rw [boolAnd_of_false inside] at all
      exact Bool.false_ne_true all
    · rw [lineage_of_missing stored] at evaluated
      simp only [mapM_nil, pure_ok] at evaluated
      subst evaluated
      simp [boolAnd] at all

theorem agentVouches_revoked {live : AgentRow → Bool} {entry : RevocationRow} {text : Text} {k : ℤ}
    (listed : entry ∈ t.tables.agentRevocations) (agent : r.source "agent_id" = some entry.agentID)
    (epoch : r.source "epoch" = some entry.epoch) (generation : r.source "generation" = some text)
    (number : castBigint text = .ok k) (covered : k ≤ entry.throughGeneration) :
    t.agentVouches live r ≠ .ok true := by
  intro ok
  obtain ⟨a, -, vouched⟩ := anyM_ok_true ok
  split at vouched
  · rename_i conditions
    obtain ⟨sameAgent, sameEpoch, -⟩ := conditions
    rw [agent, Option.some.injEq] at sameAgent
    rw [epoch, Option.some.injEq] at sameEpoch
    have idEq : a.id = entry.agentID := sameAgent
    have epochEq : a.epoch = entry.epoch := sameEpoch
    simp only [bind_ok, pure_ok, Bool.not_eq_eq_eq_not] at vouched
    obtain ⟨revoked, asked, rfl⟩ := vouched
    have member : entry ∈ t.tables.agentRevocations.filter
        (fun r => decide (r.agentID = a.id ∧ r.epoch = a.epoch)) := by
      simp [listed, idEq, epochEq]
    have none_ := anyM_ok_false asked entry member
    simp_all
  · simp at vouched

private theorem lineage_alone (alone : ∀ q, ¬ t.tables.RestsOn ref q) (member : n ∈ t.lineage ref) :
    n = (ref, false) := by
  obtain ⟨-, path⟩ := mem_lineage.mp member
  rcases Relation.ReflTransGen.cases_head path with same | ⟨m, edge, -⟩
  · exact same.symm
  · simp only [Edge, nextNodes, edges, mem_map, mem_filter, mem_append, decide_eq_true_eq] at edge
    obtain ⟨e, ⟨⟨d, inside, rfl⟩ | ⟨d, inside, rfl⟩, child⟩, -⟩ := edge
    · exact absurd (Or.inl (child ▸ inside)) (alone d.parent)
    · exact absurd (Or.inr (child ▸ inside)) (alone d.parent)

private theorem authority_unvouched {h : Bool} (evidence : r.kind = .evidence)
    (unvouched : ∀ live, t.agentVouches live r = .ok false) (epoch : t.authorityEpoch ≠ []) :
    t.authority (some r) h now = .ok (some false) := by
  simp only [authority, Option.map_some, evidence, ne_eq, not_true_eq_false, decide_false,
    Option.some.injEq, Bool.false_eq_true, epoch, Bool.false_and, or_self, ↓reduceIte, unvouched]
  rfl

theorem eligible_unvouched (stored : t.tables.items.find? (fun r => r.ref = ref) = some r)
    (alone : ∀ q, ¬ t.tables.RestsOn ref q) (evidence : r.kind = .evidence)
    (unvouched : ∀ live, t.agentVouches live r = .ok false) (epoch : t.authorityEpoch ≠ [])
    (valid : validRef ref = true) (nonzero : now ≠ 0) : t.Eligible ref now = .ok false := by
  have row : t.eligibleRow (timestamptz now) (ref, false) = .ok (some false) := by
    simp only [eligibleRow, stored, authority_unvouched evidence unvouched epoch]
    split
    · rfl
    · split
      · rfl
      · cases fresh (some r) false (timestamptz now) with
        | none => rfl
        | some b => cases b <;> rfl
  have rows : (t.lineage ref).mapM (t.eligibleRow (timestamptz now)) =
      .ok ((t.lineage ref).map fun _ => some false) := by
    rw [mapM_ok_iff, List.forall₂_map_right_iff, List.forall₂_same]
    intro n member
    rw [lineage_alone alone member, row]
  have failed : boolAnd ((t.lineage ref).map fun _ => some false) = false := by
    cases t.lineage ref with
    | nil => rfl
    | cons n rest => exact boolAnd_of_false (by simp)
  simp only [Eligible, bind_ok, rows, pure_ok]
  exact ⟨(), by simp [valid, nonzero], _, rfl, failed⟩

end Tx

end Sre.Storage
