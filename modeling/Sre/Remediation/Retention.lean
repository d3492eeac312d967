/- GID: Sre/Remediation/Retention
   digest: Retention drops what has outlived its time, and the oldest of the rest as far as needed. -/

import Sre.Remediation.Store

set_option autoImplicit false

namespace Sre.Remediation

open Foundation Foundation.Outcome List

/-- A terminal proposal that is dated, and not in the future. -/
def disposable (now : Time) (p : Proposal) : Bool :=
  terminalProposal p.status && decide (p.updatedAt ≠ 0 ∧ p.updatedAt ≤ now)

def outlived (now : Time) (p : Proposal) : Bool :=
  disposable now p && decide (completedProposalTTL ≤ now - p.updatedAt)

def inactive (now : Time) (p : Proposal) : Bool :=
  disposable now p && decide (now - p.updatedAt < completedProposalTTL)

/-- The inactive proposals, the oldest first. -/
def byAge (now : Time) (s : ProposalState) : List Proposal :=
  Sql.ascending (fun p => toLex (p.updatedAt, p.id)) (s.proposals.filter (inactive now))

section Budgets

variable [Encoding]

def retainedSize (p : Proposal) : ℕ := (Encoding.indentedSize p).getD 0 + 8

def WithinBudget (l : List Proposal) : Prop :=
  l.length ≤ maxInactiveProposals ∧ (l.map retainedSize).sum ≤ maxInactiveProposalBytes

def Measured (now : Time) (l : List Proposal) : Prop :=
  ∀ p ∈ l, inactive now p = true → (Encoding.indentedSize p).isSome = true

variable {s s' : ProposalState} {now : Time} {n : ℕ} {l l' : List Proposal}

private theorem WithinBudget.perm (within : WithinBudget l) (perm : l'.Perm l) :
    WithinBudget l' := by
  unfold WithinBudget
  rw [perm.length_eq, (perm.map retainedSize).sum_eq]
  exact within

private theorem retentionMeasure_cases (now : Time) (p : Proposal) :
    outlived now p = false ∧ inactive now p = false ∧ retentionMeasure now p = .ok none ∨
    outlived now p = true ∧ inactive now p = false ∧ retentionMeasure now p = .ok (some none) ∨
    outlived now p = false ∧ inactive now p = true ∧ (Encoding.indentedSize p).isSome = false ∧
      retentionMeasure now p = .error .measure ∨
    outlived now p = false ∧ inactive now p = true ∧ (Encoding.indentedSize p).isSome = true ∧
      retentionMeasure now p = .ok (some (some (retainedSize p))) := by
  unfold retentionMeasure
  split
  · next stays =>
      have kept : disposable now p = false := by
        unfold disposable
        grind
      simp [outlived, inactive, kept]
  · next counts =>
      have listed : disposable now p = true := by
        unfold disposable
        grind
      split
      · next old => simp [outlived, inactive, listed, old, old.not_gt]
      · next young =>
          cases size : Encoding.indentedSize p <;>
            simp [outlived, inactive, listed, young, not_le.mp young, retainedSize, size]

theorem retentionCandidates_ok_iff (l : List Proposal) :
    ∀ r, retentionCandidates now l = .ok r ↔ Measured now l ∧
      r = ((l.filter (outlived now)).map Proposal.id,
        (l.filter (inactive now)).map fun p => (p, retainedSize p)) := by
  induction l with
  | nil =>
    intro r
    constructor
    · rintro ⟨⟩
      exact ⟨forall_mem_nil _, rfl⟩
    · rintro ⟨-, rfl⟩
      rfl
  | cons p l ih =>
    intro r
    have rest : Measured now (p :: l) ↔
        (inactive now p = true → (Encoding.indentedSize p).isSome = true) ∧ Measured now l :=
      forall_mem_cons
    rw [retentionCandidates, bind_ok, rest, filter_cons, filter_cons]
    rcases retentionMeasure_cases now p with
      ⟨old, young, measured⟩ | ⟨old, young, measured⟩ | ⟨old, young, size, measured⟩ |
        ⟨old, young, size, measured⟩ <;>
      rw [measured] <;> simp [bind_ok, *] <;> grind

private theorem overBudget_front (l : List Proposal) :
    ∃ k, overBudget (l.map fun p => (p, retainedSize p)) l.length (l.map retainedSize).sum =
        (l.take k).map Proposal.id ∧
      WithinBudget (l.drop k) ∧ ∀ j < k, ¬WithinBudget (l.drop j) := by
  induction l with
  | nil => exact ⟨0, rfl, by simp [WithinBudget], by simp⟩
  | cons p l ih =>
    obtain ⟨k, front, within, shortest⟩ := ih
    by_cases fits : WithinBudget (p :: l)
    · refine ⟨0, ?_, fits, by simp⟩
      simp only [map_cons, overBudget]
      rw [if_pos (by simpa [WithinBudget] using fits)]
      rfl
    · refine ⟨k + 1, ?_, within, ?_⟩
      · simp only [map_cons, overBudget]
        rw [if_neg (by simpa [WithinBudget] using fits)]
        simp [← front]
      · intro j earlier
        cases j with
        | zero => exact fits
        | succ j => exact shortest j (Nat.lt_of_succ_lt_succ earlier)

private theorem byAge_pairs (now : Time) (s : ProposalState) :
    Sql.ascending (fun c : Proposal × ℕ => toLex (c.1.updatedAt, c.1.id))
        ((s.proposals.filter (inactive now)).map fun p => (p, retainedSize p)) =
      (byAge now s).map fun p => (p, retainedSize p) := by
  unfold Sql.ascending byAge
  exact (map_insertionSort _ _ (fun p => (p, retainedSize p)) _ fun _ _ _ _ => Iff.rfl).symm

omit [Encoding] in
private theorem byAge_perm (now : Time) (s : ProposalState) :
    (byAge now s).Perm (s.proposals.filter (inactive now)) :=
  perm_insertionSort _ _

private theorem retentionState_eq (measured : Measured now s.proposals) :
    ∃ k, WithinBudget ((byAge now s).drop k) ∧ (∀ j < k, ¬WithinBudget ((byAge now s).drop j)) ∧
      let drop := (s.proposals.filter (outlived now)).map Proposal.id ++
        ((byAge now s).take k).map Proposal.id
      retentionState s now = .ok ({ s with proposals := s.proposals.filter fun p => p.id ∉ drop },
        drop.dedup.length) := by
  obtain ⟨k, front, within, shortest⟩ := overBudget_front (byAge now s)
  have length := (byAge_perm now s).length_eq
  have sum := ((byAge_perm now s).map retainedSize).sum_eq
  refine ⟨k, within, shortest, ?_⟩
  rw [retentionState, (retentionCandidates_ok_iff _ _).mpr ⟨measured, rfl⟩]
  show (if _ then _ else _) = _
  simp only [byAge_pairs, length_map, map_map, Function.comp_def]
  rw [← length, ← sum, front]
  split
  · next empty =>
      rw [List.isEmpty_iff] at empty
      simp only [empty, not_mem_nil, not_false_eq_true, decide_true, filter_true]
      rfl
  · rfl

/-- Retention keeps the audit and the order, and drops only IDs of terminal proposals. -/
theorem retentionState_ok (ok : retentionState s now = .ok (s', n)) :
    ∃ drop : List Text, s' = { s with proposals := s.proposals.filter fun p => p.id ∉ drop } ∧
      ∀ i ∈ drop, ∃ p ∈ s.proposals, p.id = i ∧ terminalProposal p.status = true := by
  obtain ⟨r, candidates, -⟩ := bind_ok.mp ok
  obtain ⟨k, -, -, kept⟩ := retentionState_eq ((retentionCandidates_ok_iff _ _).mp candidates).1
  cases kept.symm.trans ok
  refine ⟨_, rfl, ?_⟩
  intro i dropped
  rw [mem_append, mem_map, mem_map] at dropped
  rcases dropped with ⟨p, old, rfl⟩ | ⟨p, young, rfl⟩
  · obtain ⟨inside, listed⟩ := mem_filter.mp old
    simp only [outlived, disposable, Bool.and_eq_true] at listed
    exact ⟨p, inside, rfl, listed.1.1⟩
  · obtain ⟨inside, listed⟩ :=
      mem_filter.mp ((byAge_perm now s).mem_iff.mp (mem_of_mem_take young))
    simp only [inactive, disposable, Bool.and_eq_true] at listed
    exact ⟨p, inside, rfl, listed.1.1⟩

omit [Encoding] in
private theorem disposable_iff {p : Proposal} :
    disposable now p = true ∧ outlived now p = false ↔ inactive now p = true := by
  unfold inactive outlived
  cases disposable now p <;> simp

private theorem retentionState_settled (measured : Measured now s.proposals)
    (timely : ∀ p ∈ s.proposals, outlived now p = false)
    (within : WithinBudget (s.proposals.filter (inactive now))) :
    retentionState s now = .ok (s, 0) := by
  obtain ⟨k, -, shortest, kept⟩ := retentionState_eq measured
  have none_ : k = 0 := by
    by_contra positive
    exact shortest 0 (Nat.pos_of_ne_zero positive) (within.perm (byAge_perm now s))
  have fresh : s.proposals.filter (outlived now) = [] := by
    simpa using timely
  rw [kept, none_, fresh]
  simp

/-- Of the disposable proposals, retention drops those past their time and, of the others, the
shortest front by age after which the rest is within the budgets; everything else stays, and
nothing more is dropped at the same time. -/
theorem retention_drops_shortest_front (s s' : ProposalState) (now : Time) (n : ℕ)
    (unique : (s.proposals.map Proposal.id).Nodup) (ok : retentionState s now = .ok (s', n)) :
    (∀ p ∈ s.proposals, disposable now p = false → p ∈ s'.proposals) ∧ s'.audit = s.audit ∧
      (∀ p ∈ s'.proposals, disposable now p = true → now - p.updatedAt < completedProposalTTL) ∧
      WithinBudget (s'.proposals.filter (disposable now)) ∧
      (∃ k, WithinBudget ((byAge now s).drop k) ∧
        (∀ j < k, ¬WithinBudget ((byAge now s).drop j)) ∧
        s'.proposals = s.proposals.filter fun p => !outlived now p && p ∉ (byAge now s).take k) ∧
      retentionState s' now = .ok (s', 0) := by
  obtain ⟨r, candidates, -⟩ := bind_ok.mp ok
  have measured := ((retentionCandidates_ok_iff _ _).mp candidates).1
  obtain ⟨k, within, shortest, kept⟩ := retentionState_eq measured
  cases kept.symm.trans ok
  have same : ∀ p ∈ s.proposals, ∀ q ∈ s.proposals, p.id = q.id → p = q :=
    fun p first q second eq => inj_on_of_nodup_map unique first second eq
  have inside : ∀ q ∈ (byAge now s).take k, q ∈ s.proposals ∧ inactive now q = true :=
    fun q young => mem_filter.mp ((byAge_perm now s).mem_iff.mp (mem_of_mem_take young))
  have filtered : (s.proposals.filter fun p =>
      decide (p.id ∉ (s.proposals.filter (outlived now)).map Proposal.id ++
        ((byAge now s).take k).map Proposal.id)) =
      s.proposals.filter fun p => !outlived now p && p ∉ (byAge now s).take k := by
    refine filter_congr fun p member => ?_
    rw [Bool.eq_iff_iff]
    simp only [mem_append, mem_map, mem_filter, decide_eq_true_eq, not_or,
      Bool.and_eq_true, Bool.not_eq_true']
    grind
  rw [filtered] at ok ⊢
  have left : ((s.proposals.filter fun p => !outlived now p && p ∉ (byAge now s).take k).filter
      (inactive now)).Perm ((byAge now s).drop k) := by
    have distinct := (byAge_perm now s).nodup_iff.mpr (unique.of_map.filter (inactive now))
    have apart := disjoint_take_drop distinct (le_refl k)
    refine (perm_ext_iff_of_nodup ((unique.of_map.filter _).filter _)
      (distinct.sublist (drop_sublist ..))).mpr fun p => ?_
    have whole : p ∈ byAge now s ↔ p ∈ (byAge now s).take k ∨ p ∈ (byAge now s).drop k := by
      rw [← mem_append, take_append_drop]
    have listed : p ∈ byAge now s ↔ p ∈ s.proposals ∧ inactive now p = true :=
      (byAge_perm now s).mem_iff.trans mem_filter
    have young := (@disposable_iff now p).mpr
    simp only [mem_filter, Bool.and_eq_true, Bool.not_eq_true', decide_eq_true_eq]
    grind [disjoint_left]
  have timely : ∀ p ∈ s.proposals.filter fun p => !outlived now p && p ∉ (byAge now s).take k,
      outlived now p = false := fun p member => by
    simpa using (Bool.and_eq_true_iff.mp (mem_filter.mp member).2).1
  have counted : ∀ p ∈ s.proposals.filter fun p => !outlived now p && p ∉ (byAge now s).take k,
      disposable now p = inactive now p := fun p member => by
    rw [Bool.eq_iff_iff, ← @disposable_iff now p]
    simp [timely p member]
  refine ⟨?_, rfl, ?_, ?_, ⟨k, within, shortest, rfl⟩, ?_⟩
  · intro p member kept
    refine mem_filter.mpr ⟨member, ?_⟩
    have young : p ∉ (byAge now s).take k := fun front => by
      simpa [inactive, kept] using (inside p front).2
    simp [outlived, kept, young]
  · intro p member listed
    rw [counted p member, inactive, Bool.and_eq_true, decide_eq_true_eq] at listed
    exact listed.2
  · rw [filter_congr counted]
    exact within.perm left
  · exact retentionState_settled (fun p member => measured p (mem_filter.mp member).1) timely
      (within.perm left)

end Budgets

def Proposal.sample (id issueID : Text) : Proposal where
  id := id
  issueID := issueID
  createdBy := "scanner"
  createdAt := 5
  updatedAt := 5
  namespace_ := "shop"
  kind := "Deployment"
  name := "web"
  category := "workload"
  group := "workloads"
  targetUID := "u1"
  targetResourceVersion := "7"
  revision := 1
  expiresAt := some 100
  diagnosis := some {
    issueID := issueID
    summary := "saturated"
    rootCause := "load"
    severity := .critical
    remediationPlan := "scale"
    actionType := .scaleWorkload
    proposedCommand := []
    targetImage := []
    targetVersion := []
    targetReplicas := some 3
    confidenceScore := some 1
    providerName := "local" }
  status := .pending
  approvedBy := []
  approvedAt := none
  rejectedBy := []
  rejectedAt := none
  rejectionReason := []
  executionResult := []
  executionError := []
  verificationStatus := .other []
  verificationError := []

theorem retention_drops_shortest_front_expired : letI : Encoding := ⟨fun _ => some 0⟩
    let done := { Proposal.sample "p1" "i1" with status := .completed }
    let s := { newProposalState with proposals := [done, Proposal.sample "p2" "i2"] }
    let now := 5 + completedProposalTTL
    ∃ s', retentionState s now = .ok (s', 1) ∧ done ∉ s'.proposals ∧
      Proposal.sample "p2" "i2" ∈ s'.proposals ∧ retentionState s' now = .ok (s', 0) := by
  let _ : Encoding := ⟨fun _ => some 0⟩
  intro done s now
  obtain ⟨kept, -, -, -, -, again⟩ := retention_drops_shortest_front s _ now 1 (by decide) rfl
  exact ⟨_, rfl, by decide, kept _ (by decide) (by decide), again⟩

end Sre.Remediation
