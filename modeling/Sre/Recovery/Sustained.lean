/- GID: Sre/Recovery/Sustained
   digest: What a recovered assessment means, and the evidence that it rests on. -/

import Sre.Recovery.Window

set_option autoImplicit false

namespace Sre.Recovery

open Foundation.Outcome Foundation.Sql Identity Incident Storage List

section Front

variable (p : RecoveryProfile) (now : Time)

/-- The newest samples down to one that is a whole window older than the first. -/
structure Sustained (samples front : List HealthSample) : Prop where
  newest : front <+: samples
  enough : p.minimumSamples ≤ front.length
  reach : ∃ first ∈ front.head?, ∃ last ∈ front.getLast?,
    p.windowSeconds * second ≤ first.sampledAt - last.sampledAt
  complete : ∀ s ∈ front, s.coverage = .complete
  healthy : ∀ s ∈ front, s.healthy = true ∧ p.minimumReadyReplicas ≤ s.readyReplicas
  source : ∀ s ∈ front, ∀ r ∈ front, sameSource s r = true
  gaps : (now :: front.map (·.sampledAt)).IsChain fun later earlier =>
    later - earlier ≤ p.maximumGapSeconds * second

/-- No sample is dated after the one before it, or after the assessment. -/
def Backwards (front : List HealthSample) : Prop :=
  (now :: front.map (·.sampledAt)).IsChain fun later earlier => earlier ≤ later

def Shortest (such : List HealthSample → Prop) (front : List HealthSample) : Prop :=
  such front ∧ ∀ other, such other → front.length ≤ other.length

/-- Every sample continues the window that the ones before it have begun. -/
def Unbroken (front : List HealthSample) : Prop :=
  ∀ passed s, passed ++ [s] <+: front → ¬ Breaks p now passed s

variable {p now} {passed samples front rest : List HealthSample} {head s : HealthSample}

private theorem unbroken_concat :
    Unbroken p now (passed ++ [s]) ↔ Unbroken p now passed ∧ ¬ Breaks p now passed s := by
  constructor
  · intro unbroken
    exact ⟨fun before r within => unbroken before r (within.trans (prefix_append _ _)),
      unbroken passed s prefix_rfl⟩
  · rintro ⟨unbroken, last⟩ before r within
    rcases prefix_concat_iff.mp within with same | within
    · simp_all
    · exact unbroken before r within

theorem sameSource_iff {a b : HealthSample} : sameSource a b = true ↔
    (a.uid, a.agentID, a.generation, a.epoch) = (b.uid, b.agentID, b.generation, b.epoch) := by
  simp [sameSource]

private theorem source_concat :
    (∀ a ∈ passed ++ [s], ∀ b ∈ passed ++ [s], sameSource a b = true) ↔
      (∀ a ∈ passed, ∀ b ∈ passed, sameSource a b = true) ∧
        sameSource s (passed.headD s) = true := by
  simp only [sameSource_iff]
  constructor
  · intro same
    refine ⟨fun a left b right => same a (by simp [left]) b (by simp [right]), ?_⟩
    refine same s (by simp) _ ?_
    cases passed <;> simp
  · rintro ⟨same, last⟩
    have back : ∀ a ∈ passed, (a.uid, a.agentID, a.generation, a.epoch) =
        (s.uid, s.agentID, s.generation, s.epoch) := by
      intro a member
      cases passed with
      | nil => simp at member
      | cons head passed => exact (same a member head (by simp)).trans last.symm
    intro a left b right
    rcases mem_append.mp left with left | left <;>
      rcases mem_append.mp right with right | right
    · exact same a left b right
    · rw [mem_singleton.mp right]
      exact back a left
    · rw [mem_singleton.mp left]
      exact (back b right).symm
    · rw [mem_singleton.mp left, mem_singleton.mp right]

private theorem chain_concat {holds : Time → Time → Prop} :
    (now :: (passed ++ [s]).map (·.sampledAt)).IsChain holds ↔
      (now :: passed.map (·.sampledAt)).IsChain holds ∧
        holds (previousAt now passed) s.sampledAt := by
  have last : (now :: passed.map (·.sampledAt)).getLast? = some (previousAt now passed) := by
    rcases eq_nil_or_concat passed with rfl | ⟨before, r, rfl⟩
    · rfl
    · simp [previousAt, getLast?_cons]
  rw [map_append, ← cons_append, isChain_append, last]
  simp

theorem unbroken_iff : Unbroken p now front ↔ (∀ s ∈ front, s.coverage = .complete) ∧
    (∀ s ∈ front, s.healthy = true ∧ p.minimumReadyReplicas ≤ s.readyReplicas) ∧
    (∀ s ∈ front, ∀ r ∈ front, sameSource s r = true) ∧
    (now :: front.map (·.sampledAt)).IsChain (fun later earlier =>
      later - earlier ≤ p.maximumGapSeconds * second) ∧
    Backwards now front := by
  induction front using List.reverseRecOn with
  | nil => simp [Unbroken, Backwards]
  | append_singleton passed s ih =>
    have backwards : Backwards now (passed ++ [s]) ↔
        Backwards now passed ∧ s.sampledAt ≤ previousAt now passed := chain_concat
    rw [unbroken_concat, source_concat, chain_concat]
    grind [Breaks]

private theorem completes_iff : Completes p passed s ↔
    p.minimumSamples ≤ ((passed ++ [s]).length : ℤ) ∧
      ∃ first ∈ (passed ++ [s]).head?, ∃ last ∈ (passed ++ [s]).getLast?,
        p.windowSeconds * second ≤ first.sampledAt - last.sampledAt := by
  have first : (passed ++ [s]).head? = some (passed.headD s) := by cases passed <;> rfl
  simp [Completes, spans, first]

theorem sustained_concat_iff :
    Sustained p now samples (passed ++ [s]) ∧ Backwards now (passed ++ [s]) ↔
      passed ++ [s] <+: samples ∧ Unbroken p now (passed ++ [s]) ∧ Completes p passed s := by
  rw [unbroken_iff, completes_iff]
  constructor
  · rintro ⟨⟨newest, enough, reach, complete, healthy, source, gaps⟩, backwards⟩
    exact ⟨newest, ⟨complete, healthy, source, gaps, backwards⟩, enough, reach⟩
  · rintro ⟨newest, ⟨complete, healthy, source, gaps, backwards⟩, enough, reach⟩
    exact ⟨⟨newest, enough, reach, complete, healthy, source, gaps⟩, backwards⟩

theorem shortest_iff :
    Shortest (fun front => Sustained p now samples front ∧ Backwards now front)
      (passed ++ [s]) ↔ Decisive p now samples passed s ∧ ¬ Breaks p now passed s := by
  rw [Shortest, sustained_concat_iff, unbroken_concat]
  constructor
  · rintro ⟨⟨newest, ⟨unbroken, last⟩, completes⟩, least⟩
    refine ⟨⟨newest, .inr completes, fun before r within settles => ?_⟩, last⟩
    have early : before ++ [r] <+: passed ++ [s] := within.trans (prefix_append _ _)
    have ended : Completes p before r := settles.resolve_left (unbroken before r within)
    have longer := least _ (sustained_concat_iff.mpr ⟨early.trans newest,
      fun a b inside => unbroken a b (inside.trans within), ended⟩)
    have shorter := within.length_le
    simp only [length_append, length_singleton] at longer shorter
    omega
  · rintro ⟨decisive, last⟩
    have unbroken : Unbroken p now passed :=
      fun before r within broken => decisive.undecided before r within (.inl broken)
    refine ⟨⟨decisive.front, ⟨unbroken, last⟩, decisive.settles.resolve_left last⟩, ?_⟩
    intro other such
    rcases eq_nil_or_concat other with rfl | ⟨before, r, rfl⟩
    · obtain ⟨first, member, -⟩ := such.1.reach
      simp at member
    · rw [concat_eq_append] at such ⊢
      obtain ⟨within, -, completes⟩ := sustained_concat_iff.mp such
      by_contra shorter
      rw [not_le, length_append, length_append, length_singleton, length_singleton] at shorter
      have inside : before ++ [r] <+: passed := by
        refine prefix_of_prefix_length_le within
          ((prefix_append passed [s]).trans decisive.front) ?_
        simp only [length_append, length_singleton]
        omega
      exact decisive.undecided before r inside (.inr completes)

theorem outcome_recovered_iff {reason : RecoveryReason} :
    outcome p now passed s = (.recovered, reason) ↔
      ¬ Breaks p now passed s ∧ reason = .sustainedObservedHealth := by
  by_cases breaks : Breaks p now passed s
  · have other : (outcome p now passed s).1 ≠ .recovered := by
      simp only [Breaks] at breaks
      unfold outcome
      split
      · simp
      · split
        · simp
        · split
          · simp
          · split
            · simp
            · tauto
    constructor
    · intro recovered
      exact absurd (by rw [recovered]) other
    · exact fun sound => absurd breaks sound.1
  · have sound := breaks
    simp only [Breaks, not_or] at sound
    obtain ⟨gap, coverage, source, health⟩ := sound
    rw [outcome, if_neg (not_or.mpr gap), if_neg coverage, if_neg source,
      if_neg (not_or.mpr health)]
    simp [breaks, eq_comm]

theorem AssessWindow_recovered_iff {reason : RecoveryReason} :
    AssessWindow p samples now = (.recovered, reason) ↔
      reason = .sustainedObservedHealth ∧ ∃ passed s,
        Decisive p now samples passed s ∧ ¬ Breaks p now passed s := by
  constructor
  · intro recovered
    rcases @decisive_or_undecided p now samples with ⟨passed, s, decisive⟩ | undecided
    · rw [AssessWindow_of_decisive decisive, outcome_recovered_iff] at recovered
      exact ⟨recovered.2, passed, s, decisive, recovered.1⟩
    · cases samples with
      | nil => simp [AssessWindow] at recovered
      | cons head rest =>
        rw [AssessWindow_of_undecided undecided (by simp)] at recovered
        simp at recovered
  · rintro ⟨rfl, passed, s, decisive, last⟩
    rw [AssessWindow_of_decisive decisive, outcome_recovered_iff]
    exact ⟨last, rfl⟩

end Front

section Assessment

variable {t t' : Tx} {p : RecoveryProfile} {incidentID profileID handle id eventID : Text}
  {now : Time} {passed samples front rest : List HealthSample} {head s : HealthSample}
  {found out : List ItemRef} {handles : List Text} {reason : RecoveryReason}

/-- The newest sample has a collector's current authority, and none is disputed. -/
structure Vouched (t : Tx) (now : Time) (front : List HealthSample) : Prop where
  eligible : ∀ newest ∈ front.head?, t.Eligible newest.evidence now = .ok true
  uncontested : ∀ s ∈ front, t.Uncontested s.evidence = .ok true

/-- The samples on which the recovery of a handle rests. -/
def RestsOn (t : Tx) (p : RecoveryProfile) (incidentID : Text) (now : Time) (handle : Text)
    (front : List HealthSample) : Prop :=
  ∃ samples, t.HealthSamples incidentID handle (now - lookback p) = .ok samples ∧
    Shortest (fun front => Sustained p now samples front ∧ Backwards now front) front ∧
    Vouched t now front

private theorem gatherEvidence_iff (passed between : List HealthSample)
    (first : (passed ++ between).headD s = head)
    (open_ : ∀ before r, before ++ [r] <+: passed ++ between → ¬ Completes p before r)
    (ends : Completes p (passed ++ between) s) :
    gatherEvidence t p head passed.length (between ++ s :: rest) found = .ok (true, out) ↔
      (∀ r ∈ between ++ [s], t.Uncontested r.evidence = .ok true) ∧
        out = found ++ (between ++ [s]).map (·.evidence) := by
  induction between generalizing passed found with
  | nil =>
    rw [append_nil, Completes] at ends
    rw [append_nil] at first
    rw [first] at ends
    rw [nil_append, gatherEvidence, bind_ok]
    constructor
    · rintro ⟨clean, read, result⟩
      cases clean with
      | false => simp [pure, Except.pure] at result
      | true =>
        rw [if_neg (by simp), if_pos ends, pure_ok, Prod.mk.injEq] at result
        exact ⟨by simpa using read, by simp [result.2]⟩
    · rintro ⟨clean, rfl⟩
      refine ⟨true, clean s (by simp), ?_⟩
      rw [if_neg (by simp), if_pos ends]
      rfl
  | cons m between ih =>
    have leads : passed.headD m = head := by
      rw [← first]
      cases passed <;> rfl
    have goes : ¬ spans p head passed.length m = true := by
      rw [← leads]
      exact open_ passed m ⟨between, by simp⟩
    rw [append_cons passed m between] at first open_ ends
    rw [cons_append, gatherEvidence, bind_ok]
    have length : passed.length + 1 = (passed ++ [m]).length := by simp
    constructor
    · rintro ⟨clean, read, result⟩
      cases clean with
      | false => simp [pure, Except.pure] at result
      | true =>
        rw [if_neg (by simp), if_neg goes, length, ih (passed ++ [m]) first open_ ends] at result
        exact ⟨forall_mem_cons.mpr ⟨read, result.1⟩, by simp [result.2]⟩
    · rintro ⟨clean, rfl⟩
      obtain ⟨read, clean⟩ := forall_mem_cons.mp clean
      refine ⟨true, read, ?_⟩
      rw [if_neg (by simp), if_neg goes, length, ih (passed ++ [m]) first open_ ends]
      exact ⟨clean, by simp⟩

private theorem gatherEvidence_of_decisive (decisive : Decisive p now (head :: rest) passed s)
    (last : ¬ Breaks p now passed s) :
    gatherEvidence t p head 0 (head :: rest) found = .ok (true, out) ↔
      (∀ r ∈ passed ++ [s], t.Uncontested r.evidence = .ok true) ∧
        out = found ++ (passed ++ [s]).map (·.evidence) := by
  obtain ⟨⟨older, split⟩, settles, undecided⟩ := decisive
  have first : passed.headD s = head := by
    cases passed with
    | nil | cons a passed => exact (List.cons.inj split).1
  rw [← split, append_assoc, singleton_append]
  exact gatherEvidence_iff [] passed first
    (fun before r within ends => undecided before r within (.inr ends)) (settles.resolve_left last)

private theorem head_of_concat_front (front : passed ++ [s] <+: head :: rest) :
    (passed ++ [s]).head? = some head := by
  obtain ⟨older, split⟩ := front
  cases passed with
  | nil | cons a passed => exact congrArg some (List.cons.inj split).1

private theorem assessHandles_cons :
    assessHandles t p incidentID now (handle :: handles) found = .ok (.recovered, reason, out) ↔
      ∃ front, RestsOn t p incidentID now handle front ∧
        assessHandles t p incidentID now handles (found ++ front.map (·.evidence)) =
          .ok (.recovered, reason, out) := by
  rw [assessHandles, bind_ok]
  constructor
  · rintro ⟨samples, fetch, result⟩
    cases verdict : AssessWindow p samples now with
    | mk status why =>
      rw [verdict] at result
      cases samples with
      | nil =>
        rw [AssessWindow] at verdict
        simp [← (Prod.mk.inj verdict).1, pure, Except.pure] at result
      | cons head rest =>
        cases status with
        | recovered =>
          obtain ⟨-, passed, s, decisive, last⟩ := AssessWindow_recovered_iff.mp verdict
          simp only [bind_ok] at result
          obtain ⟨eligible, read, result⟩ := result
          cases eligible with
          | false => simp [pure, Except.pure] at result
          | true =>
            rw [if_neg (by simp), bind_ok] at result
            obtain ⟨⟨clean, gathered⟩, gather, result⟩ := result
            cases clean with
            | false => simp [pure, Except.pure] at result
            | true =>
              obtain ⟨uncontested, rfl⟩ :=
                (gatherEvidence_of_decisive decisive last).mp gather
              have shortest := shortest_iff.mpr ⟨decisive, last⟩
              refine ⟨passed ++ [s], ⟨head :: rest, fetch, shortest, ?_, uncontested⟩,
                by simpa using result⟩
              rw [head_of_concat_front decisive.front]
              simpa using read
        | unknown | notRecovered => simp [pure, Except.pure] at result
  · rintro ⟨front, ⟨samples, fetch, shortest, vouched⟩, go⟩
    rcases eq_nil_or_concat front with rfl | ⟨passed, s, rfl⟩
    · obtain ⟨first, member, -⟩ := shortest.1.1.reach
      simp at member
    · rw [concat_eq_append] at shortest vouched go
      obtain ⟨decisive, last⟩ := shortest_iff.mp shortest
      cases samples with
      | nil => simpa using decisive.front
      | cons head rest =>
        have verdict := AssessWindow_recovered_iff.mpr ⟨rfl, passed, s, decisive, last⟩
        have eligible := vouched.eligible head (head_of_concat_front decisive.front)
        have gather : gatherEvidence t p head 0 (head :: rest) found =
            .ok (true, found ++ (passed ++ [s]).map (·.evidence)) :=
          (gatherEvidence_of_decisive decisive last).mpr ⟨vouched.uncontested, rfl⟩
        refine ⟨head :: rest, fetch, ?_⟩
        rw [verdict]
        dsimp only
        rw [eligible, gather]
        exact go

theorem assessHandles_recovered_iff :
    assessHandles t p incidentID now handles found = .ok (.recovered, reason, out) ↔
      reason = .sustainedObservedHealth ∧ ∃ fronts,
        List.Forall₂ (RestsOn t p incidentID now) handles fronts ∧
        out = found ++ fronts.flatten.map (·.evidence) := by
  induction handles generalizing found with
  | nil =>
    simp only [assessHandles, List.forall₂_nil_left_iff, exists_eq_left]
    simp [eq_comm]
  | cons handle handles ih =>
    rw [assessHandles_cons]
    constructor
    · rintro ⟨front, rests, go⟩
      obtain ⟨why, fronts, all, rfl⟩ := ih.mp go
      exact ⟨why, front :: fronts, .cons rests all, by simp⟩
    · rintro ⟨why, fronts, all, rfl⟩
      cases all with
      | cons rests all =>
        exact ⟨_, rests, ih.mpr ⟨why, _, all, by simp⟩⟩

private theorem exists_forall₂_iff {holds : Text → List HealthSample → Prop} :
    (∃ fronts, List.Forall₂ holds handles fronts) ↔
      ∀ handle ∈ handles, ∃ front, holds handle front := by
  induction handles with
  | nil => simp
  | cons handle handles ih =>
    rw [forall_mem_cons, ← ih]
    constructor
    · rintro ⟨fronts, all⟩
      cases all with
      | cons rests all => exact ⟨⟨_, rests⟩, _, all⟩
    · rintro ⟨⟨front, rests⟩, fronts, all⟩
      exact ⟨front :: fronts, .cons rests all⟩

/-- The assessment that a recovered incident gets. -/
def recoveredAssessment (p : RecoveryProfile) (incidentID : Text) (now : Time) (id : Text)
    (fronts : List (List HealthSample)) : RecoveryAssessment :=
  ⟨id, incidentID, p.id, p.version, .recovered, .sustainedObservedHealth,
    fronts.flatten.map (·.evidence), now⟩

/-- An assessment says recovered exactly if every handle rests on samples that show sustained
health, in order of time; its evidence is then theirs, handle after handle. -/
theorem assessment_recovered_iff (read : t.RecoveryProfile profileID = .ok p)
    (valid : ValidateProfile p = true) :
    (∀ a t', AssessTx t incidentID profileID now id eventID = .ok (a, t') →
      (a.status = .recovered ↔
        ∀ handle ∈ p.handles, ∃ front, RestsOn t p incidentID now handle front) ∧
      (∀ fronts, List.Forall₂ (RestsOn t p incidentID now) p.handles fronts →
        a = recoveredAssessment p incidentID now id fronts)) ∧
    (∀ fronts u t', List.Forall₂ (RestsOn t p incidentID now) p.handles fronts →
      t.PutRecoveryAssessment (recoveredAssessment p incidentID now id fronts) = .ok u →
      u.Enqueue eventID id .recoveryAssessed (stringMap [("incident_id", incidentID),
        ("assessment_id", id), ("status", "RECOVERED")]) = .ok t' →
      AssessTx t incidentID profileID now id eventID =
        .ok (recoveredAssessment p incidentID now id fronts, t')) := by
  have loop : ∀ fronts, List.Forall₂ (RestsOn t p incidentID now) p.handles fronts →
      assessHandles t p incidentID now p.handles [] =
        .ok (.recovered, .sustainedObservedHealth, fronts.flatten.map (·.evidence)) :=
    fun fronts all => assessHandles_recovered_iff.mpr ⟨rfl, fronts, all, by simp⟩
  constructor
  · intro a t' ok
    simp only [AssessTx, bind_ok, require_ok, pure_ok, Prod.mk.injEq, read, Except.ok.injEq] at ok
    obtain ⟨q, rfl, -, -, ⟨status, reason, evidence⟩, assessed, u, -, v, -, rfl, rfl⟩ := ok
    have exact_ : ∀ fronts, List.Forall₂ (RestsOn t p incidentID now) p.handles fronts →
        (status, reason, evidence) =
          (.recovered, .sustainedObservedHealth, fronts.flatten.map (·.evidence)) :=
      fun fronts all => Except.ok.inj (assessed.symm.trans (loop fronts all))
    refine ⟨⟨fun recovered => ?_, fun each => ?_⟩, fun fronts all => ?_⟩
    · change status = .recovered at recovered
      subst recovered
      obtain ⟨-, fronts, all, -⟩ := assessHandles_recovered_iff.mp assessed
      exact exists_forall₂_iff.mp ⟨fronts, all⟩
    · obtain ⟨fronts, all⟩ := exists_forall₂_iff.mpr each
      exact congrArg Prod.fst (exact_ fronts all)
    · have same := exact_ fronts all
      simp only [Prod.mk.injEq] at same
      obtain ⟨rfl, rfl, rfl⟩ := same
      rfl
  · intro fronts u t' all put queued
    simp only [AssessTx, bind_ok, require_ok, pure_ok]
    exact ⟨p, read, (), valid, _, loop fronts all, u, put, t', queued, rfl⟩

end Assessment

abbrev observed (ages : List ℤ) : Tx :=
  { sampled ages with
    authorityEpoch := []
    tables := { (sampled ages).tables with
      incidents := [⟨"incident-1", 1, .open, noon⟩]
      items := [⟨"incident-1", "item-1", 1, .evidence, .null, [], noon - minute, noon + minute⟩]
      itemEligibility := [⟨⟨"item-1", 1⟩, false⟩]
      recoveryProfiles := [sparse] } }

/-- With the newest sample dated after the assessment, the samples show sustained health as far
as their gaps go, and the assessment finds them stale. -/
theorem future_sample_is_stale : (observed [-10, 50, 110]).RecoveryProfile profileID = .ok sparse ∧
    (∀ handle ∈ sparse.handles, ∃ samples front,
      (observed [-10, 50, 110]).HealthSamples "incident-1" handle (noon - lookback sparse) =
        .ok samples ∧
      Shortest (Sustained sparse noon samples) front ∧
      Vouched (observed [-10, 50, 110]) noon front) ∧
    ∃ a t', AssessTx (observed [-10, 50, 110]) "incident-1" profileID noon "assessment-1"
      "event-1" = .ok (a, t') ∧ a.status = .unknown := by
  have ran : (AssessTx (observed [-10, 50, 110]) "incident-1" profileID noon "assessment-1"
      "event-1").map (·.1.status) = .ok .unknown := by decide +kernel
  obtain ⟨⟨a, t'⟩, ok, unknown⟩ := map_ok ran
  have front : Sustained sparse noon (observed [-10, 50, 110]).tables.healthSamples
      (observed [-10, 50, 110]).tables.healthSamples := by
    refine ⟨prefix_rfl, by decide, ?_, by decide, by decide, by decide, by decide⟩
    exact ⟨_, rfl, _, rfl, by decide⟩
  refine ⟨rfl, ?_, a, t', ok, unknown⟩
  intro handle member
  obtain rfl := mem_singleton.mp member
  refine ⟨_, _, rfl, ⟨front, fun other such => ?_⟩, ?_, ?_⟩
  · -- the profile wants three samples, and there are no more
    have enough : (3 : ℤ) ≤ other.length := such.enough
    exact Int.ofNat_le.mp enough
  · intro newest first
    obtain rfl := Option.mem_some_iff.mp first
    decide +kernel
  · decide +kernel

theorem assessment_recovered_observed :
    ∃ a t', AssessTx (observed [10, 50, 90]) "incident-1" profileID noon "assessment-1"
        "event-1" = .ok (a, t') ∧ a.status = .recovered ∧ ∃ fronts,
      List.Forall₂ (RestsOn (observed [10, 50, 90]) sparse "incident-1" noon) sparse.handles
        fronts ∧
      a = recoveredAssessment sparse "incident-1" noon "assessment-1" fronts := by
  have ran : (AssessTx (observed [10, 50, 90]) "incident-1" profileID noon "assessment-1"
      "event-1").map (·.1.status) = .ok .recovered := by decide +kernel
  obtain ⟨⟨a, t'⟩, ok, recovered⟩ := map_ok ran
  have exact_ := (assessment_recovered_iff rfl (by decide +kernel)).1 a t' ok
  obtain ⟨fronts, all⟩ := exists_forall₂_iff.mpr (exact_.1.mp recovered)
  exact ⟨a, t', ok, recovered, fronts, all, exact_.2 fronts all⟩

end Sre.Recovery
