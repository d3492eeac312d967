/- GID: Sre/Investigation/Hypothesis
   digest: Which candidates the rubric accepts as hypotheses, in any order of the evidence. -/

import Sre.Foundation.Assoc
import Sre.Investigation.Rubric

set_option autoImplicit false

namespace Sre.Investigation

open Foundation Foundation.Outcome Incident Privacy List

/-- The limits on a candidate that do not depend on the evidence. -/
structure Conclusion.WellFormed (candidate : Conclusion) (now : Time) : Prop where
  instant : now ≠ 0
  cause : candidate.causeCode.known = true
  handle : ValidHandle candidate.resourceHandle = true
  supporting : (candidate.supportingEvidence.getD []).length ≤ 32
  contradicting : (candidate.contradictingEvidence.getD []).length ≤ 32
  alternatives : (candidate.alternatives.getD []).length ≤ 8
  checks : (candidate.requestedChecks.getD []).length ≤ 2
  check : ∀ c ∈ candidate.requestedChecks.getD [],
    ValidHandle c.resourceHandle = true ∧ c.kind ∈ CheckKind.named
  alternative : ∀ a ∈ candidate.alternatives.getD [],
    a.causeCode.known = true ∧ (a.discriminatingEvidence.getD []).length ≤ 32

def Conclusion.references (candidate : Conclusion) : List ItemRef :=
  candidate.supportingEvidence.getD [] ++ candidate.contradictingEvidence.getD [] ++
    (candidate.alternatives.getD []).flatMap fun a => a.discriminatingEvidence.getD []

/-- A valid observation of the list that holds now, under its reference. -/
def Shows (evidence : List EvidenceSnapshot) (now : Time) (ref : ItemRef) (o : Observation) :
    Prop :=
  ⟨ref, o⟩ ∈ evidence ∧ o.freshAt now = true

/-- The codes that are a cause in themselves. -/
def Code.causal : Code → Bool
  | .crashLoop | .podFailed | .dependencyUnavailable => false
  | .readUnavailable | .healthy | .unclassified => false
  | _ => true

section Lookup

variable {evidence : List EvidenceSnapshot} {now : Time} {ref : ItemRef} {o : Observation}

private theorem assign_of_absent {m : List (ItemRef × Observation)} (absent : ∀ e ∈ m, e.1 ≠ ref) :
    assign m ref o = m ++ [(ref, o)] := by
  rw [assign]
  simpa using absent

private theorem foldl_assign {items : List EvidenceSnapshot} {m : List (ItemRef × Observation)}
    (distinct : (items.map (·.ref)).Nodup) (absent : ∀ e ∈ m, e.1 ∉ items.map (·.ref)) :
    items.foldl (fun m e => assign m e.ref e.observation) m =
      m ++ items.map fun e => (e.ref, e.observation) := by
  induction items generalizing m with
  | nil => simp
  | cons e items ih =>
    obtain ⟨new, distinct⟩ := nodup_cons.mp distinct
    have free : ∀ entry ∈ m, entry.1 ≠ e.ref := by
      intro entry member same
      exact absent entry member (by simp [same])
    rw [foldl_cons, assign_of_absent free, ih distinct]
    · simp
    · intro entry member
      rcases mem_append.mp member with old | last
      · exact fun later => absent entry old (mem_cons_of_mem _ later)
      · rw [mem_singleton.mp last]
        exact new

section

variable (distinct : (evidence.map (·.ref)).Nodup)
include distinct

theorem observationsByRef_eq :
    observationsByRef evidence now = (evidence.filter fun e => e.observation.freshAt now).map
      fun e => (e.ref, e.observation) := by
  have fresh : ((evidence.filter fun e => e.observation.freshAt now).map (·.ref)).Nodup :=
    distinct.sublist (filter_sublist.map _)
  rw [observationsByRef, foldl_assign fresh (by simp), nil_append]

theorem mem_observationsByRef :
    (ref, o) ∈ observationsByRef evidence now ↔ Shows evidence now ref o := by
  rw [observationsByRef_eq distinct, mem_map]
  constructor
  · rintro ⟨e, member, same⟩
    obtain ⟨rfl, rfl⟩ := Prod.mk.inj same
    exact mem_filter.mp member
  · rintro ⟨member, fresh⟩
    exact ⟨⟨ref, o⟩, mem_filter.mpr ⟨member, fresh⟩, rfl⟩

theorem distinct_observationsByRef : Assoc.Distinct (observationsByRef evidence now) := by
  rw [observationsByRef_eq distinct, Assoc.Distinct, map_map]
  exact distinct.sublist (filter_sublist.map _)

theorem lookup_observationsByRef :
    (observationsByRef evidence now).lookup ref = some o ↔ Shows evidence now ref o := by
  rw [Assoc.lookup_eq_some_iff (distinct_observationsByRef distinct),
    mem_observationsByRef distinct]

theorem cited_iff :
    cited (observationsByRef evidence now) ref = true ↔ ∃ o, Shows evidence now ref o := by
  rw [cited, Option.isSome_iff_exists]
  exact exists_congr fun o => lookup_observationsByRef distinct

end

end Lookup

section Verdict

variable {candidate : Conclusion} {evidence : List EvidenceSnapshot} {now : Time}

/-- The candidate is within its limits and every citation and check refers to the evidence. -/
structure Accepted (candidate : Conclusion) (evidence : List EvidenceSnapshot) (now : Time) :
    Prop where
  form : candidate.WellFormed now
  citations : ∀ ref ∈ candidate.references, ∃ o, Shows evidence now ref o
  checks : ∀ c ∈ candidate.requestedChecks.getD [],
    ∃ e ∈ evidence, e.observation.resourceHandle = c.resourceHandle

theorem AssessCandidate_ok_iff (distinct : (evidence.map (·.ref)).Nodup) {a : Assessment} :
    AssessCandidate candidate evidence now = .ok a ↔
      Accepted candidate evidence now ∧ a = verdict candidate (observationsByRef evidence now) := by
  constructor
  · intro ok
    have set_ := (AssessCandidate_ok ok).1.set
    simp only [AssessCandidate, bind_ok, require_ok, pure_ok, all_eq_true, Bool.and_eq_true,
      decide_eq_true_eq, probe_validate set_, alternativeOk, checkOk, any_eq_true,
      cited_iff distinct] at ok
    obtain ⟨-, ⟨known, handle⟩, -, ⟨-, supporting, contradicting, alternatives⟩, -, count, -,
      checks, -, supported, -, contradicted, -, discriminated, rfl⟩ := ok
    refine ⟨⟨⟨set_, known, handle, supporting, contradicting, alternatives, count,
      fun c member => (checks c member).1, fun a member => ?_⟩, fun ref member => ?_,
      fun c member => (checks c member).2⟩, rfl⟩
    · exact ⟨(discriminated a member).1.1.1, (discriminated a member).1.2⟩
    · rw [Conclusion.references, mem_append, mem_append, mem_flatMap] at member
      rcases member with (member | member) | ⟨a, inside, member⟩
      · exact supported ref member
      · exact contradicted ref member
      · exact (discriminated a inside).2 ref member
  · rintro ⟨⟨form, citations, checks⟩, rfl⟩
    simp only [AssessCandidate, bind_ok, require_ok, pure_ok, all_eq_true, Bool.and_eq_true,
      decide_eq_true_eq, probe_validate form.instant, alternativeOk, checkOk, any_eq_true,
      cited_iff distinct]
    simp only [Conclusion.references, mem_append, mem_flatMap] at citations
    refine ⟨(), ⟨form.cause, form.handle⟩, (), ⟨form.handle, form.supporting,
      form.contradicting, form.alternatives⟩, (), form.checks, (), ?_, (), ?_, (), ?_, (), ?_,
      trivial⟩
    · exact fun c member => ⟨form.check c member, checks c member⟩
    · exact fun ref member => citations ref (.inl (.inl member))
    · exact fun ref member => citations ref (.inl (.inr member))
    · intro a member
      obtain ⟨known, few⟩ := form.alternative a member
      refine ⟨⟨⟨known, form.handle⟩, few⟩, fun ref inside => ?_⟩
      exact citations ref (.inr ⟨a, member, inside⟩)

theorem AssessCandidate_error {e : Error}
    (failed : AssessCandidate candidate evidence now = .error e) : e = .invalidConclusion := by
  simp only [AssessCandidate, bind_error, require_error] at failed
  rcases failed with ⟨-, rfl⟩ | ⟨-, -, ⟨-, rfl⟩ | ⟨-, -, ⟨-, rfl⟩ | ⟨-, -, ⟨-, rfl⟩ |
    ⟨-, -, ⟨-, rfl⟩ | ⟨-, -, ⟨-, rfl⟩ | ⟨-, -, ⟨-, rfl⟩ | ⟨-, -, never⟩⟩⟩⟩⟩⟩⟩
  all_goals first | rfl | simp [pure, Except.pure] at never

/-- Some supporting reference shows the cause itself on the resource itself. -/
def Direct (candidate : Conclusion) (evidence : List EvidenceSnapshot) (now : Time) : Prop :=
  ∃ ref ∈ candidate.supportingEvidence.getD [], ∃ o, Shows evidence now ref o ∧
    o.code = candidate.causeCode ∧ o.resourceHandle = candidate.resourceHandle

/-- Some valid observation that holds now shows the resource healthy. -/
def ShownHealthy (candidate : Conclusion) (evidence : List EvidenceSnapshot) (now : Time) : Prop :=
  ∃ ref o, Shows evidence now ref o ∧ o.resourceHandle = candidate.resourceHandle ∧
    o.code = .healthy

theorem grade_hypothesis_iff (distinct : (evidence.map (·.ref)).Nodup) :
    (grade candidate (observationsByRef evidence now)).1 = .hypothesis ↔
      Direct candidate evidence now ∧ Code.causal candidate.causeCode = true ∧
        candidate.contradictingEvidence.getD [] = [] ∧ ¬ ShownHealthy candidate evidence now := by
  have healthy : (observationsByRef evidence now).any (fun e =>
      decide (e.2.resourceHandle = candidate.resourceHandle ∧ e.2.code = .healthy ∧
        candidate.causeCode ≠ .healthy)) = true ↔
      ShownHealthy candidate evidence now ∧ candidate.causeCode ≠ .healthy := by
    simp only [any_eq_true, Prod.exists, mem_observationsByRef distinct, decide_eq_true_eq,
      ShownHealthy]
    constructor
    · rintro ⟨ref, o, shows_, handle, code, other⟩
      exact ⟨⟨ref, o, shows_, handle, code⟩, other⟩
    · rintro ⟨⟨ref, o, shows_, handle, code⟩, other⟩
      exact ⟨ref, o, shows_, handle, code, other⟩
  have direct : (candidate.supportingEvidence.getD []).any
      (directly candidate (observationsByRef evidence now)) = true ↔
        Direct candidate evidence now := by
    simp only [any_eq_true, directly, Option.any_eq_true, lookup_observationsByRef distinct,
      decide_eq_true_eq, Direct]
  by_cases shown : ShownHealthy candidate evidence now ∧ candidate.causeCode ≠ .healthy
  · rw [grade, if_pos (healthy.mpr shown)]
    simp [shown.1]
  · rw [grade, if_neg (mt healthy.mp shown)]
    have unshown : Code.causal candidate.causeCode = true →
        ¬ ShownHealthy candidate evidence now := by
      intro causal contradicted
      refine shown ⟨contradicted, fun same => ?_⟩
      rw [same] at causal
      exact Bool.false_ne_true causal
    split
    · rename_i contradicted
      simp [contradicted]
    · rename_i uncontradicted
      rw [not_not] at uncontradicted
      split
      · rename_i indirect
        have none_ : ¬ Direct candidate evidence now := fun some_ => by
          simp [direct.mpr some_] at indirect
        simp [none_]
      · rename_i direct_
        have some_ : Direct candidate evidence now := direct.mp (by simpa using direct_)
        simp only [some_, uncontradicted, true_and]
        split <;> simp_all [Code.causal]

private theorem observationsByRef_perm {reordered : List EvidenceSnapshot}
    (distinct : (evidence.map (·.ref)).Nodup) (perm : reordered.Perm evidence) :
    (observationsByRef reordered now).Perm (observationsByRef evidence now) := by
  rw [observationsByRef_eq distinct, observationsByRef_eq ((perm.map _).nodup_iff.mpr distinct)]
  exact (perm.filter _).map _

private theorem grade_perm {byRef other : List (ItemRef × Observation)}
    (distinct : Assoc.Distinct byRef) (perm : other.Perm byRef) :
    grade candidate other = grade candidate byRef := by
  have direct : directly candidate other = directly candidate byRef := by
    funext ref
    rw [directly, directly, Assoc.lookup_perm distinct perm]
  rw [grade, grade, direct, perm.any_eq]

private theorem Accepted.perm {reordered : List EvidenceSnapshot} (perm : reordered.Perm evidence)
    (accepted : Accepted candidate evidence now) : Accepted candidate reordered now := by
  refine ⟨accepted.form, fun ref member => ?_, fun c member => ?_⟩
  · obtain ⟨o, inside, fresh⟩ := accepted.citations ref member
    exact ⟨o, perm.mem_iff.mpr inside, fresh⟩
  · obtain ⟨e, inside, same⟩ := accepted.checks c member
    exact ⟨e, perm.mem_iff.mpr inside, same⟩

/-- The rubric accepts a hypothesis exactly if the candidate is well formed, everything it cites
holds now, its cause is shown directly and nothing shows the resource healthy; the order of the
evidence does not matter. -/
theorem hypothesis_iff_grounded (distinct : (evidence.map (·.ref)).Nodup) :
    ((∃ a, AssessCandidate candidate evidence now = .ok a ∧ a.status = .hypothesis) ↔
      Accepted candidate evidence now ∧ Direct candidate evidence now ∧
        Code.causal candidate.causeCode = true ∧
        candidate.contradictingEvidence.getD [] = [] ∧
        ¬ ShownHealthy candidate evidence now) ∧
    ∀ reordered, reordered.Perm evidence →
      AssessCandidate candidate reordered now = AssessCandidate candidate evidence now := by
  constructor
  · rw [← grade_hypothesis_iff distinct]
    constructor
    · rintro ⟨a, ok, hypothesis_⟩
      obtain ⟨accepted, rfl⟩ := (AssessCandidate_ok_iff distinct).mp ok
      exact ⟨accepted, hypothesis_⟩
    · rintro ⟨accepted, hypothesis_⟩
      exact ⟨_, (AssessCandidate_ok_iff distinct).mpr ⟨accepted, rfl⟩, hypothesis_⟩
  · intro reordered perm
    have distinct' : (reordered.map (·.ref)).Nodup := (perm.map _).nodup_iff.mpr distinct
    have same : verdict candidate (observationsByRef reordered now) =
        verdict candidate (observationsByRef evidence now) := by
      rw [verdict, verdict, grade_perm (distinct_observationsByRef distinct)
        (observationsByRef_perm distinct perm)]
    cases first : AssessCandidate candidate evidence now with
    | ok a =>
      obtain ⟨accepted, rfl⟩ := (AssessCandidate_ok_iff distinct).mp first
      exact (AssessCandidate_ok_iff distinct').mpr ⟨accepted.perm perm, same.symm⟩
    | error e =>
      cases second : AssessCandidate candidate reordered now with
      | ok a =>
        obtain ⟨accepted, -⟩ := (AssessCandidate_ok_iff distinct').mp second
        have ok := (AssessCandidate_ok_iff distinct).mpr ⟨accepted.perm perm.symm, rfl⟩
        rw [first] at ok
        simp at ok
      | error e' => rw [AssessCandidate_error first, AssessCandidate_error second]

end Verdict

namespace Blocked

/-! One resource, observed healthy and blocked. -/

def handle : Text := List.replicate 32 '0'

def noon : Time := 1000 * minute

def observed (id : Text) (code : Code) : EvidenceSnapshot :=
  ⟨⟨id, 1⟩, none, none, code, handle, [], [], noon, noon + minute⟩

def candidate : Conclusion :=
  ⟨none, .networkBlocked, handle, some [⟨"blocked", 1⟩], none, none⟩

end Blocked

/-- A later observation under the same reference hides the healthy one. -/
theorem repeated_reference_hides_health :
    (AssessCandidate Blocked.candidate
      [Blocked.observed "blocked" .healthy, Blocked.observed "blocked" .networkBlocked]
      Blocked.noon).map (·.status) = .ok .hypothesis ∧
    ShownHealthy Blocked.candidate
      [Blocked.observed "blocked" .healthy, Blocked.observed "blocked" .networkBlocked]
      Blocked.noon :=
  ⟨by decide +kernel, _, _, ⟨mem_cons_self, by decide +kernel⟩, rfl, rfl⟩

theorem hypothesis_iff_grounded_blocked :
    Direct Blocked.candidate [Blocked.observed "blocked" .networkBlocked] Blocked.noon ∧
    AssessCandidate Blocked.candidate
      [Blocked.observed "other" .unclassified, Blocked.observed "blocked" .networkBlocked]
      Blocked.noon =
    AssessCandidate Blocked.candidate
      [Blocked.observed "blocked" .networkBlocked, Blocked.observed "other" .unclassified]
      Blocked.noon := by
  have ran : (AssessCandidate Blocked.candidate [Blocked.observed "blocked" .networkBlocked]
      Blocked.noon).map (·.status) = .ok .hypothesis := by decide +kernel
  obtain ⟨a, ok, hypothesis_⟩ := map_ok ran
  exact ⟨((hypothesis_iff_grounded (by decide)).1.mp ⟨a, ok, hypothesis_⟩).2.1,
    (hypothesis_iff_grounded (by decide)).2 _ (Perm.swap _ _ _)⟩

end Sre.Investigation
