/- GID: Sre/Investigation/Rounds
   digest: The bounded diagnostic rounds of an agent, and the orchestrator's check of their result. -/

import Sre.Investigation.Rubric

set_option autoImplicit false

namespace Sre.Investigation

open Foundation.Json Foundation.Outcome Identity Incident Privacy List

inductive Phase where
  | formCausalAlternatives
  | challengeUpstreamAndContradictions
  | reassessCurrentEvidenceAndAbstainIfUntested

def phaseOf (round : ℕ) : Phase :=
  if round = 3 then .reassessCurrentEvidenceAndAbstainIfUntested
  else if round = 2 then .challengeUpstreamAndContradictions
  else .formCausalAlternatives

structure Task (E C : Type) where
  clarifications : List C
  phase : Phase
  evidence : List EvidenceSnapshot
  environment : Option E
  guidance : List GoldenCase
  tentative : Option Conclusion

structure Reply where
  text : Text
  usage : ProviderTokenUsage
  failed : Bool

structure Readings where
  guided : Time
  started : Time
  finished : Time
  assessed : Time

/-- What surrounds a run: the provider, the collection of fresh evidence, the clock.
Each is asked at most once a round, so a round number stands for any inner state. -/
structure Engine (E C : Type) where
  runner : Option (ℕ → Task E C → Reply)
  refresh : Option (ℕ → List Check → Snapshot E C → Except Error (Snapshot E C × Bool))
  clock : ℕ → Readings

/-- Without a refresh function no collection is ever ready. -/
def Engine.collect {E C : Type} (engine : Engine E C) (round : ℕ) (checks : List Check)
    (current : Snapshot E C) : Except Error (Snapshot E C × Bool) :=
  match engine.refresh with
  | none => .ok (current, false)
  | some refresh => refresh round checks current

def applicableGuidance (cases : List GoldenCase) (evidence : List EvidenceSnapshot) (now : Time) :
    List GoldenCase :=
  cases.filter fun g => SuggestCause g.causeCode (evidence.map fun e => e.observation) now

/-- `strictDecode` into a value that `read` takes from a document. -/
def strictDecodeAs {α : Type} (read : Value → Option α) (raw : Text) : Option α :=
  match CanonicalObject raw with
  | .error _ => none
  | .ok _ => (parse raw).bind read

def countedUsage (u : ProviderTokenUsage) : Option ProviderTokenUsage :=
  if 0 < u.inputTokens ∨ 0 < u.outputTokens ∨ 0 < u.totalTokens then some u else none

/-- An assessment without a conclusion. -/
def abstain (status : Status) (reason : ReasonCode) : Assessment := ⟨status, reason, .zero⟩

structure Progress (E C : Type) where
  assessment : Assessment
  rounds : List Round
  state : Snapshot E C
  tentative : Option Conclusion
  seenChecks : List Text

/-- Marks the requested checks as seen, unless one was seen before. -/
def noteChecks : List Check → List Text → Option (List Text)
  | [], seen => some seen
  | check :: checks, seen =>
    let key := check.kind.text ++ '/' :: check.resourceHandle
    if key ∈ seen then none else noteChecks checks (key :: seen)

section Loop

variable {E C : Type} (version : E → ℤ) (engine : Engine E C) (guidance : List GoldenCase)

/-- Both snapshots lack an environment, or both have the same version of it. -/
def sameEnvironment (state next : Snapshot E C) : Bool :=
  decide (state.environment.map version = next.environment.map version)

/-- The round asked for fresh checks. The flag says whether the loop goes on. -/
def requestChecks (round : ℕ) (checks : List Check) (s : Progress E C) :
    Except Error (Bool × Progress E C) :=
  if round = 3 then
    .ok (false, { s with assessment := abstain .needsEvidence .collectionBudgetExhausted })
  else
    match noteChecks checks s.seenChecks with
    | none =>
      .ok (false, { s with assessment := abstain .needsEvidence .repeatedCheckWithoutProgress })
    | some seen => do
      let (next, ready) ← engine.collect round checks s.state
      if !ready then
        return (false, { s with assessment := abstain .needsEvidence .freshCollectionUnavailable })
      else do
        require (sameEnvironment version s.state next) .conflict
        return (true, { s with state := next, tentative := none, seenChecks := seen })

def recordRound (round : ℕ) (reply : Reply) (s : Progress E C) (a : Assessment) (checks : ℕ) :
    Round :=
  ⟨((engine.clock round).finished - (engine.clock round).started).tdiv 1000000,
    countedUsage reply.usage, round, a.status, a.reasonCode, s.state.evidence.length, checks⟩

def concludeRound (round : ℕ) (reply : Reply) (s : Progress E C) (a : Assessment) (checks : ℕ) :
    Progress E C :=
  { s with assessment := a, rounds := s.rounds ++ [recordRound engine round reply s a checks] }

def takeAnswer (round : ℕ) (reply : Reply) (s : Progress E C) :
    Except Error (Bool × Progress E C) :=
  if reply.failed then
    .ok (false, concludeRound engine round reply s (abstain .inconclusive .providerUnavailable) 0)
  else
    match strictDecodeAs (readConclusion true) reply.text with
    | none =>
      .ok (false,
        concludeRound engine round reply s (abstain .inconclusive .invalidProviderOutput) 0)
    | some candidate =>
      match AssessCandidate candidate s.state.evidence (engine.clock round).assessed with
      | .error _ =>
        .ok (false,
          concludeRound engine round reply s (abstain .inconclusive .invalidProviderEvidence) 0)
      | .ok assessment =>
        let checks := candidate.requestedChecks.getD []
        let s := concludeRound engine round reply s assessment checks.length
        if assessment.status = .inconclusive then .ok (false, s)
        else if checks ≠ [] then requestChecks version engine round checks s
        else .ok (true, { s with tentative := some candidate })

def roundTask (round : ℕ) (s : Progress E C) : Task E C :=
  ⟨s.state.clarifications, phaseOf round, s.state.evidence, s.state.environment,
    applicableGuidance guidance s.state.evidence (engine.clock round).guided, s.tentative⟩

/-- The rounds from a number on, while fuel lasts. -/
def roundsFrom (runner : ℕ → Task E C → Reply) : ℕ → ℕ → Progress E C → Except Error (Progress E C)
  | 0, _, s => .ok s
  | fuel + 1, round, s => do
    let (more, s) ← takeAnswer version engine round
      (runner round (roundTask engine guidance round s)) s
    if more then roundsFrom runner fuel (round + 1) s else return s

def ExecuteRounds (state : Snapshot E C) : Except Error (Assessment × List Round × Snapshot E C) :=
  let start := abstain .needsEvidence .discriminatingEvidenceRequired
  match engine.runner with
  | none => .ok (start, [], state)
  | some runner => do
    let s ← roundsFrom version engine guidance runner 3 1 ⟨start, [], state, none, []⟩
    return (s.assessment, s.rounds, s.state)

end Loop

/-- The status that goes with a reason for which no conclusion is expected. -/
def abstentionStatus : ReasonCode → Option Status
  | .noCurrentEligibleEvidence | .discriminatingEvidenceRequired | .collectionBudgetExhausted
  | .repeatedCheckWithoutProgress | .freshCollectionUnavailable => some .needsEvidence
  | .providerUnavailable | .invalidProviderOutput | .invalidProviderEvidence => some .inconclusive
  | _ => none

def ValidateAgentResult {E C : Type} (result : RunResult) (state : Snapshot E C) (now : Time) :
    Except Error Assessment := do
  require (decide ((result.rounds.getD []).length ≤ 3)) .invalid
  if result.assessment.conclusion ≠ .zero then
    AssessCandidate result.assessment.conclusion state.evidence now
  else
    match abstentionStatus result.assessment.reasonCode with
    | some status => return abstain status result.assessment.reasonCode
    | none => .error .invalid

/-! ## Agreement of the two procedures -/

section Agreement

variable {E C : Type} {version : E → ℤ} {engine : Engine E C} {guidance : List GoldenCase}

/-- The assessment abstains for a listed reason, or is the rubric's verdict on the snapshot. -/
def Settled (evidence : List EvidenceSnapshot) (now : Time) (a : Assessment) : Prop :=
  (a.conclusion = .zero ∧ abstentionStatus a.reasonCode = some a.status) ∨
    AssessCandidate a.conclusion evidence now = .ok a

/-- Every round carries a status and a reason of the vocabulary. -/
def NamedRounds (rounds : List Round) : Prop :=
  ∀ r ∈ rounds, r.status ∈ Status.named ∧ r.reason ∈ ReasonCode.named

variable {evidence : List EvidenceSnapshot} {now : Time} {a : Assessment} {round : ℕ}
  {s : Progress E C}

theorem Settled.abstain {status : Status} {reason : ReasonCode}
    (listed : abstentionStatus reason = some status) :
    Settled evidence now (abstain status reason) := Or.inl ⟨rfl, listed⟩

/-- A settled assessment has a status and a reason of the vocabulary, and is not
corroborated. -/
theorem Settled.named (settled : Settled evidence now a) :
    a.status ∈ [Status.hypothesis, .inconclusive, .needsEvidence] ∧
      a.reasonCode ∈ ReasonCode.named := by
  rcases settled with ⟨-, listed⟩ | assessed
  · cases reason : a.reasonCode <;> rw [reason, abstentionStatus] at listed <;>
      simp_all [ReasonCode.named]
  · obtain ⟨-, same⟩ := AssessCandidate_ok assessed
    rw [same]
    exact grade_named _ _

private theorem NamedRounds.conclude {reply : Reply} (known : NamedRounds s.rounds)
    (settled : Settled evidence now a) (checks : ℕ) :
    NamedRounds (concludeRound engine round reply s a checks).rounds := by
  obtain ⟨status, reason⟩ := settled.named
  intro r member
  rcases mem_append.mp member with member | member
  · exact known r member
  · rw [mem_singleton] at member
    subst member
    simp only [Status.named, mem_cons] at status ⊢
    tauto

/-- One more round is recorded; the assessment is settled unless another round follows. -/
structure Advances (engine : Engine E C) (round : ℕ) (s : Progress E C) (more : Bool)
    (s' : Progress E C) : Prop where
  count : s'.rounds.length = s.rounds.length + 1
  named : NamedRounds s.rounds → NamedRounds s'.rounds
  settled : more = false ∨ round = 3 →
    Settled s'.state.evidence (engine.clock round).assessed s'.assessment

variable {s' : Progress E C} {state : Snapshot E C}

private theorem requestChecks_ok {checks : List Check} {more : Bool}
    (ok : requestChecks version engine round checks s = .ok (more, s')) :
    s'.rounds = s.rounds ∧ (more = false ∨ round = 3 →
      Settled s'.state.evidence (engine.clock round).assessed s'.assessment) := by
  unfold requestChecks at ok
  split at ok
  · obtain ⟨rfl, rfl⟩ := Prod.mk.inj (Except.ok.inj ok)
    exact ⟨rfl, fun _ => .abstain rfl⟩
  · rename_i early
    split at ok
    · obtain ⟨rfl, rfl⟩ := Prod.mk.inj (Except.ok.inj ok)
      exact ⟨rfl, fun _ => .abstain rfl⟩
    · obtain ⟨⟨next, ready⟩, -, rest⟩ := bind_ok.mp ok
      dsimp only at rest
      split at rest
      · obtain ⟨rfl, rfl⟩ := Prod.mk.inj (pure_ok.mp rest)
        exact ⟨rfl, fun _ => .abstain rfl⟩
      · obtain ⟨-, -, last⟩ := bind_ok.mp rest
        obtain ⟨rfl, rfl⟩ := Prod.mk.inj (pure_ok.mp last)
        exact ⟨rfl, by simp [early]⟩

private theorem takeAnswer_advances {reply : Reply} {more : Bool}
    (ok : takeAnswer version engine round reply s = .ok (more, s')) :
    Advances engine round s more s' := by
  have stops {reason : ReasonCode} (listed : abstentionStatus reason = some .inconclusive)
      (same : concludeRound engine round reply s (abstain .inconclusive reason) 0 = s') :
      Advances engine round s more s' := by
    subst same
    have settled : Settled s.state.evidence (engine.clock round).assessed
        (abstain .inconclusive reason) := .abstain listed
    exact ⟨by simp [concludeRound], fun known => known.conclude settled 0, fun _ => settled⟩
  unfold takeAnswer at ok
  split at ok
  · exact stops rfl (Prod.mk.inj (Except.ok.inj ok)).2
  · split at ok
    · exact stops rfl (Prod.mk.inj (Except.ok.inj ok)).2
    · rename_i candidate _
      split at ok
      · exact stops rfl (Prod.mk.inj (Except.ok.inj ok)).2
      · rename_i assessment assessed
        have same : assessment.conclusion = candidate := by
          rw [(AssessCandidate_ok assessed).2]
          rfl
        have settled : Settled s.state.evidence (engine.clock round).assessed assessment :=
          Or.inr (same ▸ assessed)
        dsimp only at ok
        split at ok
        · obtain ⟨rfl, rfl⟩ := Prod.mk.inj (Except.ok.inj ok)
          exact ⟨by simp [concludeRound], fun known => known.conclude settled _, fun _ => settled⟩
        · split at ok
          · obtain ⟨rounds, final⟩ := requestChecks_ok ok
            refine ⟨?_, fun known => ?_, final⟩
            · rw [rounds]
              simp [concludeRound]
            · rw [rounds]
              exact known.conclude settled _
          · obtain ⟨rfl, rfl⟩ := Prod.mk.inj (Except.ok.inj ok)
            exact ⟨by simp [concludeRound], fun known => known.conclude settled _, fun _ => settled⟩

private theorem roundsFrom_settled {runner : ℕ → Task E C → Reply} {fuel : ℕ}
    (ok : roundsFrom version engine guidance runner fuel round s = .ok s')
    (budget : fuel + round = 4) (left : 1 ≤ fuel) (count : s.rounds.length + 1 = round)
    (known : NamedRounds s.rounds) : s'.rounds.length ≤ 3 ∧ NamedRounds s'.rounds ∧
      Settled s'.state.evidence (engine.clock s'.rounds.length).assessed s'.assessment := by
  induction fuel generalizing round s with
  | zero => omega
  | succ fuel ih =>
    rw [roundsFrom] at ok
    obtain ⟨⟨more, next⟩, answered, rest⟩ := bind_ok.mp ok
    have advances := takeAnswer_advances answered
    have length : next.rounds.length = round := by rw [advances.count, count]
    have named := advances.named known
    dsimp only at rest
    by_cases stop : more = false ∨ fuel = 0
    · have settled := advances.settled (stop.imp_right fun _ => by omega)
      have same : next = s' := by
        rcases stop with rfl | rfl
        · simpa using rest
        · cases more <;> simpa [roundsFrom] using rest
      subst same
      rw [length]
      exact ⟨by omega, named, settled⟩
    · push Not at stop
      rw [if_pos (by simpa using stop.1)] at rest
      exact ih rest (by omega) (by omega) (by omega) named

theorem ExecuteRounds_settled {final : Snapshot E C} {rounds : List Round}
    (ok : ExecuteRounds version engine guidance state = .ok (a, rounds, final)) :
    rounds.length ≤ 3 ∧ NamedRounds rounds ∧
      Settled final.evidence (engine.clock rounds.length).assessed a := by
  unfold ExecuteRounds at ok
  split at ok
  · simp only [Except.ok.injEq, Prod.mk.injEq] at ok
    obtain ⟨rfl, rfl, rfl⟩ := ok
    exact ⟨by simp, by simp [NamedRounds], .abstain rfl⟩
  · obtain ⟨s, looped, rest⟩ := bind_ok.mp ok
    simp only [pure_ok, Prod.mk.injEq] at rest
    obtain ⟨rfl, rfl, rfl⟩ := rest
    exact roundsFrom_settled looped (by omega) (by omega) rfl (by simp [NamedRounds])

private theorem Settled.conclusion_named (settled : Settled evidence now a) :
    a.conclusion.Named := by
  rcases settled with ⟨zero, -⟩ | assessed
  · rw [zero]
    exact ⟨by decide, by simp [Conclusion.zero], by simp [Conclusion.zero]⟩
  · obtain ⟨admissible, -⟩ := AssessCandidate_ok assessed
    refine ⟨Code.ofText_text admissible.known, fun l written k member => ?_,
      fun l written k member => ?_⟩
    · have allowed := admissible.checks k (by rw [written]; exact member)
      simp_all [checkOk]
    · exact Code.ofText_text (admissible.alternatives k (by rw [written]; exact member))

private theorem returned_ne_zero {c : Conclusion} (known : c.causeCode.known = true) :
    c.returned ≠ .zero := by
  intro same
  have cause : c.causeCode = .unknown [] := congrArg Conclusion.causeCode same
  simp [cause, Code.known] at known

private theorem Settled.validates {later : Time} {result : RunResult}
    (settled : Settled state.evidence now result.assessment)
    (few : (result.rounds.getD []).length ≤ 3) (set : later ≠ 0)
    (steady : ∀ e ∈ state.evidence, e.observation.freshAt now = e.observation.freshAt later) :
    ∃ v, ValidateAgentResult result.returned state later = .ok v ∧
      v.status = result.assessment.status ∧ v.reasonCode = result.assessment.reasonCode := by
  have count : decide ((result.returned.rounds.getD []).length ≤ 3) = true := by
    simpa [RunResult.returned, returnedSlice_getD] using few
  rcases settled with ⟨zero, listed⟩ | assessed
  · have same : result.returned.assessment.conclusion = .zero := by
      simp [RunResult.returned, zero, Conclusion.returned, Conclusion.zero, Value.returnedSlice,
        Value.emptySlice]
    refine ⟨Investigation.abstain result.assessment.status result.assessment.reasonCode, ?_,
      rfl, rfl⟩
    rw [ValidateAgentResult, count, same]
    simp only [ne_eq, not_true_eq_false, ↓reduceIte]
    rw [show result.returned.assessment.reasonCode = result.assessment.reasonCode from rfl, listed]
    rfl
  · obtain ⟨admissible, -⟩ := AssessCandidate_ok assessed
    have other := returned_ne_zero admissible.known
    have again := AssessCandidate_returned
      ((AssessCandidate_congr admissible.set set steady).trans assessed)
    refine ⟨{ result.assessment with conclusion := result.assessment.conclusion.returned }, ?_,
      rfl, rfl⟩
    rw [ValidateAgentResult, count]
    simp only [RunResult.returned, ne_eq, other, not_false_eq_true, ↓reduceIte, again]
    rfl

theorem ValidateAgentResult_settled {result : RunResult}
    (ok : ValidateAgentResult result state now = .ok a) : Settled state.evidence now a := by
  obtain ⟨-, -, rest⟩ := bind_ok.mp ok
  split at rest
  · have same : a.conclusion = result.assessment.conclusion := by
      rw [(AssessCandidate_ok rest).2]
      rfl
    exact Or.inr (same ▸ rest)
  · split at rest
    · rename_i status listed
      rw [← pure_ok.mp rest]
      exact .abstain listed
    · simp at rest

theorem Settled.uncorroborated (settled : Settled evidence now a) : a.status ≠ .corroborated := by
  intro corroborated
  have listed := settled.named.1
  simp [corroborated] at listed

/-- What the rounds of an agent settle, the orchestrator finds again from the sent result,
as long as no observation of the last snapshot changes its freshness; and no submitted
result is ever corroborated. A clock never shows the zero time. -/
theorem agent_and_orchestrator_agree :
    (∀ (strict : Bool) (version : E → ℤ) (engine : Engine E C) (guidance : List GoldenCase)
      (state final : Snapshot E C) (rounds : List Round) (result : RunResult) (now : Time),
      ExecuteRounds version engine guidance state = .ok (result.assessment, rounds, final) →
      result.rounds = some rounds → now ≠ 0 →
      (∀ e ∈ final.evidence, e.observation.freshAt (engine.clock rounds.length).assessed =
        e.observation.freshAt now) →
      rounds.length ≤ 3 ∧ ∃ received v,
        (parse (render goStyle result.document)).bind (readRunResult strict) = some received ∧
        ValidateAgentResult received final now = .ok v ∧
        v.status = result.assessment.status ∧ v.reasonCode = result.assessment.reasonCode) ∧
    ∀ (result : RunResult) (state : Snapshot E C) (now : Time) (v : Assessment),
      ValidateAgentResult result state now = .ok v → v.status ≠ .corroborated := by
  refine ⟨?_, fun _ _ _ _ ok => (ValidateAgentResult_settled ok).uncorroborated⟩
  intro strict version engine guidance state final rounds result now ok sent set steady
  obtain ⟨few, named, settled⟩ := ExecuteRounds_settled ok
  obtain ⟨status, reason⟩ := settled.named
  have vocabulary : result.Named := by
    refine ⟨fun l written => ?_, ?_, reason, settled.conclusion_named⟩
    · rw [sent, Option.some.injEq] at written
      exact written ▸ named
    · simp only [Status.named, mem_cons] at status ⊢
      tauto
  obtain ⟨v, validated, agreed⟩ := settled.validates (by simpa [sent] using few) set steady
  refine ⟨few, result.returned, v, ?_, validated, agreed⟩
  rw [parse_render goStyle_readable, Option.bind_some, readRunResult_document strict vocabulary]

end Agreement

namespace Diagnosis

/-! A run that asks for one fresh check and then holds to its cause. -/

def handle : Text := List.replicate 32 'a'

def observation : Observation :=
  ⟨none, none, .networkBlocked, handle, [], [], 10 * minute, 20 * minute⟩

def snapshot (version : ℤ) : Snapshot Unit Unit :=
  ⟨[⟨⟨"evidence", version⟩, observation⟩], [⟨"evidence", version⟩], 20 * minute, none, []⟩

def answer (version : ℤ) (checks : Option (List Check)) : Text :=
  render goStyle (Conclusion.document
    ⟨checks, .networkBlocked, handle, some [⟨"evidence", version⟩], some [], some []⟩)

def runner (round : ℕ) (_ : Task Unit Unit) : Reply :=
  ⟨answer (if round = 1 then 1 else 2)
    (if round = 1 then some [⟨.refreshResourceState, handle⟩] else none), ⟨0, 0, 0⟩, false⟩

def engine : Engine Unit Unit :=
  ⟨some runner, some fun _ _ _ => .ok (snapshot 2, true),
    fun _ => ⟨12 * minute, 12 * minute, 12 * minute, 12 * minute⟩⟩

def record (round : ℤ) (checks : ℤ) : Round :=
  ⟨0, none, round, .hypothesis, .independentCausalReviewRequired, 1, checks⟩

def result : RunResult :=
  ⟨some [record 1 1, record 2 0, record 3 0], none, 0, "run", "profile", "1",
    "strict-projection/v1", PromptVersion, RubricVersion,
    ⟨.hypothesis, .independentCausalReviewRequired,
      ⟨none, .networkBlocked, handle, some [⟨"evidence", 2⟩], some [], some []⟩⟩⟩

end Diagnosis

theorem agent_and_orchestrator_agree_sample :
    ∃ received v,
      (parse (render goStyle Diagnosis.result.document)).bind (readRunResult true) = some received ∧
      ValidateAgentResult received (Diagnosis.snapshot 2) (13 * minute) = .ok v ∧
      v.status = .hypothesis ∧ v.reasonCode = .independentCausalReviewRequired :=
  ((agent_and_orchestrator_agree (E := Unit) (C := Unit)).1 true (fun _ => 0) Diagnosis.engine []
    (Diagnosis.snapshot 1) (Diagnosis.snapshot 2)
    [Diagnosis.record 1 1, Diagnosis.record 2 0, Diagnosis.record 3 0] Diagnosis.result
    (13 * minute) (by decide +kernel) rfl (by decide) (by decide +kernel)).2

end Sre.Investigation
