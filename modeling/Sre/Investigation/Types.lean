/- GID: Sre/Investigation/Types
   digest: Conclusions, assessments and run results, with their documents. -/

import Sre.Incident.Records

set_option autoImplicit false

namespace Sre.Investigation

open Foundation.Json Identity Incident Privacy List Value Option

inductive Status where
  | hypothesis
  | inconclusive
  | needsEvidence
  | corroborated
  | unknown (text : Text)
  deriving DecidableEq

def Status.text : Status → Text
  | .hypothesis => "HYPOTHESIS"
  | .inconclusive => "INCONCLUSIVE"
  | .needsEvidence => "NEEDS_EVIDENCE"
  | .corroborated => "CORROBORATED"
  | .unknown text => text

def Status.named : List Status := [.hypothesis, .inconclusive, .needsEvidence, .corroborated]

def Status.ofText (s : Text) : Status :=
  (Status.named.find? fun status => status.text = s).getD (.unknown s)

inductive ReasonCode where
  | missingDirectEvidence
  | observedHealthContradiction
  | materialContradiction
  | symptomRequiresUpstreamEvidence
  | independentCausalReviewRequired
  | independentStewardCausalReview
  | noCurrentEligibleEvidence
  | discriminatingEvidenceRequired
  | collectionBudgetExhausted
  | repeatedCheckWithoutProgress
  | freshCollectionUnavailable
  | providerUnavailable
  | invalidProviderOutput
  | invalidProviderEvidence
  | unknown (text : Text)
  deriving DecidableEq

def ReasonCode.text : ReasonCode → Text
  | .missingDirectEvidence => "MISSING_DIRECT_EVIDENCE"
  | .observedHealthContradiction => "OBSERVED_HEALTH_CONTRADICTION"
  | .materialContradiction => "MATERIAL_CONTRADICTION"
  | .symptomRequiresUpstreamEvidence => "SYMPTOM_REQUIRES_UPSTREAM_EVIDENCE"
  | .independentCausalReviewRequired => "INDEPENDENT_CAUSAL_REVIEW_REQUIRED"
  | .independentStewardCausalReview => "INDEPENDENT_STEWARD_CAUSAL_REVIEW"
  | .noCurrentEligibleEvidence => "NO_CURRENT_ELIGIBLE_EVIDENCE"
  | .discriminatingEvidenceRequired => "DISCRIMINATING_EVIDENCE_REQUIRED"
  | .collectionBudgetExhausted => "COLLECTION_BUDGET_EXHAUSTED"
  | .repeatedCheckWithoutProgress => "REPEATED_CHECK_WITHOUT_PROGRESS"
  | .freshCollectionUnavailable => "FRESH_COLLECTION_UNAVAILABLE"
  | .providerUnavailable => "PROVIDER_UNAVAILABLE"
  | .invalidProviderOutput => "INVALID_PROVIDER_OUTPUT"
  | .invalidProviderEvidence => "INVALID_PROVIDER_EVIDENCE"
  | .unknown text => text

def ReasonCode.named : List ReasonCode :=
  [.missingDirectEvidence, .observedHealthContradiction, .materialContradiction,
    .symptomRequiresUpstreamEvidence, .independentCausalReviewRequired,
    .independentStewardCausalReview, .noCurrentEligibleEvidence, .discriminatingEvidenceRequired,
    .collectionBudgetExhausted, .repeatedCheckWithoutProgress, .freshCollectionUnavailable,
    .providerUnavailable, .invalidProviderOutput, .invalidProviderEvidence]

def ReasonCode.ofText (s : Text) : ReasonCode :=
  (ReasonCode.named.find? fun reason => reason.text = s).getD (.unknown s)

theorem Status.ofText_text {s : Status} (known : s ∈ Status.named) : ofText s.text = s := by
  revert s
  decide

theorem ReasonCode.ofText_text {r : ReasonCode} (known : r ∈ ReasonCode.named) :
    ofText r.text = r := by
  revert r
  decide +kernel

structure Alternative where
  causeCode : Code
  discriminatingEvidence : Option (List ItemRef)
  deriving DecidableEq

structure Check where
  kind : CheckKind
  resourceHandle : Text
  deriving DecidableEq

structure ProviderTokenUsage where
  inputTokens : ℤ
  outputTokens : ℤ
  totalTokens : ℤ
  deriving DecidableEq

structure Round where
  providerLatencyMS : ℤ
  usage : Option ProviderTokenUsage
  number : ℤ
  status : Status
  reason : ReasonCode
  evidenceCount : ℤ
  checksRequested : ℤ
  deriving DecidableEq

/-- A slice that is nil differs from an empty one. -/
structure Conclusion where
  requestedChecks : Option (List Check)
  causeCode : Code
  resourceHandle : Text
  supportingEvidence : Option (List ItemRef)
  contradictingEvidence : Option (List ItemRef)
  alternatives : Option (List Alternative)
  deriving DecidableEq

def Conclusion.zero : Conclusion := ⟨none, .unknown [], [], none, none, none⟩

structure Assessment where
  status : Status
  reasonCode : ReasonCode
  conclusion : Conclusion
  deriving DecidableEq

structure RunResult where
  rounds : Option (List Round)
  knowledgeVersions : Option (List ItemRef)
  environmentVersion : ℤ
  runID : Text
  profileID : Text
  profileVersion : Text
  privacyVersion : Text
  promptVersion : Text
  rubricVersion : Text
  assessment : Assessment

def RubricVersion : Text := "diagnostic-rubric/v1"

def PromptVersion : Text := "investigation/v2"

/-! ## Documents -/

private def integer (z : ℤ) : Value := .num (intNumeral z)

def Alternative.document (a : Alternative) : Value :=
  .obj [("cause_code", string a.causeCode.text),
    ("discriminating_evidence", .ofSlice refValue a.discriminatingEvidence)]

def Check.document (c : Check) : Value :=
  .obj [("kind", string c.kind.text), ("resource_handle", string c.resourceHandle)]

def ProviderTokenUsage.document (u : ProviderTokenUsage) : Value :=
  .obj [("input_tokens", integer u.inputTokens), ("output_tokens", integer u.outputTokens),
    ("total_tokens", integer u.totalTokens)]

def Round.document (r : Round) : Value :=
  .obj [("provider_latency_ms", integer r.providerLatencyMS),
    ("usage", .ofPointer ProviderTokenUsage.document r.usage), ("number", integer r.number),
    ("status", string r.status.text), ("reason", string r.reason.text),
    ("evidence_count", integer r.evidenceCount), ("checks_requested", integer r.checksRequested)]

def Conclusion.document (c : Conclusion) : Value :=
  .obj (omitempty (emptySlice c.requestedChecks) "requested_checks"
      (.ofSlice Check.document c.requestedChecks) ++
    ([("cause_code", string c.causeCode.text), ("resource_handle", string c.resourceHandle),
      ("supporting_evidence", .ofSlice refValue c.supportingEvidence),
      ("contradicting_evidence", .ofSlice refValue c.contradictingEvidence),
      ("alternatives", .ofSlice Alternative.document c.alternatives)] : List (Text × Value)))

def Assessment.document (a : Assessment) : Value :=
  .obj [("status", string a.status.text), ("reason_code", string a.reasonCode.text),
    ("conclusion", a.conclusion.document)]

def RunResult.members (r : RunResult) : List (Text × Value) :=
  omitempty (emptySlice r.rounds) "rounds" (.ofSlice Round.document r.rounds) ++
    omitempty (emptySlice r.knowledgeVersions) "knowledge_versions"
      (.ofSlice refValue r.knowledgeVersions) ++
    omitempty (decide (r.environmentVersion = 0)) "environment_version"
      (integer r.environmentVersion) ++
    ([("run_id", string r.runID), ("profile_id", string r.profileID),
      ("profile_version", string r.profileVersion), ("privacy_version", string r.privacyVersion),
      ("prompt_version", string r.promptVersion), ("rubric_version", string r.rubricVersion),
      ("assessment", r.assessment.document)] : List (Text × Value))

def RunResult.document (r : RunResult) : Value := .obj r.members

/-! ## Decoders -/

def readItemRef (strict : Bool) (v : Value) : Option ItemRef := do
  let v ← v.record strict ["id", "version"]
  return ⟨← decodeText (v.fieldMember "id"), ← decodeInt (v.fieldMember "version")⟩

def readAlternative (strict : Bool) (v : Value) : Option Alternative := do
  let v ← v.record strict ["cause_code", "discriminating_evidence"]
  return ⟨.ofText (← decodeText (v.fieldMember "cause_code")),
    ← slice (readItemRef strict) (v.fieldMember "discriminating_evidence")⟩

def readCheck (strict : Bool) (v : Value) : Option Check := do
  let v ← v.record strict ["kind", "resource_handle"]
  return ⟨.ofText (← decodeText (v.fieldMember "kind")),
    ← decodeText (v.fieldMember "resource_handle")⟩

def readUsage (strict : Bool) (v : Value) : Option ProviderTokenUsage := do
  let v ← v.record strict ["input_tokens", "output_tokens", "total_tokens"]
  return ⟨← decodeInt (v.fieldMember "input_tokens"),
    ← decodeInt (v.fieldMember "output_tokens"),
    ← decodeInt (v.fieldMember "total_tokens")⟩

def readRound (strict : Bool) (v : Value) : Option Round := do
  let v ← v.record strict ["provider_latency_ms", "usage", "number", "status", "reason",
    "evidence_count", "checks_requested"]
  return ⟨← decodeInt (v.fieldMember "provider_latency_ms"),
    ← pointer (readUsage strict) (v.fieldMember "usage"),
    ← decodeInt (v.fieldMember "number"),
    .ofText (← decodeText (v.fieldMember "status")),
    .ofText (← decodeText (v.fieldMember "reason")),
    ← decodeInt (v.fieldMember "evidence_count"),
    ← decodeInt (v.fieldMember "checks_requested")⟩

def readConclusion (strict : Bool) (v : Value) : Option Conclusion := do
  let v ← v.record strict ["requested_checks", "cause_code", "resource_handle",
    "supporting_evidence", "contradicting_evidence", "alternatives"]
  return ⟨← slice (readCheck strict) (v.fieldMember "requested_checks"),
    .ofText (← decodeText (v.fieldMember "cause_code")),
    ← decodeText (v.fieldMember "resource_handle"),
    ← slice (readItemRef strict) (v.fieldMember "supporting_evidence"),
    ← slice (readItemRef strict) (v.fieldMember "contradicting_evidence"),
    ← slice (readAlternative strict) (v.fieldMember "alternatives")⟩

def readAssessment (strict : Bool) (v : Value) : Option Assessment := do
  let v ← v.record strict ["status", "reason_code", "conclusion"]
  return ⟨.ofText (← decodeText (v.fieldMember "status")),
    .ofText (← decodeText (v.fieldMember "reason_code")),
    ← readConclusion strict ((v.fieldMember "conclusion").getD .null)⟩

/-- A run result, from a document that a decoder accepts. -/
def readRunResult (strict : Bool) (v : Value) : Option RunResult := do
  let v ← v.record strict ["rounds", "knowledge_versions", "environment_version", "run_id",
    "profile_id", "profile_version", "privacy_version", "prompt_version", "rubric_version",
    "assessment"]
  return ⟨← slice (readRound strict) (v.fieldMember "rounds"),
    ← slice (readItemRef strict) (v.fieldMember "knowledge_versions"),
    ← decodeInt (v.fieldMember "environment_version"),
    ← decodeText (v.fieldMember "run_id"), ← decodeText (v.fieldMember "profile_id"),
    ← decodeText (v.fieldMember "profile_version"),
    ← decodeText (v.fieldMember "privacy_version"),
    ← decodeText (v.fieldMember "prompt_version"),
    ← decodeText (v.fieldMember "rubric_version"),
    ← readAssessment strict ((v.fieldMember "assessment").getD .null)⟩

/-! ## What a reader gets back -/

def Conclusion.returned (c : Conclusion) : Conclusion :=
  { c with requestedChecks := returnedSlice c.requestedChecks }

def RunResult.returned (r : RunResult) : RunResult :=
  { r with
    rounds := returnedSlice r.rounds
    knowledgeVersions := returnedSlice r.knowledgeVersions
    assessment := { r.assessment with conclusion := r.assessment.conclusion.returned } }

/-- Every code of the conclusion is the one that its text names. -/
structure Conclusion.Named (c : Conclusion) : Prop where
  cause : Code.ofText c.causeCode.text = c.causeCode
  checks : ∀ l, c.requestedChecks = some l → ∀ k ∈ l, k.kind ∈ CheckKind.named
  alternatives : ∀ l, c.alternatives = some l → ∀ a ∈ l, Code.ofText a.causeCode.text = a.causeCode

structure RunResult.Named (r : RunResult) : Prop where
  rounds : ∀ l, r.rounds = some l → ∀ k ∈ l, k.status ∈ Status.named ∧ k.reason ∈ ReasonCode.named
  status : r.assessment.status ∈ Status.named
  reason : r.assessment.reasonCode ∈ ReasonCode.named
  conclusion : r.assessment.conclusion.Named

private theorem decodeText_string (s : Text) : decodeText (some (string s)) = some s := rfl

private theorem decodeInt_integer (z : ℤ) : decodeInt (some (integer z)) = some z := by
  simp [integer, decodeInt]

section Codec

variable (strict : Bool)

private theorem readItemRef_refValue (r : ItemRef) : readItemRef strict (refValue r) = some r := by
  have number := decodeInt_integer r.version
  rw [integer] at number
  rw [readItemRef, refValue, record_written (by decide) (by simp)]
  simp +decide [fieldMember_cons, fieldMember_nil, decodeText_string, number]

private theorem slice_refs (items : Option (List ItemRef)) :
    slice (readItemRef strict) (some (.ofSlice refValue items)) = some items :=
  slice_ofSlice fun _ _ r _ => readItemRef_refValue strict r

private theorem readAlternative_document {a : Alternative}
    (named : Code.ofText a.causeCode.text = a.causeCode) :
    readAlternative strict a.document = some a := by
  rw [readAlternative, Alternative.document, record_written (by decide) (by simp)]
  simp +decide [fieldMember_cons, fieldMember_nil, decodeText_string, slice_refs, named]

private theorem readCheck_document {c : Check} (named : c.kind ∈ CheckKind.named) :
    readCheck strict c.document = some c := by
  rw [readCheck, Check.document, record_written (by decide) (by simp)]
  simp +decide [fieldMember_cons, fieldMember_nil, decodeText_string, CheckKind.ofText_text named]

private theorem readUsage_document (u : ProviderTokenUsage) :
    readUsage strict u.document = some u := by
  rw [readUsage, ProviderTokenUsage.document, record_written (by decide) (by simp)]
  simp +decide [fieldMember_cons, fieldMember_nil, decodeInt_integer]

private theorem readRound_document {r : Round} (status : r.status ∈ Status.named)
    (reason : r.reason ∈ ReasonCode.named) : readRound strict r.document = some r := by
  have usage : pointer (readUsage strict)
      (some (.ofPointer ProviderTokenUsage.document r.usage)) = some r.usage :=
    pointer_ofPointer (fun u => by simp [ProviderTokenUsage.document])
      fun u _ => readUsage_document strict u
  rw [readRound, Round.document, record_written (by decide) (by simp)]
  simp +decide [fieldMember_cons, fieldMember_nil, decodeText_string, decodeInt_integer, usage,
    Status.ofText_text status, ReasonCode.ofText_text reason]

private theorem readConclusion_document {c : Conclusion} (named : c.Named) :
    readConclusion strict c.document = some c.returned := by
  have checks : slice (readCheck strict) (if emptySlice c.requestedChecks then none else
      some (.ofSlice Check.document c.requestedChecks)) = some (returnedSlice c.requestedChecks) :=
    slice_omitempty fun l some k inside =>
      readCheck_document strict (named.checks l some k inside)
  have others : slice (readAlternative strict)
      (some (.ofSlice Alternative.document c.alternatives)) = some c.alternatives :=
    slice_ofSlice fun l some a inside =>
      readAlternative_document strict (named.alternatives l some a inside)
  rw [readConclusion, Conclusion.document, record_written (by decide)]
  · simp +decide [fieldMember_append, fieldMember_omitempty, fieldMember_cons, fieldMember_nil,
      decodeText_string, checks, slice_refs, others, named.cause, Conclusion.returned]
  · rw [map_append]
    exact (omitempty_keys _ _ _).append (.refl _)

private theorem readAssessment_document {a : Assessment} (status : a.status ∈ Status.named)
    (reason : a.reasonCode ∈ ReasonCode.named) (named : a.conclusion.Named) :
    readAssessment strict a.document = some { a with conclusion := a.conclusion.returned } := by
  rw [readAssessment, Assessment.document, record_written (by decide) (by simp)]
  simp +decide [fieldMember_cons, fieldMember_nil, decodeText_string,
    readConclusion_document strict named, Status.ofText_text status, ReasonCode.ofText_text reason]

theorem readRunResult_document {r : RunResult} (named : r.Named) :
    readRunResult strict r.document = some r.returned := by
  have rounds : slice (readRound strict) (if emptySlice r.rounds then none else
      some (.ofSlice Round.document r.rounds)) = some (returnedSlice r.rounds) :=
    slice_omitempty fun l some k inside => readRound_document strict
      (named.rounds l some k inside).1 (named.rounds l some k inside).2
  have versions : slice (readItemRef strict) (if emptySlice r.knowledgeVersions then none else
      some (.ofSlice refValue r.knowledgeVersions)) = some (returnedSlice r.knowledgeVersions) :=
    slice_omitempty fun _ _ k _ => readItemRef_refValue strict k
  have environment : decodeInt (if r.environmentVersion = 0 then none else
      some (integer r.environmentVersion)) = some r.environmentVersion := by
    by_cases zero : r.environmentVersion = 0
    · rw [if_pos zero, zero]
      rfl
    · rw [if_neg zero, decodeInt_integer]
  rw [readRunResult, RunResult.document, RunResult.members, record_written (by decide)]
  · simp +decide [fieldMember_append, fieldMember_omitempty, fieldMember_cons, fieldMember_nil,
      decodeText_string, rounds, versions, environment, RunResult.returned,
      readAssessment_document strict named.status named.reason named.conclusion]
  · simp only [map_append]
    exact (((omitempty_keys _ _ _).append (omitempty_keys _ _ _)).append
      (omitempty_keys _ _ _)).append (.refl _)

end Codec

end Sre.Investigation
