/- GID: Sre/Incident/Records
   digest: Incidents, agents, bootstraps, action plans with their digest, and guidance records. -/

import Sre.Privacy

set_option autoImplicit false

namespace Sre.Incident

open Foundation.Json Identity Privacy

inductive IncidentState where
  | open
  | investigating
  | needsEvidence
  | inconclusive
  | corroborated
  | mitigated
  | recovered
  | resolved
  | closed
  deriving DecidableEq

structure IncidentRow where
  id : Text
  version : ℤ
  state : IncidentState
  openedAt : Time

/-- Roles that have an audience, and the names that have none. -/
inductive AgentRole where
  | collector
  | executor
  | unknown (name : Text)
  deriving DecidableEq

structure Agent where
  scope : Scope
  id : Text
  role : AgentRole
  audience : Text
  epoch : Text
  generation : ℤ
  clusterUID : Text
  expiresAt : Time
  revoked : Bool

structure AgentBootstrap where
  agent : Agent
  tokenHash : Text
  expiresAt : Time

inductive ActionKind where
  | replacePod
  | unsupported (name : Text)
  deriving DecidableEq

def ActionKind.text : ActionKind → Text
  | .replacePod => "REPLACE_POD"
  | .unsupported name => name

structure ActionPlan where
  scope : Scope
  id : Text
  incidentID : Text
  kind : ActionKind
  evidence : ItemRef
  evidenceHash : Text
  resourceHandle : Text
  targetCommitment : Text
  sourceAgentID : Text
  sourceGeneration : ℤ
  executorID : Text
  executorGeneration : ℤ
  epoch : Text
  policyVersion : Text
  expiresAt : Time

def ActionPlan.document (p : ActionPlan) (expiresAt : Text) : Value :=
  .obj [("scope", scopeValue p.scope), ("id", string p.id),
    ("incident_id", string p.incidentID), ("kind", string p.kind.text),
    ("evidence", refValue p.evidence), ("evidence_hash", string p.evidenceHash),
    ("resource_handle", string p.resourceHandle),
    ("target_commitment", string p.targetCommitment),
    ("source_agent_id", string p.sourceAgentID),
    ("source_generation", .num (intNumeral p.sourceGeneration)),
    ("executor_id", string p.executorID),
    ("executor_generation", .num (intNumeral p.executorGeneration)),
    ("epoch", string p.epoch), ("policy_version", string p.policyVersion),
    ("expires_at", .str expiresAt)]

/-- The digest of the plan's JSON text; a plan that cannot be marshalled is
hashed as the empty text. -/
def ActionPlan.hash [Platform] (p : ActionPlan) : Text :=
  match Platform.timeText p.expiresAt with
  | none => Platform.sha256 []
  | some expiresAt => Platform.sha256 (render goStyle (p.document expiresAt))

inductive ActionState where
  | proposed
  | approved
  | submitted
  | applied
  | failed
  | ambiguous
  | cancelled
  deriving DecidableEq

def ActionState.text : ActionState → Text
  | .proposed => "PROPOSED"
  | .approved => "APPROVED"
  | .submitted => "SUBMITTED"
  | .applied => "APPLIED"
  | .failed => "FAILED"
  | .ambiguous => "AMBIGUOUS"
  | .cancelled => "CANCELLED"

inductive Outcome where
  | applied
  | preconditionFailed
  | denied
  | ambiguous
  deriving DecidableEq

/-- An empty outcome code is `none`. -/
structure Action where
  plan : ActionPlan
  hash : Text
  version : ℤ
  state : ActionState
  proposedBy : Text
  approvedBy : Text
  approvalExpiresAt : Time
  createdAt : Time
  submittedAt : Time
  completedAt : Time
  outcomeCode : Option Outcome
  reconciledBy : Text

def Action.reconciled (a : Action) : Bool :=
  decide (a.state = .ambiguous ∧ a.outcomeCode = some .ambiguous ∧ a.reconciledBy ≠ [])

inductive CaseState where
  | candidate
  | active
  | retired
  deriving DecidableEq

structure KnowledgeEvaluation where
  version : Text
  baselineCases : ℤ
  heldoutCases : ℤ
  passed : ℤ
  approved : Bool

structure GoldenCase where
  id : Text
  version : ℤ
  state : CaseState
  incidentID : Text
  claim : ItemRef
  claimHash : Text
  recoveryID : Text
  causeCode : Code
  createdBy : Text
  reviewedBy : Text
  createdAt : Time
  publishedAt : Time
  evaluation : KnowledgeEvaluation

inductive RecoveryStatus where
  | recovered
  | notRecovered
  | unknown
  deriving DecidableEq

def RecoveryStatus.text : RecoveryStatus → Text
  | .recovered => "RECOVERED"
  | .notRecovered => "NOT_RECOVERED"
  | .unknown => "UNKNOWN"

inductive RecoveryReason where
  | missingObservations
  | staleObservations
  | observationGap
  | incompleteCoverage
  | sourceChanged
  | healthRequirementFailed
  | sustainedObservedHealth
  | windowIncomplete
  | sourceNotEligible
  | disputedHealthEvidence
  deriving DecidableEq

structure RecoveryAssessment where
  id : Text
  incidentID : Text
  profileID : Text
  profileVersion : ℤ
  status : RecoveryStatus
  reason : RecoveryReason
  evidence : List ItemRef
  assessedAt : Time

structure RecoveryProfile where
  id : Text
  version : ℤ
  handles : List Text
  windowSeconds : ℤ
  maximumGapSeconds : ℤ
  minimumSamples : ℤ
  minimumReadyReplicas : ℤ

/-- How much of the cluster a scan could see. -/
inductive Coverage where
  | complete
  | partially
  | unavailable
  | unknown (text : Text)
  deriving DecidableEq

def Coverage.text : Coverage → Text
  | .complete => "COMPLETE"
  | .partially => "PARTIAL"
  | .unavailable => "UNAVAILABLE"
  | .unknown text => text

def Coverage.known : Coverage → Bool
  | .unknown _ => false
  | _ => true

structure HealthSample where
  incidentID : Text
  evidence : ItemRef
  handle : Text
  uid : Text
  agentID : Text
  generation : ℤ
  epoch : Text
  coverage : Coverage
  healthy : Bool
  readyReplicas : ℤ
  sampledAt : Time
  deriving DecidableEq

inductive CheckKind where
  | refreshResourceState
  | refreshDependencies
  | unknown (text : Text)
  deriving DecidableEq

def CheckKind.text : CheckKind → Text
  | .refreshResourceState => "REFRESH_RESOURCE_STATE"
  | .refreshDependencies => "REFRESH_DEPENDENCIES"
  | .unknown text => text

def CheckKind.named : List CheckKind := [.refreshResourceState, .refreshDependencies]

def CheckKind.ofText (s : Text) : CheckKind :=
  (CheckKind.named.find? fun kind => kind.text = s).getD (.unknown s)

theorem CheckKind.ofText_text {k : CheckKind} (known : k ∈ CheckKind.named) :
    ofText k.text = k := by
  revert k
  decide

structure CollectionCheck where
  id : Text
  incidentID : Text
  agentID : Text
  generation : ℤ
  handle : Text
  kind : CheckKind
  createdAt : Time
  expiresAt : Time

inductive JobState where
  | queued
  | running
  | completed
  | cancelled
  | failed
  deriving DecidableEq

def JobState.active : JobState → Bool
  | .queued | .running => true
  | _ => false

structure DiagnosticJob where
  id : Text
  incidentID : Text
  profileID : Text
  actorID : Text
  state : JobState
  createdAt : Time
  expiresAt : Time
  result : Option ItemRef

inductive AdjudicationReason where
  | confirmed
  | factualError
  | notApplicable
  | stale
  | unresolved
  | unknown (text : Text)
  deriving DecidableEq

structure Adjudication where
  id : Text
  incidentID : Text
  item : ItemRef
  itemHash : Text
  feedbackID : Text
  actorID : Text
  reason : AdjudicationReason
  correctionEvidence : List ItemRef
  requestHash : Text
  idempotencyKey : Text
  decidedAt : Time

/-- What modelled code reads of a scope's environment. -/
structure EnvironmentContext where
  version : ℤ

inductive Question where
  | changeContext
  | impact
  | continueDiagnosis
  | unknown (text : Text)
  deriving DecidableEq

def Question.text : Question → Text
  | .changeContext => "CHANGE_CONTEXT"
  | .impact => "IMPACT"
  | .continueDiagnosis => "CONTINUE_DIAGNOSIS"
  | .unknown text => text

/-- The closed answers of a clarification. -/
def Question.options : Question → List Text
  | .changeContext => ["RECENT_CHANGE", "NO_KNOWN_CHANGE", "UNKNOWN"]
  | .impact => ["USER_VISIBLE", "INTERNAL_ONLY", "UNKNOWN"]
  | .continueDiagnosis => ["CONTINUE", "STOP", "UNKNOWN"]
  | .unknown _ => []

/-- The projection of an answer that a provider may see. -/
structure InteractionContext where
  question : Question
  answer : Text
  deriving DecidableEq

def IncidentState.active : IncidentState → Bool
  | .closed | .resolved => false
  | _ => true

end Sre.Incident
