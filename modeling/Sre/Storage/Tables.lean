/- GID: Sre/Storage/Tables
   digest: The tables of one scope, a transaction over them, and the outbox. -/

import Sre.Incident.Records

set_option autoImplicit false

namespace Sre.Storage

open Foundation.Json Foundation.Outcome Identity Incident List

structure ItemRow where
  incidentID : Text
  id : Text
  version : ℤ
  kind : ItemKind
  envelope : Value
  hash : Text
  observedAt : Time
  validUntil : Time

def ItemRow.ref (r : ItemRow) : ItemRef := ⟨r.id, r.version⟩

/-- A row of `item_parents` or of `historical_dependencies`. -/
structure Dependency where
  child : ItemRef
  parent : ItemRef
  deriving DecidableEq

structure EligibilityRow where
  item : ItemRef
  quarantined : Bool
  deriving DecidableEq

structure FeedbackRow where
  id : Text
  actorID : Text
  idempotencyKey : Text
  item : ItemRef
  requestHash : Text

structure AgentRow where
  id : Text
  role : AgentRole
  audience : Text
  epoch : Text
  generation : ℤ
  clusterUID : Text
  tokenHash : Text
  expiresAt : Time
  revoked : Bool

structure BootstrapRow where
  tokenHash : Text
  agentID : Text
  role : AgentRole
  audience : Text
  epoch : Text
  clusterUID : Text
  expiresAt : Time
  consumed : Bool

structure RevocationRow where
  agentID : Text
  epoch : Text
  throughGeneration : ℤ
  deriving DecidableEq

/-- The version and state columns repeat what the envelope says. -/
structure ActionRow where
  id : Text
  incidentID : Text
  version : ℤ
  state : ActionState
  envelope : Action
  receiptHash : Text

structure ActionEvent where
  actionID : Text
  version : ℤ
  envelope : Action

inductive EventKind where
  | actionUpdated
  | feedbackRecorded
  | collectorReport
  | incidentCreated
  | investigationRecorded
  | claimCorroborated
  | adjudicationRecorded
  | knowledgePublished
  | recoveryChanged
  | recoveryAssessed
  | clarificationRequested
  | clarificationAnswered
  | notificationAcknowledged
  deriving DecidableEq

structure OutboxRow where
  id : Text
  eventKey : Text
  kind : EventKind
  payload : Value
  createdAt : Time

/-- The columns that a claim of a job sets together. -/
structure JobHolder where
  agentID : Text
  generation : ℤ
  epoch : Text
  attemptID : Text
  deriving DecidableEq

structure JobRow where
  job : DiagnosticJob
  authority : Text
  holder : Option JobHolder
  leaseUntil : Option Time
  input : Option Value
  refreshCount : ℤ

inductive RunStatus where
  | queued
  | running
  | cancelled
  | interrupted
  | assessed (status : Text)
  deriving DecidableEq

def RunStatus.active : RunStatus → Bool
  | .queued | .running => true
  | _ => false

structure RunRow where
  id : Text
  incidentID : Text
  profileID : Text
  profileVersion : Text
  promptVersion : Text
  rubricVersion : Text
  status : RunStatus
  reason : Text
  startedAt : Time
  finishedAt : Option Time
  claim : Option ItemRef

inductive NotificationState where
  | pending
  | sending
  | delivered
  | failed
  deriving DecidableEq

structure NotificationRow where
  id : Text
  eventID : Text
  routeID : Text
  kind : EventKind
  incidentID : Text
  state : NotificationState
  attempts : ℤ
  createdAt : Time
  deliveredAt : Option Time
  acknowledgedBy : Text
  lease : Text
  leaseUntil : Option Time
  nextAttemptAt : Time
  deriving DecidableEq

structure RouteRow where
  id : Text
  registeredAt : Time

/-- The newest coverage that an agent reported. -/
structure CoverageRow where
  agentID : Text
  generation : ℤ
  epoch : Text
  observedAt : Time
  coverage : Coverage

structure CheckRow where
  check : CollectionCheck
  fulfilledAt : Option Time

/-- A clarification; an open one has no answer. -/
structure InteractionRow where
  id : Text
  incidentID : Text
  jobID : Text
  question : Question
  version : ℤ
  expiresAt : Time
  createdBy : Text
  answered : Bool
  answer : Text
  actorID : Text
  answeredAt : Option Time

/-- The rows of one scope. -/
structure Tables where
  incidents : List IncidentRow
  items : List ItemRow
  itemParents : List Dependency
  historicalDependencies : List Dependency
  itemEligibility : List EligibilityRow
  feedback : List FeedbackRow
  goldenCases : List GoldenCase
  recoveryAssessments : List RecoveryAssessment
  agents : List AgentRow
  agentBootstraps : List BootstrapRow
  agentRevocations : List RevocationRow
  actions : List ActionRow
  actionEvents : List ActionEvent
  outbox : List OutboxRow
  recoveryProfiles : List RecoveryProfile
  healthSamples : List HealthSample
  collectionCoverage : List CoverageRow
  collectionChecks : List CheckRow
  adjudications : List Adjudication
  diagnosticJobs : List JobRow
  investigationRuns : List RunRow
  notifications : List NotificationRow
  notificationRoutes : List RouteRow
  environmentContexts : List EnvironmentContext
  interactions : List InteractionRow

def Tables.empty : Tables :=
  ⟨[], [], [], [], [], [], [], [], [], [], [], [], [], [], [], [], [], [], [], [], [], [], [],
    [], []⟩

inductive Table where
  | incidents
  | items
  | itemParents
  | historicalDependencies
  | itemEligibility
  | feedback
  | goldenCases
  | recoveryAssessments
  | agents
  | agentBootstraps
  | agentRevocations
  | actions
  | actionEvents
  | outbox
  | recoveryProfiles
  | healthSamples
  | collectionCoverage
  | collectionChecks
  | adjudications
  | diagnosticJobs
  | investigationRuns
  | notifications
  | notificationRoutes
  | environmentContexts
  | interactions
  deriving DecidableEq

/-- Both states hold the same rows of one table. -/
def Table.Same (s t : Tables) : Table → Prop
  | .incidents => t.incidents = s.incidents
  | .items => t.items = s.items
  | .itemParents => t.itemParents = s.itemParents
  | .historicalDependencies => t.historicalDependencies = s.historicalDependencies
  | .itemEligibility => t.itemEligibility = s.itemEligibility
  | .feedback => t.feedback = s.feedback
  | .goldenCases => t.goldenCases = s.goldenCases
  | .recoveryAssessments => t.recoveryAssessments = s.recoveryAssessments
  | .agents => t.agents = s.agents
  | .agentBootstraps => t.agentBootstraps = s.agentBootstraps
  | .agentRevocations => t.agentRevocations = s.agentRevocations
  | .actions => t.actions = s.actions
  | .actionEvents => t.actionEvents = s.actionEvents
  | .outbox => t.outbox = s.outbox
  | .recoveryProfiles => t.recoveryProfiles = s.recoveryProfiles
  | .healthSamples => t.healthSamples = s.healthSamples
  | .collectionCoverage => t.collectionCoverage = s.collectionCoverage
  | .collectionChecks => t.collectionChecks = s.collectionChecks
  | .adjudications => t.adjudications = s.adjudications
  | .diagnosticJobs => t.diagnosticJobs = s.diagnosticJobs
  | .investigationRuns => t.investigationRuns = s.investigationRuns
  | .notifications => t.notifications = s.notifications
  | .notificationRoutes => t.notificationRoutes = s.notificationRoutes
  | .environmentContexts => t.environmentContexts = s.environmentContexts
  | .interactions => t.interactions = s.interactions

/-- A transaction bound to a scope. `now` is the database clock at its start. -/
structure Tx where
  scope : Scope
  authorityEpoch : Text
  now : Time
  tables : Tables

/-- Runs a body in the scope's transaction. The caller keeps the old tables
when an error comes back: a failed body is rolled back. -/
def transact {α : Type} (t : Tx) (body : Tx → Except Error α) : Except Error α := do
  require t.scope.validate .invalid
  body t

/-- `safeError` of a violated key, or the extended table. -/
def insertUnique {α : Type} (clash : Bool) (rows : List α) (row : α) : Except Error (List α) := do
  require (!clash) .conflict
  return rows ++ [row]

theorem transact_ok {α : Type} {t : Tx} {body : Tx → Except Error α} {a : α} :
    transact t body = .ok a ↔ t.scope.validate = true ∧ body t = .ok a := by
  simp [transact, bind_ok]

theorem insertUnique_ok {α : Type} {clash : Bool} {rows out : List α} {row : α} :
    insertUnique clash rows row = .ok out ↔ clash = false ∧ out = rows ++ [row] := by
  cases clash <;> simp [insertUnique, require, bind, Except.bind, pure, Except.pure, eq_comm]

namespace Tx

def CreateIncident (t : Tx) (i : IncidentRow) : Except Error Tx := do
  require (ValidID i.id && decide (i.version = 1 ∧ i.openedAt ≠ 0)) .invalid
  let rows ← insertUnique (t.tables.incidents.any fun r => r.id = i.id) t.tables.incidents
    { i with openedAt := timestamptz i.openedAt }
  return { t with tables := { t.tables with incidents := rows } }

def Incident (t : Tx) (id : Text) : Except Error IncidentRow := do
  require (ValidID id) .invalid
  match t.tables.incidents.find? (fun r => r.id = id) with
  | none => .error .notFound
  | some r => return r

def UpdateIncident (t : Tx) (id : Text) (expectedVersion : ℤ) (state : IncidentState) :
    Except Error Tx := do
  require (ValidID id && decide (1 ≤ expectedVersion)) .invalid
  let held (r : IncidentRow) : Bool := decide (r.id = id ∧ r.version = expectedVersion)
  require (t.tables.incidents.any held) .conflict
  return { t with tables := { t.tables with
    incidents := t.tables.incidents.map fun r =>
      if held r then { r with version := r.version + 1, state := state } else r } }

/-- Adds an event unless its key is taken; a taken key must carry the same event. -/
def EnqueueOnce (t : Tx) (id key : Text) (kind : EventKind) (payload : Text) :
    Except Error (Bool × Tx) := do
  require (ValidID key) .invalid
  match CanonicalObject payload with
  | .error _ => .error .invalid
  | .ok canonical =>
    match (parse canonical).bind jsonbIn with
    | none => .error .unavailable
    | some stored =>
      match t.tables.outbox.find? (fun r => r.eventKey = key) with
      | none =>
        let outbox ← insertUnique (t.tables.outbox.any fun r => r.id = id) t.tables.outbox
          ⟨id, key, kind, stored, t.now⟩
        return (true, { t with tables := { t.tables with outbox := outbox } })
      | some previous =>
        match CanonicalObject (render jsonbStyle previous.payload) with
        | .error _ => .error .unavailable
        | .ok previousPayload =>
          require (decide (kind = previous.kind ∧ canonical = previousPayload)) .conflict
          return (false, t)

def Enqueue (t : Tx) (id key : Text) (kind : EventKind) (payload : Text) : Except Error Tx := do
  let (_, t) ← t.EnqueueOnce id key kind payload
  return t

variable {t t' : Tx} {id key payload : Text} {kind : EventKind}

theorem CreateIncident_ok {i : IncidentRow} (ok : t.CreateIncident i = .ok t') :
    ∃ rows, t' = { t with tables := { t.tables with incidents := rows } } ∧
      t.tables.incidents ⊆ rows := by
  simp only [CreateIncident, bind_ok, require_ok, insertUnique_ok, pure_ok] at ok
  obtain ⟨-, -, rows, ⟨-, rfl⟩, rfl⟩ := ok
  exact ⟨_, rfl, subset_append_left _ _⟩

theorem CreateIncident_rows {i : IncidentRow} (ok : t.CreateIncident i = .ok t') :
    i.id ≠ [] ∧ (∀ r ∈ t.tables.incidents, r.id ≠ i.id) ∧ t'.tables.incidents =
      t.tables.incidents ++ [{ i with openedAt := timestamptz i.openedAt }] := by
  simp only [CreateIncident, bind_ok, require_ok, insertUnique_ok, pure_ok, Bool.and_eq_true] at ok
  obtain ⟨-, ⟨valid, -⟩, rows, ⟨unique, rfl⟩, rfl⟩ := ok
  refine ⟨fun empty => ?_, by simpa using unique, rfl⟩
  simp [empty, ValidID, byteSize] at valid

theorem Incident_ok {r : IncidentRow} (ok : t.Incident id = .ok r) :
    r ∈ t.tables.incidents ∧ r.id = id := by
  simp only [Incident, bind_ok] at ok
  obtain ⟨-, -, rest⟩ := ok
  split at rest
  · simp at rest
  · rename_i row found
    rw [← pure_ok.mp rest]
    exact ⟨mem_of_find?_eq_some found, by simpa using find?_some found⟩

theorem UpdateIncident_rows {version : ℤ} {state : IncidentState}
    (ok : t.UpdateIncident id version state = .ok t') :
    t'.tables.incidents = t.tables.incidents.map fun r =>
      if r.id = id ∧ r.version = version then { r with version := r.version + 1, state := state }
      else r := by
  simp only [UpdateIncident, bind_ok, require_ok, pure_ok] at ok
  obtain ⟨-, -, -, -, rfl⟩ := ok
  simp only [decide_eq_true_eq]

theorem UpdateIncident_ok {version : ℤ} {state : IncidentState}
    (ok : t.UpdateIncident id version state = .ok t') :
    ∃ rows, t' = { t with tables := { t.tables with incidents := rows } } ∧
      rows.map IncidentRow.id = t.tables.incidents.map IncidentRow.id := by
  simp only [UpdateIncident, bind_ok, require_ok, pure_ok] at ok
  obtain ⟨-, -, -, -, rfl⟩ := ok
  refine ⟨_, rfl, ?_⟩
  rw [map_map]
  refine map_congr_left fun r _ => ?_
  simp only [Function.comp_apply]
  split <;> rfl

/-- An event is appended under a free key, or the key is found taken by an event of
the same kind. -/
theorem EnqueueOnce_ok {added : Bool} (ok : t.EnqueueOnce id key kind payload = .ok (added, t')) :
    (added = false ∧ t' = t ∧ ∃ r ∈ t.tables.outbox, r.eventKey = key ∧ r.kind = kind) ∨
    (added = true ∧ (∀ r ∈ t.tables.outbox, r.eventKey ≠ key ∧ r.id ≠ id) ∧
      ∃ canonical v stored, CanonicalObject payload = .ok canonical ∧ parse canonical = some v ∧
        jsonbIn v = some stored ∧
        t' = { t with tables := { t.tables with
          outbox := t.tables.outbox ++ [⟨id, key, kind, stored, t.now⟩] } }) := by
  simp only [EnqueueOnce, bind_ok, require_ok] at ok
  obtain ⟨-, -, rest⟩ := ok
  cases canonicalised : CanonicalObject payload with
  | error e => simp [canonicalised] at rest
  | ok canonical =>
    simp only [canonicalised] at rest
    cases stored : (parse canonical).bind jsonbIn with
    | none => simp [stored] at rest
    | some value =>
      simp only [stored] at rest
      cases taken : t.tables.outbox.find? (fun r => decide (r.eventKey = key)) with
      | none =>
        simp only [taken, bind_ok, insertUnique_ok, pure_ok, Prod.mk.injEq] at rest
        obtain ⟨rows, ⟨unique, rfl⟩, rfl, rfl⟩ := rest
        obtain ⟨v, parsed, fits⟩ := Option.bind_eq_some_iff.mp stored
        refine Or.inr ⟨rfl, fun r member => ⟨?_, ?_⟩, canonical, v, value, rfl, parsed, fits, rfl⟩
        · simpa using find?_eq_none.mp taken r member
        · simp only [any_eq_false, decide_eq_true_eq] at unique
          exact unique r member
      | some previous =>
        simp only [taken] at rest
        cases again : CanonicalObject (render jsonbStyle previous.payload) with
        | error e => simp [again] at rest
        | ok text =>
          simp only [again, bind_ok, require_ok, pure_ok, Prod.mk.injEq, decide_eq_true_eq] at rest
          obtain ⟨-, ⟨kind, -⟩, rfl, rfl⟩ := rest
          exact Or.inl ⟨rfl, rfl, previous, mem_of_find?_eq_some taken,
            by simpa using find?_some taken, kind.symm⟩

theorem Enqueue_once (ok : t.Enqueue id key kind payload = .ok t') :
    ∃ added, t.EnqueueOnce id key kind payload = .ok (added, t') := by
  simp only [Enqueue, bind_ok] at ok
  obtain ⟨⟨added, u⟩, once, last⟩ := ok
  have same : u = t' := pure_ok.mp last
  exact ⟨added, same ▸ once⟩

theorem Enqueue_ok (ok : t.Enqueue id key kind payload = .ok t') :
    (t' = t ∧ ∃ r ∈ t.tables.outbox, r.eventKey = key ∧ r.kind = kind) ∨
    ∃ canonical v stored, CanonicalObject payload = .ok canonical ∧ parse canonical = some v ∧
      jsonbIn v = some stored ∧
      t' = { t with tables := { t.tables with
        outbox := t.tables.outbox ++ [⟨id, key, kind, stored, t.now⟩] } } := by
  obtain ⟨added, once⟩ := Enqueue_once ok
  rcases EnqueueOnce_ok once with ⟨-, same, found⟩ | ⟨-, -, fresh⟩
  · exact Or.inl ⟨same, found⟩
  · exact Or.inr fresh

end Tx

/-- A JSON object with string members, as `json.Marshal` prints a string map. -/
def stringMap (members : List (Text × Text)) : Text :=
  render goStyle ((Value.obj (members.map fun m => (m.1, string m.2))).sortKeys goOrder)

end Sre.Storage
