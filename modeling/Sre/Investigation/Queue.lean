/- GID: Sre/Investigation/Queue
   digest: The queue of diagnoses that agents claim, refresh and complete, and the in-process run. -/

import Sre.Knowledge
import Sre.Investigation.Rounds
import Sre.Storage.Diagnostics
import Sre.Interaction
import Sre.Storage.Frame

set_option autoImplicit false

namespace Sre.Authorization

open Foundation.Outcome Identity

/-- Encryption of principals under the grant key. The scope, the permission and the
version of the policy are authenticated with the principal. -/
structure Cipher where
  encrypt : Scope → Permission → Text → Text → Principal → Text
  decrypt : Scope → Permission → Text → Text → Option Principal

def SealPrincipal (policy : Policy) (cipher : Cipher) (now : Time) (nonce : Text) (p : Principal)
    (scope : Scope) (permission : Permission) : Except Error Text := do
  policy.authorize p scope permission now
  return cipher.encrypt scope permission policy.version nonce p

def OpenPrincipal (policy : Policy) (cipher : Cipher) (now : Time) (token : Text) (scope : Scope)
    (permission : Permission) : Except Error Principal := do
  require (scope.validate && decide (byteSize token ≤ 65536)) .forbidden
  match cipher.decrypt scope permission policy.version token with
  | none => .error .forbidden
  | some p => do
    policy.authorize p scope permission now
    return p

end Sre.Authorization

namespace Sre.Investigation

open Foundation.Json Foundation.Outcome Identity Authorization Incident Privacy Storage

def PrivacyVersion : Text := "strict-projection/v1"

abbrev State := Snapshot EnvironmentContext InteractionContext

/-- The metadata of the provider is left out: the orchestrator does not read it. -/
structure AgentInput where
  scope : Scope
  jobID : Text
  incidentID : Text
  profileID : Text
  profileVersion : Text
  snapshot : State
  guidance : List GoldenCase

structure Profile where
  id : Text
  version : Text
  scopes : List Scope

/-- The document that `encoding/json` makes of an input, and its reader. -/
structure InputCodec where
  document : AgentInput → Option Value
  read : Value → Option AgentInput

structure Service where
  policy : Policy
  cipher : Cipher
  codec : InputCodec
  authorityEpoch : Text
  profiles : List Profile

/-- The profile, if it exists and allows the scope. -/
def Service.allowed (s : Service) (id : Text) (scope : Scope) : Option Profile :=
  (s.profiles.find? fun p => p.id = id).filter fun p => decide (scope ∈ p.scopes)

/-- Identifiers drawn by a completion: the claim, a clarification, and the outbox rows of
the two events. -/
structure CompleteIDs where
  claim : Text
  interaction : Text
  asked : Text
  recorded : Text

/-- What a job may do is what its engineer may still do. -/
def Service.authority (s : Service) (now : Time) (token : Text) (scope : Scope) :
    Except Error Principal :=
  OpenPrincipal s.policy s.cipher now token scope .investigate

section Jobs

/-- `jobID` and `nonce` are generated. An active job of the incident is returned again. -/
def Enqueue (s : Service) (t : Tx) (now : Time) (p : Principal) (incidentID profileID jobID nonce : Text) :
    Except Error (DiagnosticJob × Tx) := do
  s.policy.authorize p t.scope .investigate now
  match s.allowed profileID t.scope with
  | none => .error .invalid
  | some profile => do
    let authority ← SealPrincipal s.policy s.cipher now nonce p t.scope .investigate
    let job : DiagnosticJob := ⟨jobID, incidentID, profileID, p.id, .queued, now,
      min p.expiresAt (now + 10 * minute), none⟩
    transact t fun t =>
      match t.ActiveDiagnosticJob incidentID with
      | .ok old => do
        require (decide (old.profileID = profileID)) .conflict
        return (old, t)
      | .error .notFound => do
        let t ← t.PutDiagnosticJob job authority
        let t ← t.StartRun jobID incidentID profileID profile.version PromptVersion
          RubricVersion now
        return (job, t.QueueRun jobID)
      | .error e => .error e

def Cancel (s : Service) (t : Tx) (now : Time) (p : Principal) (id : Text) : Except Error Tx := do
  s.policy.authorize p t.scope .investigate now
  transact t fun t => do
    let j ← t.DiagnosticJob id
    require j.state.active .conflict
    let t ← t.FinishDiagnosticJob id .cancelled none
    t.FinishRun id .cancelled "ENGINEER_CANCELLED" none

end Jobs

section Runs

/-- A run of the orchestrator itself, with what it read before its last transaction. -/
structure RunWork where
  runID : Text
  incidentID : Text
  profile : Profile
  state : State
  guidance : List GoldenCase
  engine : Engine EnvironmentContext InteractionContext

def RunWork.outcome (w : RunWork) : Except Error (Assessment × Option (List Round) × State) :=
  if w.state.evidence = [] then
    .ok (abstain .needsEvidence .noCurrentEligibleEvidence, none, w.state)
  else do
    let (assessment, rounds, next) ←
      ExecuteRounds EnvironmentContext.version w.engine w.guidance w.state
    return (assessment, some rounds, next)

theorem RunWork.outcome_open {w : RunWork} {a : Assessment}
    {rounds : Option (List Round)} {next : State} (ok : w.outcome = .ok (a, rounds, next)) :
    a.status ∈ [Status.hypothesis, .inconclusive, .needsEvidence] := by
  unfold RunWork.outcome at ok
  split at ok
  · obtain ⟨rfl, -⟩ := Prod.mk.inj (Except.ok.inj ok)
    decide
  · simp only [bind_ok] at ok
    obtain ⟨⟨b, recorded, final⟩, executed, rfl, -⟩ := ok
    exact (ExecuteRounds_settled executed).2.2.named.1

/-- The first transaction of `Run`, under the generated identifier of the run. -/
def startRun (s : Service) (t : Tx) (now : Time) (p : Principal)
    (runID incidentID profileID : Text) : Except Error Tx := do
  s.policy.authorize p t.scope .investigate now
  require (ValidID incidentID) .invalid
  match s.allowed profileID t.scope with
  | none => .error .invalid
  | some profile =>
    transact t fun t => t.StartRun runID incidentID profile.id profile.version PromptVersion RubricVersion now

def interruptRun (t : Tx) (runID : Text) : Except Error Tx :=
  transact t fun t => t.FinishRun runID .interrupted "RESULT_NOT_COMMITTED" none

end Runs

variable [Platform]

/-- The eligible current evidence that holds now. -/
def currentRefs (t : Tx) (now : Time) : List Item → List ItemRef → Except Error (List ItemRef)
  | [], found => .ok found
  | item :: items, found => do
    let eligible ← t.Eligible item.ref now
    if eligible = false then currentRefs t now items found
    else
      match strictDecode item.body with
      | none => .error .invalid
      | some o => do
        require o.validate .invalid
        if now < o.observedAt ∨ o.validUntil ≤ now ∨ item.ref ∈ found then
          currentRefs t now items found
        else currentRefs t now items (found ++ [item.ref])

/-- Evidence of the input is still current, eligible, and from a present credential. -/
def checkEvidence (s : Service) (t : Tx) (now : Time) (byRef : List ItemRef)
    (e : EvidenceSnapshot) : Except Error Unit := do
  require (decide (e.ref ∈ byRef)) .conflict
  let eligible ← t.Eligible e.ref now
  require eligible .conflict
  match e.observation.source with
  | none => require (decide (s.authorityEpoch = [])) .conflict
  | some source => do
    let a ← t.AgentByID source.agentID
    require (decide (a.role = .collector ∧ a.revoked = false ∧ a.generation = source.generation ∧
      a.epoch = source.epoch ∧ now < a.expiresAt ∧
      (s.authorityEpoch = [] ∨ a.epoch = s.authorityEpoch))) .conflict

def checkEnvironment (t : Tx) (environment : Option EnvironmentContext) : Except Error Unit :=
  match environment, t.EnvironmentContext with
  | none, .ok _ => .error .conflict
  | none, .error .notFound => .ok ()
  | none, .error e => .error e
  | some _, .error e => .error e
  | some old, .ok current => require (decide (current.version = old.version)) .conflict

def checkGuidance (t : Tx) (g : GoldenCase) : Except Error Unit := do
  let ok ← Knowledge.PublishedEligibleTx t g
  require ok .conflict

/-- `clock` is the reading of the query for the clarifications. -/
def validateAgentSnapshot (s : Service) (t : Tx) (input : AgentInput) (now clock : Time) :
    Except Error Unit := do
  match s.allowed input.profileID input.scope with
  | none => .error .conflict
  | some profile => do
    require (decide (profile.version = input.profileVersion ∧ now < input.snapshot.validUntil))
      .conflict
    let current ← t.CurrentEvidence input.incidentID now 100
    let byRef ← currentRefs t now current []
    require (decide (byRef.length = input.snapshot.evidence.length)) .conflict
    input.snapshot.evidence.forM (checkEvidence s t now byRef)
    let clarifications ← t.InteractionContext input.incidentID clock
    require (decide (clarifications = input.snapshot.clarifications)) .conflict
    checkEnvironment t input.snapshot.environment
    input.guidance.forM (checkGuidance t)

section Agents

variable (fleet : Fleet.Service) (s : Service) (t : Tx) (now : Time) (token : Text)

/-- The first transaction of `ClaimAgent`. -/
def claimDiagnostic (profiles : List Text) (attempt : Text) (clock : ClaimClock) :
    Except Error (DiagnosticLease × Tx) :=
  transact t fun t => do
    let a ← fleet.AuthenticateTx t now token .collector
    t.ClaimAgentDiagnostic a profiles attempt clock

/-- What every later transaction of an attempt begins with. -/
def attemptLease (t : Tx) (id attempt : Text) (renew : Bool) (renewal reading : Time) :
    Except Error (Agent × DiagnosticLease × Tx) := do
  let a ← fleet.AuthenticateTx t now token .collector
  let (l, t) ← t.AgentDiagnostic id attempt a renew renewal reading
  let _ ← s.authority now l.authority t.scope
  return (a, l, t)

/-- The second transaction of `ClaimAgent`; `input` was gathered since the first. -/
def startDiagnostic (attempt : Text) (input : AgentInput) (clock : ℕ → Time) : Except Error Tx :=
  match s.codec.document input with
  | none => .error .invalid
  | some document => do
    require (decide (byteSize (render goStyle document) ≤ 60000)) .invalid
    transact t fun t => do
      let (_, _, t) ← attemptLease fleet s now token t input.jobID attempt false (clock 0) (clock 0)
      validateAgentSnapshot s t input now (clock 1)
      let t ← t.StartAgentDiagnostic input.jobID input.profileVersion PromptVersion RubricVersion
      t.SetDiagnosticInput input.jobID attempt (render goStyle document) false (clock 2)

def HeartbeatAgent (id attempt : Text) (clock : ℕ → Time) : Except Error (Time × Tx) :=
  transact t fun t => do
    let (_, l, t) ← attemptLease fleet s now token t id attempt true (clock 0) (clock 1)
    return (l.leaseUntil, t)

/-- The stored input of a lease. -/
def leaseInput (l : DiagnosticLease) : Option AgentInput :=
  l.input.bind fun v => strictDecodeAs s.codec.read (render jsonbStyle v)

/-- A check names a resource that the agent itself observed. -/
def checkAllowed (a : Agent) (evidence : List EvidenceSnapshot) (check : Check) : Bool :=
  decide (check.kind = .refreshResourceState ∨ check.kind = .refreshDependencies) &&
    ValidHandle check.resourceHandle &&
    evidence.any fun e => decide (e.observation.resourceHandle = check.resourceHandle) &&
      (match e.observation.source with
        | none => false
        | some source => decide (source.agentID = a.id ∧ source.generation = a.generation))

/-- The first transaction of `RefreshAgent` takes one of the grants before any waiting. -/
def reserveRefresh (id attempt : Text) (checks : List Check) (clock : ℕ → Time) :
    Except Error (AgentInput × Tx) :=
  transact t fun t => do
    let (a, l, t) ← attemptLease fleet s now token t id attempt false (clock 0) (clock 0)
    require (decide (l.refreshCount < 2 ∧ checks ≠ [] ∧ checks.length ≤ 2)) .invalid
    match leaseInput s l with
    | none => .error .invalid
    | some input => do
      require (checks.all (checkAllowed a input.snapshot.evidence)) .invalid
      validateAgentSnapshot s t input now (clock 1)
      let t ← t.SetDiagnosticInput id attempt (render jsonbStyle (l.input.getD .null)) true
        (clock 2)
      return (input, t)

/-- The last transaction of `RefreshAgent` stores the input with the new snapshot. -/
def storeRefresh (attempt : Text) (input : AgentInput) (clock : ℕ → Time) : Except Error Tx :=
  transact t fun t => do
    let (_, _, t) ← attemptLease fleet s now token t input.jobID attempt false (clock 0) (clock 0)
    validateAgentSnapshot s t input now (clock 1)
    t.SetDiagnosticInput input.jobID attempt
      (match s.codec.document input with | none => [] | some v => render goStyle v) false (clock 2)

end Agents

/-- One check per identifier, addressed to the first source that knows the resource. -/
def requestCheck (incidentID : Text) (now : Time) (evidence : List EvidenceSnapshot) (t : Tx)
    (request : Check × Text) : Except Error Tx :=
  match evidence.find? (fun e =>
      decide (e.observation.resourceHandle = request.1.resourceHandle) &&
        e.observation.source.isSome) with
  | none => .error .notFound
  | some e =>
    match e.observation.source with
    | none => .error .notFound
    | some source => do
      let eligible ← t.Eligible e.ref now
      require eligible .conflict
      t.PutCollectionCheck ⟨request.2, incidentID, source.agentID, source.generation,
        request.1.resourceHandle, request.1.kind, now, now + 12 * second⟩

def collectChecks (t : Tx) (now : Time) (incidentID : Text) (checks : List (Check × Text))
    (evidence : List EvidenceSnapshot) : Except Error Tx :=
  transact t fun t => checks.foldlM (requestCheck incidentID now evidence) t

/-- Bounds of the telemetry of a round. -/
def roundOk (r : Round) : Bool :=
  decide (0 ≤ r.providerLatencyMS ∧ r.providerLatencyMS ≤ 90000 ∧ 0 ≤ r.evidenceCount ∧
    r.evidenceCount ≤ 64 ∧ 0 ≤ r.checksRequested ∧ r.checksRequested ≤ 2) &&
    (match r.usage with
      | none => true
      | some u => decide (0 ≤ u.inputTokens ∧ 0 ≤ u.outputTokens ∧ 0 ≤ u.totalTokens ∧
          u.inputTokens ≤ 1000000000 ∧ u.outputTokens ≤ 1000000000 ∧ u.totalTokens ≤ 1000000000))

def appended {α : Type} (l : List α) : Option (List α) := if l = [] then none else some l

def guidanceVersions (guidance : List GoldenCase) : Option (List ItemRef) :=
  appended (guidance.map fun g => ⟨g.id, g.version⟩)

def environmentVersion (state : State) : ℤ :=
  match state.environment with
  | none => 0
  | some c => c.version

/-- What is stored of a submitted result: its assessment is the orchestrator's own. -/
def completedResult (id : Text) (input : AgentInput) (submitted : RunResult) (a : Assessment) :
    RunResult :=
  ⟨appended ((submitted.rounds.getD []).zipIdx.map fun (r, i) =>
      { r with number := i + 1, status := a.status, reason := a.reasonCode }),
    guidanceVersions input.guidance, environmentVersion input.snapshot, id, input.profileID,
    input.profileVersion, PrivacyVersion, PromptVersion, RubricVersion, a⟩

/-- The claim of a diagnosis, before it is sealed. -/
def claimOf (scope : Scope) (incidentID id : Text) (result : RunResult) (observedAt : Time)
    (state : State) : Item :=
  ⟨scope, incidentID, id, 1, .claim, render goStyle result.document, observedAt, state.validUntil,
    state.parents, []⟩

/-- An inconclusive diagnosis asks the engineer about recent changes. -/
def askClarification (t : Tx) (input : AgentInput) (actor : Text) (now : Time) (a : Assessment)
    (ids : CompleteIDs) : Except Error Tx :=
  if a.status = .needsEvidence then
    t.CreateInteraction ⟨t.scope, ids.interaction, input.incidentID, input.jobID, .clarification,
      .changeContext, 1, .pending, now + 60 * minute, [], [], none⟩ actor now ids.asked
  else .ok t

def storeClaim (t : Tx) (claim : Item) (runID : Text) (a : Assessment) :
    Except Error (Item × Tx) := do
  let claim ← claim.seal
  let t ← t.PutItem claim
  let t ← t.FinishRun runID (.assessed a.status.text) a.reasonCode.text (some claim.ref)
  return (claim, t)

def recordInvestigation (t : Tx) (eventID runID incidentID claimID : Text) : Except Error Tx :=
  t.Enqueue eventID runID .investigationRecorded
    (stringMap [("incident_id", incidentID), ("item_id", claimID)])

/-- The submission belongs to the stored input. -/
def submissionFits (id : Text) (scope : Scope) (input : AgentInput) (submitted : RunResult) : Bool :=
  decide (input.jobID = id ∧ input.scope = scope ∧ submitted.runID = id ∧
    submitted.profileID = input.profileID ∧ submitted.profileVersion = input.profileVersion ∧
    submitted.privacyVersion = PrivacyVersion ∧ submitted.promptVersion = PromptVersion ∧
    submitted.rubricVersion = RubricVersion)

def CompleteAgent (fleet : Fleet.Service) (s : Service) (t : Tx) (now : Time)
    (token id attempt : Text) (submitted : RunResult) (ids : CompleteIDs) (clock : ℕ → Time) :
    Except Error (Item × Tx) :=
  transact t fun t => do
    let (_, l, t) ← attemptLease fleet s now token t id attempt false (clock 0) (clock 0)
    match leaseInput s l with
    | none => .error .conflict
    | some input => do
      require (submissionFits id t.scope input submitted) .invalid
      validateAgentSnapshot s t input now (clock 1)
      let a ← ValidateAgentResult submitted input.snapshot now
      require ((submitted.rounds.getD []).all roundOk) .invalid
      let (claim, t) ← storeClaim t (claimOf t.scope input.incidentID ids.claim
        (completedResult id input submitted a) now input.snapshot) id a
      let t ← t.FinishDiagnosticJob id .completed (some claim.ref)
      let t ← askClarification t input l.job.actorID now a ids
      let t ← recordInvestigation t ids.recorded id input.incidentID claim.id
      return (claim, t)

/-- The environment that a run started from is still the newest. -/
def sameContext (t : Tx) (environment : Option EnvironmentContext) : Except Error Unit :=
  match environment with
  | none => .ok ()
  | some old => do
    let current ← t.EnvironmentContext
    require (decide (current.version = old.version)) .conflict

def parentEligible (t : Tx) (now : Time) (ref : ItemRef) : Except Error Unit := do
  let eligible ← t.Eligible ref now
  require eligible .conflict

def RunWork.result (w : RunWork) (a : Assessment) (rounds : Option (List Round)) : RunResult :=
  ⟨rounds, guidanceVersions w.guidance, environmentVersion w.state, w.runID, w.profile.id,
    w.profile.version, PrivacyVersion, PromptVersion, RubricVersion, a⟩

/-- The last transaction of `Run`. -/
def commitRun (s : Service) (t : Tx) (now : Time) (p : Principal) (w : RunWork)
    (observedAt : Time) (claimID eventID : Text) : Except Error (Item × Tx) := do
  let (a, rounds, next) ← w.outcome
  transact t fun t => do
    s.policy.authorize p t.scope .investigate now
    sameContext t w.state.environment
    w.guidance.forM (checkGuidance t)
    next.parents.forM (parentEligible t now)
    require (decide (now < next.validUntil)) .conflict
    let (claim, t) ← storeClaim t
      (claimOf t.scope w.incidentID claimID (w.result a rounds) observedAt next) w.runID a
    let t ← recordInvestigation t eventID w.runID w.incidentID claim.id
    return (claim, t)

/-! ## What the transactions do -/

section Transactions

variable {fleet : Fleet.Service} {s : Service} {t t' : Tx} {now : Time}
  {token incidentID profileID jobID nonce id attempt : Text} {clock : ℕ → Time} {p : Principal}
  {job : DiagnosticJob}

omit [Platform] in
theorem Enqueue_ok (ok : Enqueue s t now p incidentID profileID jobID nonce = .ok (job, t')) :
    t' = t ∨ ∃ u v authority version, job.id = jobID ∧ job.incidentID = incidentID ∧
      t.PutDiagnosticJob job authority = .ok u ∧
      u.StartRun jobID incidentID profileID version PromptVersion RubricVersion now = .ok v ∧
      t' = v.QueueRun jobID := by
  simp only [Enqueue, bind_ok] at ok
  obtain ⟨-, -, rest⟩ := ok
  split at rest
  · simp at rest
  · simp only [bind_ok, transact_ok] at rest
    obtain ⟨authority, -, -, rest⟩ := rest
    split at rest
    · simp only [bind_ok, pure_ok, Prod.mk.injEq] at rest
      exact Or.inl rest.choose_spec.2.2.symm
    · simp only [bind_ok, pure_ok, Prod.mk.injEq] at rest
      obtain ⟨u, put, v, started, rfl, rfl⟩ := rest
      exact Or.inr ⟨u, v, authority, _, rfl, rfl, put, started, rfl⟩
    · simp at rest

omit [Platform] in
theorem Enqueue_writes (ok : Enqueue s t now p incidentID profileID jobID nonce = .ok (job, t')) :
    Tx.Writes [.diagnosticJobs, .investigationRuns] [] t t' := by
  rcases Enqueue_ok ok with rfl | ⟨u, v, authority, version, -, -, put, started, rfl⟩
  · exact Tx.Writes.refl _ _ _
  · exact ((Tx.PutDiagnosticJob_writes put).mono (by decide)).trans
      (((Tx.StartRun_writes started).mono (by decide)).trans ((Tx.QueueRun_writes v jobID).mono (by decide)))

omit [Platform] in
theorem Cancel_ok (ok : Cancel s t now p id = .ok t') :
    ∃ u, t.FinishDiagnosticJob id .cancelled none = .ok u ∧
      u.FinishRun id .cancelled "ENGINEER_CANCELLED" none = .ok t' := by
  simp only [Cancel, bind_ok, transact_ok] at ok
  obtain ⟨-, -, -, -, -, -, -, u, job, run⟩ := ok
  exact ⟨u, job, run⟩

omit [Platform] in
theorem Cancel_writes (ok : Cancel s t now p id = .ok t') :
    Tx.Writes [.diagnosticJobs, .investigationRuns] [] t t' := by
  obtain ⟨u, job, run⟩ := Cancel_ok ok
  exact ((Tx.FinishDiagnosticJob_writes job).mono (by decide)).trans
    ((Tx.FinishRun_writes run).mono (by decide))

theorem claimDiagnostic_ok {profiles : List Text} {clock : ClaimClock} {lease : DiagnosticLease}
    (ok : claimDiagnostic fleet t now token profiles attempt clock = .ok (lease, t')) :
    ∃ a, t.ClaimAgentDiagnostic a profiles attempt clock = .ok (lease, t') := by
  simp only [claimDiagnostic, transact_ok, bind_ok] at ok
  obtain ⟨-, a, -, claimed⟩ := ok
  exact ⟨a, claimed⟩

/-- The job runs under the attempt. -/
def Holds (t : Tx) (id attempt : Text) (clock : Time) : Prop :=
  ∃ r ∈ t.tables.diagnosticJobs, r.job.id = id ∧ r.runsUnder attempt clock = true

variable {a : Agent} {l : DiagnosticLease} {reading renewal : Time} {input : AgentInput}
  {claim : Item} {runID : Text} {ids : CompleteIDs}

private theorem attemptLease_ok {renew : Bool}
    (ok : attemptLease fleet s now token t id attempt renew renewal reading = .ok (a, l, t')) :
    t.AgentDiagnostic id attempt a renew renewal reading = .ok (l, t') := by
  simp only [attemptLease, bind_ok, pure_ok] at ok
  grind

private theorem attemptLease_holds
    (ok : attemptLease fleet s now token t id attempt false renewal reading = .ok (a, l, t')) :
    t' = t ∧ Holds t id attempt reading := by
  obtain ⟨selects, r, -, member, named, held, same, -⟩ := Tx.AgentDiagnostic_ok (attemptLease_ok ok)
  obtain rfl := same rfl
  exact ⟨rfl, r, member, named, held⟩

theorem startDiagnostic_ok (ok : startDiagnostic fleet s t now token attempt input clock = .ok t') :
    ∃ u raw, Holds t input.jobID attempt (clock 0) ∧
      t.StartAgentDiagnostic input.jobID input.profileVersion PromptVersion RubricVersion = .ok u ∧
      u.SetDiagnosticInput input.jobID attempt raw false (clock 2) = .ok t' := by
  unfold startDiagnostic at ok
  split at ok
  · simp at ok
  · simp only [bind_ok, transact_ok] at ok
    obtain ⟨-, -, -, ⟨a, l, t₁⟩, leased, -, -, u, started, stored⟩ := ok
    obtain ⟨rfl, holds⟩ := attemptLease_holds leased
    exact ⟨u, _, holds, started, stored⟩

theorem startDiagnostic_writes
    (ok : startDiagnostic fleet s t now token attempt input clock = .ok t') :
    Tx.Writes [.diagnosticJobs, .investigationRuns] [] t t' := by
  obtain ⟨u, raw, -, started, stored⟩ := startDiagnostic_ok ok
  exact ((Tx.StartAgentDiagnostic_writes started).mono (by decide)).trans
    ((Tx.SetDiagnosticInput_writes stored).mono (by decide))

theorem HeartbeatAgent_ok {deadline : Time}
    (ok : HeartbeatAgent fleet s t now token id attempt clock = .ok (deadline, t')) :
    ∃ a l, t.AgentDiagnostic id attempt a true (clock 0) (clock 1) = .ok (l, t') := by
  simp only [HeartbeatAgent, transact_ok, bind_ok] at ok
  obtain ⟨-, ⟨a, l, u⟩, leased, -, rfl⟩ := ok
  exact ⟨a, l, attemptLease_ok leased⟩

theorem reserveRefresh_ok {checks : List Check}
    (ok : reserveRefresh fleet s t now token id attempt checks clock = .ok (input, t')) :
    ∃ raw, t.SetDiagnosticInput id attempt raw true (clock 2) = .ok t' := by
  simp only [reserveRefresh, transact_ok, bind_ok] at ok
  obtain ⟨-, ⟨a, l, u⟩, leased, -, -, rest⟩ := ok
  obtain ⟨rfl, -⟩ := attemptLease_holds leased
  split at rest
  · simp at rest
  · simp only [bind_ok, pure_ok] at rest
    grind

theorem storeRefresh_ok (ok : storeRefresh fleet s t now token attempt input clock = .ok t') :
    ∃ raw, t.SetDiagnosticInput input.jobID attempt raw false (clock 2) = .ok t' := by
  simp only [storeRefresh, transact_ok, bind_ok] at ok
  obtain ⟨-, ⟨a, l, u⟩, leased, -, -, stored⟩ := ok
  obtain ⟨rfl, -⟩ := attemptLease_holds leased
  exact ⟨_, stored⟩

omit [Platform] in
theorem collectChecks_writes {checks : List (Check × Text)} {evidence : List EvidenceSnapshot}
    (ok : collectChecks t now incidentID checks evidence = .ok t') :
    Tx.Writes [.collectionChecks] [] t t' := by
  refine foldlM_rises (Tx.Writes.refl _ _) Tx.Writes.trans (fun request _ u v step => ?_)
    (transact_ok.mp ok).2
  unfold requestCheck at step
  split at step
  · simp at step
  · split at step
    · simp at step
    · simp only [bind_ok] at step
      obtain ⟨-, -, -, -, put⟩ := step
      exact Tx.PutCollectionCheck_writes put

theorem storeClaim_ok {item : Item} {a : Assessment}
    (ok : storeClaim t item runID a = .ok (claim, t')) :
    ∃ u, item.seal = .ok claim ∧ t.PutItem claim = .ok u ∧
      u.FinishRun runID (.assessed a.status.text) a.reasonCode.text (some claim.ref) = .ok t' := by
  simp only [storeClaim, bind_ok, pure_ok, Prod.mk.injEq] at ok
  obtain ⟨sealing, sealed, u, put, v, finished, rfl, rfl⟩ := ok
  exact ⟨u, sealed, put, finished⟩

omit [Platform] in
theorem askClarification_writes {actor : Text} {a : Assessment}
    (ok : askClarification t input actor now a ids = .ok t') :
    Tx.Writes [.interactions, .outbox] [.clarificationRequested] t t' := by
  unfold askClarification at ok
  split at ok
  · exact Tx.CreateInteraction_writes ok
  · exact Except.ok.inj ok ▸ Tx.Writes.refl _ _ _

theorem CompleteAgent_ok {submitted : RunResult}
    (ok : CompleteAgent fleet s t now token id attempt submitted ids clock = .ok (claim, t')) :
    ∃ input a u v w, Holds t id attempt (clock 0) ∧
      ValidateAgentResult submitted input.snapshot now = .ok a ∧
      storeClaim t (claimOf t.scope input.incidentID ids.claim
        (completedResult id input submitted a) now input.snapshot) id a = .ok (claim, u) ∧
      u.FinishDiagnosticJob id .completed (some claim.ref) = .ok v ∧
      Tx.Writes [.interactions, .outbox] [.clarificationRequested] v w ∧
      recordInvestigation w ids.recorded id input.incidentID claim.id = .ok t' := by
  simp only [CompleteAgent, transact_ok, bind_ok] at ok
  obtain ⟨-, ⟨agent, l, t₁⟩, leased, rest⟩ := ok
  obtain ⟨rfl, holds⟩ := attemptLease_holds leased
  split at rest
  · simp at rest
  · rename_i input _
    simp only [bind_ok, pure_ok, Prod.mk.injEq] at rest
    obtain ⟨-, -, -, -, a, validated, -, -, ⟨stored, u⟩, put, v, finished, w, asked, x, recorded,
      rfl, rfl⟩ := rest
    exact ⟨input, a, u, v, w, holds, validated, put, finished, askClarification_writes asked,
      recorded⟩

omit [Platform] in
theorem startRun_ok (ok : startRun s t now p runID incidentID profileID = .ok t') :
    ∃ profile version, t.StartRun runID incidentID profile version PromptVersion RubricVersion now =
      .ok t' := by
  simp only [startRun, bind_ok] at ok
  obtain ⟨-, -, -, -, rest⟩ := ok
  split at rest
  · simp at rest
  · exact ⟨_, _, (transact_ok.mp rest).2⟩

omit [Platform] in
theorem interruptRun_ok (ok : interruptRun t runID = .ok t') :
    t.FinishRun runID .interrupted "RESULT_NOT_COMMITTED" none = .ok t' :=
  (transact_ok.mp ok).2

theorem commitRun_ok {w : RunWork} {observedAt : Time} {claimID eventID : Text}
    (ok : commitRun s t now p w observedAt claimID eventID = .ok (claim, t')) :
    ∃ a rounds next u, w.outcome = .ok (a, rounds, next) ∧
      storeClaim t (claimOf t.scope w.incidentID claimID (w.result a rounds) observedAt next)
        w.runID a = .ok (claim, u) ∧
      recordInvestigation u eventID w.runID w.incidentID claim.id = .ok t' := by
  simp only [commitRun, bind_ok, transact_ok, pure_ok, Prod.mk.injEq] at ok
  obtain ⟨⟨a, rounds, next⟩, outcome, -, -, -, -, -, -, -, -, -, -, -, ⟨stored, u⟩, put, v, recorded,
    rfl, rfl⟩ := ok
  exact ⟨a, rounds, next, u, outcome, put, recorded⟩

end Transactions

section Claims

variable {fleet : Fleet.Service} {s : Service} {t t' : Tx} {now : Time} {token : Text}
  {clock : ℕ → Time} {claim : Item}

def claimTables : List Table :=
  [.items, .itemParents, .historicalDependencies, .itemEligibility, .investigationRuns]

theorem storeClaim_writes {item : Item} {runID : Text} {a : Assessment}
    (ok : storeClaim t item runID a = .ok (claim, t')) : Tx.Writes claimTables [] t t' := by
  obtain ⟨u, -, put, finished⟩ := storeClaim_ok ok
  exact ((Tx.PutItem_writes put).mono (by decide)).trans
    ((Tx.FinishRun_writes finished).mono (by decide))

theorem CompleteAgent_writes {id attempt : Text} {submitted : RunResult} {ids : CompleteIDs}
    (ok : CompleteAgent fleet s t now token id attempt submitted ids clock = .ok (claim, t')) :
    Tx.Writes (.diagnosticJobs :: .interactions :: .outbox :: claimTables)
      [.clarificationRequested, .investigationRecorded] t t' := by
  obtain ⟨input, a, u, v, w, -, -, put, finished, asked, recorded⟩ := CompleteAgent_ok ok
  exact ((storeClaim_writes put).mono (by decide)).trans
    (((Tx.FinishDiagnosticJob_writes finished).mono (by decide)).trans
      ((asked.mono (by decide)).trans ((Tx.Enqueue_writes recorded).mono (by decide))))

theorem commitRun_writes {p : Principal} {w : RunWork} {observedAt : Time} {claimID eventID : Text}
    (ok : commitRun s t now p w observedAt claimID eventID = .ok (claim, t')) :
    Tx.Writes (.outbox :: claimTables) [.investigationRecorded] t t' := by
  obtain ⟨a, rounds, next, u, -, put, recorded⟩ := commitRun_ok ok
  exact ((storeClaim_writes put).mono (by decide)).trans
    ((Tx.Enqueue_writes recorded).mono (by decide))

end Claims

end Sre.Investigation
