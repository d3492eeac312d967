/- GID: Sre/Remediation/Store
   digest: Remediation proposals, the redaction they are stored under, and their two stores. -/

import Sre.Foundation.Replace
import Sre.Triage.Diagnosis

set_option autoImplicit false

namespace Sre.Remediation

open Foundation Foundation.Outcome Foundation.Replace Foundation.Strings Sanitizer Triage

inductive ProposalStatus where
  | pending
  | approved
  | rejected
  | executing
  | completed
  | failed
  | stale
  | expired
  | other (text : Text)
  deriving DecidableEq

/-- `ProposalStatus("")`. -/
def ProposalStatus.unset : ProposalStatus := .other []

inductive VerificationStatus where
  | verified
  | failed
  | unavailable
  | unverified
  | other (text : Text)
  deriving DecidableEq

inductive AuditEventType where
  | create
  | approve
  | reject
  | execution
  | stale
  | failure
  | cleanup
  | expire
  | other (text : Text)
  deriving DecidableEq

structure Proposal where
  id : Text
  issueID : Text
  createdBy : Text
  createdAt : Time
  updatedAt : Time
  namespace_ : Text
  kind : Text
  name : Text
  category : Text
  group : Text
  targetUID : Text
  targetResourceVersion : Text
  revision : ℕ
  expiresAt : Option Time
  diagnosis : Option Diagnosis
  status : ProposalStatus
  approvedBy : Text
  approvedAt : Option Time
  rejectedBy : Text
  rejectedAt : Option Time
  rejectionReason : Text
  executionResult : Text
  executionError : Text
  verificationStatus : VerificationStatus
  verificationError : Text
  deriving DecidableEq

structure AuditEvent where
  id : Text
  proposalID : Text
  type : AuditEventType
  actor : Text
  fromStatus : ProposalStatus
  toStatus : ProposalStatus
  reason : Text
  message : Text
  occurredAt : Time
  deriving DecidableEq

/-- Why an execution or a validation failed: the sentinel error it wraps, if any. -/
inductive Cause where
  | stalePrecondition
  | missingPrecondition
  | protectedTarget
  | forceDeletion
  | other
  deriving DecidableEq

inductive Error where
  | proposalNotFound
  | proposalExists
  | invalidTransition (status target : ProposalStatus)
  | storeClosed
  | actorRequired
  | proposalExpired
  | proposalIDRequired
  | unsupportedStatus (status : ProposalStatus)
  | unsupportedVerificationStatus (status : VerificationStatus)
  | invalidDiagnosis
  | unsupportedSchema (schema : Text)
  | unsupportedVersion (version : ℤ)
  | duplicateProposalID (id : Text)
  | file (step : FileStep)
  | measure
  | engineClosed
  | contextDone
  | failure (cause : Cause) (text : Text)
  deriving DecidableEq

def maxExecutionErrorBytes : ℕ := 512

def isActiveProposalStatus : ProposalStatus → Bool
  | .pending | .approved | .executing => true
  | _ => false

/-- Only known terminal states are disposable. -/
def terminalProposal : ProposalStatus → Bool
  | .completed | .rejected | .failed | .stale | .expired => true
  | _ => false

def validProposalStatus : ProposalStatus → Bool
  | .other _ => false
  | _ => true

/-- A proposal need not have a verification status. -/
def validVerificationStatus : VerificationStatus → Bool
  | .other text => text.isEmpty
  | _ => true

def validProposalTransition : ProposalStatus → ProposalStatus → Bool
  | .pending, .approved | .pending, .rejected | .pending, .stale | .pending, .expired => true
  | .approved, .executing | .approved, .stale | .approved, .expired => true
  | .executing, .completed | .executing, .failed | .executing, .stale => true
  | _, _ => false

def proposalExpired (p : Proposal) (now : Time) : Bool :=
  match p.expiresAt with
  | none => false
  | some expiresAt => expiresAt ≤ now

theorem validProposalTransition_from {s t : ProposalStatus} (valid : validProposalTransition s t = true) :
    isActiveProposalStatus s = true ∧ validProposalStatus t = true ∧ s ≠ t := by
  cases s <;> cases t <;> simp_all [validProposalTransition, isActiveProposalStatus,
    validProposalStatus]

/-- Nothing leads out of a terminal state, and nothing into the first one. -/
theorem validProposalTransition_ends {s t : ProposalStatus} (valid : validProposalTransition s t = true) :
    terminalProposal s = false ∧ t ≠ .pending := by
  cases s <;> cases t <;> simp_all [validProposalTransition, terminalProposal]

/-- The clock reading of a call and the event ID it would generate. -/
structure Stamp where
  now : Time
  auditID : Text

/-- The checks of a proposal, with its defaults filled in. -/
def validateProposalForStore (p : Proposal) (now : Time) : Except Error Proposal :=
  if (TrimSpace p.id).isEmpty then .error .proposalIDRequired
  else if !validProposalStatus p.status && p.status != .unset then
    .error (.unsupportedStatus p.status)
  else if !validVerificationStatus p.verificationStatus then
    .error (.unsupportedVerificationStatus p.verificationStatus)
  else
    let createdAt := if p.createdAt = 0 then now else p.createdAt
    .ok { p with
      status := if p.status = .unset then .pending else p.status
      createdAt := createdAt
      updatedAt := if p.updatedAt = 0 then createdAt else p.updatedAt
      revision := if p.revision = 0 then 1 else p.revision }

section Redaction

variable [Redactor]

open Redactor (SanitizeText)

/-- The redacted text; a longer one is cut after the last character that fits, and before the
first stray byte. -/
def sanitizeAndBoundVerificationError (message : Text) : Text :=
  let message := SanitizeText message
  if byteSize message ≤ maxExecutionErrorBytes then message else cut maxExecutionErrorBytes message
where
  cut : ℕ → Text → Text
    | _, [] => []
    | limit, c :: t =>
      if width c ≤ limit ∧ isStray c = false then c :: cut (limit - width c) t else []

def sanitizeProposalForStore (p : Proposal) : Proposal :=
  { p with
    id := SanitizeText p.id
    issueID := SanitizeText p.issueID
    createdBy := SanitizeText p.createdBy
    namespace_ := SanitizeText p.namespace_
    kind := SanitizeText p.kind
    name := SanitizeText p.name
    targetUID := SanitizeText p.targetUID
    targetResourceVersion := SanitizeText p.targetResourceVersion
    approvedBy := SanitizeText p.approvedBy
    rejectedBy := SanitizeText p.rejectedBy
    rejectionReason := SanitizeText p.rejectionReason
    executionResult := SanitizeText p.executionResult
    executionError := SanitizeText p.executionError
    verificationError := sanitizeAndBoundVerificationError p.verificationError
    diagnosis := p.diagnosis.map Diagnosis.sanitized }

/-- What a proposal reads as after it was written as JSON. Marshaling redacts it as the
store does, and also its category and group; the diagnosis is redacted by its own
`MarshalJSON` once more. Of its texts those of errors and rejections can have been cut. -/
def Proposal.marshaled (p : Proposal) : Proposal :=
  { sanitizeProposalForStore p with
    category := SanitizeText p.category
    group := SanitizeText p.group
    rejectionReason := jsonText (SanitizeText p.rejectionReason)
    executionError := jsonText (SanitizeText p.executionError)
    verificationError := jsonText (sanitizeAndBoundVerificationError p.verificationError)
    diagnosis := p.diagnosis.map fun d => d.sanitized.sanitized }

def normalizeAuditEvent (event : AuditEvent) (proposalID : Text) (fromStatus toStatus : ProposalStatus)
    (stamp : Stamp) : AuditEvent :=
  { event with
    id := SanitizeText (if event.id.isEmpty then stamp.auditID else event.id)
    proposalID := SanitizeText proposalID
    actor := SanitizeText event.actor
    fromStatus := fromStatus
    toStatus := toStatus
    reason := SanitizeText event.reason
    message := SanitizeText event.message
    occurredAt := if event.occurredAt = 0 then stamp.now else event.occurredAt }

/-- An event as its caller gives it: the store fills in the rest. -/
def auditEvent (type : AuditEventType) (actor reason message : Text) : AuditEvent where
  id := []
  proposalID := []
  type := type
  actor := actor
  fromStatus := .unset
  toStatus := .unset
  reason := reason
  message := message
  occurredAt := 0

def newCreateAudit (p : Proposal) (stamp : Stamp) : AuditEvent :=
  normalizeAuditEvent (auditEvent .create p.createdBy [] []) p.id .unset .pending stamp

def sanitizeAuditEvent (event : AuditEvent) (stamp : Stamp) : AuditEvent :=
  normalizeAuditEvent event event.proposalID event.fromStatus event.toStatus stamp

/-- What an event reads as after it was written as JSON. -/
def AuditEvent.marshaled (e : AuditEvent) : AuditEvent :=
  { e with reason := jsonText e.reason, message := jsonText e.message }

@[simp] theorem sanitizeProposalForStore_status (p : Proposal) :
    (sanitizeProposalForStore p).status = p.status := rfl

@[simp] theorem sanitizeProposalForStore_revision (p : Proposal) :
    (sanitizeProposalForStore p).revision = p.revision := rfl

@[simp] theorem sanitizeProposalForStore_id (p : Proposal) :
    (sanitizeProposalForStore p).id = SanitizeText p.id := rfl

@[simp] theorem sanitizeProposalForStore_issueID (p : Proposal) :
    (sanitizeProposalForStore p).issueID = SanitizeText p.issueID := rfl

@[simp] theorem sanitizeProposalForStore_expiresAt (p : Proposal) :
    (sanitizeProposalForStore p).expiresAt = p.expiresAt := rfl

@[simp] theorem marshaled_status (p : Proposal) : p.marshaled.status = p.status := rfl

@[simp] theorem marshaled_revision (p : Proposal) : p.marshaled.revision = p.revision := rfl

@[simp] theorem marshaled_id (p : Proposal) : p.marshaled.id = SanitizeText p.id := rfl

@[simp] theorem marshaled_issueID (p : Proposal) : p.marshaled.issueID = SanitizeText p.issueID := rfl

end Redaction

structure ProposalState where
  schema : Text
  version : ℤ
  proposals : List Proposal
  audit : List AuditEvent
  deriving DecidableEq

def newProposalState : ProposalState where
  schema := "kubebee.sre/proposals"
  version := 1
  proposals := []
  audit := []

def validateProposalState (s : ProposalState) : Except Error Unit :=
  if s.schema ≠ newProposalState.schema then .error (.unsupportedSchema s.schema)
  else if s.version ≠ newProposalState.version then .error (.unsupportedVersion s.version)
  else .ok ()

/-- What a mutation callback leaves. The clone it is given shares the cell of the target
replica count with the stored proposal: `cell` is the value it wrote there, if any. -/
structure Mutated where
  cell : Option ℤ
  result : Except Error Proposal

abbrev Mutation := Proposal → Mutated

/-- A callback that sets fields of the clone only. -/
def Mutation.set (f : Proposal → Proposal) : Mutation := fun p => ⟨none, .ok (f p)⟩

/-- The callback, which may be nil, on the clone of a proposal. -/
def runMutation (mutate : Option Mutation) (p : Proposal) : Mutated :=
  match mutate with
  | none => ⟨none, .ok p⟩
  | some m => m p

/-- A proposal whose replica count was written through its pointer. -/
def Proposal.writeCell (p : Proposal) : Option ℤ → Proposal
  | none => p
  | some n =>
    { p with
      diagnosis := p.diagnosis.map fun d =>
        { d with targetReplicas := d.targetReplicas.map fun _ => n } }

section State

variable [Redactor]

/-- The proposal a transition finds, when the transition is legal from its status. -/
def transitionSource (s : ProposalState) (id : Text) (fromStatus toStatus : ProposalStatus) :
    Except Error Proposal :=
  match s.proposals.find? (·.id = id) with
  | none => .error .proposalNotFound
  | some p =>
    if p.status ≠ fromStatus ∨ validProposalTransition fromStatus toStatus = false then
      .error (.invalidTransition p.status toStatus)
    else .ok p

def replaceFirst (id : Text) (q : Proposal) : List Proposal → List Proposal
  | [] => []
  | p :: rest => if p.id = id then q :: rest else p :: replaceFirst id q rest

/-- A clone after its callback, on the way into the store. -/
def advanced (p : Proposal) (toStatus : ProposalStatus) (now : Time) : Proposal :=
  { p with status := toStatus, revision := p.revision + 1, updatedAt := now }

def transitionState (s : ProposalState) (id : Text) (fromStatus toStatus : ProposalStatus)
    (mutate : Option Mutation) (event : AuditEvent) (stamp : Stamp) :
    Except Error (ProposalState × Proposal) := do
  let p ← transitionSource s id fromStatus toStatus
  let updated ← (runMutation mutate p).result
  let updated := advanced updated toStatus stamp.now
  let stored := sanitizeProposalForStore updated
  pure ({ s with
    proposals := replaceFirst id stored s.proposals
    audit := s.audit ++ [normalizeAuditEvent event updated.id fromStatus toStatus stamp] }, stored)

/-- The state a transition started from, as its callback leaves it: every clone shares
the replica counts of its proposals. -/
def touchedState (s : ProposalState) (id : Text) (fromStatus toStatus : ProposalStatus)
    (mutate : Option Mutation) : ProposalState :=
  match transitionSource s id fromStatus toStatus with
  | .error _ => s
  | .ok p =>
    { s with proposals := replaceFirst id (p.writeCell (runMutation mutate p).cell) s.proposals }

/-- `Create` up to the write: the state with the proposal and its first event. -/
def createState (s : ProposalState) (p : Proposal) (stamp : Stamp) : Except Error ProposalState := do
  let p ← validateProposalForStore p stamp.now
  if s.proposals.any (·.id = p.id) then throw .proposalExists
  let copy := sanitizeProposalForStore p
  pure { s with
    proposals := s.proposals ++ [copy]
    audit := s.audit ++ [newCreateAudit copy stamp] }

def findProposal (s : ProposalState) (id : Text) : Except Error Proposal :=
  match s.proposals.find? (·.id = id) with
  | some p => .ok p
  | none => .error .proposalNotFound

def cloneAndSortProposals (proposals : List Proposal) : List Proposal :=
  Sql.ascending (fun p => p.id) proposals

/-- The state that a store writes. -/
def sanitizeStateForStore (s : ProposalState) (stamp : Stamp) : ProposalState :=
  { s with
    proposals := s.proposals.map sanitizeProposalForStore
    audit := s.audit.map (sanitizeAuditEvent · stamp) }

/-- What the document of a state reads as. -/
def document (s : ProposalState) (stamp : Stamp) : ProposalState :=
  { sanitizeStateForStore s stamp with
    proposals := (sanitizeStateForStore s stamp).proposals.map Proposal.marshaled
    audit := (sanitizeStateForStore s stamp).audit.map AuditEvent.marshaled }

end State

section Retention

/-- The size in bytes of the indented JSON of a proposal; it has none if marshaling fails. -/
class Encoding where
  indentedSize : Proposal → Option ℕ

variable [Encoding]

def completedProposalTTL : Duration := 7 * 24 * 60 * minute

def maxInactiveProposals : ℕ := 10000

def maxInactiveProposalBytes : ℕ := 128 * 2 ^ 20

/-- How retention sees a proposal: it stays (`none`), it is past its time, or it counts
with its size. -/
def retentionMeasure (now : Time) (p : Proposal) : Except Error (Option (Option ℕ)) :=
  if terminalProposal p.status = false ∨ p.updatedAt = 0 ∨ now < p.updatedAt then .ok none
  else if completedProposalTTL ≤ now - p.updatedAt then .ok (some none)
  else match Encoding.indentedSize p with
    | none => .error .measure
    | some size => .ok (some (some (size + 8)))

/-- The IDs of the proposals past their time, and the other candidates with their sizes. -/
def retentionCandidates (now : Time) :
    List Proposal → Except Error (List Text × List (Proposal × ℕ))
  | [] => .ok ([], [])
  | p :: rest => do
    let measured ← retentionMeasure now p
    let (drop, inactive) ← retentionCandidates now rest
    match measured with
    | none => pure (drop, inactive)
    | some none => pure (p.id :: drop, inactive)
    | some (some size) => pure (drop, (p, size) :: inactive)

/-- The oldest candidates, until the rest is within the budgets. -/
def overBudget : List (Proposal × ℕ) → ℕ → ℕ → List Text
  | [], _, _ => []
  | (p, size) :: rest, remaining, bytes =>
    if remaining ≤ maxInactiveProposals ∧ bytes ≤ maxInactiveProposalBytes then []
    else p.id :: overBudget rest (remaining - 1) (bytes - size)

/-- The state without the proposals that retention drops, and how many those are. -/
def retentionState (s : ProposalState) (now : Time) : Except Error (ProposalState × ℕ) := do
  let (expired, inactive) ← retentionCandidates now s.proposals
  let ordered := Sql.ascending (fun c => toLex (c.1.updatedAt, c.1.id)) inactive
  let drop := expired ++ overBudget ordered inactive.length (inactive.map Prod.snd).sum
  if drop.isEmpty then pure (s, 0)
  else pure ({ s with proposals := s.proposals.filter fun p => p.id ∉ drop }, drop.dedup.length)

end Retention

structure MemoryProposalStore where
  state : ProposalState
  closed : Bool

def NewMemoryProposalStore : MemoryProposalStore := ⟨newProposalState, false⟩

/-- The file store: its state, the document at its path, and whether it is closed. -/
structure FileProposalStore where
  cell : Cell ProposalState (Option ProposalState)
  closed : Bool

def FileProposalStore.state (s : FileProposalStore) : ProposalState := s.cell.memory

def FileProposalStore.disk (s : FileProposalStore) : Option ProposalState := s.cell.disk

/-- `writeStateLocked`: nothing of it follows the rename but the change of the mode. -/
def proposalProtocol : Protocol FileStep where
  before := [.encode, .createTemporary, .restrictTemporary, .write, .sync, .close, .replace]
  after := [.restrict]

namespace FileProposalStore

variable [Redactor]

/-- `writeStateLocked`, and the assignment to the state of the store if it succeeds. -/
def writeState (s : FileProposalStore) (next : ProposalState) (fails : FileStep → Bool)
    (stamp : Stamp) : FileProposalStore × Except Error Unit :=
  match validateProposalState next with
  | .error e => (s, .error e)
  | .ok () =>
    match s.cell.commit proposalProtocol fails next (some (document next stamp)) with
    | (cell, none) => ({ s with cell := cell }, .ok ())
    | (cell, some step) => ({ s with cell := cell }, .error (.file step))

variable [Encoding]

def pruneOldProposalsLocked (s : FileProposalStore) (fails : FileStep → Bool) (stamp : Stamp) :
    FileProposalStore × Except Error Unit :=
  match retentionState s.state stamp.now with
  | .error e => (s, .error e)
  | .ok (_, 0) => (s, .ok ())
  | .ok (next, _ + 1) => s.writeState next fails stamp

/-- The state that a document is opened with: its proposals checked and completed. -/
def loadState (doc : ProposalState) (now : Time) : Except Error ProposalState := do
  validateProposalState doc
  let proposals ← doc.proposals.mapM (validateProposalForStore · now)
  match proposals.find? (fun p => 1 < (proposals.filter (·.id = p.id)).length) with
  | some p => throw (.duplicateProposalID p.id)
  | none => pure { doc with proposals := proposals }

/-- Opening the directory: what is at the path afterwards, and the store. -/
def NewFileProposalStore (disk : Option ProposalState) (fails : FileStep → Bool) (stamp : Stamp) :
    Option ProposalState × Except Error FileProposalStore :=
  match disk with
  | none => (none, .ok ⟨⟨newProposalState, none⟩, false⟩)
  | some doc =>
    match loadState doc stamp.now with
    | .error e => (disk, .error e)
    | .ok state =>
      match pruneOldProposalsLocked ⟨⟨state, disk⟩, false⟩ fails stamp with
      | (s, .error e) => (s.disk, .error e)
      | (s, .ok ()) => (s.disk, .ok s)

end FileProposalStore

/-- The two implementations of the interface `ProposalStore`. -/
inductive ProposalStore where
  | memory (store : MemoryProposalStore)
  | file (store : FileProposalStore)

namespace ProposalStore

variable [Redactor]

def state : ProposalStore → ProposalState
  | memory s => s.state
  | file s => s.state

def closed : ProposalStore → Bool
  | memory s => s.closed
  | file s => s.closed

def Create (s : ProposalStore) (p : Proposal) (fails : FileStep → Bool) (stamp : Stamp) :
    ProposalStore × Except Error Unit :=
  if s.closed then (s, .error .storeClosed)
  else match s, createState s.state p stamp with
    | s, .error e => (s, .error e)
    | memory m, .ok next => (memory { m with state := next }, .ok ())
    | file f, .ok next =>
      match f.writeState next fails stamp with
      | (f, result) => (file f, result)

def Get (s : ProposalStore) (id : Text) : Except Error Proposal :=
  if s.closed then .error .storeClosed else findProposal s.state id

def Transition (s : ProposalStore) (id : Text) (fromStatus toStatus : ProposalStatus)
    (mutate : Option Mutation) (event : AuditEvent) (fails : FileStep → Bool) (stamp : Stamp) :
    ProposalStore × Except Error Proposal :=
  if s.closed then (s, .error .storeClosed)
  else
    let touched := touchedState s.state id fromStatus toStatus mutate
    match s, transitionState s.state id fromStatus toStatus mutate event stamp with
    | memory m, .error e => (memory { m with state := touched }, .error e)
    | memory m, .ok (next, q) => (memory { m with state := next }, .ok q)
    | file f, .error e => (file { f with cell := { f.cell with memory := touched } }, .error e)
    | file f, .ok (next, q) =>
      match { f with cell := { f.cell with memory := touched } : FileProposalStore }.writeState
          next fails stamp with
      | (f, .error e) => (file f, .error e)
      | (f, .ok ()) => (file f, .ok q)

def Close : ProposalStore → ProposalStore
  | memory m => memory { m with closed := true }
  | file f => file { f with closed := true }

variable [Encoding]

/-- The proposals in order of their IDs; the file store prunes first. -/
def list (s : ProposalStore) (fails : FileStep → Bool) (stamp : Stamp) :
    ProposalStore × Except Error (List Proposal) :=
  if s.closed then (s, .error .storeClosed)
  else match s with
    | memory m => (memory m, .ok (cloneAndSortProposals m.state.proposals))
    | file f =>
      match f.pruneOldProposalsLocked fails stamp with
      | (f, .error e) => (file f, .error e)
      | (f, .ok ()) => (file f, .ok (cloneAndSortProposals f.state.proposals))

/-- The sweep of the retention loop; only the file store has one. -/
def PruneRetention (s : ProposalStore) (fails : FileStep → Bool) (stamp : Stamp) :
    ProposalStore × Except Error Unit :=
  match s with
  | memory m => (memory m, .ok ())
  | file f =>
    if f.closed then (file f, .error .storeClosed)
    else match f.pruneOldProposalsLocked fails stamp with
      | (f, result) => (file f, result)

/-- The store is opened again at its path; there is no path to reopen a memory store from. -/
def reopen (s : ProposalStore) (fails : FileStep → Bool) (stamp : Stamp) :
    ProposalStore × Except Error Unit :=
  match s with
  | memory m => (memory m, .ok ())
  | file f =>
    match FileProposalStore.NewFileProposalStore f.disk fails stamp with
    | (disk, .error e) => (file ⟨⟨f.state, disk⟩, true⟩, .error e)
    | (_, .ok f) => (file f, .ok ())

end ProposalStore

end Sre.Remediation
