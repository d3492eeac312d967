/- GID: Sre/Remediation/Engine
   digest: The remediation engine: its calls, queue, workers and recovery as steps over one proposal store. -/

import Sre.Remediation.StoreLaws

set_option autoImplicit false

namespace Sre.Remediation

open Foundation Foundation.Replace Foundation.Strings Sanitizer Triage
open Redactor (SanitizeText)

def engineActor : Text := "remediation-engine"

def errProposalExpired : Text := "proposal has expired"

def errMissingPrecondition : Text := "mutation requires captured target UID and resourceVersion"

def defaultProposalTTL : Duration := 15 * minute

def defaultWorkerCount : ℕ := 1

def defaultQueueSize : ℕ := 128

/-- The actions that need the identity of their target. -/
def proposalTargetsRequired : ActionType → Bool
  | .restartPod | .deleteFailedPod | .cleanupPods | .rolloutRestart | .cordonNode
  | .scaleWorkload | .bumpVersion | .upgradeApp => true
  | _ => false

/-- The source lists the same actions again for what can be learnt from. -/
def proposalSupportsLearningOutcome (p : Proposal) : Bool :=
  match p.diagnosis with
  | none => false
  | some d => proposalTargetsRequired d.actionType

/-- The target of a proposal is not identified although its action needs that. -/
def targetMissing (action : ActionType) (uid resourceVersion : Text) : Bool :=
  proposalTargetsRequired action &&
    ((TrimSpace uid).isEmpty || (TrimSpace resourceVersion).isEmpty)

/-- The fields of a proposal that no step of the engine may rewrite. -/
def Proposal.identity (p : Proposal) : Text × Text × ProposalStatus × ℕ × Option Time :=
  (p.id, p.issueID, p.status, p.revision, p.expiresAt)

/-- A transition of the engine: what its callback sets, and the event it records. A nil
callback sets nothing. -/
structure Move where
  fromStatus : ProposalStatus
  toStatus : ProposalStatus
  set : Proposal → Proposal
  event : AuditEvent
  keeps : ∀ p, (set p).identity = p.identity

section Moves

variable [Redactor]

def safeExecutionError (message : Text) : Text :=
  firstBytes maxExecutionErrorBytes (SafeLogValue message)

def safeVerificationError (message : Text) : Text :=
  let message := SafeLogValue message
  let message := if (TrimSpace message).isEmpty then "verification failed".toList else message
  firstBytes maxExecutionErrorBytes message

/-- A transition that keeps why it was made as the execution error. -/
def Move.because (fromStatus toStatus : ProposalStatus) (type : AuditEventType)
    (actor error : Text) : Move where
  fromStatus := fromStatus
  toStatus := toStatus
  set p := { p with executionError := error }
  event := auditEvent type actor [] error
  keeps _ := rfl

def Move.expire (fromStatus : ProposalStatus) (actor : Text) : Move :=
  .because fromStatus .expired .expire actor (safeExecutionError errProposalExpired)

def Move.stale (actor error : Text) : Move :=
  .because .pending .stale .stale actor (safeExecutionError error)

/-- The rejection of a proposal whose target is protected. -/
def Move.refuse (actor error : Text) : Move where
  fromStatus := .pending
  toStatus := .rejected
  set p := { p with
    rejectionReason := safeExecutionError error, executionError := safeExecutionError error }
  event := auditEvent .reject actor (safeExecutionError error) []
  keeps _ := rfl

def Move.approve (actor : Text) (now : Time) : Move where
  fromStatus := .pending
  toStatus := .approved
  set p := { p with approvedBy := actor, approvedAt := some now }
  event := auditEvent .approve actor [] []
  keeps _ := rfl

def firstReason (reasons : List Text) : Text := (reasons.head?).getD []

def Move.reject (actor : Text) (reasons : List Text) (now : Time) : Move where
  fromStatus := .pending
  toStatus := .rejected
  set p := { p with
    rejectedBy := actor
    rejectedAt := some now
    rejectionReason := match reasons with
      | [] => p.rejectionReason
      | reason :: _ => TrimSpace reason }
  event := auditEvent .reject actor (firstReason reasons) []
  keeps _ := rfl

def Move.begin : Move where
  fromStatus := .approved
  toStatus := .executing
  set p := p
  event := auditEvent .execution engineActor [] "execution started"
  keeps _ := rfl

def interrupted : Text := "execution interrupted; reconciliation required"

def Move.interrupt : Move := .because .executing .failed .failure engineActor interrupted

/-- What `Execute` and, after a success, `Verify` answered. Without a verifier there is
no verification. -/
structure Report where
  result : Text
  error : Option (Cause × Text)
  verification : Option (VerificationStatus × Text)

def normalizeVerificationResult (result : VerificationStatus × Text) : VerificationStatus × Text :=
  match result with
  | (.verified, _) => (.verified, [])
  | (.failed, message) => (.failed, orElse message "verification failed")
  | (.unavailable, message) => (.unavailable, orElse message "verification is unavailable")
  | (.unverified, _) => (.unverified, [])
  | (.other _, message) =>
    (.unavailable, orElse message "verification returned an unsupported status")
where
  orElse (message default : Text) : Text :=
    if (TrimSpace message).isEmpty then default else message

/-- The status and the error that a successful execution is completed with. -/
def verificationOf (p : Proposal) (report : Report) : VerificationStatus × Text :=
  if proposalSupportsLearningOutcome p = false then (.unverified, [])
  else match report.verification.map normalizeVerificationResult with
    | none => (.unavailable, "verification is unavailable")
    | some (.verified, _) => (.verified, [])
    | some (.unverified, _) => (.unverified, [])
    | some (status, message) => (status, safeVerificationError message)

def Move.complete (p : Proposal) (report : Report) : Move where
  fromStatus := .executing
  toStatus := .completed
  set q := { q with
    executionResult := SanitizeText report.result
    executionError := []
    verificationStatus := (verificationOf p report).1
    verificationError := sanitizeAndBoundVerificationError (verificationOf p report).2 }
  event := auditEvent .execution engineActor [] "execution completed"
  keeps _ := rfl

/-- `finishExecution` for an error of the executor. -/
def Move.finishError (report : Report) (cause : Cause) (error : Text) : Move where
  fromStatus := .executing
  toStatus := if cause = .stalePrecondition ∨ cause = .missingPrecondition then .stale else .failed
  set q := { q with
    executionResult := SanitizeText report.result, executionError := safeExecutionError error }
  event := auditEvent
    (if cause = .stalePrecondition ∨ cause = .missingPrecondition then .stale else .failure)
    engineActor [] (safeExecutionError error)
  keeps _ := rfl

def Move.finish (p : Proposal) (report : Report) : Move :=
  match report.error with
  | none => .complete p report
  | some (cause, error) => .finishError report cause error

/-- What `Approve` makes of the proposal it read, with the answer of the validator if the
executor is one: the error without a transition, or a transition. -/
def approveMove (p : Proposal) (actor : Text) (now approvedAt : Time)
    (validation : Option (Cause × Text)) : Option Move :=
  if proposalExpired p now then some (.expire .pending actor)
  else if p.diagnosis.any fun d =>
      targetMissing d.actionType p.targetUID p.targetResourceVersion then
    some (.stale actor errMissingPrecondition)
  else match validation with
    | none => some (.approve actor approvedAt)
    | some (.stalePrecondition, error) | some (.missingPrecondition, error) =>
      some (.stale actor error)
    | some (.protectedTarget, error) | some (.forceDeletion, error) => some (.refuse actor error)
    | some (.other, _) => none

def rejectMove (p : Proposal) (actor : Text) (reasons : List Text) (now rejectedAt : Time) : Move :=
  if proposalExpired p now then .expire .pending actor else .reject actor reasons rejectedAt

/-- What a worker makes of the approved proposal it read. -/
def executeMove (p : Proposal) (now : Time) : Move :=
  if proposalExpired p now then .expire .approved engineActor else .begin

/-- The transition that recovery makes for a listed proposal. One that has expired while it
was executing is passed over. -/
def recoverMove (p : Proposal) (now : Time) : Option Move :=
  if proposalExpired p now then
    match p.status with
    | .pending => some (.expire .pending engineActor)
    | .approved => some (.expire .approved engineActor)
    | _ => none
  else match p.status with
    | .executing => some .interrupt
    | _ => none

/-- Recovery enqueues the listed proposal. -/
def recoverEnqueues (p : Proposal) (now : Time) : Bool :=
  !proposalExpired p now && p.status == .approved

def ProposalStore.move (s : ProposalStore) (id : Text) (m : Move) (fails : FileStep → Bool)
    (stamp : Stamp) : ProposalStore × Except Error Proposal :=
  s.Transition id m.fromStatus m.toStatus (some (Mutation.set m.set)) m.event fails stamp

end Moves

section Creation

variable [Redactor]

/-- What a proposal is made of, but for its ID. -/
structure Draft where
  issue : Scanner.Issue
  diagnosis : Diagnosis
  actor : Text
  ttl : Duration
  now : Time
  deriving DecidableEq

def Draft.proposal (d : Draft) (id : Text) : Proposal where
  id := id
  issueID := d.issue.id
  createdBy := d.actor
  createdAt := d.now
  updatedAt := d.now
  namespace_ := d.issue.namespace_
  kind := d.issue.kind
  name := d.issue.name
  category := d.issue.category
  group := d.issue.resolvedGroup.text
  targetUID := d.issue.targetUID
  targetResourceVersion := d.issue.targetResourceVersion
  revision := 1
  expiresAt := some (d.now + d.ttl)
  diagnosis := some d.diagnosis
  status := .pending
  approvedBy := []
  approvedAt := none
  rejectedBy := []
  rejectedAt := none
  rejectionReason := []
  executionResult := []
  executionError := []
  verificationStatus := .other []
  verificationError := []

/-- The arguments of `CreateProposalForActor`. -/
structure Request where
  issue : Option Scanner.Issue
  diagnosis : Option Diagnosis
  actor : Text

/-- The checks of a request. -/
def Request.check (r : Request) : Except Error (Scanner.Issue × Diagnosis × Text) :=
  if (TrimSpace r.actor).isEmpty then .error .actorRequired
  else match r.issue, r.diagnosis with
    | some issue, some d =>
      match ValidateDiagnosis d issue.id with
      | .error _ => .error .invalidDiagnosis
      | .ok () =>
        if targetMissing d.actionType issue.targetUID issue.targetResourceVersion then
          .error (.failure .missingPrecondition errMissingPrecondition)
        else .ok (issue, d, TrimSpace r.actor)
    | _, _ => .error .invalidDiagnosis

/-- The search under `createMu` ends with an active proposal of the issue, or a draft. -/
inductive Found where
  | existing (p : Proposal)
  | draft (d : Draft)

variable [Encoding]

def scanProposals (s : ProposalStore) (r : Request) (ttl : Duration) (now : Time)
    (fails : FileStep → Bool) (stamp : Stamp) : ProposalStore × Except Error Found :=
  match r.check with
  | .error e => (s, .error e)
  | .ok (issue, d, actor) =>
    match s.list fails stamp with
    | (s, .error e) => (s, .error e)
    | (s, .ok proposals) =>
      match proposals.find? fun existing =>
          existing.issueID = issue.id ∧ isActiveProposalStatus existing.status = true with
      | some existing => (s, .ok (.existing existing))
      | none => (s, .ok (.draft ⟨issue, d, actor, ttl, now⟩))

/-- `CreateProposalForActor` when no other call of the engine comes in between; `id` is the
one that `newProposalID` draws. -/
def CreateProposalForActor (s : ProposalStore) (r : Request) (ttl : Duration) (id : Text)
    (now : Time) (fails : FileStep → Bool) (listed created : Stamp) :
    ProposalStore × Except Error Proposal :=
  match scanProposals s r ttl now fails listed with
  | (s, .error e) => (s, .error e)
  | (s, .ok (.existing p)) => (s, .ok p)
  | (s, .ok (.draft d)) =>
    match s.Create (d.proposal id) fails created with
    | (s, .error e) => (s, .error e)
    | (s, .ok ()) => (s, s.Get id)

end Creation

/-- Where a worker of the engine is. -/
inductive Worker where
  | idle
  /-- It received an ID from the queue. -/
  | took (id : Text)
  /-- It read the proposal as approved. -/
  | read (id : Text) (p : Proposal)
  /-- Its transition to the executing state succeeded; it calls `Execute` next. -/
  | executing (id : Text) (p : Proposal)
  /-- `Execute` was called. -/
  | ran (id : Text) (p : Proposal)
  | stopped

/-- A call of `Approve` or `Reject` after it read its proposal. -/
inductive Call where
  | approving (id actor : Text) (p : Proposal)
  | rejecting (id actor : Text) (reasons : List Text) (p : Proposal)
  /-- The approval is stored; the call waits for a place in the queue. -/
  | enqueueing (id : Text)
  deriving DecidableEq

/-- The recovery loop: the proposals it has still to look at, the one it waits to enqueue,
and those it has looked at with the time it read then. -/
structure Recovery where
  rest : List Proposal
  waiting : Option Text
  seen : List (Proposal × Time)

structure Engine where
  queue : List Text
  queueSize : ℕ
  workers : List Worker
  calls : List Call
  /-- The draft that the holder of `createMu` is about to store. -/
  creating : Option Draft
  recovery : Recovery
  closed : Bool
  persistenceErrors : ℕ
  proposalTTL : Duration

structure EngineOptions where
  workerCount : ℤ
  queueSize : ℤ
  proposalTTL : Duration

/-- The engine with the proposals that it listed before it started its workers. -/
def NewEngine (options : EngineOptions) (listed : Except Error (List Proposal)) : Engine where
  queue := []
  queueSize := if options.queueSize ≤ 0 then defaultQueueSize else options.queueSize.toNat
  workers := List.replicate
    (if options.workerCount ≤ 0 then defaultWorkerCount else options.workerCount.toNat) .idle
  calls := []
  creating := none
  recovery := ⟨match listed with
    | .error _ => []
    | .ok proposals => proposals, none, []⟩
  closed := false
  persistenceErrors := 0
  proposalTTL := if options.proposalTTL ≤ 0 then defaultProposalTTL else options.proposalTTL

/-- Failed transitions count, except those that found another status. -/
def Engine.counted {α : Type} (e : Engine) : Except Error α → Engine
  | .ok _ | .error (.invalidTransition _ _) => e
  | .error _ => { e with persistenceErrors := e.persistenceErrors + 1 }

@[simp] theorem Engine.counted_frame {α : Type} (e : Engine) (r : Except Error α) :
    (e.counted r).queue = e.queue ∧ (e.counted r).workers = e.workers ∧
      (e.counted r).calls = e.calls ∧ (e.counted r).creating = e.creating ∧
      (e.counted r).recovery = e.recovery ∧ (e.counted r).closed = e.closed := by
  unfold Engine.counted
  split <;> simp

/-- A store and the engine over it, if one runs. `executed` lists the calls of `Execute`;
`drawn` the IDs of proposals that were created, each with the issue it was created for. -/
structure World where
  store : ProposalStore
  engine : Option Engine
  executed : List Text
  drawn : List (Text × Text)

/-- What a process leaves of its store when it dies: a file store has to be opened again. -/
def ProposalStore.crashed : ProposalStore → ProposalStore
  | .memory _ => .memory NewMemoryProposalStore
  | .file f => .file { f with closed := true }

/-- The steps of the engine, one for every access to the store, the queue or the executor.
Clock readings, faults of the file system and answers from outside are part of a step. -/
inductive Action where
  | start (options : EngineOptions) (fails : FileStep → Bool) (stamp : Stamp)
  | reopen (fails : FileStep → Bool) (stamp : Stamp)
  | crash
  | close
  | stopWorker (i : ℕ)
  | stopRecovery
  | closeStore
  | list (fails : FileStep → Bool) (stamp : Stamp)
  | prune (fails : FileStep → Bool) (stamp : Stamp)
  | scan (r : Request) (now : Time) (fails : FileStep → Bool) (stamp : Stamp)
  | create (id : Text) (fails : FileStep → Bool) (stamp : Stamp)
  | approve (id actor : Text)
  | decideApproval (k : ℕ) (now approvedAt : Time) (validation : Option (Cause × Text))
      (fails : FileStep → Bool) (stamp : Stamp)
  | reject (id actor : Text) (reasons : List Text)
  | decideRejection (k : ℕ) (now rejectedAt : Time) (fails : FileStep → Bool) (stamp : Stamp)
  | enqueue (k : ℕ)
  /-- The context of the request is done before there is a place in the queue. -/
  | giveUp (k : ℕ)
  | refuse (k : ℕ)
  | take (i : ℕ)
  | read (i : ℕ)
  | begin (i : ℕ) (now : Time) (fails : FileStep → Bool) (stamp : Stamp)
  | execute (i : ℕ)
  | finish (i : ℕ) (report : Report) (fails : FileStep → Bool) (stamp : Stamp)
  | recover (now : Time) (fails : FileStep → Bool) (stamp : Stamp)
  | recoverEnqueue
  | recoverRefused

section Steps

variable [Redactor] [Encoding]

/-- Where an approval goes on after its transition. -/
def Call.decided (id : Text) (m : Move) : Except Error Proposal → List Call
  | .ok _ => if m.toStatus = .approved then [.enqueueing id] else []
  | .error _ => []

/-- Where a worker goes on after it read the proposal of an ID. -/
def Worker.afterRead (id : Text) : Except Error Proposal → Worker
  | .ok p => if p.status = .approved then .read id p else .idle
  | .error _ => .idle

/-- Where a worker goes on after the transition of the proposal it read. -/
def Worker.afterMove (id : Text) (m : Move) : Except Error Proposal → Worker
  | .ok p => if m.toStatus = .executing then .executing id p else .idle
  | .error _ => .idle

def Found.draft? : Except Error Found → Option Draft
  | .ok (.draft d) => some d
  | _ => none

inductive Step (w : World) : Action → World → Prop
  | start {options : EngineOptions} {fails : FileStep → Bool} {stamp : Stamp} :
      w.engine = none →
      Step w (.start options fails stamp) { w with
        store := (w.store.list fails stamp).1
        engine := some (NewEngine options (w.store.list fails stamp).2) }
  | reopen {fails : FileStep → Bool} {stamp : Stamp} :
      w.engine = none →
      Step w (.reopen fails stamp) { w with store := (w.store.reopen fails stamp).1 }
  | crash : Step w .crash { w with store := w.store.crashed, engine := none }
  | close {e : Engine} :
      w.engine = some e → Step w .close { w with engine := some { e with closed := true } }
  | stopWorker {e : Engine} {i : ℕ} :
      w.engine = some e → e.closed = true → e.workers[i]? = some .idle →
      Step w (.stopWorker i) { w with
        engine := some { e with workers := e.workers.set i .stopped } }
  | stopRecovery {e : Engine} :
      w.engine = some e → e.closed = true → e.recovery.waiting = none →
      Step w .stopRecovery { w with
        engine := some { e with recovery := { e.recovery with rest := [] } } }
  | closeStore {e : Engine} :
      w.engine = some e → e.closed = true → (∀ x ∈ e.workers, x = .stopped) →
      e.recovery.rest = [] → e.recovery.waiting = none →
      Step w .closeStore { w with store := w.store.Close, engine := none }
  | list {fails : FileStep → Bool} {stamp : Stamp} :
      Step w (.list fails stamp) { w with store := (w.store.list fails stamp).1 }
  | prune {fails : FileStep → Bool} {stamp : Stamp} :
      Step w (.prune fails stamp) { w with store := (w.store.PruneRetention fails stamp).1 }
  | scan {e : Engine} {r : Request} {now : Time} {fails : FileStep → Bool} {stamp : Stamp} :
      w.engine = some e → e.creating = none →
      Step w (.scan r now fails stamp) { w with
        store := (scanProposals w.store r e.proposalTTL now fails stamp).1
        engine := some { e with
          creating := Found.draft? (scanProposals w.store r e.proposalTTL now fails stamp).2 } }
  | create {e : Engine} {d : Draft} {id : Text} {fails : FileStep → Bool} {stamp : Stamp} :
      w.engine = some e → e.creating = some d →
      -- a drawn ID is a new one, and redaction leaves it as it is
      (∀ old ∈ w.drawn, old.1 ≠ id) → SanitizeText id = id →
      Step w (.create id fails stamp) { w with
        store := (w.store.Create (d.proposal id) fails stamp).1
        engine := some { e with creating := none }
        drawn := w.drawn ++ [(id, d.issue.id)] }
  | approve {e : Engine} {id actor : Text} {p : Proposal} :
      w.engine = some e → (TrimSpace actor).isEmpty = false → w.store.Get id = .ok p →
      Step w (.approve id actor) { w with
        engine := some { e with calls := e.calls ++ [.approving id (TrimSpace actor) p] } }
  | decideApproval {e : Engine} {k : ℕ} {id actor : Text} {p : Proposal} {m : Move}
      {now approvedAt : Time} {validation : Option (Cause × Text)} {fails : FileStep → Bool}
      {stamp : Stamp} :
      w.engine = some e → e.calls[k]? = some (.approving id actor p) →
      approveMove p actor now approvedAt validation = some m →
      Step w (.decideApproval k now approvedAt validation fails stamp) { w with
        store := (w.store.move id m fails stamp).1
        engine := some { (e.counted (w.store.move id m fails stamp).2) with
          calls := e.calls.eraseIdx k ++ Call.decided id m (w.store.move id m fails stamp).2 } }
  | failApproval {e : Engine} {k : ℕ} {id actor : Text} {p : Proposal} {now approvedAt : Time}
      {validation : Option (Cause × Text)} {fails : FileStep → Bool} {stamp : Stamp} :
      w.engine = some e → e.calls[k]? = some (.approving id actor p) →
      approveMove p actor now approvedAt validation = none →
      Step w (.decideApproval k now approvedAt validation fails stamp) { w with
        engine := some { e with calls := e.calls.eraseIdx k } }
  | reject {e : Engine} {id actor : Text} {reasons : List Text} {p : Proposal} :
      w.engine = some e → (TrimSpace actor).isEmpty = false → w.store.Get id = .ok p →
      Step w (.reject id actor reasons) { w with
        engine := some { e with calls := e.calls ++ [.rejecting id (TrimSpace actor) reasons p] } }
  | decideRejection {e : Engine} {k : ℕ} {id actor : Text} {reasons : List Text} {p : Proposal}
      {now rejectedAt : Time} {fails : FileStep → Bool} {stamp : Stamp} :
      w.engine = some e → e.calls[k]? = some (.rejecting id actor reasons p) →
      Step w (.decideRejection k now rejectedAt fails stamp) { w with
        store := (w.store.move id (rejectMove p actor reasons now rejectedAt) fails stamp).1
        engine := some { (e.counted
            (w.store.move id (rejectMove p actor reasons now rejectedAt) fails stamp).2) with
          calls := e.calls.eraseIdx k } }
  | enqueue {e : Engine} {k : ℕ} {id : Text} :
      w.engine = some e → e.calls[k]? = some (.enqueueing id) → e.queue.length < e.queueSize →
      Step w (.enqueue k) { w with
        engine := some { e with queue := e.queue ++ [id], calls := e.calls.eraseIdx k } }
  | giveUp {e : Engine} {k : ℕ} {id : Text} :
      w.engine = some e → e.calls[k]? = some (.enqueueing id) →
      Step w (.giveUp k) { w with engine := some { e with calls := e.calls.eraseIdx k } }
  | refuse {e : Engine} {k : ℕ} {id : Text} :
      w.engine = some e → e.calls[k]? = some (.enqueueing id) → e.closed = true →
      Step w (.refuse k) { w with engine := some { e with calls := e.calls.eraseIdx k } }
  | take {e : Engine} {i : ℕ} {id : Text} {rest : List Text} :
      w.engine = some e → e.workers[i]? = some .idle → e.queue = id :: rest →
      Step w (.take i) { w with
        engine := some { e with queue := rest, workers := e.workers.set i (.took id) } }
  | read {e : Engine} {i : ℕ} {id : Text} :
      w.engine = some e → e.workers[i]? = some (.took id) →
      Step w (.read i) { w with
        engine := some { e with
          workers := e.workers.set i (Worker.afterRead id (w.store.Get id)) } }
  | begin {e : Engine} {i : ℕ} {id : Text} {p : Proposal} {now : Time} {fails : FileStep → Bool}
      {stamp : Stamp} :
      w.engine = some e → e.workers[i]? = some (.read id p) →
      Step w (.begin i now fails stamp) { w with
        store := (w.store.move id (executeMove p now) fails stamp).1
        engine := some { (e.counted (w.store.move id (executeMove p now) fails stamp).2) with
          workers := e.workers.set i (Worker.afterMove id (executeMove p now)
            (w.store.move id (executeMove p now) fails stamp).2) } }
  | execute {e : Engine} {i : ℕ} {id : Text} {p : Proposal} :
      w.engine = some e → e.workers[i]? = some (.executing id p) →
      Step w (.execute i) { w with
        engine := some { e with workers := e.workers.set i (.ran id p) }
        executed := w.executed ++ [id] }
  | finish {e : Engine} {i : ℕ} {id : Text} {p : Proposal} {report : Report}
      {fails : FileStep → Bool} {stamp : Stamp} :
      w.engine = some e → e.workers[i]? = some (.ran id p) →
      Step w (.finish i report fails stamp) { w with
        store := (w.store.move id (.finish p report) fails stamp).1
        engine := some { (e.counted (w.store.move id (.finish p report) fails stamp).2) with
          workers := e.workers.set i .idle } }
  | recover {e : Engine} {p : Proposal} {rest : List Proposal} {m : Move} {now : Time}
      {fails : FileStep → Bool} {stamp : Stamp} :
      w.engine = some e → e.recovery.rest = p :: rest → e.recovery.waiting = none →
      recoverMove p now = some m →
      Step w (.recover now fails stamp) { w with
        store := (w.store.move p.id m fails stamp).1
        engine := some { (e.counted (w.store.move p.id m fails stamp).2) with
          recovery := ⟨rest, none, e.recovery.seen ++ [(p, now)]⟩ } }
  | recoverPass {e : Engine} {p : Proposal} {rest : List Proposal} {now : Time}
      {fails : FileStep → Bool} {stamp : Stamp} :
      w.engine = some e → e.recovery.rest = p :: rest → e.recovery.waiting = none →
      recoverMove p now = none →
      Step w (.recover now fails stamp) { w with
        engine := some { e with
          recovery := ⟨rest, if recoverEnqueues p now then some p.id else none,
            e.recovery.seen ++ [(p, now)]⟩ } }
  | recoverEnqueue {e : Engine} {id : Text} :
      w.engine = some e → e.recovery.waiting = some id → e.queue.length < e.queueSize →
      Step w .recoverEnqueue { w with
        engine := some { e with
          queue := e.queue ++ [id], recovery := { e.recovery with waiting := none } } }
  | recoverRefused {e : Engine} {id : Text} :
      w.engine = some e → e.recovery.waiting = some id → e.closed = true →
      Step w .recoverRefused { w with
        engine := some { e with recovery := { e.recovery with waiting := none } } }

end Steps

end Sre.Remediation
