/- GID: Sre/Execution
   digest: Action rows with their event ledger, and the service that moves an action along its life. -/

import Sre.Fleet
import Sre.Storage.Lineage

set_option autoImplicit false

namespace Sre.Execution

open Incident List

/-- The moves of the state machine. -/
def follows : ActionState → ActionState → Bool
  | .proposed, .approved => true
  | .proposed, .cancelled => true
  | .approved, .submitted => true
  | .approved, .cancelled => true
  | .submitted, .applied => true
  | .submitted, .failed => true
  | .submitted, .ambiguous => true
  | _, _ => false

def final : ActionState → Bool
  | .applied => true
  | .failed => true
  | .ambiguous => true
  | .cancelled => true
  | _ => false

theorem not_follows_of_final {a b : ActionState} (ended : final a = true) : follows a b = false := by
  cases a <;> cases b <;> first | rfl | simp [final] at ended

inductive Life : List Action → Prop where
  | proposed {a : Action} (version : a.version = 1) (state : a.state = .proposed) : Life [a]
  | next {a b : Action} {older : List Action} (life : Life (a :: older))
      (move : follows a.state b.state = true) (plan : b.plan = a.plan) (hash : b.hash = a.hash)
      (version : b.version = a.version + 1) : Life (b :: a :: older)

namespace Life

theorem newest_version {a : Action} {older : List Action} (life : Life (a :: older)) :
    a.version = older.length + 1 := by
  generalize whole : a :: older = versions at life
  induction life generalizing a older with
  | proposed version =>
    obtain ⟨rfl, rfl⟩ := List.cons.inj whole
    simpa using version
  | @next a' b rest _ _ _ _ version ih =>
    grind

theorem versions {versions : List Action} (life : Life versions) :
    versions.reverse.map Action.version = (List.range versions.length).map fun n : ℕ => (n : ℤ) + 1 := by
  induction life with
  | proposed version => simp [version]
  | @next a b older life _ _ _ version ih =>
    have longer : (b :: a :: older).length = (a :: older).length + 1 := rfl
    rw [reverse_cons, map_append, ih, longer, range_succ]
    simp [version, life.newest_version]

theorem moves {versions : List Action} (life : Life versions) :
    versions.reverse.IsChain fun a b => follows a.state b.state = true := by
  rw [isChain_reverse]
  induction life with
  | proposed => simp
  | next _ move _ _ _ ih => exact List.IsChain.cons_cons move ih

theorem same_plan {versions : List Action} (life : Life versions) {a b : Action}
    (first : a ∈ versions) (second : b ∈ versions) : a.plan = b.plan ∧ a.hash = b.hash := by
  have shared : ∃ p h, ∀ v ∈ versions, v.plan = p ∧ v.hash = h := by
    clear first second
    induction life with
    | @proposed c => exact ⟨c.plan, c.hash, by simp⟩
    | @next c d older _ _ plan hash _ ih =>
      simp_all
  grind

end Life

end Sre.Execution

namespace Sre.Storage

open Foundation.Json Foundation.Outcome Identity Incident

variable [Platform]

/-- The times that the envelope's JSON text holds must have one. -/
def Action.marshals (a : Action) : Bool :=
  (Platform.timeText a.plan.expiresAt).isSome && (Platform.timeText a.approvalExpiresAt).isSome &&
    (Platform.timeText a.createdAt).isSome && (Platform.timeText a.submittedAt).isSome &&
    (Platform.timeText a.completedAt).isSome

namespace Tx

/-- What a stored envelope must satisfy to be read at all. -/
def trusted (t : Tx) (a : Incident.Action) : Bool :=
  decide (a.plan.scope = t.scope ∧ a.hash = a.plan.hash)

def Action (t : Tx) (id : Text) : Except Error (Incident.Action × Text) := do
  require (ValidID id) .invalid
  match t.tables.actions.find? (fun r => r.id = id) with
  | none => .error .notFound
  | some r =>
    require (t.trusted r.envelope) .unavailable
    return (r.envelope, r.receiptHash)

/-- The action table after a save: an insert at version one, later a
compare-and-swap on the version. -/
def savedRows (t : Tx) (a : Incident.Action) (expectedVersion : ℤ) (receiptHash : Text) :
    Except Error (List ActionRow) :=
  let row : ActionRow := ⟨a.plan.id, a.plan.incidentID, a.version, a.state, a, receiptHash⟩
  let held (r : ActionRow) : Bool := decide (r.id = a.plan.id ∧ r.version = expectedVersion)
  if expectedVersion = 0 then do
    require (t.tables.incidents.any fun i => i.id = a.plan.incidentID) .invalid
    insertUnique (t.tables.actions.any fun r => r.id = a.plan.id) t.tables.actions row
  else do
    require (t.tables.actions.any held) .conflict
    return t.tables.actions.map fun r =>
      if held r then { row with incidentID := r.incidentID } else r

def SaveAction (t : Tx) (a : Incident.Action) (expectedVersion : ℤ) (receiptHash : Text) :
    Except Error Tx := do
  require (decide (a.plan.scope = t.scope) && ValidID a.plan.id &&
    decide (a.hash = a.plan.hash ∧ a.version = expectedVersion + 1)) .invalid
  require (Action.marshals a) .invalid
  let rows ← t.savedRows a expectedVersion receiptHash
  let events ← insertUnique
    (t.tables.actionEvents.any fun e => e.actionID = a.plan.id ∧ e.version = a.version)
    t.tables.actionEvents ⟨a.plan.id, a.version, a⟩
  return { t with tables := { t.tables with actions := rows, actionEvents := events } }

theorem Action_ok {t : Tx} {id : Text} {a : Incident.Action} {receipt : Text}
    (ok : t.Action id = .ok (a, receipt)) :
    ∃ r, t.tables.actions.find? (fun r => r.id = id) = some r ∧ r.envelope = a ∧
      r.receiptHash = receipt ∧ t.trusted a = true := by
  simp only [Action, bind_ok, require_ok] at ok
  obtain ⟨-, -, rest⟩ := ok
  split at rest
  · simp at rest
  · rename_i r found
    simp only [bind_ok, require_ok, pure_ok, Prod.mk.injEq] at rest
    obtain ⟨-, trusted, rfl, rfl⟩ := rest
    exact ⟨r, found, rfl, rfl, trusted⟩

theorem SaveAction_ok {t t' : Tx} {a : Incident.Action} {expectedVersion : ℤ}
    {receiptHash : Text} (ok : t.SaveAction a expectedVersion receiptHash = .ok t') :
    a.version = expectedVersion + 1 ∧ a.hash = a.plan.hash ∧ a.plan.scope = t.scope ∧
    ∃ rows, t.savedRows a expectedVersion receiptHash = .ok rows ∧
      t' = { t with tables := { t.tables with
        actions := rows
        actionEvents := t.tables.actionEvents ++ [⟨a.plan.id, a.version, a⟩] } } := by
  simp only [SaveAction, bind_ok, require_ok, insertUnique_ok, pure_ok, Bool.and_eq_true,
    decide_eq_true_eq] at ok
  obtain ⟨-, ⟨⟨scope, -⟩, hash, version⟩, -, -, rows, saved, events, ⟨-, rfl⟩, rfl⟩ := ok
  exact ⟨version, hash, scope, rows, saved, rfl⟩

end Tx

end Sre.Storage

namespace Sre.Execution

open Foundation.Json Foundation.Outcome Identity Authorization Incident Storage Privacy

structure Service where
  fleet : Fleet.Service
  enabled : Bool

structure ProposeRequest where
  incidentID : Text
  kind : ActionKind
  evidence : ItemRef
  evidenceHash : Text
  executorID : Text

structure Claim where
  action : Action
  receiptToken : Text

/-- Identifiers that a request generates: the outbox row and its key. -/
structure EventIDs where
  id : Text
  key : Text

def enqueue (t : Tx) (ids : EventIDs) (a : Action) : Except Error Tx :=
  t.Enqueue ids.id ids.key .actionUpdated
    (stringMap [("action_id", a.plan.id), ("incident_id", a.plan.incidentID),
      ("state", a.state.text)])

def Action.advance (a : Action) (state : ActionState) : Action :=
  { a with state := state, version := a.version + 1 }

variable [Platform]

def commitAction (t : Tx) (ids : EventIDs) (a : Action) (expectedVersion : ℤ)
    (receiptHash : Text) : Except Error Tx := do
  let t ← t.SaveAction a expectedVersion receiptHash
  enqueue t ids a

theorem commitAction_ok {t t' : Tx} {ids : EventIDs} {a : Action} {expectedVersion : ℤ}
    {receiptHash : Text} (ok : commitAction t ids a expectedVersion receiptHash = .ok t') :
    a.version = expectedVersion + 1 ∧ a.hash = a.plan.hash ∧ a.plan.scope = t.scope ∧
    ∃ rows outbox, t.savedRows a expectedVersion receiptHash = .ok rows ∧
      t' = { t with tables := { t.tables with
        actions := rows
        actionEvents := t.tables.actionEvents ++ [⟨a.plan.id, a.version, a⟩]
        outbox := outbox } } ∧
      ((outbox = t.tables.outbox ∧
          ∃ r ∈ t.tables.outbox, r.eventKey = ids.key ∧ r.kind = .actionUpdated) ∨
        ∃ canonical v stored,
          CanonicalObject (stringMap [("action_id", a.plan.id), ("incident_id", a.plan.incidentID),
            ("state", a.state.text)]) = .ok canonical ∧
          parse canonical = some v ∧ jsonbIn v = some stored ∧
          outbox = t.tables.outbox ++ [⟨ids.id, ids.key, .actionUpdated, stored, t.now⟩]) := by
  simp only [commitAction, bind_ok] at ok
  obtain ⟨u, saved, queued⟩ := ok
  obtain ⟨version, hash, scope, rows, swapped, rfl⟩ := Tx.SaveAction_ok saved
  refine ⟨version, hash, scope, rows, ?_⟩
  rcases Tx.Enqueue_ok queued with ⟨rfl, taken⟩ | ⟨canonical, v, stored, text, parsed, fits, rfl⟩
  · exact ⟨_, swapped, rfl, Or.inl ⟨rfl, taken⟩⟩
  · exact ⟨_, swapped, rfl, Or.inr ⟨canonical, v, stored, text, parsed, fits, rfl⟩⟩

namespace Service

variable (s : Service)

def available : Except Error Unit := require s.enabled .forbidden

/-- What an observation must be for a pod to be replaced over it. -/
def replaceable (o : Observation) : Option (Provenance × Target) :=
  match o.source, o.target with
  | some source, some target =>
    if o.validate && decide (target.kind = .pod ∧ target.uid ≠ [] ∧ target.resourceVersion ≠ [] ∧
        (o.code = .crashLoop ∨ o.code = .podFailed)) then some (source, target)
    else none
  | _, _ => none

def Propose (t : Tx) (now : Time) (p : Principal) (r : ProposeRequest) (planID : Text)
    (ids : EventIDs) : Except Error (Action × Tx) := do
  s.available
  s.fleet.policy.authorize p t.scope .investigate now
  require (decide (r.kind = .replacePod) && ValidID r.executorID) .invalid
  transact t fun t => do
    let item ← t.Item r.evidence
    require (decide (item.kind = .evidence ∧ item.incidentID = r.incidentID ∧
      item.hash = r.evidenceHash)) .conflict
    let eligible ← t.Eligible r.evidence now
    require eligible .conflict
    let current ← t.CurrentItem item.id
    require (decide (current.version = item.version)) .conflict
    match (parse item.body).bind (decodeObservation false) with
    | none => .error .invalid
    | some o =>
      match replaceable o with
      | none => .error .invalid
      | some (provenance, target) =>
        let executor ← t.AgentByID r.executorID
        let source ← t.AgentByID provenance.agentID
        require (decide (executor.role = .executor ∧ executor.revoked = false ∧
          executor.epoch = s.fleet.epoch ∧ now < executor.expiresAt ∧
          executor.clusterUID = source.clusterUID)) .conflict
        let expiry := [item.validUntil, o.validUntil, source.expiresAt,
          executor.expiresAt].foldl min (now + 5 * minute)
        let plan : ActionPlan := {
          scope := t.scope, id := planID, incidentID := r.incidentID, kind := r.kind
          evidence := r.evidence, evidenceHash := item.hash
          resourceHandle := o.resourceHandle, targetCommitment := target.commitment
          sourceAgentID := provenance.agentID, sourceGeneration := provenance.generation
          executorID := executor.id, executorGeneration := executor.generation
          epoch := s.fleet.epoch, policyVersion := s.fleet.policy.version, expiresAt := expiry }
        let a : Action := {
          plan := plan, hash := plan.hash, version := 1, state := .proposed
          proposedBy := p.id, approvedBy := [], approvalExpiresAt := 0, createdAt := now
          submittedAt := 0, completedAt := 0, outcomeCode := none, reconciledBy := [] }
        let t ← commitAction t ids a 0 []
        return (a, t)

/-- The authority of a plan, asked again at approval and at claim. -/
def current (t : Tx) (now : Time) (a : Action) : Except Error Unit := do
  require (decide (a.hash = a.plan.hash ∧ a.plan.epoch = s.fleet.epoch ∧
    a.plan.policyVersion = s.fleet.policy.version ∧ now < a.plan.expiresAt)) .conflict
  let eligible ← t.Eligible a.plan.evidence now
  require eligible .conflict
  let item ← t.CurrentItem a.plan.evidence.id
  require (decide (item.version = a.plan.evidence.version ∧ item.hash = a.plan.evidenceHash))
    .conflict
  let executor ← t.AgentByID a.plan.executorID
  require (decide (executor.revoked = false ∧ executor.role = .executor ∧
    executor.epoch = a.plan.epoch ∧ executor.generation = a.plan.executorGeneration ∧
    now < executor.expiresAt)) .conflict

def Approve (t : Tx) (now : Time) (p : Principal) (id hash : Text) (ids : EventIDs) :
    Except Error (Action × Tx) := do
  s.available
  s.fleet.policy.authorize p t.scope .approve now
  transact t fun t => do
    let (a, _) ← t.Action id
    require (decide (a.state = .proposed ∧ hash = a.hash)) .conflict
    s.current t now a
    let next : Action :=
      { Action.advance a .approved with approvedBy := p.id, approvalExpiresAt := p.expiresAt }
    let t ← commitAction t ids next a.version []
    return (next, t)

def Claim (t : Tx) (now : Time) (token id receiptToken : Text) (ids : EventIDs) :
    Except Error (Claim × Tx) := do
  s.available
  transact t fun t => do
    let agent ← s.fleet.AuthenticateTx t now token .executor
    let (a, _) ← t.Action id
    require (decide (a.state = .approved ∧ a.approvedBy ≠ [] ∧ now < a.approvalExpiresAt ∧
      a.plan.executorID = agent.id ∧ a.plan.executorGeneration = agent.generation)) .conflict
    s.current t now a
    let next : Action := { Action.advance a .submitted with submittedAt := now }
    let t ← commitAction t ids next a.version (TokenHash receiptToken)
    return (⟨next, receiptToken⟩, t)

/-- The terminal state that an outcome leads to. -/
def terminal : Outcome → ActionState
  | .applied => .applied
  | .ambiguous => .ambiguous
  | .preconditionFailed => .failed
  | .denied => .failed

/-- An unrecognised outcome text is `none`. -/
def Receipt (t : Tx) (now : Time) (token id receipt : Text) (outcome : Option Outcome)
    (ids : EventIDs) : Except Error (Action × Tx) := do
  s.available
  match outcome with
  | none => .error .invalid
  | some outcome =>
    transact t fun t => do
      let agent ← s.fleet.AuthenticateTx t now token .executor
      let (a, stored) ← t.Action id
      require (decide (a.plan.executorID = agent.id ∧
        a.plan.executorGeneration = agent.generation ∧ byteSize receipt = 64 ∧
        stored = TokenHash receipt)) .conflict
      if a.state ≠ .submitted then do
        -- a late receipt acknowledges what is stored, and changes nothing
        require (decide (a.outcomeCode = some outcome) || a.reconciled) .conflict
        return (a, t)
      else
        let next : Action := { Action.advance a (terminal outcome) with
          outcomeCode := some outcome, completedAt := now }
        let t ← commitAction t ids next a.version stored
        return (next, t)

def Cancel (t : Tx) (now : Time) (p : Principal) (id : Text) (ids : EventIDs) :
    Except Error (Action × Tx) := do
  s.available
  s.fleet.policy.authorize p t.scope .approve now
  transact t fun t => do
    let (a, _) ← t.Action id
    require (decide (a.state = .proposed ∨ a.state = .approved)) .conflict
    let next : Action := { Action.advance a .cancelled with completedAt := now }
    let t ← commitAction t ids next a.version []
    return (next, t)

/-- Records uncertainty two minutes after a submission without receipt. -/
def Reconcile (t : Tx) (now : Time) (p : Principal) (id hash : Text) (ids : EventIDs) :
    Except Error (Action × Tx) := do
  s.available
  s.fleet.policy.authorize p t.scope .approve now
  require (ValidID id && decide (byteSize hash = 64)) .invalid
  transact t fun t => do
    let (a, stored) ← t.Action id
    require (decide (a.state = .submitted ∧ a.submittedAt ≠ 0 ∧
      a.submittedAt + 120 * second ≤ now ∧ hash = a.hash)) .conflict
    let next : Action := { Action.advance a .ambiguous with
      outcomeCode := some .ambiguous, reconciledBy := p.id, completedAt := now }
    let t ← commitAction t ids next a.version stored
    return (next, t)

variable {s} {ids : EventIDs} {now : Time} {p : Principal} {t t' : Tx} {b : Action} {id : Text}

omit [Platform] in
@[simp] theorem available_ok {u : Unit} : s.available = .ok u ↔ s.enabled = true := by
  simp [available]

theorem Propose_ok {r : ProposeRequest} {planID : Text} {a : Action}
    (ok : s.Propose t now p r planID ids = .ok (a, t')) :
    a.plan.id = planID ∧ a.version = 1 ∧ a.state = .proposed ∧ a.outcomeCode = none ∧
      a.reconciledBy = [] ∧ commitAction t ids a 0 [] = .ok t' := by
  simp only [Propose, bind_ok, available_ok, require_ok, transact_ok] at ok
  obtain ⟨-, -, -, -, -, -, -, item, -, -, -, eligible, -, -, -, newest, -, -, -, rest⟩ := ok
  split at rest
  · simp at rest
  · rename_i o _
    split at rest
    · simp at rest
    · simp only [bind_ok, require_ok, pure_ok, Prod.mk.injEq] at rest
      obtain ⟨executor, -, source, -, -, -, u, committed, rfl, rfl⟩ := rest
      exact ⟨rfl, rfl, rfl, rfl, rfl, committed⟩

structure Current (s : Service) (t : Tx) (now : Time) (a : Action) : Prop where
  hash : a.hash = a.plan.hash
  epoch : a.plan.epoch = s.fleet.epoch
  policy : a.plan.policyVersion = s.fleet.policy.version
  unexpired : now < a.plan.expiresAt
  eligible : t.Eligible a.plan.evidence now = .ok true
  newest : ∃ item, t.CurrentItem a.plan.evidence.id = .ok item ∧
    item.version = a.plan.evidence.version ∧ item.hash = a.plan.evidenceHash
  executor : ∃ e, t.AgentByID a.plan.executorID = .ok e ∧ e.revoked = false ∧ e.role = .executor ∧
    e.epoch = a.plan.epoch ∧ e.generation = a.plan.executorGeneration ∧ now < e.expiresAt

theorem current_ok {a : Action} {u : Unit} (ok : s.current t now a = .ok u) :
    s.Current t now a := by
  simp only [current, bind_ok, require_ok, decide_eq_true_eq] at ok
  obtain ⟨-, ⟨hash, epoch, policy, unexpired⟩, eligible, asked, -, rfl, item, newest, -,
    ⟨version, evidenceHash⟩, executor, byID, live, role, sameEpoch, generation, alive⟩ := ok
  exact ⟨hash, epoch, policy, unexpired, asked, ⟨item, newest, version, evidenceHash⟩,
    ⟨executor, byID, live, role, sameEpoch, generation, alive⟩⟩

theorem Approve_ok {hash : Text} (ok : s.Approve t now p id hash ids = .ok (b, t')) :
    s.fleet.policy.authorize p t.scope .approve now = .ok () ∧
    ∃ a receipt, t.Action id = .ok (a, receipt) ∧ a.state = .proposed ∧ hash = a.hash ∧
      s.Current t now a ∧
      b = { Action.advance a .approved with approvedBy := p.id, approvalExpiresAt := p.expiresAt } ∧
      commitAction t ids b a.version [] = .ok t' := by
  simp only [Approve, bind_ok, available_ok, require_ok, transact_ok, decide_eq_true_eq,
    pure_ok, Prod.mk.injEq] at ok
  obtain ⟨-, -, ⟨⟩, authorized, -, ⟨a, receipt⟩, read, -, ⟨proposed, same⟩, ⟨⟩, asked, u, committed,
    rfl, rfl⟩ := ok
  exact ⟨authorized, a, receipt, read, proposed, same, current_ok asked, rfl, committed⟩

theorem Claim_ok {token receiptToken : Text} {c : Execution.Claim}
    (ok : s.Claim t now token id receiptToken ids = .ok (c, t')) :
    ∃ agent a receipt, s.fleet.AuthenticateTx t now token .executor = .ok agent ∧
      t.Action id = .ok (a, receipt) ∧ a.state = .approved ∧ a.approvedBy ≠ [] ∧
      now < a.approvalExpiresAt ∧ a.plan.executorID = agent.id ∧
      a.plan.executorGeneration = agent.generation ∧ s.Current t now a ∧
      c = ⟨{ Action.advance a .submitted with submittedAt := now }, receiptToken⟩ ∧
      commitAction t ids c.action a.version (TokenHash receiptToken) = .ok t' := by
  simp only [Claim, bind_ok, available_ok, require_ok, transact_ok, decide_eq_true_eq,
    pure_ok, Prod.mk.injEq] at ok
  obtain ⟨-, -, -, agent, authentic, ⟨a, receipt⟩, read, -,
    ⟨approved, approver, unexpired, executor, generation⟩, ⟨⟩, asked, u, committed, rfl, rfl⟩ := ok
  exact ⟨agent, a, receipt, authentic, read, approved, approver, unexpired, executor, generation,
    current_ok asked, rfl, committed⟩

theorem Receipt_ok {token receipt : Text} {outcome : Option Outcome}
    (ok : s.Receipt t now token id receipt outcome ids = .ok (b, t')) :
    ∃ o agent a stored, outcome = some o ∧
      s.fleet.AuthenticateTx t now token .executor = .ok agent ∧
      t.Action id = .ok (a, stored) ∧ a.plan.executorID = agent.id ∧
      a.plan.executorGeneration = agent.generation ∧ stored = TokenHash receipt ∧
      ((a.state ≠ .submitted ∧ (a.outcomeCode = some o ∨ a.reconciled = true) ∧ b = a ∧ t' = t) ∨
        (a.state = .submitted ∧
          b = { Action.advance a (terminal o) with outcomeCode := some o, completedAt := now } ∧
          commitAction t ids b a.version stored = .ok t')) := by
  simp only [Receipt, bind_ok, available_ok] at ok
  obtain ⟨-, -, rest⟩ := ok
  cases outcome with
  | none => simp at rest
  | some o =>
    simp only [bind_ok, require_ok, transact_ok, decide_eq_true_eq] at rest
    obtain ⟨-, agent, authentic, ⟨a, stored⟩, read, -, ⟨executor, generation, -, hash⟩, rest⟩ :=
      rest
    refine ⟨o, agent, a, stored, rfl, authentic, read, executor, generation, hash, ?_⟩
    by_cases submitted : a.state = .submitted
    · simp only [submitted, ne_eq, not_true_eq_false, ↓reduceIte, bind_ok, pure_ok,
        Prod.mk.injEq] at rest
      obtain ⟨u, committed, rfl, rfl⟩ := rest
      exact Or.inr ⟨submitted, rfl, committed⟩
    · simp only [submitted, ne_eq, not_false_eq_true, ↓reduceIte, bind_ok, require_ok, pure_ok,
        Prod.mk.injEq, Bool.or_eq_true, decide_eq_true_eq] at rest
      obtain ⟨-, acknowledged, rfl, rfl⟩ := rest
      exact Or.inl ⟨submitted, acknowledged, rfl, rfl⟩

theorem Cancel_ok (ok : s.Cancel t now p id ids = .ok (b, t')) :
    ∃ a receipt, t.Action id = .ok (a, receipt) ∧ (a.state = .proposed ∨ a.state = .approved) ∧
      b = { Action.advance a .cancelled with completedAt := now } ∧
      commitAction t ids b a.version [] = .ok t' := by
  simp only [Cancel, bind_ok, available_ok, require_ok, transact_ok, decide_eq_true_eq,
    pure_ok, Prod.mk.injEq] at ok
  obtain ⟨-, -, -, -, -, ⟨a, receipt⟩, read, -, open_, u, committed, rfl, rfl⟩ := ok
  exact ⟨a, receipt, read, open_, rfl, committed⟩

theorem Reconcile_ok {hash : Text} (ok : s.Reconcile t now p id hash ids = .ok (b, t')) :
    ∃ a stored, t.Action id = .ok (a, stored) ∧ a.state = .submitted ∧
      b = { Action.advance a .ambiguous with
        outcomeCode := some .ambiguous, reconciledBy := p.id, completedAt := now } ∧
      commitAction t ids b a.version stored = .ok t' := by
  simp only [Reconcile, bind_ok, available_ok, require_ok, transact_ok, decide_eq_true_eq,
    pure_ok, Prod.mk.injEq] at ok
  obtain ⟨-, -, -, -, -, -, -, ⟨a, stored⟩, read, -, ⟨submitted, -⟩, u, committed, rfl, rfl⟩ := ok
  exact ⟨a, stored, read, submitted, rfl, committed⟩

end Service

end Sre.Execution
