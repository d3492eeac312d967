/- GID: Sre/Orchestrator
   digest: Requests of the orchestrator as one deterministic step, and histories of them. -/

import Sre.Execution
import Sre.Feedback
import Sre.Foundation.Run
import Sre.Storage.Frame

set_option autoImplicit false

namespace Sre.Orchestrator

open Foundation.Json Foundation.Outcome Identity Authorization Incident Storage Fleet Execution List
open Service

/-- The replica that serves a request, with its clock and the database's. -/
structure Call where
  service : Execution.Service
  now : Time
  dbNow : Time

/-- Requests with the identifiers and tokens that serving them generates. -/
inductive Request where
  | createIncident (incident : IncidentRow)
  | updateIncident (id : Text) (expectedVersion : ℤ) (state : IncidentState)
  | putItem (item : Item)
  | quarantine (ref : ItemRef)
  | putGoldenCase (case : GoldenCase)
  | putRecoveryAssessment (assessment : RecoveryAssessment)
  | submitFeedback (principal : Principal) (request : Feedback.Request) (id outboxID : Text)
  | enqueueReport (id key : Text) (payload : Text)
  | retain (days : ℤ) (reports bootstraps : List Text)
  | bootstrap (principal : Principal) (id uid : Text) (role : AgentRole) (token : Text)
  | enroll (bootstrap uid : Text) (role : AgentRole) (token : Text)
  | renew (token : Text) (role : AgentRole) (next : Text)
  | revoke (principal : Principal) (id : Text)
  | propose (principal : Principal) (request : ProposeRequest) (planID : Text) (ids : EventIDs)
  | approve (principal : Principal) (id hash : Text) (ids : EventIDs)
  | claim (token id receiptToken : Text) (ids : EventIDs)
  | receipt (token id receiptToken : Text) (outcome : Option Outcome) (ids : EventIDs)
  | cancel (principal : Principal) (id : Text) (ids : EventIDs)
  | reconcile (principal : Principal) (id hash : Text) (ids : EventIDs)

inductive Response where
  | done
  | credential (c : Credential)
  | action (a : Action)
  | claim (c : Claim)

def Response.credential? : Response → Option Credential
  | .credential c => some c
  | _ => none

def EventIDs.list (ids : EventIDs) : List Text := [ids.id, ids.key]

/-- Random identifiers and tokens drawn while serving a request. -/
def Request.generated : Request → List Text
  | .createIncident _ => []
  | .updateIncident _ _ _ => []
  | .putItem _ => []
  | .quarantine _ => []
  | .putGoldenCase _ => []
  | .putRecoveryAssessment _ => []
  | .submitFeedback _ _ id outboxID => [id, outboxID]
  | .enqueueReport id _ _ => [id]
  | .retain _ _ _ => []
  | .bootstrap _ _ _ _ token => [token]
  | .enroll _ _ _ token => [token]
  | .renew _ _ next => [next]
  | .revoke _ _ => []
  | .propose _ _ planID ids => planID :: EventIDs.list ids
  | .approve _ _ _ ids => EventIDs.list ids
  | .claim _ _ receiptToken ids => receiptToken :: EventIDs.list ids
  | .receipt _ _ _ _ ids => EventIDs.list ids
  | .cancel _ _ ids => EventIDs.list ids
  | .reconcile _ _ _ ids => EventIDs.list ids

variable [Platform]

def answerCredential (r : Except Error (Credential × Tx)) : Except Error (Response × Tx) :=
  r.map fun (c, t) => (.credential c, t)

def answerAction (r : Except Error (Action × Tx)) : Except Error (Response × Tx) :=
  r.map fun (a, t) => (.action a, t)

def answerDone (r : Except Error Tx) : Except Error (Response × Tx) := r.map fun t => (.done, t)

def serve (c : Call) (t : Tx) : Request → Except Error (Response × Tx)
  | .createIncident i => answerDone (transact t fun t => t.CreateIncident i)
  | .updateIncident id version state =>
    answerDone (transact t fun t => t.UpdateIncident id version state)
  | .putItem item => answerDone (transact t fun t => t.PutItem item)
  | .quarantine ref => answerDone (transact t fun t => t.Quarantine ref)
  | .putGoldenCase g => answerDone (transact t fun t => t.PutGoldenCase g)
  | .putRecoveryAssessment a => answerDone (transact t fun t => t.PutRecoveryAssessment a)
  | .submitFeedback p r id outboxID =>
    answerDone (Feedback.Submit c.service.fleet.policy t c.now p r id outboxID)
  | .enqueueReport id key payload =>
    answerDone (transact t fun t => t.Enqueue id key .collectorReport payload)
  | .retain days reports bootstraps =>
    answerDone (transact t fun t => t.Retain days c.now reports bootstraps)
  | .bootstrap p id uid role token =>
    answerCredential (c.service.fleet.Bootstrap t c.now p id uid role token)
  | .enroll bootstrap uid role token =>
    answerCredential (c.service.fleet.Enroll t c.now bootstrap uid role token)
  | .renew token role next => answerCredential (c.service.fleet.Renew t c.now token role next)
  | .revoke p id => answerDone (c.service.fleet.Revoke t c.now p id)
  | .propose p r planID ids => answerAction (c.service.Propose t c.now p r planID ids)
  | .approve p id hash ids => answerAction (c.service.Approve t c.now p id hash ids)
  | .claim token id receiptToken ids =>
    (c.service.Claim t c.now token id receiptToken ids).map fun (c, t) => (.claim c, t)
  | .receipt token id receiptToken outcome ids =>
    answerAction (c.service.Receipt t c.now token id receiptToken outcome ids)
  | .cancel p id ids => answerAction (c.service.Cancel t c.now p id ids)
  | .reconcile p id hash ids => answerAction (c.service.Reconcile t c.now p id hash ids)

/-- A successful request, by the operation that succeeded. -/
inductive Served (c : Call) (t : Tx) : Request → Response → Tx → Prop where
  | createIncident {i : IncidentRow} {t' : Tx} (ok : t.CreateIncident i = .ok t') :
      Served c t (.createIncident i) .done t'
  | updateIncident {id : Text} {version : ℤ} {state : IncidentState} {t' : Tx}
      (ok : t.UpdateIncident id version state = .ok t') :
      Served c t (.updateIncident id version state) .done t'
  | putItem {item : Item} {t' : Tx} (ok : t.PutItem item = .ok t') :
      Served c t (.putItem item) .done t'
  | quarantine {ref : ItemRef} {t' : Tx} (ok : t.Quarantine ref = .ok t') :
      Served c t (.quarantine ref) .done t'
  | putGoldenCase {g : GoldenCase} {t' : Tx} (ok : t.PutGoldenCase g = .ok t') :
      Served c t (.putGoldenCase g) .done t'
  | putRecoveryAssessment {a : RecoveryAssessment} {t' : Tx}
      (ok : t.PutRecoveryAssessment a = .ok t') : Served c t (.putRecoveryAssessment a) .done t'
  | submitFeedback {p : Principal} {r : Feedback.Request} {id outboxID : Text} {t' : Tx}
      (ok : Feedback.Submit c.service.fleet.policy t c.now p r id outboxID = .ok t') :
      Served c t (.submitFeedback p r id outboxID) .done t'
  | enqueueReport {id key : Text} {payload : Text} {t' : Tx}
      (ok : t.Enqueue id key .collectorReport payload = .ok t') :
      Served c t (.enqueueReport id key payload) .done t'
  | retain {days : ℤ} {reports bootstraps : List Text} {t' : Tx}
      (ok : t.Retain days c.now reports bootstraps = .ok t') :
      Served c t (.retain days reports bootstraps) .done t'
  | bootstrap {p : Principal} {id uid : Text} {role : AgentRole} {token : Text}
      {k : Credential} {t' : Tx}
      (ok : c.service.fleet.Bootstrap t c.now p id uid role token = .ok (k, t')) :
      Served c t (.bootstrap p id uid role token) (.credential k) t'
  | enroll {bootstrap uid : Text} {role : AgentRole} {token : Text} {k : Credential} {t' : Tx}
      (ok : c.service.fleet.Enroll t c.now bootstrap uid role token = .ok (k, t')) :
      Served c t (.enroll bootstrap uid role token) (.credential k) t'
  | renew {token : Text} {role : AgentRole} {next : Text} {k : Credential} {t' : Tx}
      (ok : c.service.fleet.Renew t c.now token role next = .ok (k, t')) :
      Served c t (.renew token role next) (.credential k) t'
  | revoke {p : Principal} {id : Text} {t' : Tx}
      (ok : c.service.fleet.Revoke t c.now p id = .ok t') : Served c t (.revoke p id) .done t'
  | propose {p : Principal} {r : ProposeRequest} {planID : Text} {ids : EventIDs} {a : Action}
      {t' : Tx} (ok : c.service.Propose t c.now p r planID ids = .ok (a, t')) :
      Served c t (.propose p r planID ids) (.action a) t'
  | approve {p : Principal} {id hash : Text} {ids : EventIDs} {a : Action} {t' : Tx}
      (ok : c.service.Approve t c.now p id hash ids = .ok (a, t')) :
      Served c t (.approve p id hash ids) (.action a) t'
  | claim {token id receiptToken : Text} {ids : EventIDs} {k : Claim} {t' : Tx}
      (ok : c.service.Claim t c.now token id receiptToken ids = .ok (k, t')) :
      Served c t (.claim token id receiptToken ids) (.claim k) t'
  | receipt {token id receiptToken : Text} {outcome : Option Outcome} {ids : EventIDs}
      {a : Action} {t' : Tx}
      (ok : c.service.Receipt t c.now token id receiptToken outcome ids = .ok (a, t')) :
      Served c t (.receipt token id receiptToken outcome ids) (.action a) t'
  | cancel {p : Principal} {id : Text} {ids : EventIDs} {a : Action} {t' : Tx}
      (ok : c.service.Cancel t c.now p id ids = .ok (a, t')) :
      Served c t (.cancel p id ids) (.action a) t'
  | reconcile {p : Principal} {id hash : Text} {ids : EventIDs} {a : Action} {t' : Tx}
      (ok : c.service.Reconcile t c.now p id hash ids = .ok (a, t')) :
      Served c t (.reconcile p id hash ids) (.action a) t'

variable {r : Response} {t t' : Tx} {table : Table}

theorem serve_ok {c : Call} {q : Request} (ok : serve c t q = .ok (r, t')) : Served c t q r t' := by
  cases q <;>
    obtain ⟨a, succeeded, answer⟩ := map_ok ok <;>
    obtain ⟨rfl, rfl⟩ := answer
  case createIncident => exact .createIncident (transact_ok.mp succeeded).2
  case updateIncident => exact .updateIncident (transact_ok.mp succeeded).2
  case putItem => exact .putItem (transact_ok.mp succeeded).2
  case quarantine => exact .quarantine (transact_ok.mp succeeded).2
  case putGoldenCase => exact .putGoldenCase (transact_ok.mp succeeded).2
  case putRecoveryAssessment => exact .putRecoveryAssessment (transact_ok.mp succeeded).2
  case submitFeedback => exact .submitFeedback succeeded
  case enqueueReport => exact .enqueueReport (transact_ok.mp succeeded).2
  case retain => exact .retain (transact_ok.mp succeeded).2
  case bootstrap => exact .bootstrap succeeded
  case enroll => exact .enroll succeeded
  case renew => exact .renew succeeded
  case revoke => exact .revoke succeeded
  case propose => exact .propose succeeded
  case approve => exact .approve succeeded
  case claim => exact .claim succeeded
  case receipt => exact .receipt succeeded
  case cancel => exact .cancel succeeded
  case reconcile => exact .reconcile succeeded

/-- The tables that serving a request writes. -/
def Request.writes : Request → List Table
  | .createIncident _ => [.incidents]
  | .updateIncident _ _ _ => [.incidents]
  | .putItem _ => [.items, .itemParents, .historicalDependencies, .itemEligibility]
  | .quarantine _ => [.itemEligibility]
  | .putGoldenCase _ => [.goldenCases]
  | .putRecoveryAssessment _ => [.recoveryAssessments]
  | .submitFeedback _ _ _ _ => [.feedback, .itemEligibility, .outbox]
  | .enqueueReport _ _ _ => [.outbox]
  | .retain _ _ _ => [.outbox, .agentBootstraps, .diagnosticJobs]
  | .bootstrap _ _ _ _ _ => [.agentBootstraps]
  | .enroll _ _ _ _ => [.agentBootstraps, .agents]
  | .renew _ _ _ => [.agents]
  | .revoke _ _ => [.agents, .agentRevocations]
  | .propose _ _ _ _ => [.actions, .actionEvents, .outbox]
  | .approve _ _ _ _ => [.actions, .actionEvents, .outbox]
  | .claim _ _ _ _ => [.actions, .actionEvents, .outbox]
  | .receipt _ _ _ _ _ => [.actions, .actionEvents, .outbox]
  | .cancel _ _ _ => [.actions, .actionEvents, .outbox]
  | .reconcile _ _ _ _ => [.actions, .actionEvents, .outbox]

/-- The kinds of the events that it adds or removes. -/
def Request.events : Request → List EventKind
  | .submitFeedback _ _ _ _ => [.feedbackRecorded]
  | .enqueueReport _ _ _ => [.collectorReport]
  | .retain _ _ _ => [.collectorReport]
  | .propose _ _ _ _ => [.actionUpdated]
  | .approve _ _ _ _ => [.actionUpdated]
  | .claim _ _ _ _ => [.actionUpdated]
  | .receipt _ _ _ _ _ => [.actionUpdated]
  | .cancel _ _ _ => [.actionUpdated]
  | .reconcile _ _ _ _ => [.actionUpdated]
  | _ => []

private theorem commitAction_writes {ids : EventIDs} {a : Action} {version : ℤ} {receipt : Text}
    (ok : commitAction t ids a version receipt = .ok t') :
    Tx.Writes [.actions, .actionEvents, .outbox] [.actionUpdated] t t' := by
  simp only [commitAction, bind_ok] at ok
  obtain ⟨u, saved, queued⟩ := ok
  obtain ⟨-, -, -, rows, -, rfl⟩ := Tx.SaveAction_ok saved
  refine Tx.Writes.trans ?_ ((Tx.Enqueue_writes queued).mono (by decide))
  have stored : Tx.Writes [.actions, .actionEvents] [] t { t with tables := { t.tables with
      actions := rows
      actionEvents := t.tables.actionEvents ++ [⟨a.plan.id, a.version, a⟩] } } :=
    .of_tables (by rintro ⟨⟩ <;> first | exact .inl rfl | simp)
  exact stored.mono (by decide)

private theorem Submit_writes {policy : Policy} {now : Time} {p : Principal}
    {q : Feedback.Request} {id outboxID : Text}
    (ok : Feedback.Submit policy t now p q id outboxID = .ok t') :
    Tx.Writes [.feedback, .itemEligibility, .outbox] [.feedbackRecorded] t t' := by
  rcases Feedback.Submit_ok ok with rfl | ⟨row, u, payload, disputed, queued⟩
  · exact Tx.Writes.refl _ _ _
  · refine Tx.Writes.trans ?_ ((Tx.Enqueue_writes queued).mono (by decide))
    have recorded : Tx.Writes [.feedback] []
        t { t with tables := { t.tables with feedback := t.tables.feedback ++ [row] } } :=
      .of_tables (by rintro ⟨⟩ <;> first | exact .inl rfl | simp)
    rcases disputed with rfl | quarantined
    · exact recorded.mono (by decide)
    · exact (recorded.mono (by decide)).trans
        ((Tx.Quarantine_writes quarantined).mono (by decide))

/-- Whatever a request is not listed with, it leaves as it was. -/
theorem Served.writes {c : Call} {q : Request} (served : Served c t q r t') :
    Tx.Writes q.writes q.events t t' := by
  cases served with
  | createIncident ok => exact Tx.CreateIncident_writes ok
  | updateIncident ok => exact Tx.UpdateIncident_writes ok
  | putItem ok => exact Tx.PutItem_writes ok
  | quarantine ok => exact Tx.Quarantine_writes ok
  | putGoldenCase ok => exact Tx.PutGoldenCase_writes ok
  | putRecoveryAssessment ok => exact Tx.PutRecoveryAssessment_writes ok
  | submitFeedback ok => exact Submit_writes ok
  | enqueueReport ok => exact Tx.Enqueue_writes ok
  | retain ok => exact Tx.Retain_writes ok
  | bootstrap ok =>
    obtain ⟨-, rfl⟩ := Bootstrap_ok ok
    exact .of_tables (by rintro ⟨⟩ <;> first | exact .inl rfl | simp [Request.writes])
  | enroll ok =>
    obtain ⟨b, -, -, -, rfl, -⟩ := Tx.ConsumeBootstrap_ok (Enroll_ok ok).2.2
    exact .of_tables (by rintro ⟨⟩ <;> first | exact .inl rfl | simp [Request.writes])
  | renew ok =>
    obtain ⟨-, agent, -, rotated⟩ := Renew_ok ok
    obtain ⟨-, -, rfl, -⟩ := Tx.RotateAgent_ok rotated
    exact .of_tables (by rintro ⟨⟩ <;> first | exact .inl rfl | simp [Request.writes])
  | revoke ok =>
    obtain ⟨row, -, -, rfl⟩ := Tx.RevokeAgent_ok (Revoke_ok ok)
    exact .of_tables (by rintro ⟨⟩ <;> first | exact .inl rfl | simp [Request.writes])
  | propose ok => exact commitAction_writes (Propose_ok ok).2.2.2.2.2
  | approve ok =>
    obtain ⟨-, a, receipt, -, -, -, -, -, committed⟩ := Approve_ok ok
    exact commitAction_writes committed
  | claim ok =>
    obtain ⟨agent, a, receipt, -, -, -, -, -, -, -, -, -, committed⟩ := Claim_ok ok
    exact commitAction_writes committed
  | receipt ok =>
    obtain ⟨o, agent, a, stored, -, -, -, -, -, -, rest⟩ := Receipt_ok ok
    rcases rest with ⟨-, -, -, rfl⟩ | ⟨-, -, committed⟩
    · exact Tx.Writes.refl _ _ _
    · exact commitAction_writes committed
  | cancel ok =>
    obtain ⟨a, receipt, -, -, -, committed⟩ := Cancel_ok ok
    exact commitAction_writes committed
  | reconcile ok =>
    obtain ⟨a, stored, -, -, -, committed⟩ := Reconcile_ok ok
    exact commitAction_writes committed

structure Entry where
  call : Call
  request : Request

def Call.tx (c : Call) (scope : Scope) (tables : Tables) : Tx :=
  ⟨scope, c.service.fleet.epoch, c.dbNow, tables⟩

omit [Platform] in
@[simp] theorem Call.tx_tables (c : Call) (scope : Scope) (s : Tables) :
    (c.tx scope s).tables = s := rfl

/-- The response and the committed tables, or the error of a rolled back transaction. -/
def Entry.outcome (scope : Scope) (e : Entry) (tables : Tables) :
    Except Error (Response × Tables) :=
  (serve e.call (e.call.tx scope tables) e.request).map fun (r, t) => (r, t.tables)

def Entry.after (scope : Scope) (e : Entry) (tables : Tables) : Tables :=
  match e.outcome scope tables with
  | .error _ => tables
  | .ok (_, next) => next

variable {e : Entry}

theorem Entry.outcome_ok {scope : Scope} {s t : Tables} (ok : e.outcome scope s = .ok (r, t)) :
    ∃ u, u.tables = t ∧ Served e.call (e.call.tx scope s) e.request r u := by
  obtain ⟨⟨answer, u⟩, served, same⟩ := map_ok ok
  simp only [Prod.mk.injEq] at same
  exact ⟨u, same.2, same.1 ▸ serve_ok served⟩

theorem Entry.after_cases (scope : Scope) (e : Entry) (s : Tables) :
    e.after scope s = s ∨ ∃ r u, e.outcome scope s = .ok (r, u.tables) ∧
      e.after scope s = u.tables ∧ Served e.call (e.call.tx scope s) e.request r u := by
  cases answered : e.outcome scope s with
  | error err => exact Or.inl (by simp [Entry.after, answered])
  | ok answer =>
    obtain ⟨u, same, served⟩ := Entry.outcome_ok (r := answer.1) (t := answer.2) answered
    exact Or.inr ⟨answer.1, u, by rw [same], by simp [Entry.after, answered, same], served⟩

/-- The tables after a history, whose newest entry comes first. -/
def replay (scope : Scope) : List Entry → Tables
  | [] => .empty
  | e :: past => e.after scope (replay scope past)

/-- Everything generated along the history is new. -/
def Fresh (history : List Entry) : Prop :=
  (history.flatMap fun e => e.request.generated).Nodup

omit [Platform] in
theorem Fresh.past {past : List Entry} (fresh : Fresh (e :: past)) : Fresh past := by
  rw [Fresh, flatMap_cons, nodup_append] at fresh
  exact fresh.2.1

omit [Platform] in
theorem Fresh.older {later past : List Entry} (fresh : Fresh (later ++ past)) : Fresh past := by
  rw [Fresh, flatMap_append, nodup_append] at fresh
  exact fresh.2.1

omit [Platform] in
theorem Fresh.not_drawn_before {past : List Entry} {d : Entry} {x : Text}
    (fresh : Fresh (e :: past)) (drawn : x ∈ e.request.generated) (older : d ∈ past) :
    x ∉ d.request.generated := by
  have whole : (([] ++ e :: past).flatMap fun e : Entry => e.request.generated).Nodup := fresh
  have once := Foundation.History.not_drawn_twice whole drawn older
  exact once

omit [Platform] in
theorem Fresh.position_unique {later past later' past' : List Entry} {d : Entry} {x : Text}
    (fresh : Fresh (later ++ e :: past)) (same : later ++ e :: past = later' ++ d :: past')
    (first : x ∈ e.request.generated) (second : x ∈ d.request.generated) :
    later = later' ∧ e = d ∧ past = past' :=
  Foundation.History.position_unique fresh same first second

def Commits (scope : Scope) (past : List Entry) (e : Entry) (r : Response) : Prop :=
  e.outcome scope (replay scope past) = .ok (r, replay scope (e :: past))

theorem Commits.served {scope : Scope} {past : List Entry} {e : Entry} {r : Response}
    (commits : Commits scope past e r) :
    ∃ u, replay scope (e :: past) = u.tables ∧
      Served e.call (e.call.tx scope (replay scope past)) e.request r u := by
  obtain ⟨u, same, served⟩ := Entry.outcome_ok commits
  exact ⟨u, same.symm, served⟩

theorem Commits.unique {scope : Scope} {past : List Entry} {r' : Response}
    (first : Commits scope past e r) (second : Commits scope past e r') : r = r' := by
  rw [Commits, first, Except.ok.injEq, Prod.mk.injEq] at second
  exact second.1

theorem Commits.of_eval {α : Type} {scope : Scope} {past : List Entry} {e : Entry}
    {f : Response → Option α} {a : α}
    (value : (e.outcome scope (replay scope past)).toOption.bind (fun x => f x.1) = some a) :
    ∃ r, Commits scope past e r ∧ f r = some a := by
  obtain ⟨⟨r, s⟩, answered, projected⟩ := Option.bind_eq_some_iff.mp value
  cases outcome : e.outcome scope (replay scope past) with
  | error err => simp [outcome, Except.toOption] at answered
  | ok answer =>
    simp only [outcome, Except.toOption, Option.some.injEq] at answered
    refine ⟨r, ?_, projected⟩
    rw [Commits]
    simp [replay, Entry.after, outcome, answered]

theorem Commits.of_isSome {scope : Scope} {past : List Entry} {e : Entry}
    (succeeds : (e.outcome scope (replay scope past)).toOption.isSome = true) :
    ∃ r, Commits scope past e r := by
  obtain ⟨⟨r, s⟩, outcome⟩ := ok_of_isSome succeeds
  refine ⟨r, ?_⟩
  rw [Commits]
  simp [replay, Entry.after, outcome]

theorem replay_cases (scope : Scope) (e : Entry) (past : List Entry) :
    (replay scope (e :: past) = replay scope past ∧ ∀ r, ¬ Commits scope past e r) ∨
    ∃ r u, Commits scope past e r ∧ replay scope (e :: past) = u.tables ∧
      Served e.call (e.call.tx scope (replay scope past)) e.request r u := by
  cases answered : e.outcome scope (replay scope past) with
  | error err =>
    refine Or.inl ⟨by simp [replay, Entry.after, answered], fun r commits => ?_⟩
    simp [Commits, answered] at commits
  | ok answer =>
    obtain ⟨r, s⟩ := answer
    have commits : Commits scope past e r := by
      rw [Commits, answered]
      simp [replay, Entry.after, answered]
    obtain ⟨u, same, served⟩ := commits.served
    exact Or.inr ⟨r, u, commits, same, served⟩

end Sre.Orchestrator
