/- GID: Sre/Server
   digest: Every transaction that the orchestrator runs, as one step, and histories of them. -/

import Sre.Orchestrator
import Sre.Collection
import Sre.Stewardship
import Sre.Investigation.Queue
import Sre.Delivery

set_option autoImplicit false

namespace Sre.Server

open Foundation.Json Foundation.Outcome Identity Authorization Incident Storage Collection List
open Knowledge (CandidateRequest)
open Stewardship (AdjudicateRequest CorroborateRequest CorroborateIDs)
open Investigation (AgentInput Check EvidenceSnapshot RunResult RunWork CompleteIDs)
open Delivery (Route)

/-- The services of a replica. -/
structure Config where
  execution : Execution.Service
  investigation : Investigation.Service
  delivery : Delivery.Service

def Config.policy (c : Config) : Policy := c.execution.fleet.policy

/-- One transaction: the replica that runs it with its clock, the database's instant of the
transaction, and what the statements that read the clock anew read. -/
structure Call where
  config : Config
  now : Time
  dbNow : Time
  clock : ℕ → Time

def Call.claimClock (c : Call) : ClaimClock := ⟨c.clock 0, c.clock 1, c.clock 2, c.clock 3⟩

/-- Transactions with the identifiers and tokens that they generate. -/
inductive Request where
  | core (q : Orchestrator.Request)
  | retain (days : ℤ) (reports bootstraps : List Text)
  | ingest (token : Text) (report : Report) (ids : IngestIDs)
  | falcoWebhook (body newID itemID : Text)
  | closeIncident (p : Principal) (incidentID id eventID : Text)
  | assessRecovery (p : Principal) (incidentID id eventID : Text)
  | setRecoveryProfile (p : Principal) (profile : RecoveryProfile)
  | candidate (p : Principal) (r : CandidateRequest) (id : Text)
  | publish (p : Principal) (id : Text) (version : ℤ) (eventKey eventID : Text)
  | retire (p : Principal) (id : Text) (version : ℤ)
  | corroborate (p : Principal) (r : CorroborateRequest) (ids : CorroborateIDs)
  | adjudicate (p : Principal) (r : AdjudicateRequest) (id eventID : Text)
  | enqueueJob (p : Principal) (incidentID profileID jobID nonce : Text)
  | cancelJob (p : Principal) (id : Text)
  | claimDiagnostic (token : Text) (profiles : List Text) (attempt : Text)
  | startDiagnostic (token attempt : Text) (input : AgentInput)
  | heartbeat (token id attempt : Text)
  | reserveRefresh (token id attempt : Text) (checks : List Check)
  | collectChecks (incidentID : Text) (checks : List (Check × Text))
      (evidence : List EvidenceSnapshot)
  | storeRefresh (token attempt : Text) (input : AgentInput)
  | completeAgent (token id attempt : Text) (submitted : RunResult) (ids : CompleteIDs)
  | startRun (p : Principal) (runID incidentID profileID : Text)
  | interruptRun (runID : Text)
  | commitRun (p : Principal) (work : RunWork) (observedAt : Time) (claimID eventID : Text)
  | registerRoute (id : Text)
  | dispatch (route : Route) (lease : Text)
  | finishNotification (n : NotificationRow) (delivered : Bool)
  | acknowledge (p : Principal) (id eventID : Text)
  | createInteraction (p : Principal) (r : InteractionRequest) (eventID : Text)
  | answerInteraction (p : Principal) (id : Text) (version : ℤ) (answer eventID : Text)
  | setEnvironment (p : Principal) (context : EnvironmentContext)

inductive Response where
  | done
  | core (r : Orchestrator.Response)
  | goldenCase (g : GoldenCase)
  | item (i : Item)
  | job (j : DiagnosticJob)
  | lease (l : DiagnosticLease)
  | input (i : AgentInput)
  | notification (n : Option NotificationRow)

/-- Requests of the core that a handler of its own makes; the other ones are storage
operations that the transactions here perform. -/
def handled : Orchestrator.Request → Bool
  | .submitFeedback _ _ _ _ | .bootstrap _ _ _ _ _ | .enroll _ _ _ _
  | .renew _ _ _ | .revoke _ _ | .propose _ _ _ _ | .approve _ _ _ _ | .claim _ _ _ _
  | .receipt _ _ _ _ _ | .cancel _ _ _ | .reconcile _ _ _ _ => true
  | _ => false

def Request.generated : Request → List Text
  | .core q => q.generated
  | .ingest _ _ ids => [ids.report, ids.incident, ids.created, ids.assessment, ids.assessed,
      ids.change, ids.changed]
  | .falcoWebhook _ newID itemID => [newID, itemID]
  | .closeIncident _ _ id eventID | .assessRecovery _ _ id eventID => [id, eventID]
  | .candidate _ _ id => [id]
  | .publish _ _ _ eventKey eventID => [eventKey, eventID]
  | .corroborate _ _ ids => [ids.item, ids.adjudication, ids.key, ids.event]
  | .adjudicate _ _ id eventID => [id, eventID]
  | .enqueueJob _ _ _ jobID nonce => [jobID, nonce]
  | .claimDiagnostic _ _ attempt => [attempt]
  | .collectChecks _ checks _ => checks.map Prod.snd
  | .completeAgent _ _ _ _ ids => [ids.claim, ids.interaction, ids.asked, ids.recorded]
  | .startRun _ runID _ _ => [runID]
  | .commitRun _ _ _ claimID eventID => [claimID, eventID]
  | .dispatch _ lease => [lease]
  | .acknowledge _ _ eventID | .createInteraction _ _ eventID
  | .answerInteraction _ _ _ _ eventID => [eventID]
  | .retain _ _ _ | .setRecoveryProfile _ _ | .retire _ _ _ | .cancelJob _ _ | .startDiagnostic _ _ _
  | .heartbeat _ _ _ | .reserveRefresh _ _ _ _ | .storeRefresh _ _ _ | .interruptRun _
  | .registerRoute _ | .finishNotification _ _ | .setEnvironment _ _ => []

def done (r : Except Error Tx) : Except Error (Response × Tx) := r.map fun t => (.done, t)

def answer {α : Type} (respond : α → Response) (r : Except Error (α × Tx)) :
    Except Error (Response × Tx) :=
  r.map fun (a, t) => (respond a, t)

variable [Platform]

def serve (c : Call) (t : Tx) : Request → Except Error (Response × Tx)
  | .core q => do
    require (handled q) .invalid
    answer .core (Orchestrator.serve ⟨c.config.execution, c.now, c.dbNow⟩ t q)
  | .retain days reports bootstraps =>
    done (transact t fun t => t.Retain days c.now reports bootstraps)
  | .ingest token report ids =>
    done (Collection.Ingest c.config.execution.fleet t c.now token report ids)
  | .falcoWebhook body newID itemID => done (Collection.falcoWebhook t c.now body newID itemID)
  | .closeIncident p incidentID id eventID =>
    done (Recovery.closeIncident c.config.policy t c.now p incidentID id eventID)
  | .assessRecovery p incidentID id eventID =>
    answer (fun _ => .done) (Recovery.Assess c.config.policy t c.now p incidentID id eventID)
  | .setRecoveryProfile p profile => done (Recovery.SetProfile c.config.policy t c.now p profile)
  | .candidate p r id => answer .goldenCase (Knowledge.Candidate c.config.policy t c.now p r id)
  | .publish p id version eventKey eventID =>
    answer .goldenCase (Knowledge.Publish c.config.policy t c.now p id version eventKey eventID)
  | .retire p id version =>
    answer .goldenCase (Knowledge.Retire c.config.policy t c.now p id version)
  | .corroborate p r ids =>
    answer .item (Stewardship.Corroborate c.config.policy t c.now p r ids)
  | .adjudicate p r id eventID =>
    answer (fun _ => .done) (Stewardship.Adjudicate c.config.policy t c.now p r id eventID)
  | .enqueueJob p incidentID profileID jobID nonce =>
    answer .job
      (Investigation.Enqueue c.config.investigation t c.now p incidentID profileID jobID nonce)
  | .cancelJob p id => done (Investigation.Cancel c.config.investigation t c.now p id)
  | .claimDiagnostic token profiles attempt =>
    answer .lease (Investigation.claimDiagnostic c.config.execution.fleet t c.now token profiles
      attempt c.claimClock)
  | .startDiagnostic token attempt input =>
    done (Investigation.startDiagnostic c.config.execution.fleet c.config.investigation t c.now
      token attempt input c.clock)
  | .heartbeat token id attempt =>
    answer (fun _ => .done) (Investigation.HeartbeatAgent c.config.execution.fleet
      c.config.investigation t c.now token id attempt c.clock)
  | .reserveRefresh token id attempt checks =>
    answer .input (Investigation.reserveRefresh c.config.execution.fleet c.config.investigation
      t c.now token id attempt checks c.clock)
  | .collectChecks incidentID checks evidence =>
    done (Investigation.collectChecks t c.now incidentID checks evidence)
  | .storeRefresh token attempt input =>
    done (Investigation.storeRefresh c.config.execution.fleet c.config.investigation t c.now
      token attempt input c.clock)
  | .completeAgent token id attempt submitted ids =>
    answer .item (Investigation.CompleteAgent c.config.execution.fleet c.config.investigation t
      c.now token id attempt submitted ids c.clock)
  | .startRun p runID incidentID profileID =>
    done (Investigation.startRun c.config.investigation t c.now p runID incidentID profileID)
  | .interruptRun runID => done (Investigation.interruptRun t runID)
  | .commitRun p work observedAt claimID eventID =>
    answer .item
      (Investigation.commitRun c.config.investigation t c.now p work observedAt claimID eventID)
  | .registerRoute id => done (Delivery.registerRoute t id)
  | .dispatch route lease =>
    answer .notification (Delivery.dispatch c.config.delivery t c.now route lease)
  | .finishNotification n delivered => done (Delivery.finish t n delivered c.now)
  | .acknowledge p id eventID => done (Delivery.Acknowledge c.config.delivery t c.now p id eventID)
  | .createInteraction p r eventID =>
    done (Interaction.createInteraction c.config.policy t c.now p r eventID)
  | .answerInteraction p id version answer eventID =>
    done (Interaction.answerInteraction c.config.policy t c.now p id version answer (c.clock 0)
      eventID)
  | .setEnvironment p context => done (Interaction.Set c.config.policy t c.now p context)

/-! ## Frames -/

/-- The tables that the core's own handlers write. -/
def coreTables : List Table :=
  [.feedback, .itemEligibility, .outbox, .agentBootstraps, .agents, .agentRevocations, .actions,
    .actionEvents]

/-- The events that they add. -/
def coreEvents : List EventKind := [.actionUpdated, .feedbackRecorded]

/-- The tables that a transaction can write. -/
def Request.tables : Request → List Table
  | .core _ => coreTables
  | .retain _ _ _ => [.outbox, .agentBootstraps, .diagnosticJobs]
  | .ingest _ _ _ => reportTables
  | .falcoWebhook _ _ _ => .incidents :: itemTables
  | .closeIncident _ _ _ _ => [.recoveryAssessments, .outbox, .incidents]
  | .assessRecovery _ _ _ _ => [.recoveryAssessments, .outbox]
  | .setRecoveryProfile _ _ => [.recoveryProfiles]
  | .candidate _ _ _ | .retire _ _ _ => [.goldenCases]
  | .publish _ _ _ _ _ => [.goldenCases, .outbox]
  | .corroborate _ _ _ => [.items, .itemParents, .historicalDependencies, .itemEligibility,
      .adjudications, .outbox]
  | .adjudicate _ _ _ _ => [.adjudications, .itemEligibility, .outbox]
  | .enqueueJob _ _ _ _ _ | .cancelJob _ _ | .claimDiagnostic _ _ _ | .startDiagnostic _ _ _ =>
    [.diagnosticJobs, .investigationRuns]
  | .heartbeat _ _ _ | .reserveRefresh _ _ _ _ | .storeRefresh _ _ _ => [.diagnosticJobs]
  | .collectChecks _ _ _ => [.collectionChecks]
  | .completeAgent _ _ _ _ _ =>
    .diagnosticJobs :: .interactions :: .outbox :: Investigation.claimTables
  | .startRun _ _ _ _ | .interruptRun _ => [.investigationRuns]
  | .commitRun _ _ _ _ _ => .outbox :: Investigation.claimTables
  | .registerRoute _ => [.notificationRoutes]
  | .dispatch _ _ | .finishNotification _ _ => [.notifications]
  | .acknowledge _ _ _ => [.notifications, .outbox]
  | .createInteraction _ _ _ | .answerInteraction _ _ _ _ _ => [.interactions, .outbox]
  | .setEnvironment _ _ => [.environmentContexts]

/-- The kinds of the events that it can add or remove. -/
def Request.events : Request → List EventKind
  | .core _ => coreEvents
  | .retain _ _ _ => [.collectorReport]
  | .ingest _ _ _ => reportEvents
  | .closeIncident _ _ _ _ | .assessRecovery _ _ _ _ => [.recoveryAssessed]
  | .publish _ _ _ _ _ => [.knowledgePublished]
  | .corroborate _ _ _ => [.claimCorroborated]
  | .adjudicate _ _ _ _ => [.adjudicationRecorded]
  | .completeAgent _ _ _ _ _ => [.clarificationRequested, .investigationRecorded]
  | .commitRun _ _ _ _ _ => [.investigationRecorded]
  | .acknowledge _ _ _ => [.notificationAcknowledged]
  | .createInteraction _ _ _ => [.clarificationRequested]
  | .answerInteraction _ _ _ _ _ => [.clarificationAnswered]
  | _ => []

private theorem core_writes {c : Orchestrator.Call} {t t' : Tx} {q : Orchestrator.Request}
    {r : Orchestrator.Response} (own : handled q = true)
    (served : Orchestrator.Served c t q r t') : Tx.Writes coreTables coreEvents t t' := by
  refine served.writes.mono ?_
  cases q <;> simp_all [handled, Orchestrator.Request.writes, Orchestrator.Request.events,
    coreTables, coreEvents]

variable {r : Response}

omit [Platform] in
theorem done_ok {x : Except Error Tx} {t : Tx} (ok : done x = .ok (r, t)) :
    x = .ok t ∧ r = .done := by
  obtain ⟨u, succeeded, pair⟩ := map_ok ok
  obtain ⟨rfl, rfl⟩ := Prod.mk.inj pair
  exact ⟨succeeded, rfl⟩

omit [Platform] in
theorem answer_ok {α : Type} {respond : α → Response} {x : Except Error (α × Tx)} {t : Tx}
    (ok : answer respond x = .ok (r, t)) : ∃ a, x = .ok (a, t) ∧ r = respond a := by
  obtain ⟨⟨a, u⟩, succeeded, pair⟩ := map_ok ok
  obtain ⟨rfl, rfl⟩ := Prod.mk.inj pair
  exact ⟨a, succeeded, rfl⟩

theorem core_served {c : Call} {t t' : Tx} {q : Orchestrator.Request}
    (ok : serve c t (.core q) = .ok (r, t')) : handled q = true ∧
      ∃ answer, r = .core answer ∧
        Orchestrator.Served ⟨c.config.execution, c.now, c.dbNow⟩ t q answer t' := by
  simp only [serve, bind_ok, require_ok] at ok
  obtain ⟨-, own, served⟩ := ok
  obtain ⟨response, succeeded, rfl⟩ := answer_ok served
  exact ⟨own, response, rfl, Orchestrator.serve_ok succeeded⟩

/-- Whatever a transaction is not listed with, it leaves as it was. -/
theorem serve_writes {c : Call} {t t' : Tx} {q : Request} (ok : serve c t q = .ok (r, t')) :
    Tx.Writes q.tables q.events t t' := by
  cases q with
  | core q =>
    obtain ⟨own, response, -, served⟩ := core_served ok
    exact core_writes own served
  | retain days reports bootstraps => exact Tx.Retain_writes (transact_ok.mp (done_ok ok).1).2
  | ingest token report ids => exact Ingest_writes (done_ok ok).1
  | falcoWebhook body newID itemID => exact falcoWebhook_writes (done_ok ok).1
  | closeIncident p incidentID id eventID => exact Recovery.closeIncident_writes (done_ok ok).1
  | assessRecovery p incidentID id eventID =>
    rw [serve] at ok
    obtain ⟨a, assessed, -⟩ := answer_ok ok
    exact Recovery.AssessTx_writes (Recovery.Assess_ok assessed)
  | setRecoveryProfile p profile => exact Recovery.SetProfile_ok (done_ok ok).1
  | candidate p r id =>
    obtain ⟨g, put, -⟩ := answer_ok ok
    exact Tx.PutGoldenCase_writes (Knowledge.Candidate_ok put).2.2
  | publish p id version eventKey eventID =>
    obtain ⟨g, done, -⟩ := answer_ok ok
    exact Knowledge.Publish_writes done
  | retire p id version =>
    obtain ⟨g, done, -⟩ := answer_ok ok
    obtain ⟨old, -, -, -, put⟩ := Knowledge.Retire_ok done
    exact Tx.PutGoldenCase_writes put
  | corroborate p r ids =>
    obtain ⟨item, done, -⟩ := answer_ok ok
    exact Stewardship.Corroborate_writes done
  | adjudicate p r id eventID =>
    rw [serve] at ok
    obtain ⟨a, done, -⟩ := answer_ok ok
    exact Stewardship.Adjudicate_writes done
  | enqueueJob p incidentID profileID jobID nonce =>
    obtain ⟨job, done, -⟩ := answer_ok ok
    exact Investigation.Enqueue_writes done
  | cancelJob p id => exact Investigation.Cancel_writes (done_ok ok).1
  | claimDiagnostic token profiles attempt =>
    obtain ⟨lease, done, -⟩ := answer_ok ok
    obtain ⟨a, claimed⟩ := Investigation.claimDiagnostic_ok done
    exact Tx.ClaimAgentDiagnostic_writes claimed
  | startDiagnostic token attempt input => exact Investigation.startDiagnostic_writes (done_ok ok).1
  | heartbeat token id attempt =>
    rw [serve] at ok
    obtain ⟨deadline, done, -⟩ := answer_ok ok
    obtain ⟨a, l, renewed⟩ := Investigation.HeartbeatAgent_ok done
    exact Tx.AgentDiagnostic_writes renewed
  | reserveRefresh token id attempt checks =>
    obtain ⟨input, done, -⟩ := answer_ok ok
    obtain ⟨raw, stored⟩ := Investigation.reserveRefresh_ok done
    exact Tx.SetDiagnosticInput_writes stored
  | collectChecks incidentID checks evidence =>
    exact Investigation.collectChecks_writes (done_ok ok).1
  | storeRefresh token attempt input =>
    obtain ⟨raw, stored⟩ := Investigation.storeRefresh_ok (done_ok ok).1
    exact Tx.SetDiagnosticInput_writes stored
  | completeAgent token id attempt submitted ids =>
    obtain ⟨claim, done, -⟩ := answer_ok ok
    exact Investigation.CompleteAgent_writes done
  | startRun p runID incidentID profileID =>
    obtain ⟨profile, version, started⟩ := Investigation.startRun_ok (done_ok ok).1
    exact Tx.StartRun_writes started
  | interruptRun runID => exact Tx.FinishRun_writes (Investigation.interruptRun_ok (done_ok ok).1)
  | commitRun p work observedAt claimID eventID =>
    obtain ⟨claim, done, -⟩ := answer_ok ok
    exact Investigation.commitRun_writes done
  | registerRoute id =>
    exact Tx.RegisterNotificationRoute_writes (Delivery.registerRoute_ok (done_ok ok).1)
  | dispatch route lease =>
    obtain ⟨n, done, -⟩ := answer_ok ok
    exact Delivery.dispatch_writes done
  | finishNotification n delivered =>
    exact Tx.FinishNotification_writes (Delivery.finish_ok (done_ok ok).1)
  | acknowledge p id eventID =>
    exact Tx.AcknowledgeNotification_writes (Delivery.Acknowledge_ok (done_ok ok).1)
  | createInteraction p r eventID => exact Interaction.createInteraction_writes (done_ok ok).1
  | answerInteraction p id version answer eventID =>
    exact Interaction.answerInteraction_writes (done_ok ok).1
  | setEnvironment p context => exact Interaction.Set_writes (done_ok ok).1

/-! ## Histories -/

structure Entry where
  call : Call
  request : Request

def Call.tx (c : Call) (scope : Scope) (tables : Tables) : Tx :=
  ⟨scope, c.config.execution.fleet.epoch, c.dbNow, tables⟩

def step (scope : Scope) (e : Entry) (tables : Tables) : Except Error (Response × Tables) :=
  (serve e.call (e.call.tx scope tables) e.request).map fun (r, t) => (r, t.tables)

/-- The tables after a history, whose newest entry comes first. -/
abbrev replay (scope : Scope) (history : List Entry) : Tables :=
  Foundation.Run.replay (step scope) .empty history

/-- The entry commits after `past`, with this answer. -/
abbrev Commits (scope : Scope) (past : List Entry) (e : Entry) (r : Response) : Prop :=
  Foundation.Run.Commits (step scope) .empty past e r

/-- Everything generated along the history is new. -/
def Fresh (history : List Entry) : Prop :=
  (history.flatMap fun e => e.request.generated).Nodup

variable {e : Entry} {scope : Scope}

theorem step_ok {s s' : Tables} (ok : step scope e s = .ok (r, s')) :
    ∃ t', serve e.call (e.call.tx scope s) e.request = .ok (r, t') ∧ t'.tables = s' := by
  obtain ⟨⟨answer, u⟩, served, pair⟩ := map_ok ok
  obtain ⟨rfl, rfl⟩ := Prod.mk.inj pair
  exact ⟨u, served, rfl⟩

theorem Commits.served {scope : Scope} {past : List Entry} {e : Entry} {r : Response}
    (commits : Commits scope past e r) :
    ∃ t', serve e.call (e.call.tx scope (replay scope past)) e.request = .ok (r, t') ∧
      t'.tables = replay scope (e :: past) :=
  step_ok commits

theorem replay_invariant {P : Tables → Prop} (start : P .empty)
    (keeps : ∀ c t q r t', t.scope = scope → serve c t q = .ok (r, t') → P t.tables → P t'.tables)
    (history : List Entry) : P (replay scope history) := by
  refine Foundation.Run.replay_invariant start (fun e s r s' ok held => ?_) history
  obtain ⟨t', served, rfl⟩ := step_ok ok
  exact keeps e.call _ e.request r t' rfl served held

theorem history_invariant {P : List Entry → Tables → Prop} (start : P [] .empty)
    (fails : ∀ e past s, P past s → P (e :: past) s)
    (keeps : ∀ e past r t', Commits scope past e r →
      serve e.call (e.call.tx scope (replay scope past)) e.request = .ok (r, t') →
      P past (replay scope past) → P (e :: past) t'.tables) (history : List Entry) :
    P history (replay scope history) := by
  refine Foundation.Run.history_invariant start fails (fun e past r s commits after held => ?_)
    history
  obtain ⟨t', served, tables⟩ := Commits.served commits
  rw [after.trans tables.symm]
  exact keeps e past r t' commits served held

theorem outbox_unique (scope : Scope) (history : List Entry) :
    ((replay scope history).outbox.map OutboxRow.id).Nodup :=
  replay_invariant (P := fun s => (s.outbox.map OutboxRow.id).Nodup) nodup_nil
    (fun _ _ _ _ _ _ ok held => (serve_writes ok).log.ids held) history

theorem outbox_keys (scope : Scope) (history : List Entry) :
    ((replay scope history).outbox.map OutboxRow.eventKey).Nodup :=
  replay_invariant (P := fun s => (s.outbox.map OutboxRow.eventKey).Nodup) nodup_nil
    (fun _ _ _ _ _ _ ok held => (serve_writes ok).log.keys held) history

omit [Platform]

theorem Fresh.past {past : List Entry} (fresh : Fresh (e :: past)) : Fresh past := by
  rw [Fresh, flatMap_cons, nodup_append] at fresh
  exact fresh.2.1

theorem Fresh.not_drawn_before {past : List Entry} {d : Entry} {x : Text}
    (fresh : Fresh (e :: past)) (drawn : x ∈ e.request.generated) (older : d ∈ past) :
    x ∉ d.request.generated := by
  rw [Fresh] at fresh
  grind

end Sre.Server
