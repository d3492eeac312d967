/- GID: Sre/Interaction
   digest: Clarifications that engineers answer, and the environment that an administrator sets. -/

import Sre.Storage.Frame

set_option autoImplicit false

namespace Sre.Storage

open Foundation.Json Foundation.Outcome Foundation.Sql Identity Incident

inductive InteractionKind where
  | clarification
  | unknown (text : Text)
  deriving DecidableEq

inductive InteractionStatus where
  | pending
  | unknown (text : Text)
  deriving DecidableEq

structure InteractionRequest where
  scope : Scope
  id : Text
  incidentID : Text
  jobID : Text
  kind : InteractionKind
  question : Question
  version : ℤ
  status : InteractionStatus
  expiresAt : Time
  answer : Text
  actorID : Text
  answeredAt : Option Time

def InteractionRequest.validate (r : InteractionRequest) (now : Time) : Bool :=
  r.scope.validate && ValidID r.id && ValidID r.incidentID &&
    (decide (r.jobID = []) || ValidID r.jobID) &&
    decide (r.kind = .clarification ∧ r.question.options ≠ [] ∧ r.version = 1 ∧
      r.status = .pending ∧ now < r.expiresAt ∧ r.expiresAt ≤ now + 24 * 60 * minute ∧
      r.answer = [] ∧ r.actorID = [] ∧ r.answeredAt = none)

/-- The questions in the order of their texts. -/
def Question.ordered : List Question := [.changeContext, .continueDiagnosis, .impact]

namespace Tx

def EnvironmentContext (t : Tx) : Except Error EnvironmentContext :=
  match newest Incident.EnvironmentContext.version t.tables.environmentContexts with
  | none => .error .notFound
  | some c => .ok c

def PutEnvironmentContext (t : Tx) (c : Incident.EnvironmentContext) : Except Error Tx := do
  require (decide (1 ≤ c.version)) .invalid
  let rows ← insertUnique (t.tables.environmentContexts.any fun r => r.version = c.version)
    t.tables.environmentContexts c
  return { t with tables := { t.tables with environmentContexts := rows } }

/-- `eventID` is the identifier of the outbox row. -/
def CreateInteraction (t : Tx) (r : InteractionRequest) (actor : Text) (now : Time)
    (eventID : Text) : Except Error Tx := do
  require (decide (r.scope = t.scope) && r.validate now && ValidID actor) .invalid
  let _ ← t.Incident r.incidentID
  -- a job is linked only when it belongs to the incident
  require (decide (r.jobID = []) || t.tables.diagnosticJobs.any fun j =>
    decide (j.job.id = r.jobID ∧ j.job.incidentID = r.incidentID)) .invalid
  let rows ← insertUnique (t.tables.interactions.any fun q => q.id = r.id) t.tables.interactions
    ⟨r.id, r.incidentID, r.jobID, r.question, 1, timestamptz r.expiresAt, actor, false, [], [], none⟩
  { t with tables := { t.tables with interactions := rows } }.Enqueue eventID
    ("interaction_".toList ++ r.id) .clarificationRequested
    (stringMap [("incident_id", r.incidentID), ("request_id", r.id), ("actor_id", actor)])

/-- The open row that this version of an answer may close. -/
def answerable (id : Text) (version : ℤ) (clock : Time) (r : InteractionRow) : Bool :=
  decide (r.id = id ∧ r.version = version ∧ r.answered = false ∧ clock < r.expiresAt)

def answerDocument (id : Text) (version : ℤ) (answer actor : Text) : Value :=
  .obj [("actor_id", string actor), ("answer", string answer), ("request_id", string id),
    ("version", .num (intNumeral version))]

def AnswerInteraction (t : Tx) (id : Text) (version : ℤ) (answer actor : Text) (clock : Time)
    (eventID : Text) : Except Error Tx := do
  require (ValidID id && ValidID actor && decide (1 ≤ version)) .invalid
  match t.tables.interactions.find? (fun r => r.id = id) with
  | none => .error .notFound
  | some r => do
    require (decide (answer ∈ r.question.options)) .invalid
    require (t.tables.interactions.any (answerable id version clock)) .conflict
    { t with tables := { t.tables with
      interactions := update (answerable id version clock)
        (fun r => { r with answered := true, version := r.version + 1, answer := answer,
                           actorID := actor, answeredAt := some clock })
        t.tables.interactions } }.Enqueue eventID ("answer_".toList ++ id) .clarificationAnswered
      (render goStyle (answerDocument id version answer actor))

/-- The last answer to each question of the incident that has not expired. -/
def InteractionContext (t : Tx) (incidentID : Text) (clock : Time) :
    Except Error (List InteractionContext) := do
  require (ValidID incidentID) .invalid
  let answered := t.tables.interactions.filter fun r =>
    decide (r.incidentID = incidentID ∧ r.answered = true ∧ clock < r.expiresAt)
  let latest := Question.ordered.filterMap fun q =>
    (descending (fun r => toLex (r.answeredAt.getD 0, r.id))
      (answered.filter fun r => decide (r.question = q))).head?
  require (latest.all fun r => decide (r.answer ∈ r.question.options)) .invalid
  return latest.map fun r => ⟨r.question, r.answer⟩

section Operations

variable {t t' : Tx}

theorem PutEnvironmentContext_writes {c : Incident.EnvironmentContext}
    (ok : t.PutEnvironmentContext c = .ok t') : Writes [.environmentContexts] [] t t' := by
  simp only [PutEnvironmentContext, bind_ok, pure_ok] at ok
  obtain ⟨-, -, rows, -, rfl⟩ := ok
  exact .of_tables (by rintro ⟨⟩ <;> first | exact .inl rfl | simp)

private theorem interactions_written {rows : List InteractionRow} :
    Writes [.interactions] [] t { t with tables := { t.tables with interactions := rows } } :=
  .of_tables (by rintro ⟨⟩ <;> first | exact .inl rfl | simp)

theorem CreateInteraction_writes {r : InteractionRequest} {actor : Text} {now : Time}
    {eventID : Text} (ok : t.CreateInteraction r actor now eventID = .ok t') :
    Writes [.interactions, .outbox] [.clarificationRequested] t t' := by
  simp only [CreateInteraction, bind_ok] at ok
  obtain ⟨-, -, -, -, -, -, rows, -, queued⟩ := ok
  exact (interactions_written.mono (by decide)).trans
    ((Enqueue_writes queued).mono (by decide))

theorem AnswerInteraction_writes {id : Text} {version : ℤ} {answer actor : Text} {clock : Time}
    {eventID : Text} (ok : t.AnswerInteraction id version answer actor clock eventID = .ok t') :
    Writes [.interactions, .outbox] [.clarificationAnswered] t t' := by
  simp only [AnswerInteraction, bind_ok] at ok
  obtain ⟨-, -, rest⟩ := ok
  split at rest
  · simp at rest
  · simp only [bind_ok] at rest
    obtain ⟨-, -, -, -, queued⟩ := rest
    exact (interactions_written.mono (by decide)).trans
      ((Enqueue_writes queued).mono (by decide))

end Operations

end Tx

end Sre.Storage

namespace Sre.Interaction

open Foundation.Outcome Identity Authorization Incident Storage

def createInteraction (policy : Policy) (t : Tx) (now : Time) (p : Principal)
    (r : InteractionRequest) (eventID : Text) : Except Error Tx := do
  policy.authorize p t.scope .investigate now
  transact t fun t => t.CreateInteraction r p.id now eventID

def answerInteraction (policy : Policy) (t : Tx) (now : Time) (p : Principal) (id : Text)
    (version : ℤ) (answer : Text) (clock : Time) (eventID : Text) : Except Error Tx := do
  policy.authorize p t.scope .investigate now
  transact t fun t => t.AnswerInteraction id version answer p.id clock eventID

def nextContext (t : Tx) (c : EnvironmentContext) : Except Error Unit :=
  match t.EnvironmentContext with
  | .ok old => require (decide (c.version = old.version + 1)) .conflict
  | .error .notFound => require (decide (c.version = 1)) .conflict
  | .error e => .error e

def Set (policy : Policy) (t : Tx) (now : Time) (p : Principal) (c : EnvironmentContext) :
    Except Error Tx := do
  policy.authorize p t.scope .setup now
  transact t fun t => do
    nextContext t c
    t.PutEnvironmentContext c

section Transactions

variable {policy : Policy} {t t' : Tx} {now : Time} {p : Principal}

theorem createInteraction_writes {r : InteractionRequest} {eventID : Text}
    (ok : createInteraction policy t now p r eventID = .ok t') :
    Tx.Writes [.interactions, .outbox] [.clarificationRequested] t t' := by
  simp only [createInteraction, bind_ok, transact_ok] at ok
  exact Tx.CreateInteraction_writes ok.choose_spec.2.2

theorem answerInteraction_writes {id : Text} {version : ℤ} {answer : Text} {clock : Time}
    {eventID : Text}
    (ok : answerInteraction policy t now p id version answer clock eventID = .ok t') :
    Tx.Writes [.interactions, .outbox] [.clarificationAnswered] t t' := by
  simp only [answerInteraction, bind_ok, transact_ok] at ok
  exact Tx.AnswerInteraction_writes ok.choose_spec.2.2

theorem Set_writes {c : EnvironmentContext} (ok : Set policy t now p c = .ok t') :
    Tx.Writes [.environmentContexts] [] t t' := by
  simp only [Set, bind_ok, transact_ok] at ok
  obtain ⟨-, -, -, -, -, put⟩ := ok
  exact Tx.PutEnvironmentContext_writes put

end Transactions

end Sre.Interaction
