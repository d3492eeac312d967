/- GID: Sre/Feedback
   digest: Attributed assessments of item versions; a false one quarantines its item. -/

import Sre.Storage.Items

set_option autoImplicit false

namespace Sre.Feedback

open Foundation.Json Foundation.Outcome Identity Authorization Incident Storage

inductive Assessment where
  | true
  | false
  | cannotVerify
  | unknown (text : Text)
  deriving DecidableEq

def Assessment.text : Assessment → Text
  | .true => "TRUE"
  | .false => "FALSE"
  | .cannotVerify => "CANNOT_VERIFY"
  | .unknown text => text

inductive Reason where
  | none
  | factualError
  | notApplicable
  | stale
  | missingEvidence
  | contradicted
  | confirmed
  | unresolved
  | unknown (text : Text)

def Reason.text : Reason → Text
  | .none => []
  | .factualError => "FACTUAL_ERROR"
  | .notApplicable => "NOT_APPLICABLE"
  | .stale => "STALE"
  | .missingEvidence => "MISSING_EVIDENCE"
  | .contradicted => "CONTRADICTED"
  | .confirmed => "CONFIRMED"
  | .unresolved => "UNRESOLVED"
  | .unknown text => text

def validReason : Reason → Bool
  | .unknown _ => Bool.false
  | _ => Bool.true

structure Request where
  incidentID : Text
  item : ItemRef
  itemHash : Text
  assessment : Assessment
  reasonCode : Reason
  evidence : List ItemRef
  supersedes : Text
  idempotencyKey : Text

def Request.document (r : Request) : Value :=
  .obj (([("incident_id", string r.incidentID), ("item", refValue r.item),
    ("item_hash", string r.itemHash), ("assessment", string r.assessment.text)] :
      List (Text × Value)) ++
    optional "reason_code" r.reasonCode.text ++
    (if r.evidence = [] then [] else [(("evidence" : Text), .arr (r.evidence.map refValue))]) ++
    optional "supersedes" r.supersedes ++
    ([("idempotency_key", string r.idempotencyKey)] : List (Text × Value)))

def evidenceOk (evidence : List ItemRef) : Bool :=
  evidence.all (fun ref => ValidID ref.id && decide (1 ≤ ref.version)) && noRepeat evidence

variable [Platform]

/-- The request as it is stored: evidence sorted, the key as a digest. -/
def Request.prepared (r : Request) : Request :=
  { r with evidence := sortRefs r.evidence, idempotencyKey := TokenHash r.idempotencyKey }

def Request.hash (r : Request) : Text := Platform.sha256 (render goStyle r.document)

def feedbackForKey (t : Tx) (actor key : Text) : Except Error FeedbackRow := do
  require (ValidID actor && ValidID key) .invalid
  match t.tables.feedback.find? (fun f => f.actorID = actor ∧ f.idempotencyKey = key) with
  | none => .error .notFound
  | some f => return f

def feedbackByID (t : Tx) (id : Text) : Except Error FeedbackRow := do
  require (ValidID id) .invalid
  match t.tables.feedback.find? (fun f => f.id = id) with
  | none => .error .notFound
  | some f => return f

def addFeedback (t : Tx) (row : FeedbackRow) (now : Time) : Except Error Tx := do
  require (ValidID row.id && ValidID row.actorID && ValidID row.idempotencyKey &&
    decide (now ≠ 0) && validRef row.item) .invalid
  require (t.tables.items.any fun r => r.ref = row.item) .invalid
  let rows ← insertUnique (t.tables.feedback.any fun f =>
    f.id = row.id ∨ (f.actorID = row.actorID ∧ f.idempotencyKey = row.idempotencyKey))
    t.tables.feedback row
  return { t with tables := { t.tables with feedback := rows } }

/-- An assessment may supersede an earlier one of the same engineer and item. -/
def supersedesOk (t : Tx) (principal : Principal) (r : Request) : Except Error Unit :=
  if r.supersedes = [] then .ok ()
  else do
    let previous ← feedbackByID t r.supersedes
    require (decide (previous.actorID = principal.id ∧ previous.item = r.item)) .conflict

/-- A false assessment quarantines its item. -/
def dispute (t : Tx) (r : Request) : Except Error Tx :=
  if r.assessment = .false then t.Quarantine r.item else .ok t

def record (t : Tx) (now : Time) (principal : Principal) (r : Request) (id outboxID : Text) :
    Except Error Tx := do
  let item ← t.CurrentItem r.item.id
  require (decide (item.incidentID = r.incidentID ∧ item.version = r.item.version ∧
    item.hash = r.itemHash)) .conflict
  r.evidence.forM fun ref => do
    let evidence ← t.Item ref
    require (decide (evidence.incidentID = item.incidentID)) .invalid
  supersedesOk t principal r
  let t ← addFeedback t ⟨id, principal.id, r.idempotencyKey, r.item, r.hash⟩ now
  let t ← dispute t r
  t.Enqueue outboxID id .feedbackRecorded
    (stringMap [("event_id", id), ("incident_id", item.incidentID)])

def Submit (policy : Policy) (t : Tx) (now : Time) (principal : Principal) (request : Request)
    (id outboxID : Text) : Except Error Tx := do
  policy.authorize principal t.scope .feedback now
  require (ValidID request.incidentID && ValidID request.item.id &&
    decide (1 ≤ request.item.version) && ValidID request.idempotencyKey &&
    decide (byteSize request.itemHash = 64) && validReason request.reasonCode &&
    decide (request.evidence.length ≤ 32)) .invalid
  require (match request.assessment with
    | .unknown _ => Bool.false
    | _ => Bool.true) .invalid
  require (evidenceOk request.prepared.evidence) .invalid
  transact t fun t =>
    match feedbackForKey t principal.id request.prepared.idempotencyKey with
    | .ok previous => do
      require (decide (previous.requestHash = request.prepared.hash)) .conflict
      return t
    | .error .notFound => record t now principal request.prepared id outboxID
    | .error e => .error e

/-- A submission changes nothing, or records one row, quarantines the item when
it was assessed as false, and announces the event. -/
theorem Submit_ok {policy : Policy} {t t' : Tx} {now : Time} {p : Principal} {r : Request}
    {id outboxID : Text} (ok : Submit policy t now p r id outboxID = .ok t') :
    t' = t ∨ ∃ row u payload,
      (u = { t with tables := { t.tables with feedback := t.tables.feedback ++ [row] } } ∨
        ({ t with tables := { t.tables with feedback := t.tables.feedback ++ [row] } } :
          Tx).Quarantine r.item = .ok u) ∧
      u.Enqueue outboxID id .feedbackRecorded payload = .ok t' := by
  simp only [Submit, bind_ok, require_ok, transact_ok] at ok
  obtain ⟨-, -, -, -, -, -, -, -, -, rest⟩ := ok
  split at rest
  · simp only [bind_ok, require_ok, pure_ok] at rest
    obtain ⟨-, -, rfl⟩ := rest
    exact Or.inl rfl
  · simp only [record, addFeedback, bind_ok, require_ok, insertUnique_ok, pure_ok] at rest
    obtain ⟨item, -, -, -, -, -, -, -, u, ⟨-, -, -, -, rows, ⟨-, rfl⟩, rfl⟩, v, disputed,
      queued⟩ := rest
    refine Or.inr ⟨⟨id, p.id, r.prepared.idempotencyKey, r.item, r.prepared.hash⟩, v, _, ?_, queued⟩
    unfold dispute at disputed
    split at disputed
    · exact Or.inr disputed
    · exact Or.inl (Except.ok.inj disputed).symm
  · simp at rest

end Sre.Feedback
