/- GID: Sre/Recovery
   digest: Sustained observed health: profiles, the assessment of a window, and closing an episode. -/

import Sre.Storage.Frame
import Sre.Storage.Lineage

set_option autoImplicit false

namespace Sre.Recovery

open Foundation.Json Foundation.Outcome Identity Authorization Incident Privacy Storage

def ValidateProfile (p : RecoveryProfile) : Bool :=
  ValidID p.id && decide (1 ≤ p.version ∧ 1 ≤ p.handles.length ∧ p.handles.length ≤ 16 ∧
    60 ≤ p.windowSeconds ∧ p.windowSeconds ≤ 3600 ∧ 15 ≤ p.maximumGapSeconds ∧
    p.maximumGapSeconds ≤ 120 ∧ 3 ≤ p.minimumSamples ∧ p.minimumSamples ≤ 100 ∧
    1 ≤ p.minimumReadyReplicas ∧ p.minimumReadyReplicas ≤ 100000) &&
    p.handles.all ValidHandle && decide p.handles.Nodup

/-- Enough samples reach back over the whole window. -/
def spans (p : RecoveryProfile) (head : HealthSample) (count : ℕ) (s : HealthSample) : Bool :=
  decide (p.minimumSamples ≤ (count : ℤ) + 1 ∧
    p.windowSeconds * second ≤ head.sampledAt - s.sampledAt)

def sameSource (a b : HealthSample) : Bool :=
  decide (a.uid = b.uid ∧ a.agentID = b.agentID ∧ a.generation = b.generation ∧ a.epoch = b.epoch)

/-- The loop over the samples, newest first. -/
def windowFrom (p : RecoveryProfile) (head : HealthSample) :
    ℕ → Time → List HealthSample → RecoveryStatus × RecoveryReason
  | _, _, [] => (.unknown, .windowIncomplete)
  | count, previous, s :: rest =>
    if previous < s.sampledAt ∨ p.maximumGapSeconds * second < previous - s.sampledAt then
      (.unknown, .observationGap)
    else if s.coverage ≠ .complete then (.unknown, .incompleteCoverage)
    else if sameSource s head = false then (.unknown, .sourceChanged)
    else if s.healthy = false ∨ s.readyReplicas < p.minimumReadyReplicas then
      (.notRecovered, .healthRequirementFailed)
    else if spans p head count s then (.recovered, .sustainedObservedHealth)
    else windowFrom p head (count + 1) s.sampledAt rest

def AssessWindow (p : RecoveryProfile) (samples : List HealthSample) (now : Time) :
    RecoveryStatus × RecoveryReason :=
  match samples with
  | [] => (.unknown, .missingObservations)
  | head :: _ =>
    if now < head.sampledAt ∨ p.maximumGapSeconds * second < now - head.sampledAt then
      (.unknown, .staleObservations)
    else windowFrom p head 0 now samples

/-- The samples that the window rests on, unless one is disputed. -/
def gatherEvidence (t : Tx) (p : RecoveryProfile) (head : HealthSample) :
    ℕ → List HealthSample → List ItemRef → Except Error (Bool × List ItemRef)
  | _, [], found => .ok (true, found)
  | count, s :: rest, found => do
    let ok ← t.Uncontested s.evidence
    if ok = false then return (false, found)
    else if spans p head count s then return (true, found ++ [s.evidence])
    else gatherEvidence t p head (count + 1) rest (found ++ [s.evidence])

/-- The loop over the handles of a profile: the first one that has not recovered decides. -/
def assessHandles (t : Tx) (p : RecoveryProfile) (incidentID : Text) (now : Time) :
    List Text → List ItemRef → Except Error (RecoveryStatus × RecoveryReason × List ItemRef)
  | [], found => .ok (.recovered, .sustainedObservedHealth, found)
  | handle :: handles, found => do
    let samples ← t.HealthSamples incidentID handle
      (now - (p.windowSeconds + p.maximumGapSeconds * 2) * second)
    match samples, AssessWindow p samples now with
    | head :: _, (.recovered, _) => do
      -- the newest sample must still have a collector's current authority
      let eligible ← t.Eligible head.evidence now
      if eligible = false then return (.unknown, .sourceNotEligible, found)
      else do
        let (clean, found) ← gatherEvidence t p head 0 samples found
        if clean = false then return (.unknown, .disputedHealthEvidence, found)
        else assessHandles t p incidentID now handles found
    | _, (status, reason) => return (status, reason, found)

/-- `id` is the assessment's generated identifier and `eventID` its outbox row's. -/
def AssessTx (t : Tx) (incidentID profileID : Text) (now : Time) (id eventID : Text) :
    Except Error (RecoveryAssessment × Tx) := do
  let p ← t.RecoveryProfile profileID
  require (ValidateProfile p) .invalid
  let (status, reason, evidence) ← assessHandles t p incidentID now p.handles []
  let a : RecoveryAssessment :=
    ⟨id, incidentID, p.id, p.version, status, reason, evidence, now⟩
  let t ← t.PutRecoveryAssessment a
  let t ← t.Enqueue eventID id .recoveryAssessed (stringMap [("incident_id", incidentID),
    ("assessment_id", id), ("status", status.text)])
  return (a, t)

variable {eventID id incidentID : Text} {now : Time} {t t' : Tx}

theorem AssessTx_ok {profileID : Text} {a : RecoveryAssessment}
    (ok : AssessTx t incidentID profileID now id eventID = .ok (a, t')) :
    ∃ u payload, t.PutRecoveryAssessment a = .ok u ∧
      u.Enqueue eventID id .recoveryAssessed payload = .ok t' := by
  simp only [AssessTx, bind_ok, require_ok, pure_ok, Prod.mk.injEq] at ok
  obtain ⟨p, -, -, -, ⟨status, reason, evidence⟩, -, u, put, v, queued, rfl, rfl⟩ := ok
  exact ⟨u, _, put, queued⟩

theorem AssessTx_writes {profileID : Text} {a : RecoveryAssessment}
    (ok : AssessTx t incidentID profileID now id eventID = .ok (a, t')) :
    Tx.Writes [.recoveryAssessments, .outbox] [.recoveryAssessed] t t' := by
  obtain ⟨u, payload, put, queued⟩ := AssessTx_ok ok
  exact ((Tx.PutRecoveryAssessment_writes put).mono (by decide)).trans
    ((Tx.Enqueue_writes queued).mono (by decide))

def profileID : Text := "application-health"

/-- Versions of a profile count up from one. -/
def checkVersion (t : Tx) (p : RecoveryProfile) : Except Error Unit :=
  match t.RecoveryProfile p.id with
  | .ok old => require (decide (p.version = old.version + 1)) .conflict
  | .error .notFound => require (decide (p.version = 1)) .conflict
  | .error e => .error e

/-- The next version of the scope's profile, with its handles in order. -/
def SetProfile (policy : Policy) (t : Tx) (now : Time) (principal : Principal)
    (p : RecoveryProfile) : Except Error Tx := do
  policy.authorize principal t.scope .setup now
  require (decide (p.id = profileID) && ValidateProfile p) .invalid
  transact t fun t => do
    checkVersion t p
    t.PutRecoveryProfile { p with handles := p.handles.insertionSort (· ≤ ·) }

def Assess (policy : Policy) (t : Tx) (now : Time) (principal : Principal)
    (incidentID id eventID : Text) : Except Error (RecoveryAssessment × Tx) := do
  policy.authorize principal t.scope .read now
  transact t fun t => AssessTx t incidentID profileID now id eventID

/-- Closing needs a recovered assessment of the same transaction. -/
def closeIncident (policy : Policy) (t : Tx) (now : Time) (principal : Principal)
    (incidentID id eventID : Text) : Except Error Tx := do
  policy.authorize principal t.scope .approve now
  transact t fun t => do
    let current ← t.Incident incidentID
    let (a, t) ← AssessTx t incidentID profileID now id eventID
    require (decide (a.status = .recovered)) .conflict
    t.UpdateIncident incidentID current.version .closed

variable {policy : Policy} {principal : Principal}

theorem SetProfile_ok {p : RecoveryProfile} (ok : SetProfile policy t now principal p = .ok t') :
    Tx.Writes [.recoveryProfiles] [] t t' := by
  simp only [SetProfile, bind_ok, transact_ok] at ok
  obtain ⟨-, -, -, -, -, -, -, put⟩ := ok
  exact Tx.PutRecoveryProfile_writes put

theorem Assess_ok {a : RecoveryAssessment}
    (ok : Assess policy t now principal incidentID id eventID = .ok (a, t')) :
    AssessTx t incidentID profileID now id eventID = .ok (a, t') := by
  simp only [Assess, bind_ok, transact_ok] at ok
  exact ok.choose_spec.2.2

theorem closeIncident_ok
    (ok : closeIncident policy t now principal incidentID id eventID = .ok t') :
    policy.authorize principal t.scope .approve now = .ok () ∧
    ∃ current a u, t.Incident incidentID = .ok current ∧
      AssessTx t incidentID profileID now id eventID = .ok (a, u) ∧ a.status = .recovered ∧
      u.UpdateIncident incidentID current.version .closed = .ok t' := by
  simp only [closeIncident, bind_ok, transact_ok, require_ok, decide_eq_true_eq] at ok
  obtain ⟨⟨⟩, allowed, -, current, read, ⟨a, u⟩, assessed, -, recovered, updated⟩ := ok
  exact ⟨allowed, current, a, u, read, assessed, recovered, updated⟩

theorem closeIncident_writes
    (ok : closeIncident policy t now principal incidentID id eventID = .ok t') :
    Tx.Writes [.recoveryAssessments, .outbox, .incidents] [.recoveryAssessed] t t' := by
  obtain ⟨-, current, a, u, -, assessed, -, updated⟩ := closeIncident_ok ok
  exact ((AssessTx_writes assessed).mono (by decide)).trans
    ((Tx.UpdateIncident_writes updated).mono (by decide))

end Sre.Recovery
