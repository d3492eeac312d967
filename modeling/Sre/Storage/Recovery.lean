/- GID: Sre/Storage/Recovery
   digest: The active episode, recovery profiles, health samples, coverage, checks and judgments. -/

import Sre.Foundation.Sql
import Sre.Storage.Items

set_option autoImplicit false

namespace Sre.Storage

open Foundation.Outcome Foundation.Sql Identity Incident List

namespace Tx

/-- The newest episode that is neither closed nor resolved. -/
def ActiveIncident (t : Tx) : Except Error IncidentRow :=
  match (descending (fun r => toLex (r.openedAt, r.id))
      (t.tables.incidents.filter fun r => r.state.active)).head? with
  | none => .error .notFound
  | some r => .ok r

def PutRecoveryProfile (t : Tx) (p : RecoveryProfile) : Except Error Tx := do
  require (ValidID p.id && decide (1 ≤ p.version)) .invalid
  let rows ← insertUnique
    (t.tables.recoveryProfiles.any fun r => r.id = p.id ∧ r.version = p.version)
    t.tables.recoveryProfiles p
  return { t with tables := { t.tables with recoveryProfiles := rows } }

def RecoveryProfile (t : Tx) (id : Text) : Except Error RecoveryProfile := do
  require (ValidID id) .invalid
  match newest RecoveryProfile.version (t.tables.recoveryProfiles.filter fun r => r.id = id) with
  | none => .error .notFound
  | some p => return p

/-- Rows that the primary key of the samples does not tell apart. -/
def sameSample (a b : HealthSample) : Bool :=
  decide (a.incidentID = b.incidentID ∧ a.handle = b.handle ∧
    timestamptz a.sampledAt = timestamptz b.sampledAt)

/-- `ON CONFLICT DO NOTHING`: the first sample of an instant stays. -/
def PutHealthSample [Platform] (t : Tx) (s : HealthSample) : Except Error Tx := do
  require (validRef s.evidence && decide (s.sampledAt ≠ 0)) .invalid
  require (Platform.timeText s.sampledAt).isSome .invalid
  if t.tables.healthSamples.any (sameSample s) then return t
  else do
    require (t.tables.items.any fun r => r.incidentID = s.incidentID ∧ r.ref = s.evidence) .invalid
    return { t with tables := { t.tables with healthSamples := t.tables.healthSamples ++ [s] } }

def HealthSamples (t : Tx) (incidentID handle : Text) (since : Time) :
    Except Error (List HealthSample) := do
  require (ValidID incidentID && ValidID handle && decide (since ≠ 0)) .invalid
  return (descending (fun s => timestamptz s.sampledAt) (t.tables.healthSamples.filter fun s =>
    s.incidentID = incidentID ∧ s.handle = handle ∧
      timestamptz since ≤ timestamptz s.sampledAt)).take 512

/-- One coverage row per agent, replaced by newer reports only. -/
def PutCoverage (t : Tx) (a : Agent) (coverage : Coverage) (observedAt : Time) :
    Except Error Tx := do
  require (decide (a.scope = t.scope ∧ observedAt ≠ 0) && coverage.known) .invalid
  require (t.tables.agents.any fun r => r.id = a.id) .invalid
  let row : CoverageRow := ⟨a.id, a.generation, a.epoch, timestamptz observedAt, coverage⟩
  return { t with tables := { t.tables with
    collectionCoverage :=
      if t.tables.collectionCoverage.any fun r => r.agentID = a.id then
        t.tables.collectionCoverage.map fun r =>
          if r.agentID = a.id ∧ r.observedAt < row.observedAt then row else r
      else t.tables.collectionCoverage ++ [row] } }

def PutCollectionCheck (t : Tx) (c : CollectionCheck) : Except Error Tx := do
  require (ValidID c.id && ValidID c.agentID && decide (1 ≤ c.generation)) .invalid
  require (decide (c.kind ∈ CheckKind.named)) .invalid
  let rows ← insertUnique (t.tables.collectionChecks.any fun r => r.check.id = c.id)
    t.tables.collectionChecks
    ⟨{ c with createdAt := timestamptz c.createdAt, expiresAt := timestamptz c.expiresAt }, none⟩
  require (t.tables.incidents.any fun i => i.id = c.incidentID) .invalid
  return { t with tables := { t.tables with collectionChecks := rows } }

def FulfillCollectionChecks (t : Tx) (a : Agent) (handle : Text) (fulfilled : Time) :
    Except Error Tx := do
  require (decide (a.scope = t.scope)) .invalid
  let instant := timestamptz fulfilled
  return { t with tables := { t.tables with
    collectionChecks := t.tables.collectionChecks.map fun r =>
      if r.check.agentID = a.id ∧ r.check.generation = a.generation ∧ r.check.handle = handle ∧
          r.check.createdAt ≤ instant ∧ instant ≤ r.check.expiresAt ∧ r.fulfilledAt = none then
        { r with fulfilledAt := some instant }
      else r } }

def PutAdjudication [Platform] (t : Tx) (a : Adjudication) : Except Error Tx := do
  require (ValidID a.id && validRef a.item) .invalid
  require (Platform.timeText a.decidedAt).isSome .invalid
  let rows ← insertUnique (t.tables.adjudications.any fun r =>
    r.id = a.id ∨ (r.actorID = a.actorID ∧ r.idempotencyKey = a.idempotencyKey))
    t.tables.adjudications a
  require (t.tables.items.any fun r => r.incidentID = a.incidentID ∧ r.ref = a.item) .invalid
  return { t with tables := { t.tables with adjudications := rows } }

def AdjudicationForKey (t : Tx) (actor key : Text) : Except Error Adjudication :=
  match t.tables.adjudications.find? (fun r => r.actorID = actor ∧ r.idempotencyKey = key) with
  | none => .error .notFound
  | some a => .ok a

variable {t t' : Tx}

theorem ActiveIncident_ok {r : IncidentRow} (ok : t.ActiveIncident = .ok r) :
    r ∈ t.tables.incidents ∧ r.state.active = true := by
  unfold ActiveIncident at ok
  split at ok
  · simp at ok
  · rename_i row found
    have member := mem_of_mem_head? (Option.mem_def.mpr found)
    rw [mem_descending, mem_filter] at member
    rw [← Except.ok.inj ok]
    exact member

theorem ActiveIncident_error {e : Error} (failed : t.ActiveIncident = .error e) :
    e = .notFound ∧ ∀ r ∈ t.tables.incidents, r.state.active = false := by
  unfold ActiveIncident at failed
  split at failed
  · rename_i missing
    refine ⟨(Except.error.inj failed).symm, fun r member => ?_⟩
    rw [head?_eq_none_iff] at missing
    have absent : r ∉ descending (fun r => toLex (r.openedAt, r.id))
        (t.tables.incidents.filter fun r => r.state.active) := by
      rw [missing]
      exact not_mem_nil
    simpa [member] using absent
  · simp at failed

theorem PutRecoveryProfile_ok {p : Incident.RecoveryProfile}
    (ok : t.PutRecoveryProfile p = .ok t') :
    ∃ rows, t' = { t with tables := { t.tables with recoveryProfiles := rows } } := by
  simp only [PutRecoveryProfile, bind_ok, pure_ok] at ok
  obtain ⟨-, -, rows, -, rfl⟩ := ok
  exact ⟨rows, rfl⟩

theorem PutHealthSample_ok [Platform] {s : HealthSample} (ok : t.PutHealthSample s = .ok t') :
    ∃ rows, t' = { t with tables := { t.tables with healthSamples := rows } } := by
  simp only [PutHealthSample, bind_ok] at ok
  obtain ⟨-, -, -, -, rest⟩ := ok
  split at rest
  · exact ⟨_, (pure_ok.mp rest).symm⟩
  · simp only [bind_ok, pure_ok] at rest
    obtain ⟨-, -, rfl⟩ := rest
    exact ⟨_, rfl⟩

theorem PutCoverage_ok {a : Agent} {coverage : Coverage} {observedAt : Time}
    (ok : t.PutCoverage a coverage observedAt = .ok t') :
    ∃ rows, t' = { t with tables := { t.tables with collectionCoverage := rows } } := by
  simp only [PutCoverage, bind_ok, pure_ok] at ok
  obtain ⟨-, -, -, -, rfl⟩ := ok
  exact ⟨_, rfl⟩

theorem PutCollectionCheck_ok {c : CollectionCheck} (ok : t.PutCollectionCheck c = .ok t') :
    ∃ rows, t' = { t with tables := { t.tables with collectionChecks := rows } } := by
  simp only [PutCollectionCheck, bind_ok, pure_ok] at ok
  obtain ⟨-, -, -, -, rows, -, -, -, rfl⟩ := ok
  exact ⟨rows, rfl⟩

theorem FulfillCollectionChecks_ok {a : Agent} {handle : Text} {fulfilled : Time}
    (ok : t.FulfillCollectionChecks a handle fulfilled = .ok t') :
    ∃ rows, t' = { t with tables := { t.tables with collectionChecks := rows } } := by
  simp only [FulfillCollectionChecks, bind_ok, pure_ok] at ok
  obtain ⟨-, -, rfl⟩ := ok
  exact ⟨_, rfl⟩

theorem PutAdjudication_ok [Platform] {a : Adjudication} (ok : t.PutAdjudication a = .ok t') :
    ∃ rows, t' = { t with tables := { t.tables with adjudications := rows } } := by
  simp only [PutAdjudication, bind_ok, pure_ok] at ok
  obtain ⟨-, -, -, -, rows, -, -, -, rfl⟩ := ok
  exact ⟨rows, rfl⟩

end Tx

end Sre.Storage
