/- GID: Sre/Investigation/Rubric
   digest: The snapshot of current evidence, and the deterministic citation rubric. -/

import Sre.Fleet
import Sre.Storage.Lineage
import Sre.Investigation.Types

set_option autoImplicit false

namespace Sre.Investigation

open Foundation.Json Foundation.Outcome
open Identity Incident Privacy Storage

structure EvidenceSnapshot where
  ref : ItemRef
  observation : Observation
  deriving DecidableEq

/-- Environments and clarifications come from tables of their own. -/
structure Snapshot (E C : Type) where
  evidence : List EvidenceSnapshot
  parents : List ItemRef
  validUntil : Time
  environment : Option E
  clarifications : List C
  deriving DecidableEq

structure Gathered where
  evidence : List EvidenceSnapshot
  parents : List ItemRef
  validUntil : Time

section Reading

variable [Platform] {E C : Type}

def strictDecode (raw : Text) : Option Observation :=
  match CanonicalObject raw with
  | .error _ => none
  | .ok _ => (parse raw).bind (decodeObservation true)

/-- The source of an observation is the agent's present credential. -/
def sourceCurrent (authorityEpoch : Text) (t : Tx) (now : Time) (o : Observation) :
    Except Error Bool :=
  if authorityEpoch = [] then .ok true
  else
    match o.source with
    | none => .ok false
    | some source =>
      if source.epoch ≠ authorityEpoch then .ok false
      else do
        let agent ← t.AgentByID source.agentID
        return decide (agent.revoked = false ∧ agent.epoch = authorityEpoch ∧
          agent.generation = source.generation ∧ now < agent.expiresAt)

def addEvidence (authorityEpoch : Text) (t : Tx) (now : Time) (s : Gathered) (item : Item) :
    Except Error Gathered :=
  if item.kind ≠ .evidence then .ok s
  else do
    let eligible ← t.Eligible item.ref now
    if eligible = false then return s
    else
      match strictDecode item.body with
      | none => .error .invalid
      | some o => do
        require o.validate .invalid
        let current ← sourceCurrent authorityEpoch t now o
        if current = false ∨ now < o.observedAt ∨ o.validUntil ≤ now then return s
        else do
          require (decide (s.evidence.length < 64)) .busy
          return ⟨s.evidence ++ [⟨item.ref, o⟩], s.parents ++ [item.ref],
            min (min s.validUntil item.validUntil) o.validUntil⟩

/-- A scope need not have an environment. -/
def optionalContext : Except Error E → Except Error (Option E)
  | .ok e => .ok (some e)
  | .error .notFound => .ok none
  | .error e => .error e

def readSnapshot (authorityEpoch : Text) (t : Tx) (environment : Except Error E)
    (clarifications : Except Error (List C)) (incidentID : Text) (now : Time) :
    Except Error (Snapshot E C) :=
  transact t fun t => do
    let _ ← t.Incident incidentID
    let environment ← optionalContext environment
    let answers ← clarifications
    let items ← t.CurrentEvidence incidentID now 100
    require (decide (items.length ≠ 100)) .busy
    let found ← items.foldlM (addEvidence authorityEpoch t now) ⟨[], [], now + 5 * minute⟩
    return ⟨found.evidence, found.parents, found.validUntil, environment, answers⟩

end Reading

/-- The observation that a candidate asks about, as if it were made now. -/
def probe (cause : Code) (handle : Text) (now : Time) : Observation :=
  ⟨none, none, cause, handle, [], [], now, now + minute⟩

/-- A requested check names a supported kind and an observed resource. -/
def checkOk (evidence : List EvidenceSnapshot) (check : Check) : Bool :=
  ValidHandle check.resourceHandle && decide (check.kind ∈ CheckKind.named) &&
    evidence.any fun e => decide (e.observation.resourceHandle = check.resourceHandle)

def assign (m : List (ItemRef × Observation)) (ref : ItemRef) (o : Observation) :
    List (ItemRef × Observation) :=
  m.filter (fun e => e.1 ≠ ref) ++ [(ref, o)]

/-- The fresh observations by reference: a later one replaces an earlier one. -/
def observationsByRef (evidence : List EvidenceSnapshot) (now : Time) :
    List (ItemRef × Observation) :=
  (evidence.filter fun e => e.observation.freshAt now).foldl
    (fun m e => assign m e.ref e.observation) []

def cited (byRef : List (ItemRef × Observation)) (ref : ItemRef) : Bool :=
  (byRef.lookup ref).isSome

/-- Direct evidence shows the cause itself on the resource itself. -/
def directly (candidate : Conclusion) (byRef : List (ItemRef × Observation)) (ref : ItemRef) :
    Bool :=
  (byRef.lookup ref).any fun o =>
    decide (o.code = candidate.causeCode ∧ o.resourceHandle = candidate.resourceHandle)

def alternativeOk (candidate : Conclusion) (byRef : List (ItemRef × Observation)) (now : Time)
    (a : Alternative) : Bool :=
  (probe a.causeCode candidate.resourceHandle now).validate &&
    decide ((a.discriminatingEvidence.getD []).length ≤ 32) &&
    (a.discriminatingEvidence.getD []).all (cited byRef)

/-- Status and reason of a candidate whose citations hold. -/
def grade (candidate : Conclusion) (byRef : List (ItemRef × Observation)) : Status × ReasonCode :=
  if byRef.any (fun e => decide (e.2.resourceHandle = candidate.resourceHandle ∧
      e.2.code = .healthy ∧ candidate.causeCode ≠ .healthy)) then
    (.inconclusive, .observedHealthContradiction)
  else if candidate.contradictingEvidence.getD [] ≠ [] then
    (.inconclusive, .materialContradiction)
  else if !(candidate.supportingEvidence.getD []).any (directly candidate byRef) then
    (.needsEvidence, .missingDirectEvidence)
  else
    match candidate.causeCode with
    | .crashLoop | .podFailed | .dependencyUnavailable =>
      (.needsEvidence, .symptomRequiresUpstreamEvidence)
    | .readUnavailable | .healthy | .unclassified => (.needsEvidence, .missingDirectEvidence)
    | _ => (.hypothesis, .independentCausalReviewRequired)

def verdict (candidate : Conclusion) (byRef : List (ItemRef × Observation)) : Assessment :=
  ⟨(grade candidate byRef).1, (grade candidate byRef).2, candidate⟩

def AssessCandidate (candidate : Conclusion) (evidence : List EvidenceSnapshot) (now : Time) :
    Except Error Assessment := do
  require (probe candidate.causeCode candidate.resourceHandle now).validate .invalidConclusion
  require (ValidHandle candidate.resourceHandle &&
    decide ((candidate.supportingEvidence.getD []).length ≤ 32 ∧
      (candidate.contradictingEvidence.getD []).length ≤ 32 ∧
      (candidate.alternatives.getD []).length ≤ 8)) .invalidConclusion
  require (decide ((candidate.requestedChecks.getD []).length ≤ 2)) .invalidConclusion
  require ((candidate.requestedChecks.getD []).all (checkOk evidence)) .invalidConclusion
  let byRef := observationsByRef evidence now
  require ((candidate.supportingEvidence.getD []).all (cited byRef)) .invalidConclusion
  require ((candidate.contradictingEvidence.getD []).all (cited byRef)) .invalidConclusion
  require ((candidate.alternatives.getD []).all (alternativeOk candidate byRef now))
    .invalidConclusion
  return verdict candidate byRef

variable {now : Time}

theorem probe_validate {cause : Code} {handle : Text} (set : now ≠ 0) :
    (probe cause handle now).validate = (cause.known && ValidHandle handle) := by
  have later : now < now + minute ∧ minute ≤ 60 * minute := by
    unfold minute second
    lia
  cases cause <;> simp [probe, Observation.validate, Code.known, set, later]

/-- What a candidate must satisfy for a verdict. -/
structure Admissible (candidate : Conclusion) (evidence : List EvidenceSnapshot) (now : Time) :
    Prop where
  known : candidate.causeCode.known = true
  set : now ≠ 0
  checks : ∀ c ∈ candidate.requestedChecks.getD [], checkOk evidence c = true
  alternatives : ∀ a ∈ candidate.alternatives.getD [], a.causeCode.known = true

variable {candidate : Conclusion} {evidence : List EvidenceSnapshot}

theorem AssessCandidate_ok {a : Assessment} (ok : AssessCandidate candidate evidence now = .ok a) :
    Admissible candidate evidence now ∧ a = verdict candidate (observationsByRef evidence now) := by
  simp only [AssessCandidate, bind_ok, require_ok, pure_ok, List.all_eq_true] at ok
  obtain ⟨-, valid, -, -, -, -, -, checks, -, -, -, -, -, alternatives, rfl⟩ := ok
  refine ⟨⟨Observation.known_of_validate valid, ?_, checks, fun alternative member => ?_⟩, rfl⟩
  · rintro rfl
    simp [probe, Observation.validate] at valid
  · have allowed := alternatives alternative member
    simp only [alternativeOk, Bool.and_eq_true] at allowed
    exact Observation.known_of_validate allowed.1.1

theorem grade_named (candidate : Conclusion) (byRef : List (ItemRef × Observation)) :
    (grade candidate byRef).1 ∈ [Status.hypothesis, .inconclusive, .needsEvidence] ∧
      (grade candidate byRef).2 ∈ ReasonCode.named := by
  unfold grade
  split
  · decide
  · split
    · decide
    · split
      · decide
      · split <;> decide

theorem observationsByRef_congr {later : Time}
    (steady : ∀ e ∈ evidence, e.observation.freshAt now = e.observation.freshAt later) :
    observationsByRef evidence now = observationsByRef evidence later := by
  rw [observationsByRef, List.filter_congr steady, observationsByRef]

theorem AssessCandidate_congr {later : Time} (set : now ≠ 0) (set' : later ≠ 0)
    (steady : ∀ e ∈ evidence, e.observation.freshAt now = e.observation.freshAt later) :
    AssessCandidate candidate evidence later = AssessCandidate candidate evidence now := by
  have alternatives (byRef : List (ItemRef × Observation)) :
      alternativeOk candidate byRef later = alternativeOk candidate byRef now := by
    funext a
    simp only [alternativeOk, probe_validate set, probe_validate set']
  simp only [AssessCandidate, probe_validate set, probe_validate set', alternatives,
    observationsByRef_congr steady]

theorem returnedSlice_getD {α : Type} (items : Option (List α)) :
    (Value.returnedSlice items).getD [] = items.getD [] := by
  match items with
  | none => rfl
  | some [] => rfl
  | some (_ :: _) => rfl

theorem AssessCandidate_returned {a : Assessment}
    (ok : AssessCandidate candidate evidence now = .ok a) :
    AssessCandidate candidate.returned evidence now =
      .ok { a with conclusion := candidate.returned } := by
  simp only [AssessCandidate, bind_ok, require_ok, pure_ok] at ok ⊢
  obtain ⟨-, probed, -, header, -, count, -, checks, -, supported, -, contradicted, -,
    alternatives, rfl⟩ := ok
  rw [← returnedSlice_getD candidate.requestedChecks] at count checks
  exact ⟨(), probed, (), header, (), count, (), checks, (), supported, (), contradicted, (),
    alternatives, rfl⟩

end Sre.Investigation
