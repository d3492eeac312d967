/- GID: Sre/Knowledge
   digest: Golden cases: candidates, their fixed evaluation, publication, retirement and retrieval. -/

import Sre.Investigation.Types
import Sre.Storage.Frame
import Sre.Storage.Lineage

set_option autoImplicit false

namespace Sre.Storage

open Foundation.Outcome Identity Incident List

def latestCases (rows : List GoldenCase) : List GoldenCase :=
  ((rows.map fun g => g.id).dedup.insertionSort (· ≤ ·)).filterMap fun id =>
    newest GoldenCase.version (rows.filter fun g => g.id = id)

def Tx.GoldenCases (t : Tx) (afterID : Text) (limit : ℕ) :
    Except Error (List Incident.GoldenCase) := do
  require ((decide (afterID = []) || ValidID afterID) && decide (1 ≤ limit ∧ limit ≤ 100)) .invalid
  return (latestCases (t.tables.goldenCases.filter fun g => decide (afterID < g.id))).take limit

theorem Tx.GoldenCases_ok {t : Tx} {afterID : Text} {limit : ℕ}
    {cases : List Incident.GoldenCase} (ok : t.GoldenCases afterID limit = .ok cases)
    {g : Incident.GoldenCase} (member : g ∈ cases) :
    g ∈ t.tables.goldenCases ∧ ∀ g' ∈ t.tables.goldenCases, g'.id = g.id → g'.version ≤ g.version := by
  simp only [GoldenCases, bind_ok, pure_ok] at ok
  obtain ⟨-, -, rfl⟩ := ok
  have listed := mem_of_mem_take member
  simp only [latestCases, mem_filterMap] at listed
  obtain ⟨id, -, found⟩ := listed
  have inside := mem_filter.mp (newest_mem found)
  have named : g.id = id := by simpa using inside.2
  have stored := mem_filter.mp inside.1
  refine ⟨stored.1, fun g' member' same => ?_⟩
  have later : g' ∈ (t.tables.goldenCases.filter fun g => decide (afterID < g.id)).filter
      fun g => g.id = id := by
    simp only [mem_filter, decide_eq_true_eq]
    exact ⟨⟨member', by rw [same]; simpa using stored.2⟩, same.trans named⟩
  obtain ⟨best, chosen, le⟩ := @newest_le _ Incident.GoldenCase.version _ _ later
  rw [found] at chosen
  exact Option.some.inj chosen ▸ le

end Sre.Storage

namespace Sre.Knowledge

open Foundation.Json Foundation.Outcome Identity Authorization Incident Privacy Storage
open List
open Investigation (RunResult readRunResult)

structure CandidateRequest where
  claim : ItemRef
  claimHash : Text
  recoveryID : Text

def EvaluationVersion : Text := "golden-guidance-eval/v1"

def Suggest (g : GoldenCase) (observations : List Observation) (now : Time) : Bool :=
  SuggestCause g.causeCode observations now

/-- The first instant of 2026. -/
def evaluationTime : Time := 63902822400 * second

/-- The fixed and the held-out cases, each with the suggestion it must give. -/
def evaluationCases (cause : Code) : List (List Observation × Bool) :=
  let now := evaluationTime
  let o : Observation :=
    ⟨none, none, cause, List.replicate 32 'a', [], [], now, now + minute⟩
  let healthy := { o with code := .healthy }
  let stale := { o with validUntil := now, observedAt := now - minute }
  let future := { o with observedAt := now + second, validUntil := now + minute }
  let unrelated := { o with code := .dependencyUnavailable }
  let invalid := { o with resourceHandle := "customer-secret" }
  [([o], true), ([], false), ([unrelated], false), ([o, healthy], false), ([stale], false),
    ([future], false), ([invalid], false), ([unrelated, o], true)]

def Evaluate (g : GoldenCase) : KnowledgeEvaluation :=
  let cases := evaluationCases g.causeCode
  let passed := cases.countP fun c => Suggest g c.1 evaluationTime = c.2
  ⟨EvaluationVersion, 4, 4, passed, decide (passed = cases.length)⟩

/-- The loop over the evidence of an assessment stops at the first that is not eligible. -/
def allHistorical (t : Tx) : List ItemRef → Except Error Bool
  | [] => .ok true
  | ref :: refs => do
    let ok ← t.HistoricalEligible ref
    if ok = false then return false else allHistorical t refs

/-- The assessment of a case still supports it. -/
def recoveryEligible (t : Tx) (g : GoldenCase) : Except Error Bool := do
  let a ← t.RecoveryAssessment g.recoveryID
  if a.incidentID ≠ g.incidentID ∨ a.status ≠ .recovered ∨ a.evidence.length < 3 then return false
  else allHistorical t a.evidence

variable [Platform]

def EligibleTx (t : Tx) (g : GoldenCase) : Except Error Bool := do
  let ok ← t.HistoricalEligible g.claim
  if ok = false then return false
  else do
    let claim ← t.Item g.claim
    if claim.hash ≠ g.claimHash then return false else recoveryEligible t g

def corroboratedBody (body : Text) : Option RunResult := do
  let v ← parse body
  let run ← readRunResult false v
  let steward ← Value.decodeText (v.fieldMember "steward_id")
  guard (steward ≠ [] ∧ run.assessment.status = .corroborated)
  return run

def requireEligible (t : Tx) (g : GoldenCase) : Except Error Unit := do
  let ok ← EligibleTx t g
  require ok .conflict

def Candidate (policy : Policy) (t : Tx) (now : Time) (p : Principal) (r : CandidateRequest)
    (id : Text) : Except Error (GoldenCase × Tx) := do
  policy.authorize p t.scope .reviewKnowledge now
  transact t fun t => do
    let claim ← t.Item r.claim
    require (decide (claim.kind = .claim ∧ claim.hash = r.claimHash)) .conflict
    match corroboratedBody claim.body with
    | none => .error .invalid
    | some run => do
      let a ← t.RecoveryAssessment r.recoveryID
      require (decide (a.incidentID = claim.incidentID ∧ a.status = .recovered ∧
        3 ≤ a.evidence.length)) .conflict
      let g : GoldenCase := ⟨id, 1, .candidate, claim.incidentID, r.claim, claim.hash,
        r.recoveryID, run.assessment.conclusion.causeCode, p.id, [], now, 0, ⟨[], 0, 0, 0, false⟩⟩
      requireEligible t g
      let t ← t.PutGoldenCase g
      return (g, t)

/-- The version that a review publishes. -/
def published (g : GoldenCase) (p : Principal) (now : Time) : GoldenCase :=
  { g with
    evaluation := Evaluate g
    version := g.version + 1
    state := .active
    reviewedBy := p.id
    publishedAt := now }

/-- `eventKey` and `eventID` are the generated key and outbox row of the event. -/
def Publish (policy : Policy) (t : Tx) (now : Time) (p : Principal) (id : Text) (version : ℤ)
    (eventKey eventID : Text) : Except Error (GoldenCase × Tx) := do
  policy.authorize p t.scope .reviewKnowledge now
  transact t fun t => do
    let g ← t.GoldenCase id
    require (decide (g.version = version ∧ g.state = .candidate ∧ g.createdBy ≠ p.id)) .conflict
    requireEligible t g
    require (Evaluate g).approved .conflict
    let t ← t.PutGoldenCase (published g p now)
    let t ← t.Enqueue eventID eventKey .knowledgePublished
      (stringMap [("case_id", g.id), ("incident_id", g.incidentID)])
    return (published g p now, t)

def retired (g : GoldenCase) (p : Principal) : GoldenCase :=
  { g with version := g.version + 1, state := .retired, reviewedBy := p.id }

def Retire (policy : Policy) (t : Tx) (now : Time) (p : Principal) (id : Text) (version : ℤ) :
    Except Error (GoldenCase × Tx) := do
  policy.authorize p t.scope .reviewKnowledge now
  transact t fun t => do
    let g ← t.GoldenCase id
    require (decide (g.version = version ∧ g.state ≠ .retired)) .conflict
    let t ← t.PutGoldenCase (retired g p)
    return (retired g p, t)

def scanCases (t : Tx) : List GoldenCase → List GoldenCase → Except Error (Bool × List GoldenCase)
  | [], found => .ok (false, found)
  | g :: rest, found =>
    if g.state ≠ .active then scanCases t rest found
    else do
      let ok ← EligibleTx t g
      if ok = false then scanCases t rest found
      else if found.length + 1 = 16 then return (true, found ++ [g])
      else scanCases t rest (found ++ [g])

/-- The pages from an identifier on, while some are left. -/
def retrieveFrom (t : Tx) : ℕ → Text → List GoldenCase → Except Error (List GoldenCase)
  | 0, _, _ => .error .unavailable
  | pages + 1, afterID, found => do
    let cases ← t.GoldenCases afterID 100
    let (full, found) ← scanCases t cases found
    if full then return found
    else
      match cases.getLast? with
      | none => return found
      | some last => if cases.length < 100 then return found else retrieveFrom t pages last.id found

def Retrieve (policy : Policy) (t : Tx) (now : Time) (p : Principal) :
    Except Error (List GoldenCase) := do
  policy.authorize p t.scope .read now
  transact t fun t => retrieveFrom t 100 [] []

def PublishedEligibleTx (t : Tx) (g : GoldenCase) : Except Error Bool := do
  let current ← t.GoldenCase g.id
  if current.version ≠ g.version ∨ current.state ≠ .active then return false
  else EligibleTx t current

/-! ## What the operations do -/

/-- The claim and the evidence of a recovered assessment are historically eligible. -/
def Supported (t : Tx) (g : GoldenCase) : Prop :=
  t.HistoricalEligible g.claim = .ok true ∧
    ∃ a, t.RecoveryAssessment g.recoveryID = .ok a ∧ a.status = .recovered ∧
      ∀ ref ∈ a.evidence, t.HistoricalEligible ref = .ok true

variable {t t' : Tx} {g : GoldenCase} {id eventID eventKey : Text} {now : Time} {p : Principal}
  {policy : Policy} {version : ℤ}

omit [Platform] in
private theorem allHistorical_ok {refs : List ItemRef} (ok : allHistorical t refs = .ok true) :
    ∀ ref ∈ refs, t.HistoricalEligible ref = .ok true := by
  induction refs with
  | nil => simp
  | cons head refs ih =>
    simp only [allHistorical, bind_ok] at ok
    simp_all

theorem EligibleTx_ok (ok : EligibleTx t g = .ok true) : Supported t g := by
  simp only [EligibleTx, bind_ok] at ok
  obtain ⟨eligible, claim, rest⟩ := ok
  cases eligible with
  | false => simp [pure, Except.pure] at rest
  | true =>
    simp only [Bool.true_eq_false, ↓reduceIte, bind_ok] at rest
    obtain ⟨item, -, rest⟩ := rest
    split at rest
    · simp [pure, Except.pure] at rest
    · simp only [recoveryEligible, bind_ok] at rest
      obtain ⟨a, found, rest⟩ := rest
      split at rest
      · simp [pure, Except.pure] at rest
      · rename_i sound
        simp only [not_or, not_not] at sound
        exact ⟨claim, a, found, sound.2.1, allHistorical_ok rest⟩

private theorem requireEligible_ok {u : Unit} (ok : requireEligible t g = .ok u) :
    Supported t g := by
  simp only [requireEligible, bind_ok, require_ok] at ok
  obtain ⟨eligible, found, rfl⟩ := ok
  exact EligibleTx_ok found

theorem Candidate_ok {r : CandidateRequest} (ok : Candidate policy t now p r id = .ok (g, t')) :
    g.version = 1 ∧ g.state = .candidate ∧ t.PutGoldenCase g = .ok t' := by
  simp only [Candidate, bind_ok, transact_ok] at ok
  obtain ⟨-, -, -, claim, -, -, -, rest⟩ := ok
  cases body : corroboratedBody claim.body with
  | none => simp [body] at rest
  | some run =>
    simp only [body, bind_ok, pure_ok] at rest
    grind

theorem Publish_ok (ok : Publish policy t now p id version eventKey eventID = .ok (g, t')) :
    ∃ old u payload, t.GoldenCase id = .ok old ∧ old.state = .candidate ∧ old.createdBy ≠ p.id ∧
      Supported t old ∧ (Evaluate old).approved = true ∧ g = published old p now ∧
      t.PutGoldenCase g = .ok u ∧ u.Enqueue eventID eventKey .knowledgePublished payload = .ok t' := by
  simp only [Publish, bind_ok, transact_ok, require_ok, decide_eq_true_eq, pure_ok,
    Prod.mk.injEq] at ok
  obtain ⟨-, -, -, old, found, -, ⟨-, state, creator⟩, ⟨⟩, eligible, -, approved, u, put, v, queued,
    rfl, rfl⟩ := ok
  exact ⟨old, u, _, found, state, creator, requireEligible_ok eligible, approved, rfl, put, queued⟩

theorem Publish_writes (ok : Publish policy t now p id version eventKey eventID = .ok (g, t')) :
    Tx.Writes [.goldenCases, .outbox] [.knowledgePublished] t t' := by
  obtain ⟨old, u, payload, -, -, -, -, -, -, put, queued⟩ := Publish_ok ok
  exact ((Tx.PutGoldenCase_writes put).mono (by decide)).trans
    ((Tx.Enqueue_writes queued).mono (by decide))

omit [Platform] in
theorem Retire_ok (ok : Retire policy t now p id version = .ok (g, t')) :
    ∃ old, t.GoldenCase id = .ok old ∧ old.state ≠ .retired ∧ g = retired old p ∧
      t.PutGoldenCase g = .ok t' := by
  simp only [Retire, bind_ok, transact_ok, require_ok, decide_eq_true_eq, pure_ok,
    Prod.mk.injEq] at ok
  obtain ⟨-, -, -, old, found, -, ⟨-, state⟩, u, put, rfl, rfl⟩ := ok
  exact ⟨old, found, state, rfl, put⟩

/-- At most 16 cases, each the newest version of its identifier, active and supported. -/
structure Guides (t : Tx) (found : List GoldenCase) : Prop where
  bounded : found.length ≤ 16
  active : ∀ g ∈ found, g.state = .active
  newest : ∀ g ∈ found, g ∈ t.tables.goldenCases ∧
    ∀ g' ∈ t.tables.goldenCases, g'.id = g.id → g'.version ≤ g.version
  supported : ∀ g ∈ found, Supported t g

variable {found cases out : List GoldenCase}

omit [Platform] in
private theorem Guides.add (guides : Guides t found) (room : found.length < 16)
    (active : g.state = .active)
    (newest : g ∈ t.tables.goldenCases ∧
      ∀ g' ∈ t.tables.goldenCases, g'.id = g.id → g'.version ≤ g.version)
    (supported : Supported t g) : Guides t (found ++ [g]) := by
  refine ⟨by simpa using room, fun g' member => ?_, fun g' member => ?_, fun g' member => ?_⟩ <;>
    rcases mem_append.mp member with member | member
  · exact guides.active g' member
  · exact mem_singleton.mp member ▸ active
  · exact guides.newest g' member
  · exact mem_singleton.mp member ▸ newest
  · exact guides.supported g' member
  · exact mem_singleton.mp member ▸ supported

private theorem scanCases_ok {full : Bool}
    (newest : ∀ g ∈ cases, g ∈ t.tables.goldenCases ∧
      ∀ g' ∈ t.tables.goldenCases, g'.id = g.id → g'.version ≤ g.version) (guides : Guides t found)
    (room : found.length < 16) (ok : scanCases t cases found = .ok (full, out)) :
    Guides t out ∧ (full = false → out.length < 16) := by
  induction cases generalizing found with
  | nil =>
    obtain ⟨rfl, rfl⟩ := Prod.mk.inj (Except.ok.inj ok)
    exact ⟨guides, fun _ => room⟩
  | cons g rest ih =>
    have others := fun g' member => newest g' (mem_cons_of_mem g member)
    unfold scanCases at ok
    split at ok
    · exact ih others guides room ok
    · rename_i active
      simp only [bind_ok] at ok
      obtain ⟨eligible, checked, rest⟩ := ok
      split at rest
      · exact ih others guides room rest
      · rename_i yes
        rw [Bool.not_eq_false] at yes
        subst yes
        have more := guides.add room (not_not.mp active) (newest g mem_cons_self)
          (EligibleTx_ok checked)
        split at rest
        · obtain ⟨rfl, rfl⟩ := Prod.mk.inj (pure_ok.mp rest)
          exact ⟨more, by simp⟩
        · exact ih others more (by rw [length_append, length_singleton]; omega) rest

theorem retrieveFrom_ok {pages : ℕ} {afterID : Text} (guides : Guides t found)
    (room : found.length < 16) (ok : retrieveFrom t pages afterID found = .ok out) :
    Guides t out := by
  induction pages generalizing afterID found with
  | zero => simp [retrieveFrom] at ok
  | succ pages ih =>
    simp only [retrieveFrom, bind_ok] at ok
    obtain ⟨cases, listed, ⟨full, more⟩, scanned, rest⟩ := ok
    obtain ⟨guides', room'⟩ :=
      scanCases_ok (fun g member => Tx.GoldenCases_ok listed member) guides room scanned
    cases full with
    | true => exact pure_ok.mp rest ▸ guides'
    | false =>
      simp only [Bool.false_eq_true, ↓reduceIte] at rest
      split at rest
      · exact pure_ok.mp rest ▸ guides'
      · split at rest
        · exact pure_ok.mp rest ▸ guides'
        · exact ih guides' (room' rfl) rest

theorem Retrieve_ok (ok : Retrieve policy t now p = .ok cases) : Guides t cases := by
  simp only [Retrieve, bind_ok, transact_ok] at ok
  obtain ⟨-, -, -, retrieved⟩ := ok
  exact retrieveFrom_ok ⟨by simp, by simp, by simp, by simp⟩ (by simp) retrieved

end Sre.Knowledge
